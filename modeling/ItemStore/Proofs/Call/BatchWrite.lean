import Mathlib.Algebra.Order.Group.Multiset
import ItemStore.Proofs.Store.Chunks
import ItemStore.Proofs.Store.Slices
import ItemStore.Store.Calls

/-!
# Batches of writes lose nothing and repeat nothing

A batch of writes is cut into slices, and what a response leaves open of a slice is submitted again.
As long as a provider leaves open only what it was asked for, the writes that it took in the end are
the writes of the batch, each as often as it stands there.

Every submission that is answered takes what it asks for less what the response leaves open, and
what is left open is what the next submission asks for, so the two cancel along a course
(`sum_accepted`).  Writes are compared through a `view`, which may be the identity or may pass over
the order of what is in a set.

The slices are sent one after another, but nothing here depends on it: a response may come out of
any state of the provider, whatever happened to it since the request before, so what holds of the
requests for a slice holds also if those for other slices come in between.

* `chunks_of_compile`: the first requests of a batch are its slices.
* `batchWrite_conserves` has all of it in one statement.
-/

namespace ItemStore

/-! ## Writes and their tables -/

section Tagged

variable {α β : Type} (view : α → β)

/-- What stands in the lists of a collection, each with its key and seen through a view. -/
def Keyed.tagged (c : Keyed (List α)) : Multiset (String × β) :=
  c.entries.flatMap fun e => e.2.map fun x => (e.1, view x)

theorem Keyed.card_tagged (c : Keyed (List α)) :
    (c.tagged view).card = c.values.flatten.length := by
  simp [tagged, values, List.length_flatMap, List.length_flatten, Function.comp_def]

theorem Keyed.tagged_singleton (key : String) (xs : List α) :
    (Keyed.singleton key xs).tagged view = (xs.map fun x => (key, view x) : List _) := by
  show ((([(key, xs)] : List (String × List α)).flatMap fun e => e.2.map fun x => (e.1, view x) :
    List _) : Multiset (String × β)) = _
  simp

/-- Keeping some of every list keeps some of everything. -/
theorem Keyed.tagged_mapWithKey_le (c : Keyed (List α)) {f : String → List α → List α}
    (hf : ∀ key xs, (f key xs).Sublist xs) : (c.mapWithKey f).tagged view ≤ c.tagged view := by
  refine Multiset.coe_le.2 (List.Sublist.subperm ?_)
  show ((c.entries.map fun e => (e.1, f e.1 e.2)).flatMap fun e => _).Sublist _
  induction c.entries with
  | nil => exact .slnil
  | cons e es ih => exact ((hf e.1 e.2).map _).append ih

end Tagged

/-- The writes that a provider took in an attempt: those that were sent, less those that the
response leaves open. -/
def Attempt.accepted {β : Type} [DecidableEq β] (view : WriteRequest → β) :
    Attempt → Multiset (String × β)
  | ⟨.batchWriteItem, request, .ok response⟩ =>
    request.tables.tagged view - response.unprocessed.tagged view
  | _ => 0

/-- A provider leaves open only writes that it was asked for, each no more often than it was. -/
def Provider.LeavesParts {σ β : Type} (provider : Provider σ) (view : WriteRequest → β) : Prop :=
  ∀ (request : BatchWriteRequest) state (response : BatchWriteResponse),
    (provider .batchWriteItem request state).1.outcome = .ok response →
      response.unprocessed.tagged view ≤ request.tables.tagged view

/-! ## Cutting -/

namespace Call.BatchWrite

/-- The request for some of the writes of a batch. -/
def chunk (b : BatchWrite) (writes : List WriteRequest) : BatchWriteRequest where
  tables := .singleton b.table writes
  returnCapacity := b.returnCapacity
  returnMetrics := b.returnMetrics

/-- The writes of a batch, as they are sent. -/
def requests (b : BatchWrite) : List WriteRequest := b.writes.map Write.request

/-- A put is sent with its item alone, and a delete with its key alone. -/
theorem map_requests {γ : Type} (b : BatchWrite) (f : WriteRequest → γ) :
    b.requests.map f = b.writes.map fun
      | .put item => f { put := some item }
      | .delete key => f { delete := some key } := by
  rw [requests, List.map_map]
  exact List.map_congr_left fun w _ => by cases w <;> rfl

theorem requests_eq (b : BatchWrite) : b.requests = b.writes.map fun
    | .put item => { put := some item }
    | .delete key => { delete := some key } :=
  (List.map_id b.requests).symm.trans (b.map_requests id)

theorem entries_chunk (b : BatchWrite) (writes : List WriteRequest) :
    BatchKind.writes.entries (b.chunk writes) = writes.length := by
  show ([writes] : List (List WriteRequest)).flatten.length = writes.length
  simp

theorem chunks_of_compile {b : BatchWrite} {batch : BatchWriteRequest}
    (h : b.compile = .ok batch) :
    BatchKind.writes.chunks batch = (chunksOf BatchKind.mostWrites b.requests).map b.chunk := by
  obtain ⟨-, -, h⟩ := bind_eq_ok.1 h
  cases h
  by_cases hwrites : b.writes = []
  · simp [BatchKind.writes, tables, requests, hwrites, chunksOf, ceilDiv, BatchKind.mostWrites,
      Keyed.empty]
  · have htables : b.tables.entries = [(b.table, b.requests)] := by
      rw [tables, if_neg (by simpa using hwrites)]
      rfl
    show (b.tables.entries.flatMap fun e => _) = _
    rw [htables, List.flatMap_singleton]
    rfl

end Call.BatchWrite

namespace Store

variable {σ β : Type} {store : Store σ} {view : WriteRequest → β}

/-! ## Courses of writes -/

section Courses

variable {n pauses : Nat} {request : BatchWriteRequest} {xs : List (Submission .batchWriteItem)}

/-- What is left open of a request is no more than the request. -/
theorem entries_remainder_le (honest : store.provider.LeavesParts view) {r : BatchWriteRequest}
    {state : σ} {p : BatchWriteResponse}
    (hp : (store.provider .batchWriteItem r state).1.outcome = .ok p) :
    BatchKind.writes.entries (BatchKind.writes.remainder r p) ≤ BatchKind.writes.entries r := by
  have hcard := Multiset.card_le_card (honest r state p hp)
  rwa [Keyed.card_tagged, Keyed.card_tagged] at hcard

variable [DecidableEq β]

/-- An attempt that failed took nothing. -/
theorem sum_accepted_failures (x : Submission .batchWriteItem) (failures : List StoreError) :
    ((failures.map fun e => x.attempt (.error e)).map (Attempt.accepted view)).sum = 0 := by
  induction failures with
  | nil => rfl
  | cons e failures ih =>
    rw [List.map_cons, List.map_cons, List.sum_cons, ih]
    rfl

/-- Of the attempts of a submission only an answered one, the last, takes any writes. -/
theorem sum_accepted_attempts (x : Submission .batchWriteItem) {p : BatchWriteResponse}
    (hx : x.outcome = .ok p) :
    (x.attempts.map (Attempt.accepted view)).sum =
      (x.request : BatchWriteRequest).tables.tagged view - p.unprocessed.tagged view := by
  rw [Submission.attempts, List.map_append, List.sum_append, sum_accepted_failures, zero_add, hx]
  simp [Submission.attempt, Attempt.accepted]

/-- A course that comes to an end takes the writes of its first request.  The induction is on the
course: what a submission leaves open is what the rest of the course takes. -/
theorem sum_accepted (honest : store.provider.LeavesParts view)
    {ps : List BatchWriteResponse}
    (h : store.Submits BatchKind.writes n pauses request xs (.ok ps)) :
    ((xs.flatMap Submission.attempts).map (Attempt.accepted view)).sum =
      request.tables.tagged view := by
  refine h.induction_ok (motive := fun (request : BatchWriteRequest) xs _ =>
    ((xs.flatMap Submission.attempts).map (Attempt.accepted view)).sum =
      request.tables.tagged view) ?_ ?_
  · intro x (p : BatchWriteResponse) hsent hx hdone
    have hopen : p.unprocessed.tagged view = 0 := by
      rw [← Multiset.card_eq_zero, Keyed.card_tagged]
      exact hdone
    rw [List.flatMap_singleton, sum_accepted_attempts x hx, hopen, tsub_zero]
  · intro x (p : BatchWriteResponse) xs _ hsent hx hrest
    obtain ⟨state, hstate⟩ := hsent.answered p hx
    have hle := honest x.request state p hstate
    rw [List.flatMap_cons, List.map_append, List.sum_append, sum_accepted_attempts x hx, hrest]
    exact Multiset.sub_add_cancel hle

/-- Courses that come to an end take the writes of their chunks. -/
theorem sum_accepted_courses
    (honest : store.provider.LeavesParts view)
    {chunks : List BatchWriteRequest} {courses : List (List (Submission .batchWriteItem))}
    (h : List.Forall₂ (fun chunk xs => ∃ ps, store.Submits BatchKind.writes 1
      store.config.retry.pauses chunk xs (.ok ps)) chunks courses) :
    ((courses.flatten.flatMap Submission.attempts).map (Attempt.accepted view)).sum =
      (chunks.map fun chunk => chunk.tables.tagged view).sum := by
  induction h with
  | nil => rfl
  | cons hxs _ ih =>
    obtain ⟨ps, hps⟩ := hxs
    rw [List.flatten_cons, List.flatMap_append, List.map_append, List.sum_append,
      sum_accepted honest hps, ih, List.map_cons, List.sum_cons]

end Courses

/-- Putting responses together reports nothing as open. -/
theorem unprocessed_foldl_merge (merged : BatchWriteResponse) (ps : List BatchWriteResponse) :
    (ps.foldl BatchKind.writes.merge merged : BatchWriteResponse).unprocessed =
      merged.unprocessed := by
  induction ps generalizing merged with
  | nil => rfl
  | cons p ps ih => exact ih _

/-! ## Batches of writes -/

/-- The submissions for a chunk of writes: the first one is the chunk, and every later one has
exactly the writes that the response to the one before it left open, with the same settings. -/
def InTurn (chunk : BatchWriteRequest) (xs : List (Submission .batchWriteItem)) : Prop :=
  xs.head?.map Submission.request = some chunk ∧
    xs.IsChain fun x y => ∃ p : BatchWriteResponse, x.outcome = .ok p ∧
      y.request = ({ (x.request : BatchWriteRequest) with tables := p.unprocessed } :
        BatchWriteRequest)

theorem inTurn_of_submits {n pauses : Nat} {chunk : BatchWriteRequest}
    {xs : List (Submission .batchWriteItem)}
    {result : Except StoreError (List BatchWriteResponse)}
    (h : store.Submits BatchKind.writes n pauses chunk xs result) : InTurn chunk xs :=
  ⟨h.head, h.chain⟩

/-- The writes of the slices of a batch are those of the batch. -/
theorem sum_tagged_slices (b : Call.BatchWrite) (view : WriteRequest → β)
    (slices : List (List WriteRequest)) :
    ((slices.map b.chunk).map fun chunk => chunk.tables.tagged view).sum =
      (slices.flatten.map fun w => (b.table, view w) : List _) := by
  induction slices with
  | nil => rfl
  | cons slice slices ih =>
    rw [List.map_cons, List.map_cons, List.sum_cons, ih, List.flatten_cons, List.map_append,
      ← Multiset.coe_add]
    congr 1
    exact Keyed.tagged_singleton view b.table slice

/-- **A batch of writes neither loses nor repeats a write**, whatever the provider does as long as
every response leaves open a part of the writes that it answers.

The first requests are the slices of the batch, at most 25 writes each and no more of them than that
takes.  Every later request for a slice has exactly the writes that the response before it left
open, with the settings of the batch, so no request has more than 25 writes.  If the call succeeds
the provider took each write as often as it stands in the batch, a put with its item and a delete
with its key, and nothing is reported as open. -/
theorem batchWrite_conserves [DecidableEq β] (view : WriteRequest → β) (store : Store σ)
    (b : Call.BatchWrite) (s : Session σ) (honest : store.provider.LeavesParts view) :
    ∃ (slices : List (List WriteRequest)) (courses : List (List (Submission .batchWriteItem))),
      Slices 25 (b.writes.map fun
        | .put item => { put := some item }
        | .delete key => { delete := some key }) slices ∧
      (∀ batch, b.compile = .ok batch →
        BatchKind.writes.chunks batch = slices.map b.chunk) ∧
      (s.run (store.batchWrite b)).2.log =
        s.log ++ courses.flatten.flatMap Submission.attempts ∧
      List.Forall₂ InTurn ((slices.map b.chunk).take courses.length) courses ∧
      (∀ x ∈ courses.flatten, BatchKind.writes.entries x.request ≤ 25) ∧
      ∀ response, (s.run (store.batchWrite b)).1 = .ok response →
        courses.length = slices.length ∧
        ((courses.flatten.flatMap Submission.attempts).map (Attempt.accepted view)).sum =
          (b.writes.map fun
            | .put item => (b.table, view { put := some item })
            | .delete key => (b.table, view { delete := some key }) : List _) ∧
        response.unprocessed = .empty := by
  rw [← b.requests_eq, ← b.map_requests fun w => (b.table, view w)]
  have hslices : Slices 25 b.requests (chunksOf BatchKind.mostWrites b.requests) :=
    slices_chunksOf (by decide) b.requests
  cases hb : b.compile with
  | error e =>
    have hrun : s.run (store.batchWrite b) = (.error e, s) := by
      rw [batchWrite, Session.run_lift_bind, hb]
    refine ⟨_, [], hslices, by simp, ?_, by simp, by simp, ?_⟩
    · simp [hrun]
    · simp [hrun]
  | ok batch =>
    have hchunks := Call.BatchWrite.chunks_of_compile hb
    obtain ⟨courses, result, s', hall, hbatch, hlog⟩ := store.run_runBatch .writes batch s
    have hrun : s.run (store.batchWrite b) = s.run (store.runBatch .writes batch) := by
      rw [batchWrite, Session.run_lift_bind, hb]
    rw [hchunks] at hall
    rw [hrun, hbatch]
    refine ⟨_, courses, hslices, ?_, hlog, ?_, ?_, ?_⟩
    · rintro batch' hbatch'
      cases hbatch'
      exact hchunks
    · refine hall.courses.imp ?_
      rintro chunk xs ⟨result, h⟩
      exact inTurn_of_submits h
    · refine hall.requests (P := fun r => BatchKind.writes.entries r ≤ 25) ?_ ?_
      · intro r state p hp hle
        exact Nat.le_trans (entries_remainder_le honest hp) hle
      · intro chunk hchunk
        obtain ⟨slice, hslice, rfl⟩ := List.mem_map.1 hchunk
        rw [Call.BatchWrite.entries_chunk]
        exact hslices.bounded slice hslice
    · intro response hresponse
      obtain ⟨rs, rfl, rfl⟩ := map_eq_ok.1 hresponse
      have hdone := hall.done
      refine ⟨by simpa using hdone.length_eq.symm, ?_, unprocessed_foldl_merge _ rs⟩
      rw [sum_accepted_courses honest hdone, sum_tagged_slices, hslices.flatten]

/-- A provider that leaves the first write of every table open at first, then loses a request, and
takes everything from then on. -/
def hesitantWriter : Provider Nat
  | .batchWriteItem, request, 0 =>
    ({ outcome := .ok
        { unprocessed := (request : BatchWriteRequest).tables.mapWithKey fun _ writes =>
            writes.take 1 } }, 1)
  | .batchWriteItem, _, n + 1 =>
    ({ outcome := if n = 0 then .error (.transport "lost") else .ok ({} : BatchWriteResponse) },
      n + 2)
  | _, _, n => ({ outcome := .error (.transport "off") }, n)

/-- More writes than fit into one request. -/
def manyWrites : Call.BatchWrite where
  table := "t"
  writes := (List.range 27).map fun i => .put (.singleton "id" (.number (toString i)))

open scoped Classical in
theorem batchWrite_conserves_hesitant :
    ∃ (response : BatchWriteResponse) (courses : List (List (Submission .batchWriteItem))),
      ((⟨0, {}, []⟩ : Session Nat).run ((new hesitantWriter).batchWrite manyWrites)).1 =
        .ok response ∧
      courses.length = 2 ∧
      ((courses.flatten.flatMap Submission.attempts).map (Attempt.accepted id)).sum =
        ((List.range 27).map fun i =>
          ("t", .ofPut (.singleton "id" (.number (toString i)))) : List (String × WriteRequest)) ∧
      response.unprocessed = .empty := by
  have honest : hesitantWriter.LeavesParts (id : WriteRequest → WriteRequest) := by
    intro request n response h
    cases n with
    | zero =>
      cases h
      exact request.tables.tagged_mapWithKey_le id fun _ writes => writes.take_sublist 1
    | succ n =>
      by_cases hn : n = 0
      · simp [hesitantWriter, hn] at h
      · simp [hesitantWriter, hn] at h
        subst h
        exact Multiset.zero_le _
  obtain ⟨slices, courses, hslices, -, -, -, -, hok⟩ :=
    batchWrite_conserves id (new hesitantWriter) manyWrites ⟨0, {}, []⟩ honest
  obtain ⟨response, hresponse⟩ := exists_eq_ok
    (x := ((⟨0, {}, []⟩ : Session Nat).run ((new hesitantWriter).batchWrite manyWrites)).1)
    (by decide +kernel)
  obtain ⟨hlength, htaken, hopen⟩ := hok response hresponse
  refine ⟨response, courses, hresponse, ?_, ?_, hopen⟩
  · rw [hlength, hslices.count]
    decide
  · rw [htaken, manyWrites, List.map_map]
    rfl

end Store

end ItemStore
