import ItemStore.Proofs.Call.BatchGet
import ItemStore.Proofs.Call.BatchWrite

/-!
# How often a chunk is submitted

Submit a chunk, then what is left open of it, and so on without end: `afterSubmissions` is where
that leads, whatever the provider does.  The loop over submissions walks along it.  It goes on as
long as a submission is answered and leaves something open, and ends with the first that fails or
leaves nothing open, or with the last one that is allowed.

* `run_submit_until` finds the submission at which the loop ends, and `EndsAt` lists what it comes
  to there.
* `Reports` is what a caller can tell from it: a chunk succeeds, fails or is given up exactly where
  the walk says so, and what it succeeds with is put together from every response once.
* `chunk_reports_truthfully` has it for reads and writes, where a response says itself how many
  entries it leaves open (`left`) and what is put together is said by table (`Gathers`).
-/

namespace ItemStore

namespace Store

variable {σ : Type} {op : Operation}

/-! ## One submission after another -/

section Walk

variable (store : Store σ) (kind : BatchKind op) (left : op.Response → Nat) (chunk : op.Request)
  (s : Session σ)

/-- What is open of a chunk after `n` submissions, and the session then.  A submission that fails
leaves open what was open. -/
def afterSubmissions : Nat → op.Request × Session σ
  | 0 => (chunk, s)
  | n + 1 =>
    let before := afterSubmissions n
    let (result, session) := before.2.run (store.send op before.1)
    (match result with
      | .ok p => kind.remainder before.1 p
      | .error _ => before.1, session)

/-- What is open of a chunk after `n` submissions. -/
def openAfter (n : Nat) : op.Request := (store.afterSubmissions kind chunk s n).1

/-- The session after `n` submissions for a chunk. -/
def sessionAfter (n : Nat) : Session σ := (store.afterSubmissions kind chunk s n).2

/-- What the `n`-th submission for a chunk comes to, counted from one. -/
def submission (n : Nat) : Except StoreError op.Response :=
  ((store.sessionAfter kind chunk s (n - 1)).run
    (store.send op (store.openAfter kind chunk s (n - 1)))).1

/-- The `n`-th submission is answered, and entries are left open; `left` counts those of a
response. -/
def LeavesOpen (n : Nat) : Prop := ∃ p, store.submission kind chunk s n = .ok p ∧ left p ≠ 0

/-- The `n`-th submission is answered, and no entry is left open. -/
def Completes (n : Nat) : Prop := ∃ p, store.submission kind chunk s n = .ok p ∧ left p = 0

/-- What a chunk comes to where the `j`-th submission is its last one, `most` are allowed, and the
responses are put behind what has come before the `i`-th. -/
inductive EndsAt (most i : Nat) (merged : op.Response) (j : Nat) :
    Except StoreError op.Response → Prop where
  /-- The submission fails. -/
  | failed {e} : store.submission kind chunk s j = .error e →
      EndsAt most i merged j (.error e)
  /-- Nothing is open any more. -/
  | done {ps} : List.Forall₂ (fun k p => store.submission kind chunk s k = .ok p)
      (List.range' i (j + 1 - i)) ps → store.Completes kind left chunk s j →
      EndsAt most i merged j (.ok (kind.arrange chunk (ps.foldl kind.merge merged)))
  /-- The submissions are used up. -/
  | spent {p} : j = most → store.submission kind chunk s j = .ok p → left p ≠ 0 →
      EndsAt most i merged j (.error (.unprocessed op (left p) j))

/-- The next submission is of what is open. -/
theorem run_next (n : Nat) :
    (store.sessionAfter kind chunk s n).run (store.send op (store.openAfter kind chunk s n)) =
      (store.submission kind chunk s (n + 1), store.sessionAfter kind chunk s (n + 1)) := rfl

variable {store kind left chunk s}

theorem LeavesOpen.not_completes {n : Nat} (h : store.LeavesOpen kind left chunk s n) :
    ¬ store.Completes kind left chunk s n := by
  rintro ⟨p, hp, hdone⟩
  obtain ⟨p', hp', hopen⟩ := h
  rw [hp] at hp'
  cases hp'
  exact hopen hdone

theorem LeavesOpen.not_failed {n : Nat} (h : store.LeavesOpen kind left chunk s n)
    (e : StoreError) : store.submission kind chunk s n ≠ .error e := by
  obtain ⟨p, hp, -⟩ := h
  simp [hp]

/-- What an answer leaves open is open behind it. -/
theorem openAfter_succ {n : Nat} {p : op.Response}
    (h : store.submission kind chunk s (n + 1) = .ok p) :
    store.openAfter kind chunk s (n + 1) = kind.remainder (store.openAfter kind chunk s n) p := by
  have hnext : store.openAfter kind chunk s (n + 1) =
      match store.submission kind chunk s (n + 1) with
      | .ok p => kind.remainder (store.openAfter kind chunk s n) p
      | .error _ => store.openAfter kind chunk s n := rfl
  rw [hnext, h]

/-! ## The loop over submissions -/

/-- The loop goes on as long as answers leave something open, and comes to the submission at which
it ends.  The induction is on the submissions that may follow the one behind the first `n`. -/
theorem run_submit_until (store : Store σ) (chunk : op.Request) (s : Session σ)
    (hleft : ∀ r p, kind.entries (kind.remainder r p) = left p)
    (n pauses : Nat) (merged : op.Response) :
    ∃ j result, n < j ∧ j ≤ n + pauses + 1 ∧
      (∀ i, n < i → i < j → store.LeavesOpen kind left chunk s i) ∧
      store.EndsAt kind left chunk s (n + pauses + 1) (n + 1) merged j result ∧
      (store.sessionAfter kind chunk s n).run (store.submit kind chunk
        (store.openAfter kind chunk s n) merged (n + 1) pauses) =
          (result, store.sessionAfter kind chunk s j) := by
  have hrun := store.run_next kind chunk s n
  cases hsubmission : store.submission kind chunk s (n + 1) with
  | error e =>
    rw [hsubmission] at hrun
    exact ⟨n + 1, _, by omega, by omega, by omega, .failed hsubmission, run_submit_failed hrun⟩
  | ok p =>
    rw [hsubmission] at hrun
    have hcount := hleft (store.openAfter kind chunk s n) p
    by_cases hdone : left p = 0
    · have honly : List.Forall₂ (fun k p => store.submission kind chunk s k = .ok p)
          (List.range' (n + 1) (n + 1 + 1 - (n + 1))) [p] := by
        rw [Nat.add_sub_cancel_left]
        exact .cons hsubmission .nil
      refine ⟨n + 1, _, by omega, by omega, by omega, .done honly ⟨p, hsubmission, hdone⟩, ?_⟩
      exact run_submit_done hrun (hcount.trans hdone)
    have hopen : kind.entries (kind.remainder (store.openAfter kind chunk s n) p) ≠ 0 :=
      hcount ▸ hdone
    cases pauses with
    | zero =>
      refine ⟨n + 1, _, by omega, by omega, by omega, .spent rfl hsubmission hdone, ?_⟩
      rw [run_submit_spent hrun hopen, hcount]
    | succ pauses =>
      obtain ⟨j, result, hj, hle, hbefore, hends, hrest⟩ :=
        run_submit_until store chunk s hleft (n + 1) pauses (kind.merge merged p)
      refine ⟨j, result, by omega, by omega, ?_, ?_, ?_⟩
      · intro i hi hij
        rcases Nat.lt_or_eq_of_le (Nat.succ_le_of_lt hi) with hlt | rfl
        · exact hbefore i hlt hij
        · exact ⟨p, hsubmission, hdone⟩
      · cases hends with
        | failed he => exact .failed he
        | @done ps hps hcompletes =>
          have hrange : List.range' (n + 1) (j + 1 - (n + 1)) =
              (n + 1) :: List.range' (n + 1 + 1) (j + 1 - (n + 1 + 1)) := by
            rw [← List.range'_succ]
            congr 1
            omega
          have hall : List.Forall₂ (fun k p => store.submission kind chunk s k = .ok p)
              (List.range' (n + 1) (j + 1 - (n + 1))) (p :: ps) := by
            rw [hrange]
            exact .cons hsubmission hps
          exact .done hall hcompletes
        | spent hlast hp hsome => exact .spent (by omega) hp hsome
      · rw [run_submit_again hrun hopen, ← openAfter_succ hsubmission]
        exact hrest

/-- The log of the walk has the attempts of its submissions, each of what was open. -/
theorem exists_submissions (store : Store σ) (kind : BatchKind op) (chunk : op.Request)
    (s : Session σ) (j : Nat) :
    ∃ xs : List (Submission op),
      xs.map Submission.request = (List.range j).map (store.openAfter kind chunk s) ∧
      xs.map (fun x => x.outcome.mapError (named op x.request)) =
        (List.range' 1 j).map (store.submission kind chunk s) ∧
      (∀ x ∈ xs, x.attempts.length ≤ max 1 store.config.retry.maxAttempts) ∧
      (store.sessionAfter kind chunk s j).log = s.log ++ xs.flatMap Submission.attempts := by
  induction j with
  | zero => exact ⟨[], rfl, rfl, by simp, by simp [sessionAfter, afterSubmissions]⟩
  | succ j ih =>
    obtain ⟨xs, hrequests, hresults, hwithin, hlog⟩ := ih
    obtain ⟨x, s', hrequest, hsent, hrun, hlog'⟩ :=
      store.run_send (store.openAfter kind chunk s j) (store.sessionAfter kind chunk s j)
    obtain ⟨hresult, hsession⟩ := Prod.mk.inj ((store.run_next kind chunk s j).symm.trans hrun)
    have hlength : x.attempts.length ≤ max 1 store.config.retry.maxAttempts := by
      have hfailures := hsent.within
      rw [RetryPolicy.pauses] at hfailures
      simp only [Submission.attempts, List.length_append, List.length_map, List.length_singleton]
      omega
    refine ⟨xs ++ [x], ?_, ?_, ?_, ?_⟩
    · rw [List.map_append, hrequests, List.range_succ, List.map_append, List.map_singleton,
        hrequest, List.map_singleton]
    · rw [List.map_append, hresults, List.range'_concat, List.map_append, List.map_singleton,
        hrequest, List.map_singleton, Nat.one_mul, Nat.add_comm 1 j, hresult]
    · exact List.forall_mem_append.2 ⟨hwithin, List.forall_mem_singleton.2 hlength⟩
    · rw [hsession, hlog', hlog, List.flatMap_append, List.append_assoc]
      simp

end Walk

/-! ## What a caller can tell -/

/-- What a chunk comes to, in terms of its submissions one after another.  `left` counts the entries
that a response leaves open, and `gathers` says when a response is put together from others. -/
structure Reports (store : Store σ) (kind : BatchKind op) (left : op.Response → Nat)
    (gathers : op.Response → List op.Response → Prop) (chunk : op.Request) (s : Session σ)
    (most : Nat) : Prop where
  /-- There are no more submissions than are allowed, and no more attempts at each.  Every one is of
  what was left open, and all but the last are answered and leave something open. -/
  submissions : ∃ xs : List (Submission op), 1 ≤ xs.length ∧ xs.length ≤ most ∧
    (∀ x ∈ xs, x.attempts.length ≤ most) ∧
    xs.map Submission.request = (List.range xs.length).map (store.openAfter kind chunk s) ∧
    xs.map (fun x => x.outcome.mapError (named op x.request)) =
      (List.range' 1 xs.length).map (store.submission kind chunk s) ∧
    (∀ i, 1 ≤ i → i < xs.length → store.LeavesOpen kind left chunk s i) ∧
    (s.run (store.runChunk kind chunk)).2.log = s.log ++ xs.flatMap Submission.attempts
  /-- The chunk succeeds exactly if nothing is open any more behind some submission that is allowed,
  and those before it are answered and leave something open. -/
  succeeds_iff : (∃ r, (s.run (store.runChunk kind chunk)).1 = .ok r) ↔
    ∃ n, 1 ≤ n ∧ n ≤ most ∧ (∀ i, 1 ≤ i → i < n → store.LeavesOpen kind left chunk s i) ∧
      store.Completes kind left chunk s n
  /-- The response is then put together from those of the submissions up to that one. -/
  gathered : ∀ n r, 1 ≤ n → (∀ i, 1 ≤ i → i < n → store.LeavesOpen kind left chunk s i) →
    store.Completes kind left chunk s n → (s.run (store.runChunk kind chunk)).1 = .ok r →
    ∃ ps, List.Forall₂ (fun i p => store.submission kind chunk s i = .ok p)
      (List.range' 1 n) ps ∧ gathers r ps
  /-- The chunk fails with the error of the first submission that does. -/
  fails : ∀ n e, 1 ≤ n → n ≤ most →
    (∀ i, 1 ≤ i → i < n → store.LeavesOpen kind left chunk s i) →
    store.submission kind chunk s n = .error e →
    (s.run (store.runChunk kind chunk)).1 = .error e
  /-- The chunk is given up if every submission that is allowed leaves something open; the error has
  their number, and that of the entries that the response to the last one leaves open. -/
  gives_up : ∀ p, (∀ i, 1 ≤ i → i ≤ most → store.LeavesOpen kind left chunk s i) →
    store.submission kind chunk s most = .ok p →
    (s.run (store.runChunk kind chunk)).1 = .error (.unprocessed op (left p) most)

section Reports

variable {store : Store σ} {kind : BatchKind op} {left : op.Response → Nat} {chunk : op.Request}
  {s : Session σ}

/-- The loop ends at the first submission that does not leave anything open. -/
theorem EndsAt.eq_first {most i j n : Nat} {merged : op.Response}
    {result : Except StoreError op.Response}
    (h : store.EndsAt kind left chunk s most i merged j result) (hj : 1 ≤ j) (hn : 1 ≤ n)
    (hmost : n ≤ most) (hbefore : ∀ i, 1 ≤ i → i < j → store.LeavesOpen kind left chunk s i)
    (hfirst : ∀ i, 1 ≤ i → i < n → store.LeavesOpen kind left chunk s i)
    (hstop : ¬ store.LeavesOpen kind left chunk s n) : j = n := by
  have hle : j ≤ n := by
    by_contra hlt
    exact hstop (hbefore n hn (by omega))
  rcases Nat.lt_or_eq_of_le hle with hlt | heq
  · have hopen := hfirst j hj hlt
    cases h with
    | failed he => exact absurd he (hopen.not_failed _)
    | done _ hcompletes => exact absurd hcompletes hopen.not_completes
    | spent hlast _ _ => omega
  · exact heq

/-- A chunk is reported as its submissions have it, if what is put together from their responses is
what `gathers` says. -/
theorem reports (hleft : ∀ r p, kind.entries (kind.remainder r p) = left p)
    {gathers : op.Response → List op.Response → Prop}
    (hgathers : ∀ ps, gathers (kind.arrange chunk (ps.foldl kind.merge op.emptyResponse)) ps) :
    store.Reports kind left gathers chunk s (max 1 store.config.retry.maxAttempts) := by
  have hmost : 0 + store.config.retry.pauses + 1 = max 1 store.config.retry.maxAttempts := by
    rw [RetryPolicy.pauses]
    omega
  obtain ⟨j, result, hj, hle, hbefore, hends, hrun⟩ :=
    store.run_submit_until chunk s hleft 0 store.config.retry.pauses op.emptyResponse
  have hrun' : s.run (store.runChunk kind chunk) =
      (result, store.sessionAfter kind chunk s j) := hrun
  rw [hmost] at hle hends
  constructor
  · obtain ⟨xs, hrequests, hresults, hwithin, hlog⟩ := exists_submissions store kind chunk s j
    have hlength : xs.length = j := by simpa using congrArg List.length hrequests
    exact ⟨xs, by omega, by omega, hwithin, by rw [hlength, hrequests], by rw [hlength, hresults],
      fun i hi hij => hbefore i hi (by omega), by rw [hrun', hlog]⟩
  · rw [hrun']
    constructor
    · rintro ⟨r, hr⟩
      obtain rfl : result = .ok r := hr
      cases hends with
      | done _ hcompletes => exact ⟨j, hj, hle, hbefore, hcompletes⟩
    · rintro ⟨n, hn, hnle, hfirst, hcompletes⟩
      obtain rfl := hends.eq_first hj hn hnle hbefore hfirst fun h => h.not_completes hcompletes
      obtain ⟨p, hp, hdone⟩ := hcompletes
      cases hends with
      | failed he => rw [hp] at he; cases he
      | done _ _ => exact ⟨_, rfl⟩
      | spent _ hp' hopen => exact absurd ⟨p, hp, hdone⟩ (LeavesOpen.not_completes ⟨_, hp', hopen⟩)
  · intro n r hn hfirst hcompletes hr
    rw [hrun'] at hr
    obtain rfl : result = .ok r := hr
    cases hends with
    | @done ps hps hlast =>
      obtain rfl : j = n := by
        rcases Nat.lt_trichotomy j n with hlt | heq | hgt
        · exact absurd hlast (hfirst j hj hlt).not_completes
        · exact heq
        · exact absurd hcompletes (hbefore n hn hgt).not_completes
      exact ⟨ps, hps, hgathers ps⟩
  · intro n e hn hnle hfirst he
    rw [hrun']
    obtain rfl := hends.eq_first hj hn hnle hbefore hfirst fun h => h.not_failed e he
    cases hends with
    | failed he' => rw [he] at he'; cases he'; rfl
    | done _ hcompletes => obtain ⟨p, hp, -⟩ := hcompletes; rw [hp] at he; cases he
    | spent _ hp _ => rw [hp] at he; cases he
  · intro p hall hp
    rw [hrun']
    cases hends with
    | failed he => exact absurd he ((hall j hj hle).not_failed _)
    | done _ hcompletes => exact absurd hcompletes (hall j hj hle).not_completes
    | spent hlast hp' _ =>
      subst hlast
      rw [hp] at hp'
      cases hp'
      rfl

end Reports

end Store

/-! ## Reads and writes -/

/-- Where every response adds its readings to those that have come so far, they are added up like
all of them at once. -/
theorem Store.capacity_foldl {op : Operation} (kind : BatchKind op)
    (capacity : op.Response → List CapacityReading)
    (hmerge : ∀ merged p,
      capacity (kind.merge merged p) = ConsumedCapacity.mergeAll (capacity merged) (capacity p))
    (merged : op.Response) (ps : List op.Response) :
    capacity (ps.foldl kind.merge merged) =
      ConsumedCapacity.mergeAll (capacity merged) (ps.flatMap capacity) := by
  rw [ConsumedCapacity.mergeAll, List.foldl_flatMap]
  exact (List.foldl_hom capacity fun r p => (hmerge r p).symm).symm

namespace BatchGetResponse

/-- How many keys an answer leaves open. -/
def left (p : BatchGetResponse) : Nat := (p.unprocessed.values.flatMap TableKeys.keys).length

/-- An answer has the items of others, table by table and in some order, and their capacity. -/
structure Gathers (r : BatchGetResponse) (ps : List BatchGetResponse) : Prop where
  /-- Every item is there as often as it came. -/
  items : ∀ name, (r.responses.listAt name).Perm (ps.flatMap fun p => p.responses.listAt name)
  /-- All readings are added up, one after another. -/
  capacity : r.capacity = ConsumedCapacity.mergeAll [] (ps.flatMap capacity)
  /-- No key is reported as open. -/
  closed : r.unprocessed = .empty

/-- Putting items into the order of their keys loses none. -/
theorem listAt_inKeyOrder_perm (response : BatchGetResponse) (request : BatchGetRequest)
    (name : String) :
    ((response.inKeyOrder request).responses.listAt name).Perm
      (response.responses.listAt name) := by
  unfold inKeyOrder Keyed.listAt
  rw [Keyed.get?_mapWithKey]
  cases response.responses.get? name with
  | none => exact .refl []
  | some items =>
    dsimp only [Option.map_some, Option.getD_some]
    cases request.tables.get? name with
    | none => exact .refl items
    | some table => exact List.mergeSort_perm items _

theorem unprocessed_foldl_merge (merged : BatchGetResponse) (ps : List BatchGetResponse) :
    (ps.foldl BatchKind.reads.merge merged : BatchGetResponse).unprocessed =
      merged.unprocessed := by
  induction ps generalizing merged with
  | nil => rfl
  | cons p ps ih => exact ih _

/-- What is put together for a chunk gathers the responses. -/
theorem gathers_arrange (chunk : BatchGetRequest) (ps : List BatchGetResponse) :
    Gathers (BatchKind.reads.arrange chunk
      (ps.foldl BatchKind.reads.merge (Operation.emptyResponse .batchGetItem))) ps where
  items name := by
    refine (listAt_inKeyOrder_perm _ chunk name).trans ?_
    exact .of_eq (Store.listAt_foldl_merge _ ps name)
  capacity := Store.capacity_foldl .reads capacity (fun _ _ => rfl) _ ps
  closed := unprocessed_foldl_merge _ ps

end BatchGetResponse

namespace BatchWriteResponse

/-- How many writes an answer leaves open. -/
def left (p : BatchWriteResponse) : Nat := p.unprocessed.values.flatten.length

/-- An answer has the metrics of others, table by table, and their capacity. -/
structure Gathers (r : BatchWriteResponse) (ps : List BatchWriteResponse) : Prop where
  /-- Every estimate is there as often as it came, in the same order. -/
  metrics : ∀ name, r.metrics.listAt name = ps.flatMap fun p => p.metrics.listAt name
  /-- All readings are added up, one after another. -/
  capacity : r.capacity = ConsumedCapacity.mergeAll [] (ps.flatMap capacity)
  /-- No write is reported as open. -/
  closed : r.unprocessed = .empty

/-- What is put together for a chunk gathers the responses. -/
theorem gathers_arrange (chunk : BatchWriteRequest) (ps : List BatchWriteResponse) :
    Gathers (BatchKind.writes.arrange chunk
      (ps.foldl BatchKind.writes.merge (Operation.emptyResponse .batchWriteItem))) ps where
  metrics name := Store.listAt_foldl .writes metrics (fun _ _ => rfl) _ ps name
  capacity := Store.capacity_foldl .writes capacity (fun _ _ => rfl) _ ps
  closed := Store.unprocessed_foldl_merge _ ps

end BatchWriteResponse

namespace Store

variable {σ : Type}

/-- **A chunk ends, and reports what became of it**, whatever the provider does and also if it
leaves something open forever.

The attempts that are allowed, one at least, bound the submissions of the chunk as well as the
attempts at each.  The chunk succeeds exactly if a submission is answered with nothing left open,
behind others that are answered with something left open; it then has the items, metrics and
capacity of each of their responses once.  If a submission fails the chunk fails with that error.
Otherwise it is given up, and the error has the number of the submissions and that of the entries
that the last response leaves open. -/
theorem chunk_reports_truthfully (store : Store σ) (s : Session σ) :
    (∀ chunk : BatchGetRequest, store.Reports .reads BatchGetResponse.left BatchGetResponse.Gathers
      chunk s (max 1 store.config.retry.maxAttempts)) ∧
    (∀ chunk : BatchWriteRequest, store.Reports .writes BatchWriteResponse.left
      BatchWriteResponse.Gathers chunk s (max 1 store.config.retry.maxAttempts)) :=
  ⟨fun chunk => reports (fun _ _ => rfl) (BatchGetResponse.gathers_arrange chunk),
    fun chunk => reports (fun _ _ => rfl) (BatchWriteResponse.gathers_arrange chunk)⟩

end Store

end ItemStore
