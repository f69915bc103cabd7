import ItemStore.Proofs.Store.Chunks
import ItemStore.Proofs.Store.KeyOrder
import ItemStore.Proofs.Store.Slices
import ItemStore.Store.Calls

/-!
# Batches of reads come back whole and in order

A batch of reads is cut into slices, what a response leaves open of a slice is asked for again, and
the items of a slice are sorted by its keys.  As long as a provider treats the keys of every request
as `Answers` says, some of them answered and the others left open, the call returns the item of
every key that has one, in the order of the keys.

The items that come for a slice are followed along its course: those of a response are the items of
the keys that it answered, and the others come from the rest of the course (`perm_of_submits`).
Sorting then puts them into the order of the slice, and the slices stand in the order of the batch.

* `batchGet_complete_in_order` has all of it in one statement.
-/

namespace ItemStore

/-! ## Lists under keys -/

namespace Keyed

variable {α : Type}

/-- The list under a key, which is empty if nothing is there. -/
def listAt (c : Keyed (List α)) (key : String) : List α := (c.get? key).getD []

theorem listAt_alter (c : Keyed (List α)) (key : String) (xs : List α) (k : String) :
    (c.alter key fun old => old.getD [] ++ xs).listAt k =
      c.listAt k ++ (if k = key then xs else []) := by
  unfold alter listAt
  rw [get?_insert]
  by_cases hk : k = key
  · subst hk
    simp
  · simp [hk]

theorem listAt_foldl_alter (es : List (String × List α)) (hes : (es.map (·.1)).Nodup)
    (c : Keyed (List α)) (k : String) :
    (es.foldl (fun acc e => acc.alter e.1 fun old => old.getD [] ++ e.2) c).listAt k =
      c.listAt k ++ (es.lookup k).getD [] := by
  induction es generalizing c with
  | nil => simp
  | cons e es ih =>
    obtain ⟨key, xs⟩ := e
    obtain ⟨hmem, hes⟩ := List.nodup_cons.1 hes
    rw [List.foldl_cons, ih hes, listAt_alter, List.lookup_cons]
    by_cases hk : k = key
    · subst hk
      simp [lookup_eq_none_of_not_mem hmem]
    · have hne : (k == key) = false := by simp [hk]
      simp [hk, hne]

/-- Lists are put behind those under the same keys. -/
theorem listAt_appendLists (c more : Keyed (List α)) (k : String) :
    (appendLists c more).listAt k = c.listAt k ++ more.listAt k :=
  listAt_foldl_alter more.entries more.nodup_keys c k

end Keyed

/-! ## Providers that answer -/

/-- What is asked of a table; nothing if it is not among the tables. -/
def tableAt (tables : Keyed TableKeys) (name : String) : TableKeys := (tables.get? name).getD {}

/-- What is asked of a table besides the keys. -/
def TableKeys.options (t : TableKeys) : TableKeys := { t with keys := [] }

/-- How a provider treats the keys of a request that it answers, table by table, where `content` has
the item of each key, if there is one, as it is read with the options of the request. -/
structure Answers (content : String → TableKeys → Item → Option Item) (request : BatchGetRequest)
    (response : BatchGetResponse) : Prop where
  /-- Some keys are processed and the others left open; there is one item for each processed key
  that has one, in any order. -/
  split : ∀ name, ∃ processed : List Item,
    (tableAt request.tables name).keys.Perm
      (processed ++ (tableAt response.unprocessed name).keys) ∧
    (response.responses.listAt name).Perm
      (processed.filterMap (content name (tableAt request.tables name).options))
  /-- Open keys are reported with the options of the request. -/
  options : ∀ name, (tableAt response.unprocessed name).keys ≠ [] →
    (tableAt response.unprocessed name).options = (tableAt request.tables name).options

/-- A provider treats the keys of every request that it answers in such a way, out of whatever
state. -/
def Provider.AnswersFrom {σ : Type} (provider : Provider σ)
    (content : String → TableKeys → Item → Option Item) : Prop :=
  ∀ (request : BatchGetRequest) state (response : BatchGetResponse),
    (provider .batchGetItem request state).1.outcome = .ok response →
      Answers content request response

namespace Store

variable {σ : Type} {store : Store σ} {content : String → TableKeys → Item → Option Item}

/-! ## Courses of reads -/

section Courses

variable {n pauses : Nat} {request : BatchGetRequest} {xs : List (Submission .batchGetItem)}

theorem keys_eq_nil_of_entries {tables : Keyed TableKeys}
    (h : (tables.values.flatMap TableKeys.keys).length = 0) (name : String) :
    (tableAt tables name).keys = [] := by
  unfold tableAt
  cases hget : tables.get? name with
  | none => rfl
  | some table =>
    have hmem : table ∈ tables.values :=
      List.mem_map.2 ⟨(name, table), Keyed.get?_eq_some_iff.1 hget, rfl⟩
    have hnil := List.length_eq_zero_iff.1 h
    exact List.flatMap_eq_nil_iff.1 hnil table hmem

/-- The items that come for a table in a course that comes to an end are those of the keys that its
first request asks for.  The induction is on the course. -/
theorem perm_of_submits (answers : store.provider.AnswersFrom content)
    {ps : List BatchGetResponse} (h : store.Submits BatchKind.reads n pauses request xs (.ok ps))
    (name : String) :
    (ps.flatMap fun p => p.responses.listAt name).Perm ((tableAt request.tables name).keys.filterMap
      (content name (tableAt request.tables name).options)) := by
  refine h.induction_ok (motive := fun (request : BatchGetRequest) _ (ps : List BatchGetResponse) =>
    (ps.flatMap fun p => p.responses.listAt name).Perm
      ((tableAt request.tables name).keys.filterMap
        (content name (tableAt request.tables name).options))) ?_ ?_
  · intro x (p : BatchGetResponse) hsent hx hdone
    obtain ⟨state, hstate⟩ := hsent.answered p hx
    obtain ⟨processed, hkeys, hitems⟩ := (answers x.request state p hstate).split name
    have hnil : (tableAt p.unprocessed name).keys = [] := keys_eq_nil_of_entries hdone name
    rw [hnil, List.append_nil] at hkeys
    rw [List.flatMap_singleton]
    exact hitems.trans (hkeys.symm.filterMap _)
  · intro x (p : BatchGetResponse) xs ps hsent hx hrest
    obtain ⟨state, hstate⟩ := hsent.answered p hx
    have hanswers := answers x.request state p hstate
    obtain ⟨processed, hkeys, hitems⟩ := hanswers.split name
    -- the options matter only where keys are left open
    have hopen : (tableAt p.unprocessed name).keys.filterMap
          (content name (tableAt p.unprocessed name).options) =
        (tableAt p.unprocessed name).keys.filterMap
          (content name (tableAt (x.request : BatchGetRequest).tables name).options) := by
      by_cases hnil : (tableAt p.unprocessed name).keys = []
      · rw [hnil]
        rfl
      · rw [hanswers.options name hnil]
    have hrest' : (ps.flatMap fun p => p.responses.listAt name).Perm
        ((tableAt p.unprocessed name).keys.filterMap
          (content name (tableAt p.unprocessed name).options)) := hrest
    rw [hopen] at hrest'
    rw [List.flatMap_cons]
    refine (hitems.append hrest').trans ?_
    rw [← List.filterMap_append]
    exact hkeys.symm.filterMap _

end Courses

/-! ## Requests of one table -/

/-- All keys of a request are those of one table, and there are not more than `n` of them. -/
structure AsksOnly (table : String) (n : Nat) (request : BatchGetRequest) : Prop where
  /-- Nothing is asked of other tables. -/
  others : ∀ name, name ≠ table → (tableAt request.tables name).keys = []
  /-- Not much is asked of the table. -/
  few : (tableAt request.tables table).keys.length ≤ n

theorem flatMap_keys_eq_nil {table : String} {es : List (String × TableKeys)}
    (hmem : table ∉ es.map (·.1)) (hothers : ∀ e ∈ es, e.1 ≠ table → e.2.keys = []) :
    (es.flatMap fun e => e.2.keys) = [] := by
  refine List.flatMap_eq_nil_iff.2 fun e he => hothers e he ?_
  rintro rfl
  exact hmem (List.mem_map.2 ⟨e, he, rfl⟩)

theorem flatMap_keys_eq_lookup {table : String} {es : List (String × TableKeys)}
    (hes : (es.map (·.1)).Nodup) (hothers : ∀ e ∈ es, e.1 ≠ table → e.2.keys = []) :
    (es.flatMap fun e => e.2.keys) = ((es.lookup table).getD {}).keys := by
  induction es with
  | nil => rfl
  | cons e es ih =>
    obtain ⟨name, t⟩ := e
    obtain ⟨hmem, hes⟩ := List.nodup_cons.1 hes
    obtain ⟨ht, hothers⟩ := List.forall_mem_cons.1 hothers
    rw [List.flatMap_cons, List.lookup_cons]
    by_cases hname : name = table
    · subst hname
      rw [flatMap_keys_eq_nil hmem hothers]
      simp
    · have hne : (table == name) = false := by simpa using Ne.symm hname
      have hnil : t.keys = [] := ht hname
      rw [ih hes hothers, hnil, hne]
      rfl

/-- A request that asks for keys of one table has so many entries. -/
theorem AsksOnly.entries_le {table : String} {n : Nat} {request : BatchGetRequest}
    (h : AsksOnly table n request) : BatchKind.reads.entries request ≤ n := by
  have hothers : ∀ e ∈ request.tables.entries, e.1 ≠ table → e.2.keys = [] := by
    rintro ⟨name, t⟩ he hname
    have hnil := h.others name hname
    rwa [tableAt, Keyed.get?_eq_some_iff.2 he, Option.getD_some] at hnil
  have hkeys : request.tables.values.flatMap TableKeys.keys =
      (tableAt request.tables table).keys := by
    rw [Keyed.values, List.flatMap_map]
    exact flatMap_keys_eq_lookup request.tables.nodup_keys hothers
  show (request.tables.values.flatMap TableKeys.keys).length ≤ n
  rw [hkeys]
  exact h.few

/-- What an answer leaves open of a request asks for no more. -/
theorem AsksOnly.remainder {table : String} {n : Nat} {request : BatchGetRequest}
    {response : BatchGetResponse} (h : AsksOnly table n request)
    (hanswers : Answers content request response) :
    AsksOnly table n (BatchKind.reads.remainder request response) where
  others := by
    intro name hname
    obtain ⟨processed, hkeys, -⟩ := hanswers.split name
    rw [h.others name hname] at hkeys
    exact (List.append_eq_nil_iff.1 hkeys.nil_eq.symm).2
  few := by
    obtain ⟨processed, hkeys, -⟩ := hanswers.split table
    have hlength := hkeys.length_eq
    rw [List.length_append] at hlength
    have hfew := h.few
    show (tableAt response.unprocessed table).keys.length ≤ n
    omega

/-! ## Putting responses together -/

/-- Where every response puts its lists behind those that have come so far, they stand there in the
order of the responses. -/
theorem listAt_foldl {op : Operation} {α : Type} (kind : BatchKind op)
    (lists : op.Response → Keyed (List α))
    (hmerge : ∀ merged p, lists (kind.merge merged p) = appendLists (lists merged) (lists p))
    (merged : op.Response) (ps : List op.Response) (name : String) :
    (lists (ps.foldl kind.merge merged)).listAt name =
      (lists merged).listAt name ++ ps.flatMap fun p => (lists p).listAt name := by
  induction ps generalizing merged with
  | nil => simp
  | cons p ps ih =>
    rw [List.foldl_cons, ih, hmerge, Keyed.listAt_appendLists, List.flatMap_cons,
      List.append_assoc]

/-- Items of later responses come behind those of earlier ones. -/
theorem listAt_foldl_merge (merged : BatchGetResponse) (ps : List BatchGetResponse)
    (name : String) :
    (ps.foldl BatchKind.reads.merge merged : BatchGetResponse).responses.listAt name =
      merged.responses.listAt name ++ ps.flatMap fun p => p.responses.listAt name :=
  listAt_foldl .reads BatchGetResponse.responses (fun _ _ => rfl) merged ps name

/-- Items of a table that is asked for are put into the order of its keys. -/
theorem listAt_inKeyOrder {request : BatchGetRequest} {name : String} {table : TableKeys}
    (h : request.tables.get? name = some table) (response : BatchGetResponse) :
    (response.inKeyOrder request).responses.listAt name =
      inKeyOrder table.keys (response.responses.listAt name) := by
  unfold BatchGetResponse.inKeyOrder Keyed.listAt
  rw [Keyed.get?_mapWithKey]
  cases response.responses.get? name with
  | none => simp [inKeyOrder]
  | some items => simp [h]

end Store

/-! ## Cutting -/

namespace Call.BatchGet

/-- The request for some of the keys of a batch. -/
def chunk (b : BatchGet) (asked : TableKeys) (keys : List Item) : BatchGetRequest where
  tables := .singleton b.table { asked with keys }
  returnCapacity := b.returnCapacity

theorem get?_tables_chunk (b : BatchGet) (asked : TableKeys) (keys : List Item) (name : String) :
    (b.chunk asked keys).tables.get? name =
      if name = b.table then some { asked with keys } else none := by
  rw [chunk, Keyed.singleton, Keyed.get?_insert, Keyed.get?_empty]

theorem keys_of_tableKeys {b : BatchGet} {asked : TableKeys} (h : b.tableKeys = .ok asked) :
    asked.keys = b.keys := by
  obtain ⟨bundle, -, hbundle⟩ := bind_eq_ok.1 h
  cases hbundle
  rfl

theorem chunks_of_compile {b : BatchGet} {batch : BatchGetRequest} (h : b.compile = .ok batch) :
    ∃ asked, (b.keys ≠ [] → b.tableKeys = .ok asked) ∧
      BatchKind.reads.chunks batch = (chunksOf BatchKind.mostKeys b.keys).map (b.chunk asked) := by
  obtain ⟨-, -, h⟩ := bind_eq_ok.1 h
  by_cases hkeys : b.keys = []
  · rw [if_pos (by simp [hkeys])] at h
    cases h
    refine ⟨{}, fun hne => absurd hkeys hne, ?_⟩
    rw [hkeys]
    rfl
  · rw [if_neg (by simpa using hkeys)] at h
    obtain ⟨asked, hasked, h⟩ := bind_eq_ok.1 h
    cases h
    refine ⟨asked, fun _ => hasked, ?_⟩
    show (([(b.table, asked)] : List (String × TableKeys)).flatMap fun e => _) = _
    rw [List.flatMap_singleton, keys_of_tableKeys hasked]
    rfl

end Call.BatchGet

namespace Store

variable {σ : Type} {store : Store σ} {content : String → TableKeys → Item → Option Item}

theorem asksOnly_chunk (b : Call.BatchGet) (asked : TableKeys) {n : Nat} {keys : List Item}
    (hkeys : keys.length ≤ n) : AsksOnly b.table n (b.chunk asked keys) where
  others := by
    intro name hname
    rw [tableAt, b.get?_tables_chunk, if_neg hname]
    rfl
  few := by
    rw [tableAt, b.get?_tables_chunk, if_pos rfl]
    exact hkeys

/-! ## Batches of reads -/

section Chunks

variable {b : Call.BatchGet} {asked : TableKeys} (answers : store.provider.AnswersFrom content)

include answers

/-- What comes for a chunk are the items of its keys, in the order of the keys. -/
theorem listAt_of_submits {keys : List Item} (hkeys : DistinctKeys keys)
    (keyed : ∀ key ∈ keys, ∀ item, content b.table asked.options key = some item →
      item.Contains key) {n pauses : Nat}
    {xs : List (Submission .batchGetItem)} {ps : List BatchGetResponse}
    (h : store.Submits BatchKind.reads n pauses (b.chunk asked keys) xs (.ok ps)) :
    (BatchKind.reads.arrange (b.chunk asked keys)
        (ps.foldl BatchKind.reads.merge (Operation.emptyResponse .batchGetItem)) :
          BatchGetResponse).responses.listAt b.table =
      keys.filterMap (content b.table asked.options) := by
  have htable : (b.chunk asked keys).tables.get? b.table = some { asked with keys } := by
    rw [b.get?_tables_chunk, if_pos rfl]
  have hperm := perm_of_submits answers h b.table
  rw [tableAt, htable] at hperm
  have hmerged := listAt_foldl_merge (Operation.emptyResponse .batchGetItem) ps b.table
  refine (listAt_inKeyOrder htable _).trans (inKeyOrder_eq hkeys keyed ?_)
  rw [hmerged]
  exact hperm

/-- What comes for the chunks of a batch are the items of their keys, chunk by chunk.  The induction
is on the chunks. -/
theorem flatMap_listAt_of_submits {slices : List (List Item)} {rs : List BatchGetResponse}
    (hkeys : ∀ slice ∈ slices, DistinctKeys slice)
    (keyed : ∀ slice ∈ slices, ∀ key ∈ slice, ∀ item,
      content b.table asked.options key = some item → item.Contains key)
    (h : List.Forall₂ (fun chunk r => ∃ xs ps,
      store.Submits BatchKind.reads 1 store.config.retry.pauses chunk xs (.ok ps) ∧
        r = BatchKind.reads.arrange chunk
          (ps.foldl BatchKind.reads.merge (Operation.emptyResponse .batchGetItem)))
      (slices.map (b.chunk asked)) rs) :
    (rs.flatMap fun r => r.responses.listAt b.table) =
      slices.flatten.filterMap (content b.table asked.options) := by
  induction slices generalizing rs with
  | nil =>
    cases h
    rfl
  | cons slice slices ih =>
    obtain ⟨hslice, hslices⟩ := List.forall_mem_cons.1 hkeys
    obtain ⟨hitems, hrest⟩ := List.forall_mem_cons.1 keyed
    cases h with
    | cons hr hrs =>
      obtain ⟨xs, ps, hsubmits, rfl⟩ := hr
      rw [List.flatMap_cons, ih hslices hrest hrs, List.flatten_cons, List.filterMap_append,
        listAt_of_submits answers hslice hitems hsubmits]

end Chunks

/-- **A batch of reads comes back complete and in the order of its keys**, however a provider
divides the keys of every request and in whatever order it returns the items.

`content` has the item of every key that has one, read with the options of the request, and the
items of the batch have the attributes of their keys.  No request asks for more than 100 keys.  If
the call succeeds, the items of the table are those of the keys that have one, key by key as they
stand in the batch. -/
theorem batchGet_complete_in_order (store : Store σ) (b : Call.BatchGet) (s : Session σ)
    (hkeys : DistinctKeys b.keys)
    (keyed : ∀ key ∈ b.keys, ∀ options item, content b.table options key = some item →
      item.Contains key)
    (answers : store.provider.AnswersFrom content) :
    ∃ courses : List (List (Submission .batchGetItem)),
      (s.run (store.batchGet b)).2.log =
        s.log ++ courses.flatten.flatMap Submission.attempts ∧
      (∀ x ∈ courses.flatten, BatchKind.reads.entries x.request ≤ 100) ∧
      ∀ response, (s.run (store.batchGet b)).1 = .ok response →
        ∃ asked, (b.keys ≠ [] → b.tableKeys = .ok asked) ∧
          response.responses.listAt b.table =
            b.keys.filterMap (content b.table asked.options) := by
  have hslices : Slices 100 b.keys (chunksOf BatchKind.mostKeys b.keys) :=
    slices_chunksOf (by decide) b.keys
  cases hb : b.compile with
  | error e =>
    have hrun : s.run (store.batchGet b) = (.error e, s) := by
      rw [batchGet, Session.run_lift_bind, hb]
    refine ⟨[], ?_, by simp, ?_⟩
    · simp [hrun]
    · simp [hrun]
  | ok batch =>
    obtain ⟨asked, hasked, hchunks⟩ := Call.BatchGet.chunks_of_compile hb
    obtain ⟨courses, result, s', hall, hbatch, hlog⟩ := store.run_runBatch .reads batch s
    have hrun : s.run (store.batchGet b) = s.run (store.runBatch .reads batch) := by
      rw [batchGet, Session.run_lift_bind, hb]
    rw [hchunks] at hall
    rw [hrun, hbatch]
    refine ⟨courses, hlog, ?_, ?_⟩
    · have hasks : ∀ x ∈ courses.flatten, AsksOnly b.table 100 x.request := by
        refine hall.requests ?_ ?_
        · intro r state p hp hr
          exact hr.remainder (answers r state p hp)
        · intro chunk hchunk
          obtain ⟨slice, hslice, rfl⟩ := List.mem_map.1 hchunk
          exact asksOnly_chunk b asked (hslices.bounded slice hslice)
      intro x hx
      exact (hasks x hx).entries_le
    · intro response hresponse
      obtain ⟨rs, rfl, rfl⟩ := map_eq_ok.1 hresponse
      refine ⟨asked, hasked, ?_⟩
      have hsub : ∀ slice ∈ chunksOf BatchKind.mostKeys b.keys, slice.Sublist b.keys := by
        intro slice hslice
        have hsub := List.sublist_flatten_of_mem hslice
        rwa [hslices.flatten] at hsub
      have hitems := flatMap_listAt_of_submits answers
        (fun slice hslice => hkeys.sublist (hsub slice hslice))
        (fun slice hslice key hkey => keyed key ((hsub slice hslice).subset hkey) asked.options)
        hall.responses
      rw [hslices.flatten] at hitems
      rw [listAt_foldl_merge, hitems]
      rfl

/-- Every key has an item but one. -/
def storedItem (_ : String) (_ : TableKeys) (key : Item) : Option Item :=
  if key == .singleton "id" (.string "b") then none
  else some ((Keyed.singleton "n" (.number "1")).union key)

/-- The answer that leaves the first `n` keys of every table open and has the items of the others in
reverse. -/
def reversedAnswer (content : String → TableKeys → Item → Option Item) (n : Nat)
    (request : BatchGetRequest) : BatchGetResponse where
  responses := request.tables.mapWithKey fun name t =>
    ((t.keys.drop n).filterMap (content name t.options)).reverse
  unprocessed := request.tables.mapWithKey fun _ t => { t with keys := t.keys.take n }

theorem answers_reversedAnswer (content : String → TableKeys → Item → Option Item) (n : Nat)
    (request : BatchGetRequest) : Answers content request (reversedAnswer content n request) where
  split := by
    intro name
    refine ⟨(tableAt request.tables name).keys.drop n, ?_⟩
    unfold tableAt Keyed.listAt reversedAnswer
    rw [Keyed.get?_mapWithKey, Keyed.get?_mapWithKey]
    cases request.tables.get? name with
    | none => simp
    | some t =>
      have hkeys : t.keys.Perm (t.keys.drop n ++ t.keys.take n) := by
        conv_lhs => rw [← List.take_append_drop n t.keys]
        exact List.perm_append_comm
      exact ⟨hkeys, List.reverse_perm _⟩
  options := by
    intro name _
    unfold tableAt reversedAnswer
    rw [Keyed.get?_mapWithKey]
    cases request.tables.get? name <;> rfl

/-- A provider that leaves the first key of every table open at first, then loses a request, and
answers everything from then on. -/
def hesitantReader : Provider Nat
  | .batchGetItem, request, n =>
    ({ outcome := if n = 1 then .error (.transport "lost")
        else .ok (reversedAnswer storedItem (if n = 0 then 1 else 0) request) }, n + 1)
  | _, _, n => ({ outcome := .error (.transport "off") }, n)

/-- Three keys, one of which has no item. -/
def threeKeys : Call.BatchGet where
  table := "t"
  keys := [.singleton "id" (.string "a"), .singleton "id" (.string "b"),
    .singleton "id" (.string "c")]

theorem batchGet_complete_hesitant :
    ∃ (response : BatchGetResponse) (asked : TableKeys),
      ((⟨0, {}, []⟩ : Session Nat).run ((new hesitantReader).batchGet threeKeys)).1 =
        .ok response ∧
      threeKeys.tableKeys = .ok asked ∧
      response.responses.listAt "t" = threeKeys.keys.filterMap (storedItem "t" asked.options) := by
  have hkeys : DistinctKeys threeKeys.keys := ⟨by decide +kernel, by decide +kernel⟩
  have keyed : ∀ key ∈ threeKeys.keys, ∀ options item,
      storedItem "t" options key = some item → item.Contains key := by
    intro key _ options item h name value hvalue
    unfold storedItem at h
    by_cases hb : (key == .singleton "id" (.string "b")) = true
    · rw [if_pos hb] at h
      cases h
    · rw [if_neg hb] at h
      cases h
      refine ⟨value, ?_, AttributeValue.same_refl value⟩
      rw [Keyed.get?_union, hvalue, Option.some_or]
  have answers : hesitantReader.AnswersFrom storedItem := by
    intro request n response h
    by_cases hn : n = 1
    · simp [hesitantReader, hn] at h
    · simp only [hesitantReader, if_neg hn] at h
      cases h
      exact answers_reversedAnswer storedItem _ request
  obtain ⟨courses, -, -, hok⟩ :=
    batchGet_complete_in_order (new hesitantReader) threeKeys ⟨0, {}, []⟩ hkeys keyed answers
  obtain ⟨response, hresponse⟩ := exists_eq_ok
    (x := ((⟨0, {}, []⟩ : Session Nat).run ((new hesitantReader).batchGet threeKeys)).1)
    (by decide +kernel)
  obtain ⟨asked, hasked, hitems⟩ := hok response hresponse
  exact ⟨response, asked, hresponse, hasked (by simp [threeKeys]), hitems⟩

end Store

end ItemStore
