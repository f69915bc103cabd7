import ItemStore.Proofs.Call.Faithful
import ItemStore.Proofs.Expression.Deciding
import ItemStore.Proofs.Store.Failures
import ItemStore.Store.Calls

/-!
# Validity is decided before anything is sent

Every description of a call has a predicate `Valid`, which says of its parts what has to be true of
them and nothing of how a request is made.  Compiling decides it: a valid description has a request
and any other one is refused.

* `X.compile_decides` says so of each kind of description `X`; the checks are composed step by step,
  as the compiling functions are.
* `validity_decided_first` says it of the calls: exactly the descriptions that are not valid are
  refused, before the session changes in any way, and a valid one fails in its execution if it
  fails.

The conditions of a call are added to its description one after another, so it is their conjunction
that has to make sense (`ValidConditions`).
-/

namespace ItemStore

namespace Call

/-! ## What is valid -/

/-- A key has one component or two. -/
def ValidKey (key : Item) : Prop := key.size = 1 ∨ key.size = 2

/-- An item to put has an attribute. -/
def ValidItem (item : Item) : Prop := item ≠ .empty

/-- A read needs a key, and a projection whose paths can be read. -/
def Get.Valid (g : Get) : Prop := ValidKey g.key ∧ ValidProjection g.projection

/-- A put needs an item, and conditions that make sense together. -/
def Put.Valid (p : Put) : Prop := ValidItem p.item ∧ ValidConditions p.conditions

/-- An update needs a key and an action, and conditions that make sense together. -/
def Update.Valid (u : Update) : Prop :=
  ValidKey u.key ∧ u.updates.actions ≠ [] ∧ ValidConditions u.conditions

/-- A delete needs a key, and conditions that make sense together. -/
def Delete.Valid (d : Delete) : Prop := ValidKey d.key ∧ ValidConditions d.conditions

/-- A condition check needs a key, and conditions that make sense together. -/
def Check.Valid (c : Check) : Prop := ValidKey c.key ∧ ValidConditions (c.condition :: c.more)

/-- A query needs a key condition; the filter and the projection may be missing. -/
def Query.Valid (q : Query) : Prop :=
  q.keyCondition.Sound ∧ ValidConditions q.filters ∧ ValidProjection q.projection

/-- A scan needs nothing, but its filter and its projection have to make sense. -/
def Scan.Valid (s : Scan) : Prop := ValidConditions s.filters ∧ ValidProjection s.projection

/-- Without keys nothing is asked for, and the projection is not looked at. -/
def BatchGet.Valid (b : BatchGet) : Prop :=
  (∀ key ∈ b.keys, ValidKey key) ∧ (b.keys ≠ [] → ValidProjection b.projection)

/-- A write in a batch has no conditions. -/
def Write.Valid : Write → Prop
  | .put item => ValidItem item
  | .delete key => ValidKey key

/-- Every write of a batch is valid on its own. -/
def BatchWrite.Valid (b : BatchWrite) : Prop := ∀ w ∈ b.writes, w.Valid

/-- An action of a transaction is valid as it is on its own. -/
def Action.Valid : Action → Prop
  | .check c => c.Valid
  | .put p => p.Valid
  | .delete d => d.Valid
  | .update u => u.Valid

/-- A transaction has an action, and not too many of them. -/
def ValidCount (count : Nat) : Prop := 1 ≤ count ∧ count ≤ 100

/-- A transaction has the right number of actions, each of them valid on its own. -/
def TransactWrite.Valid (t : TransactWrite) : Prop :=
  ValidCount t.actions.length ∧ ∀ a ∈ t.actions, a.Valid

/-- A transaction has the right number of reads, each of them valid on its own. -/
def TransactRead.Valid (t : TransactRead) : Prop :=
  ValidCount t.reads.length ∧ ∀ g ∈ t.reads, g.Valid

/-! ## Checks -/

theorem checkKey_decides (key : Item) : Decides (checkKey key) (ValidKey key) := by
  unfold checkKey
  split
  · rename_i h
    exact .ok h
  · rename_i h
    exact .error (.validation _) h

/-- The check of an item looks for an attribute, and there is one unless the item is empty. -/
theorem checkItem_decides (item : Item) : Decides (checkItem item) (ValidItem item) := by
  have hempty : item.isEmpty = true ↔ item = .empty :=
    ⟨fun h => Keyed.ext (List.isEmpty_iff.1 h), by rintro rfl; rfl⟩
  unfold checkItem
  split
  · rename_i h
    exact .error (.validation _) fun hvalid => hvalid (hempty.1 h)
  · rename_i h
    exact .ok fun hitem => h (hempty.2 hitem)

/-- The count is checked on both sides, from one action to a hundred. -/
theorem checkActions_decides (transaction : String) (count : Nat) :
    Decides (checkActions transaction count) (ValidCount count) := by
  unfold checkActions ValidCount
  split
  · exact .error (.validation _) (by omega)
  · split
    · rename_i h
      exact .error (.validation _) (by unfold mostActions at h; omega)
    · rename_i h
      exact .ok (by unfold mostActions at h; omega)

/-- The conditions of a write are refused exactly if their conjunction does not make sense. -/
theorem guardBundle_decides (cs : List (Condition String)) :
    Decides (guardBundle cs) (ValidConditions cs) :=
  (Bundle.empty.withCondition_decides _ _).map

/-- A projection is refused if one of its paths cannot be read. -/
theorem projectionBundle_decides (paths : List String) :
    Decides (projectionBundle paths) (ValidProjection paths) :=
  (Bundle.empty.withProjection_decides _).map

/-! ## Descriptions -/

/-- A read is decided by its key and its projection. -/
theorem Get.compile_decides (g : Get) : Decides g.compile g.Valid :=
  (checkKey_decides g.key).bind fun _ _ => (projectionBundle_decides g.projection).map

/-- A read in a transaction is refused as it is on its own. -/
theorem Get.inTransaction_decides (g : Get) : Decides g.inTransaction g.Valid :=
  g.compile_decides.map

/-- A put is decided by its item and its conditions. -/
theorem Put.compile_decides (p : Put) : Decides p.compile p.Valid :=
  (checkItem_decides p.item).bind fun _ _ => (guardBundle_decides p.conditions).map

/-- A delete is decided by its key and its conditions. -/
theorem Delete.compile_decides (d : Delete) : Decides d.compile d.Valid :=
  (checkKey_decides d.key).bind fun _ _ => (guardBundle_decides d.conditions).map

/-- The actions of an update need no check any more. -/
theorem Update.bundle_decides (u : Update) : Decides u.bundle (ValidConditions u.conditions) :=
  ((Bundle.empty.withUpdate_decides u.updates.actions).bind fun b _ =>
    (b.withCondition_decides _ _).map).congr (and_iff_right u.updates.readable)

/-- An update without actions is refused, and one with actions is decided by its key and its
conditions. -/
theorem Update.compile_decides (u : Update) : Decides u.compile u.Valid := by
  refine (checkKey_decides u.key).bind fun _ _ => ?_
  cases hactions : u.updates.isEmpty with
  | true =>
    have hnil : u.updates.actions = [] := List.isEmpty_iff.1 hactions
    exact .error (.validation _) fun h => h.1 hnil
  | false =>
    have hne : u.updates.actions ≠ [] := fun hnil => by
      rw [Updates.isEmpty, hnil] at hactions
      cases hactions
    exact (u.bundle_decides.map).congr (and_iff_right hne).symm

/-- Conditions that are written have a text, so that the last check of a query and that of a
condition check never refuse anything. -/
theorem exists_text_of_renders_conditions {bindings : Bindings} {text : Option String}
    {c : Condition String} {cs : List (Condition String)}
    (h : Renders bindings text (.conditions (c :: cs))) : ∃ t, text = some t := by
  obtain ⟨p, hp, hrel⟩ := h
  cases hp <;> cases hrel <;> exact ⟨_, rfl⟩

/-- A condition check always has a condition, so its text is there if the condition makes sense. -/
theorem Check.inTransaction_decides (c : Check) : Decides c.inTransaction c.Valid := by
  refine (checkKey_decides c.key).bind fun _ _ => ?_
  refine ((guardBundle_decides (c.condition :: c.more)).bind fun b hb => ?_).congr
    (and_iff_left trivial)
  obtain ⟨hcondition, -⟩ := List.forall₂_cons.1 (guardBundle_faithful hb).renders
  obtain ⟨text, htext⟩ := exists_text_of_renders_conditions hcondition
  rw [htext]
  exact .ok trivial

/-- The expressions of a query are decided one after another: key condition, filter, projection. -/
theorem Query.bundle_decides (q : Query) : Decides q.bundle q.Valid := by
  refine ((Bundle.empty.withCondition_decides _ _).congr (by simp)).bind fun b _ => ?_
  exact (b.withCondition_decides _ _).bind fun b _ => (b.withProjection_decides _).map

/-- The key condition of a query has a text once its expressions have been put together. -/
theorem Query.compile_decides (q : Query) : Decides q.compile q.Valid := by
  refine (q.bundle_decides.bind fun b hb => ?_).congr (and_iff_left trivial)
  obtain ⟨hkey, -⟩ := List.forall₂_cons.1 (Query.bundle_faithful hb).renders
  obtain ⟨text, htext⟩ := exists_text_of_renders_conditions hkey
  rw [htext]
  exact .ok trivial

/-- A scan is decided by its filters and its projection. -/
theorem Scan.compile_decides (s : Scan) : Decides s.compile s.Valid := by
  refine Decides.map ?_
  exact (Bundle.empty.withCondition_decides _ _).bind fun b _ => (b.withProjection_decides _).map

/-- Every key of a batch is checked; its projection is checked if there is a key. -/
theorem BatchGet.compile_decides (b : BatchGet) : Decides b.compile b.Valid := by
  refine (Decides.forM checkKey_decides b.keys).bind fun _ _ => ?_
  cases hkeys : b.keys with
  | nil => exact .ok fun h => absurd rfl h
  | cons key keys =>
    refine (projectionBundle_decides b.projection).map.map.congr ?_
    simp

/-- A write in a batch is checked as a put or a delete on its own is, conditions apart. -/
theorem Write.check_decides : ∀ w : Write, Decides w.check w.Valid
  | .put item => checkItem_decides item
  | .delete key => checkKey_decides key

theorem BatchWrite.compile_decides (b : BatchWrite) : Decides b.compile b.Valid :=
  (Decides.forM Write.check_decides b.writes).map

/-- An action in a transaction is refused as it is on its own. -/
theorem Action.request_decides : ∀ a : Action, Decides a.request a.Valid
  | .check c => c.inTransaction_decides.map
  | .put p => p.compile_decides.map.map
  | .delete d => d.compile_decides.map.map
  | .update u => u.compile_decides.map.map

/-- The number of actions is checked before the actions are. -/
theorem TransactWrite.compile_decides (t : TransactWrite) : Decides t.compile t.Valid :=
  (checkActions_decides _ _).bind fun _ _ => (Decides.mapM Action.request_decides _).map

/-- The number of reads is checked before the reads are. -/
theorem TransactRead.compile_decides (t : TransactRead) : Decides t.compile t.Valid :=
  (checkActions_decides _ _).bind fun _ _ =>
    (Decides.mapM (fun g : Get => g.inTransaction_decides.map) _).map

end Call

/-! ## Calls -/

/-- A call decides about its description before it sends anything. -/
structure DecidedFirst {σ ρ α : Type} (compiled : Except StoreError ρ) (call : Run σ α)
    (valid : Prop) : Prop where
  /-- Exactly the valid descriptions have a request. -/
  compiles_iff : (∃ request, compiled = .ok request) ↔ valid
  /-- Exactly the other ones are refused, and a refusal leaves the session as it was. -/
  refused_iff : ∀ s : Session σ, (∃ e, e.IsRefusal ∧ s.run call = (.error e, s)) ↔ ¬ valid
  /-- What fails though its description is valid fails in its execution. -/
  execution : valid → Run.FailsWith StoreError.IsExecution call

/-- A call that compiles its description before it does anything else is decided by compiling, if
what it does then fails in its execution only. -/
theorem Decides.decidedFirst {σ ρ α : Type} {compiled : Except StoreError ρ} {valid : Prop}
    {perform : ρ → Run σ α} (h : Decides compiled valid)
    (hperform : ∀ request, Run.FailsWith StoreError.IsExecution (perform request)) :
    DecidedFirst compiled (do perform (← .lift compiled)) valid := by
  have hexecution : valid →
      Run.FailsWith StoreError.IsExecution (do perform (← .lift compiled)) := by
    intro hvalid s s' e hrun
    obtain ⟨request, hrequest⟩ := h.ok_iff.2 hvalid
    rw [Session.run_lift_bind, hrequest] at hrun
    exact hperform request s s' e hrun
  refine ⟨h.ok_iff, fun s => ⟨?_, ?_⟩, hexecution⟩
  · rintro ⟨e, hrefusal, hrun⟩ hvalid
    exact hrefusal.not_isExecution (hexecution hvalid s s e hrun)
  · intro hinvalid
    cases hcompiled : compiled with
    | ok request => exact absurd (h.ok_iff.1 ⟨request, hcompiled⟩) hinvalid
    | error e => exact ⟨e, h.refuses e hcompiled, by rw [Session.run_lift_bind]⟩

/-- **Validity is decided completely, and before anything is sent.**  A call whose description is
not valid is refused, with the provider, the counters and the log of the session untouched; a valid
description always compiles, and what fails then fails in its execution, so that its error is never
taken for a refusal. -/
theorem validity_decided_first {σ : Type} (store : Store σ) :
    (∀ g : Call.Get, DecidedFirst g.compile (store.get g) g.Valid) ∧
    (∀ p : Call.Put, DecidedFirst p.compile (store.put p) p.Valid) ∧
    (∀ u : Call.Update, DecidedFirst u.compile (store.update u) u.Valid) ∧
    (∀ d : Call.Delete, DecidedFirst d.compile (store.delete d) d.Valid) ∧
    (∀ (q : Call.Query) (budget : Nat),
      DecidedFirst q.compile (store.query budget q) q.Valid) ∧
    (∀ (s : Call.Scan) (budget : Nat),
      DecidedFirst s.compile (store.scan budget s) s.Valid) ∧
    (∀ b : Call.BatchGet, DecidedFirst b.compile (store.batchGet b) b.Valid) ∧
    (∀ b : Call.BatchWrite, DecidedFirst b.compile (store.batchWrite b) b.Valid) ∧
    (∀ t : Call.TransactWrite, DecidedFirst t.compile (store.transactWrite t) t.Valid) ∧
    (∀ t : Call.TransactRead, DecidedFirst t.compile (store.transactRead t) t.Valid) :=
  ⟨fun g => g.compile_decides.decidedFirst (store.send_failsWith .getItem),
    fun p => p.compile_decides.decidedFirst (store.send_failsWith .putItem),
    fun u => u.compile_decides.decidedFirst (store.send_failsWith .updateItem),
    fun d => d.compile_decides.decidedFirst (store.send_failsWith .deleteItem),
    fun q budget => q.compile_decides.decidedFirst (store.runQuery_failsWith q.paging budget),
    fun s budget => s.compile_decides.decidedFirst (store.runScan_failsWith s.paging _ budget),
    fun b => b.compile_decides.decidedFirst (store.runBatch_failsWith .reads),
    fun b => b.compile_decides.decidedFirst (store.runBatch_failsWith .writes),
    fun t => t.compile_decides.decidedFirst (store.send_failsWith .transactWriteItems),
    fun t => t.compile_decides.decidedFirst (store.send_failsWith .transactGetItems)⟩

end ItemStore
