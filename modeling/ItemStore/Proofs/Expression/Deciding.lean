import ItemStore.Proofs.Expression.Checking
import ItemStore.Proofs.Expression.Sources

/-!
# Deciding whether an expression can be compiled

Compiling reads what it is given and refuses what cannot be read.  A refusal is an error of one of
two kinds (`StoreError.IsRefusal`), and a computation `Decides` a property if it succeeds exactly
when the property holds and fails with refusals only.  What is decided in steps is a conjunction
(`Decides.bind`), so the properties are put together as the computations are.

* `Condition.compile_decides`: a condition compiles exactly if it makes sense.
* `Update.compile_decides`, `Projection.compile_decides`: an update or a projection compiles exactly
  if all of its paths can be read.
* `Bundle.withCondition_decides` and its siblings: putting expressions together refuses nothing
  more.
-/

namespace ItemStore

/-- An error with which a description is refused. -/
inductive StoreError.IsRefusal : StoreError → Prop where
  | validation (text : String) : IsRefusal (.validation text)
  | malformedPath (path reason : String) : IsRefusal (.malformedPath path reason)

/-! ## Refusing -/

/-- A computation fails with refusals only. -/
def Refuses {α : Type} (x : Except StoreError α) : Prop := ∀ e, x = .error e → e.IsRefusal

namespace Refuses

variable {α β : Type} {x : Except StoreError α}

theorem ok {a : α} : Refuses (.ok a) := nofun

theorem error {e : StoreError} (h : e.IsRefusal) : Refuses (.error e : Except StoreError α) := by
  rintro _ ⟨⟩
  exact h

/-- If both steps fail with refusals only, so does what they make together. -/
theorem bind {f : α → Except StoreError β} (hx : Refuses x) (hf : ∀ a, Refuses (f a)) :
    Refuses (x >>= f) := by
  cases x with
  | error e => exact .error (hx e rfl)
  | ok a => exact hf a

theorem map {g : α → β} (hx : Refuses x) : Refuses (do return g (← x)) := hx.bind fun _ => .ok

end Refuses

/-- A computation decides a property: it succeeds if the property holds and refuses otherwise. -/
structure Decides {α : Type} (x : Except StoreError α) (valid : Prop) : Prop where
  ok_iff : (∃ a, x = .ok a) ↔ valid
  refuses : Refuses x

namespace Decides

variable {α β : Type} {x : Except StoreError α} {valid valid' : Prop}

/-- A property may be put in other words. -/
theorem congr (h : Decides x valid) (hiff : valid ↔ valid') : Decides x valid' :=
  ⟨h.ok_iff.trans hiff, h.refuses⟩

theorem ok {a : α} (h : valid) : Decides (.ok a) valid := ⟨iff_of_true ⟨a, rfl⟩ h, .ok⟩

theorem error {e : StoreError} (he : e.IsRefusal) (h : ¬ valid) :
    Decides (.error e : Except StoreError α) valid :=
  ⟨iff_of_false nofun h, .error he⟩

/-- What is decided in two steps is the conjunction of what the steps decide.  The second step may
rely on the result of the first. -/
theorem bind {f : α → Except StoreError β} (hx : Decides x valid)
    (hf : ∀ a, x = .ok a → Decides (f a) valid') : Decides (x >>= f) (valid ∧ valid') := by
  cases x with
  | error e => exact error (hx.refuses e rfl) fun h => nomatch (hx.ok_iff.2 h.1)
  | ok a => exact (hf a rfl).congr (and_iff_right (hx.ok_iff.1 ⟨a, rfl⟩)).symm

/-- Making something of the result refuses nothing more. -/
theorem map {g : α → β} (hx : Decides x valid) : Decides (do return g (← x)) valid :=
  (hx.bind fun a _ => ok (a := g a) trivial).congr (and_iff_left trivial)

/-- A computation for every element of a list decides the property of all of them. -/
theorem mapM {f : α → Except StoreError β} {P : α → Prop} (h : ∀ a, Decides (f a) (P a))
    (l : List α) : Decides (l.mapM f) (∀ a ∈ l, P a) := by
  induction l with
  | nil => exact ok (List.forall_mem_nil _)
  | cons a l ih =>
    rw [List.mapM_cons]
    exact ((h a).bind fun _ _ => ih.map).congr List.forall_mem_cons.symm

/-- Checks of every element of a list decide the property of all of them. -/
theorem forM {f : α → Except StoreError PUnit} {P : α → Prop} (h : ∀ a, Decides (f a) (P a))
    (l : List α) : Decides (l.forM f) (∀ a ∈ l, P a) := by
  induction l with
  | nil => exact ok (List.forall_mem_nil _)
  | cons a l ih => exact ((h a).bind fun _ _ => ih).congr List.forall_mem_cons.symm

end Decides

/-! ## Paths and conditions -/

/-- A text can be read as a path. -/
def ReadablePath (text : String) : Prop := ∃ p, Path.parse text = .ok p

/-- Reading a path is what decides whether it can be read. -/
theorem Path.parse_decides (text : String) : Decides (parse text) (ReadablePath text) := by
  refine ⟨Iff.rfl, ?_⟩
  unfold parse
  split
  · exact .ok
  · exact .error (.malformedPath _ _)

namespace Condition

/-- A subject is refused for its path, whether the path or its size is compared. -/
theorem checkSubject_refuses : ∀ s : Subject String, Refuses (checkSubject s)
  | .path text => (Path.parse_decides text).refuses.map
  | .size text => (Path.parse_decides text).refuses.map

mutual

/-- Checking fails at an empty group, at an empty list of choices or at a path; there are no other
errors. -/
theorem check_refuses : ∀ c : Condition String, Refuses c.check
  | .all [] => .error (.validation _)
  | .any [] => .error (.validation _)
  | .all (c :: rest) => (checkAll_refuses (c :: rest)).map
  | .any (c :: rest) => (checkAll_refuses (c :: rest)).map
  | .not child => (check_refuses child).map
  | .compare subject _ _ => (checkSubject_refuses subject).map
  | .between subject _ _ => (checkSubject_refuses subject).map
  | .oneOf _ [] => .error (.validation _)
  | .oneOf subject (_ :: _) => (checkSubject_refuses subject).map
  | .beginsWith text _ => (Path.parse_decides text).refuses.map
  | .contains text _ => (Path.parse_decides text).refuses.map
  | .present text => (Path.parse_decides text).refuses.map
  | .absent text => (Path.parse_decides text).refuses.map
  | .hasKind text _ => (Path.parse_decides text).refuses.map

theorem checkAll_refuses : ∀ cs : List (Condition String), Refuses (checkAll cs)
  | [] => .ok
  | c :: rest => (check_refuses c).bind fun _ => (checkAll_refuses rest).map

end

/-- A condition is checked completely: it passes exactly if it makes sense. -/
theorem check_decides (c : Condition String) : Decides c.check c.Sound :=
  ⟨exists_check_iff, check_refuses c⟩

/-- A condition compiles exactly if it makes sense, whatever the stem of its placeholders. -/
theorem compile_decides (c : Condition String) (stem : String) :
    Decides (c.compile stem) c.Sound :=
  (check_decides c).map

end Condition

/-! ## Expressions -/

/-- What conditions make together makes sense, if they make anything. -/
def ValidConditions (cs : List (Condition String)) : Prop := ∀ c ∈ Condition.chain cs, c.Sound

/-- Every path of a projection can be read. -/
def ValidProjection (paths : List String) : Prop := ∀ text ∈ paths, ReadablePath text

/-- Every path of an update can be read. -/
def ReadableActions (actions : List (UpdateAction String)) : Prop :=
  ∀ a ∈ actions, ReadablePath a.path

/-- An action is refused for its path only. -/
theorem UpdateAction.locate_decides (a : UpdateAction String) :
    Decides a.locate (ReadablePath a.path) :=
  (Path.parse_decides a.path).map

namespace Update

/-- Every action is written in one clause or another. -/
theorem mem_clauses {a : UpdateAction String} {actions : List (UpdateAction String)} :
    a ∈ (UpdateClause.all.flatMap fun k => ofClause k actions) ↔ a ∈ actions := by
  have hall : a.clause ∈ UpdateClause.all := by cases a.clause <;> simp [UpdateClause.all]
  simp [List.mem_flatMap, mem_ofClause, hall]

/-- Actions are gathered by clause before their paths are read, and none is left out. -/
theorem compile_decides (actions : List (UpdateAction String)) (stem : String) :
    Decides (compile actions stem) (ReadableActions actions) := by
  have hgrouped : (∀ a ∈ UpdateClause.all.flatMap fun k => ofClause k actions,
      ReadablePath a.path) ↔ ReadableActions actions :=
    forall_congr' fun a => imp_congr_left mem_clauses
  exact ((Decides.mapM UpdateAction.locate_decides _).congr hgrouped).map

end Update

/-- Paths are read without repetitions, which leaves the same paths. -/
theorem Projection.compile_decides (paths : List String) (stem : String) :
    Decides (Projection.compile paths stem) (ValidProjection paths) := by
  have hdistinct : (∀ text ∈ distinct paths, ReadablePath text) ↔ ValidProjection paths := by
    simp [ValidProjection, distinct]
  exact ((Decides.mapM Path.parse_decides _).congr hdistinct).map

/-- The actions of an update could be read when they were added to it. -/
theorem Updates.readable (u : Updates) : ReadableActions u.actions := by
  intro a ha
  obtain ⟨p, hp, -⟩ := bind_eq_ok.1 (u.valid a ha)
  exact ⟨p, hp⟩

namespace Bundle

variable (b : Bundle)

/-- Putting a condition into a bundle refuses it exactly if compiling does. -/
theorem withCondition_decides (slot : Slot) (c : Option (Condition String)) :
    Decides (b.withCondition slot c) (∀ c' ∈ c, Condition.Sound c') := by
  cases c with
  | none => exact .ok fun _ h => nomatch h
  | some c => exact (c.compile_decides slot.stem).map.congr (by simp)

/-- Putting a projection into a bundle refuses it exactly if compiling does. -/
theorem withProjection_decides (paths : List String) :
    Decides (b.withProjection paths) (ValidProjection paths) :=
  (Projection.compile_decides paths _).map

/-- Putting an update into a bundle refuses it exactly if compiling does. -/
theorem withUpdate_decides (actions : List (UpdateAction String)) :
    Decides (b.withUpdate actions) (ReadableActions actions) :=
  (Update.compile_decides actions _).map

end Bundle

end ItemStore
