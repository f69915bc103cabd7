import ItemStore.Attribute.Basic
import ItemStore.Proofs.Lists

/-!
# Equality of attribute values is an equivalence

Two attribute values are equal when `AttributeValue.same` says so.  The function looks at its
arguments in different ways: it walks through the first one and looks entries of maps up in the
second one.  Here it is shown to be reflexive, symmetric and transitive all the same.

* `same_map_iff` says what equality of maps means without any walk: under every name the two maps
  have equal values or none at all.
* `AttributeValue.same_refl`, `same_symm` and `same_trans` are by recursion on the value; the cases
  of maps go through `same_map_iff`.
-/

namespace ItemStore

namespace AttributeValue

/-! ## Maps -/

theorem sameUnder_eq (name : String) (es : List (String × AttributeValue)) (x : AttributeValue) :
    sameUnder name es x = (es.lookup name).any fun a => a.same x := by
  induction es with
  | nil => simp [sameUnder]
  | cons e rest ih =>
    obtain ⟨n, a⟩ := e
    rw [sameUnder, List.lookup_cons]
    by_cases h : (name == n) = true
    · simp [h]
    · rw [Bool.not_eq_true] at h
      rw [h]
      simpa using ih

theorem exists_mem_of_lookup {es : List (String × AttributeValue)} {name : String}
    {x : AttributeValue} (h : es.lookup name = some x) : ∃ e ∈ es, e.1 = name := by
  have hsome : (es.lookup name).isSome = true := by rw [h]; rfl
  obtain ⟨e, he, hname⟩ := List.lookup_isSome_iff.1 hsome
  exact ⟨e, he, (beq_iff_eq.1 hname).symm⟩

/-- Maps are equal when they have equal values, or none, under every name. -/
theorem same_map_iff {a b : List (String × AttributeValue)} :
    (AttributeValue.map a).same (.map b) = true ↔
      ∀ name, Option.Rel (fun x y => x.same y = true) (a.lookup name) (b.lookup name) := by
  simp only [same, Bool.and_eq_true, List.all_eq_true, sameUnder_eq]
  constructor
  · rintro ⟨hab, hba⟩ name
    cases hb : b.lookup name with
    | none =>
      cases ha : a.lookup name with
      | none => exact .none
      | some x =>
        obtain ⟨e, he, rfl⟩ := exists_mem_of_lookup ha
        have := hab e he
        rw [hb] at this
        cases this
    | some y =>
      obtain ⟨e, he, rfl⟩ := exists_mem_of_lookup hb
      have hy := hba e he
      rw [hb, Option.all_some] at hy
      cases ha : a.lookup e.1 with
      | none => rw [ha] at hy; cases hy
      | some x => rw [ha] at hy; exact .some (by simpa using hy)
  · intro h
    constructor
    · intro e he
      have hsome : (a.lookup e.1).isSome = true := List.lookup_isSome_iff.2 ⟨e, he, by simp⟩
      have hrel := h e.1
      generalize a.lookup e.1 = x at hrel hsome
      generalize b.lookup e.1 = y at hrel ⊢
      cases hrel with
      | some hxy => rfl
      | none => cases hsome
    · intro e he
      have hrel := h e.1
      generalize a.lookup e.1 = x at hrel ⊢
      generalize b.lookup e.1 = y at hrel ⊢
      cases hrel with
      | some hxy => simpa using hxy
      | none => rfl

/-! ## The three laws -/

mutual

/-- A value holds the same as itself. -/
theorem same_refl : ∀ v : AttributeValue, v.same v = true
  | .string _ => by simp [same]
  | .number _ => by simp [same]
  | .binary _ => by simp [same]
  | .stringSet _ => by simp [same, List.isPerm_iff]
  | .numberSet _ => by simp [same, List.isPerm_iff]
  | .binarySet _ => by simp [same, List.isPerm_iff]
  | .bool _ => by simp [same]
  | .null _ => by simp [same]
  | .list es => by rw [same]; exact sameElements_refl es
  | .map es => by
    refine same_map_iff.2 fun name => ?_
    cases h : es.lookup name with
    | none => exact .none
    | some x => exact .some (same_refl_of_lookup es h)

theorem sameElements_refl : ∀ es : List AttributeValue, sameElements es es = true
  | [] => by rw [sameElements]
  | v :: rest => by rw [sameElements, same_refl v, sameElements_refl rest]; rfl

theorem same_refl_of_lookup : ∀ (es : List (String × AttributeValue)) {name : String}
    {x : AttributeValue}, es.lookup name = some x → x.same x = true
  | [], _, _, h => by cases h
  | (n, v) :: rest, name, x, h => by
    rw [List.lookup_cons] at h
    split at h
    · cases h
      exact same_refl v
    · exact same_refl_of_lookup rest h

end

mutual

/-- Holding the same does not depend on the side. -/
theorem same_symm : ∀ (a : AttributeValue) {b : AttributeValue}, a.same b = true → b.same a = true
  | .string _, b, h => by cases b <;> simp_all [same]
  | .number _, b, h => by cases b <;> simp_all [same]
  | .binary _, b, h => by cases b <;> simp_all [same]
  | .stringSet _, b, h => by cases b <;> simp_all [same, List.isPerm_iff, List.perm_comm]
  | .numberSet _, b, h => by cases b <;> simp_all [same, List.isPerm_iff, List.perm_comm]
  | .binarySet _, b, h => by cases b <;> simp_all [same, List.isPerm_iff, List.perm_comm]
  | .bool _, b, h => by cases b <;> simp_all [same]
  | .null _, b, h => by cases b <;> simp_all [same]
  | .list es, b, h => by
    cases b with
    | list fs =>
      rw [same] at h ⊢
      exact sameElements_symm es h
    | _ => simp [same] at h
  | .map es, b, h => by
    cases b with
    | map fs =>
      refine same_map_iff.2 fun name => rel_swap (fun x y hx hxy => ?_) (same_map_iff.1 h name)
      exact same_symm_of_lookup es hx hxy
    | _ => simp [same] at h

theorem sameElements_symm : ∀ (es : List AttributeValue) {fs : List AttributeValue},
    sameElements es fs = true → sameElements fs es = true
  | [], [], _ => by rw [sameElements]
  | [], _ :: _, h => by simp [sameElements] at h
  | _ :: _, [], h => by simp [sameElements] at h
  | v :: es, w :: fs, h => by
    rw [sameElements, Bool.and_eq_true] at h ⊢
    exact ⟨same_symm v h.1, sameElements_symm es h.2⟩

theorem same_symm_of_lookup : ∀ (es : List (String × AttributeValue)) {name : String}
    {x y : AttributeValue}, es.lookup name = some x → x.same y = true → y.same x = true
  | [], _, _, _, h, _ => by cases h
  | (n, v) :: rest, name, x, y, h, hxy => by
    rw [List.lookup_cons] at h
    split at h
    · cases h
      exact same_symm v hxy
    · exact same_symm_of_lookup rest h hxy

end

mutual

/-- Holding the same carries on from one value to the next. -/
theorem same_trans : ∀ (a : AttributeValue) {b c : AttributeValue},
    a.same b = true → b.same c = true → a.same c = true
  | .string _, b, c, h, h' => by cases b <;> cases c <;> simp_all [same]
  | .number _, b, c, h, h' => by cases b <;> cases c <;> simp_all [same]
  | .binary _, b, c, h, h' => by cases b <;> cases c <;> simp_all [same]
  | .stringSet _, b, c, h, h' => by
    cases b <;> cases c <;> simp [same, List.isPerm_iff] at h h' ⊢
    exact h.trans h'
  | .numberSet _, b, c, h, h' => by
    cases b <;> cases c <;> simp [same, List.isPerm_iff] at h h' ⊢
    exact h.trans h'
  | .binarySet _, b, c, h, h' => by
    cases b <;> cases c <;> simp [same, List.isPerm_iff] at h h' ⊢
    exact h.trans h'
  | .bool _, b, c, h, h' => by cases b <;> cases c <;> simp_all [same]
  | .null _, b, c, h, h' => by cases b <;> cases c <;> simp_all [same]
  | .list es, b, c, h, h' => by
    cases b <;> cases c <;> simp only [same, reduceCtorEq] at h h' ⊢
    exact sameElements_trans es h h'
  | .map es, b, c, h, h' => by
    cases b with
    | map fs =>
      cases c with
      | map gs =>
        refine same_map_iff.2 fun name => rel_trans (fun x y z hx hxy hyz => ?_)
          (same_map_iff.1 h name) (same_map_iff.1 h' name)
        exact same_trans_of_lookup es hx hxy hyz
      | _ => simp [same] at h'
    | _ => simp [same] at h

theorem sameElements_trans : ∀ (es : List AttributeValue) {fs gs : List AttributeValue},
    sameElements es fs = true → sameElements fs gs = true → sameElements es gs = true
  | [], fs, gs, h, h' => by
    cases fs with
    | nil => exact h'
    | cons w fs => simp [sameElements] at h
  | v :: es, fs, gs, h, h' => by
    cases fs with
    | nil => simp [sameElements] at h
    | cons w fs =>
      cases gs with
      | nil => simp [sameElements] at h'
      | cons u gs =>
        rw [sameElements, Bool.and_eq_true] at h h' ⊢
        exact ⟨same_trans v h.1 h'.1, sameElements_trans es h.2 h'.2⟩

theorem same_trans_of_lookup : ∀ (es : List (String × AttributeValue)) {name : String}
    {x y z : AttributeValue}, es.lookup name = some x → x.same y = true → y.same z = true →
      x.same z = true
  | [], _, _, _, _, h, _, _ => by cases h
  | (n, v) :: rest, name, x, y, z, h, hxy, hyz => by
    rw [List.lookup_cons] at h
    split at h
    · cases h
      exact same_trans v hxy hyz
    · exact same_trans_of_lookup rest h hxy hyz

end

instance : EquivBEq AttributeValue where
  rfl := same_refl _
  symm := same_symm _
  trans := same_trans _

end AttributeValue

/-! ## Collections -/

namespace Keyed

variable {α : Type} [BEq α]

theorem beq_of_lookup {es fs : List (String × α)} (hkeys : es.map (·.1) = fs.map (·.1))
    (hnodup : (es.map (·.1)).Nodup) (h : ∀ k, Option.Rel (fun x y => (x == y) = true)
      (es.lookup k) (fs.lookup k)) : (es == fs) = true := by
  induction es generalizing fs with
  | nil =>
    cases fs with
    | nil => rfl
    | cons f fs => cases hkeys
  | cons e es ih =>
    cases fs with
    | nil => cases hkeys
    | cons f fs =>
      obtain ⟨k, x⟩ := e
      obtain ⟨k', y⟩ := f
      rw [List.map_cons, List.map_cons] at hkeys
      obtain ⟨hk : k = k', htail⟩ := List.cons_eq_cons.1 hkeys
      subst hk
      obtain ⟨hmem, hnodup⟩ := List.nodup_cons.1 hnodup
      have hxy : (x == y) = true := by
        have hrel := h k
        rw [List.lookup_cons_self, List.lookup_cons_self] at hrel
        cases hrel with
        | some hxy => exact hxy
      have hrest : ∀ j, Option.Rel (fun x y => (x == y) = true) (es.lookup j) (fs.lookup j) := by
        intro j
        by_cases hj : j = k
        · subst hj
          have hmem' : j ∉ fs.map (·.1) := by rwa [← htail]
          rw [lookup_eq_none_of_not_mem hmem, lookup_eq_none_of_not_mem hmem']
          exact .none
        · have hne : (j == k) = false := by simp [hj]
          have hrel := h j
          rwa [List.lookup_cons, List.lookup_cons, hne] at hrel
      show ((k == k && x == y) && es == fs) = true
      rw [beq_self_eq_true, hxy, ih htail hnodup hrest]
      rfl

/-- Collections with equal values, or none, under every key are equal. -/
theorem beq_of_get? {a b : Keyed α}
    (h : ∀ k, Option.Rel (fun x y => (x == y) = true) (a.get? k) (b.get? k)) :
    (a == b) = true := by
  have hunits : a.mapWithKey (fun _ _ => ()) = b.mapWithKey (fun _ _ => ()) := by
    refine ext_get? fun k => ?_
    rw [get?_mapWithKey, get?_mapWithKey]
    have hrel := h k
    generalize a.get? k = x at hrel ⊢
    generalize b.get? k = y at hrel ⊢
    cases hrel <;> rfl
  have hkeys : a.keys = b.keys := by
    rw [← keys_mapWithKey (fun _ _ => ()) a, hunits, keys_mapWithKey]
  exact beq_of_lookup hkeys a.nodup_keys h

end Keyed

end ItemStore
