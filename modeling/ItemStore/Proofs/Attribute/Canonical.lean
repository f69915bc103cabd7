import ItemStore.Attribute.Hashing
import ItemStore.Proofs.Attribute.Sameness

/-!
# The canonical form of an attribute value

Values that hold the same may be written down in different ways: the elements of a set in any order,
the entries of a map in any order.  The canonical form of a value is one way to write it down that
does not depend on the choice, at every depth: sets sorted with their repetitions, maps in the order
of their names, lists as they are.

* `AttributeValue.same_canonical`: a value holds the same as its canonical form.
* `AttributeValue.same_iff_canonical`: two values hold the same exactly if they have one canonical
  form.
* `AttributeValue.hashWrites_canonical`: a hasher is told of a value what it is told of its
  canonical form, and so it cannot tell apart values that hold the same.
-/

namespace ItemStore

namespace AttributeValue

/-! ## Sorted elements -/

section Sorted

variable {α : Type} [Ord α]

theorem sorted_perm (l : List α) : (sorted l).Perm l := List.mergeSort_perm l _

variable [Std.TransOrd α]

theorem pairwise_sorted (l : List α) :
    (sorted l).Pairwise fun a b => (compare a b).isLE = true := by
  have htrans : ∀ a b c : α, (compare a b).isLE = true → (compare b c).isLE = true →
      (compare a c).isLE = true := fun _ _ _ => Std.TransOrd.isLE_trans
  refine List.pairwise_mergeSort htrans (fun a b => ?_) l
  rw [Std.OrientedOrd.eq_swap (a := b) (b := a)]
  cases compare a b <;> rfl

variable [Std.LawfulEqOrd α]

/-- The order in which elements come leaves no trace in the sorted elements. -/
theorem sorted_eq_of_perm {l l' : List α} (h : l.Perm l') : sorted l = sorted l' := by
  refine List.Perm.eq_of_pairwise (fun a b _ _ hab hba => ?_) (pairwise_sorted l)
    (pairwise_sorted l') ?_
  · exact Std.LawfulEqOrd.eq_of_compare (Std.OrientedCmp.isLE_antisymm hab hba)
  · exact (sorted_perm l).trans (h.trans (sorted_perm l').symm)

theorem sorted_sorted (l : List α) : sorted (sorted l) = sorted l :=
  sorted_eq_of_perm (sorted_perm l)

end Sorted

/-! ## The canonical form -/

mutual

/-- The canonical form of a value. -/
def canonical : AttributeValue → AttributeValue
  | .string s => .string s
  | .number s => .number s
  | .binary bs => .binary bs
  | .stringSet elements => .stringSet (sorted elements)
  | .numberSet elements => .numberSet (sorted elements)
  | .binarySet elements => .binarySet (sorted elements)
  | .bool b => .bool b
  | .null b => .null b
  | .list elements => .list (canonicalElements elements)
  | .map entries => .map (Keyed.ofFirst (canonicalEntries entries)).entries

/-- The canonical forms of values one after another. -/
def canonicalElements : List AttributeValue → List AttributeValue
  | [] => []
  | v :: rest => v.canonical :: canonicalElements rest

/-- The canonical forms of the values under names. -/
def canonicalEntries : List (String × AttributeValue) → List (String × AttributeValue)
  | [] => []
  | (name, v) :: rest => (name, v.canonical) :: canonicalEntries rest

end

theorem lookup_canonicalEntries (name : String) (es : List (String × AttributeValue)) :
    (canonicalEntries es).lookup name = (es.lookup name).map canonical := by
  have hmap : canonicalEntries es = es.map fun e => (e.1, e.2.canonical) := by
    induction es with
    | nil => rw [canonicalEntries, List.map_nil]
    | cons e es ih => rw [canonicalEntries, ih, List.map_cons]
  rw [hmap]
  exact Keyed.lookup_map (fun _ v => v.canonical) name es

theorem lookup_entryWrites (name : String) (es : List (String × AttributeValue)) :
    (entryWrites es).lookup name = (es.lookup name).map hashWrites := by
  have hmap : entryWrites es = es.map fun e => (e.1, e.2.hashWrites) := by
    induction es with
    | nil => rw [entryWrites, List.map_nil]
    | cons e es ih => rw [entryWrites, ih, List.map_cons]
  rw [hmap]
  exact Keyed.lookup_map (fun _ v => v.hashWrites) name es

theorem length_canonicalElements (es : List AttributeValue) :
    (canonicalElements es).length = es.length := by
  induction es with
  | nil => rw [canonicalElements]
  | cons v es ih => rw [canonicalElements, List.length_cons, List.length_cons, ih]

/-- The canonical entries of a map have the canonical form of its value under every name. -/
theorem lookup_canonical (es : List (String × AttributeValue)) (name : String) :
    (Keyed.ofFirst (canonicalEntries es)).entries.lookup name =
      (es.lookup name).map canonical :=
  (Keyed.get?_ofFirst name (canonicalEntries es)).trans (lookup_canonicalEntries name es)

/-! ## A value and its canonical form -/

mutual

/-- A value holds the same as its canonical form. -/
theorem same_canonical : ∀ v : AttributeValue, v.same v.canonical = true
  | .string _ => by simp [canonical, same]
  | .number _ => by simp [canonical, same]
  | .binary _ => by simp [canonical, same]
  | .stringSet es => by simpa [canonical, same, List.isPerm_iff] using (sorted_perm es).symm
  | .numberSet es => by simpa [canonical, same, List.isPerm_iff] using (sorted_perm es).symm
  | .binarySet es => by simpa [canonical, same, List.isPerm_iff] using (sorted_perm es).symm
  | .bool _ => by simp [canonical, same]
  | .null _ => by simp [canonical, same]
  | .list es => by
    rw [canonical, same]
    exact sameElements_canonical es
  | .map es => by
    rw [canonical]
    refine same_map_iff.2 fun name => ?_
    rw [lookup_canonical]
    cases h : es.lookup name with
    | none => exact .none
    | some v => exact .some (same_canonical_of_lookup es h)

theorem sameElements_canonical : ∀ es : List AttributeValue,
    sameElements es (canonicalElements es) = true
  | [] => by rw [canonicalElements, sameElements]
  | v :: rest => by
    rw [canonicalElements, sameElements, same_canonical v, sameElements_canonical rest]
    rfl

theorem same_canonical_of_lookup : ∀ (es : List (String × AttributeValue)) {name : String}
    {v : AttributeValue}, es.lookup name = some v → v.same v.canonical = true
  | [], _, _, h => by cases h
  | (n, w) :: rest, name, v, h => by
    rw [List.lookup_cons] at h
    split at h
    · cases h
      exact same_canonical w
    · exact same_canonical_of_lookup rest h

end

mutual

/-- Values that hold the same have one canonical form. -/
theorem canonical_eq_of_same : ∀ (a : AttributeValue) {b : AttributeValue},
    a.same b = true → a.canonical = b.canonical
  | .string _, b, h => by cases b <;> simp_all [same, canonical]
  | .number _, b, h => by cases b <;> simp_all [same, canonical]
  | .binary _, b, h => by cases b <;> simp_all [same, canonical]
  | .stringSet _, b, h => by
    cases b <;> simp only [same, reduceCtorEq] at h
    rw [canonical, canonical, sorted_eq_of_perm (List.isPerm_iff.1 h)]
  | .numberSet _, b, h => by
    cases b <;> simp only [same, reduceCtorEq] at h
    rw [canonical, canonical, sorted_eq_of_perm (List.isPerm_iff.1 h)]
  | .binarySet _, b, h => by
    cases b <;> simp only [same, reduceCtorEq] at h
    rw [canonical, canonical, sorted_eq_of_perm (List.isPerm_iff.1 h)]
  | .bool _, b, h => by cases b <;> simp_all [same, canonical]
  | .null _, b, h => by cases b <;> simp_all [same, canonical]
  | .list es, b, h => by
    cases b with
    | list fs =>
      rw [same] at h
      rw [canonical, canonical, canonicalElements_eq_of_same es h]
    | _ => simp [same] at h
  | .map es, b, h => by
    cases b with
    | map fs =>
      -- both maps have one canonical form, or none, under every name
      have hentries :
          Keyed.ofFirst (canonicalEntries es) = Keyed.ofFirst (canonicalEntries fs) := by
        refine Keyed.ext_get? fun name => ?_
        rw [Keyed.get?, Keyed.get?, lookup_canonical, lookup_canonical]
        exact map_eq_map_of_rel (fun x y hx hxy => canonical_eq_of_lookup es hx hxy)
          (same_map_iff.1 h name)
      rw [canonical, canonical, hentries]
    | _ => simp [same] at h

theorem canonicalElements_eq_of_same : ∀ (es : List AttributeValue) {fs : List AttributeValue},
    sameElements es fs = true → canonicalElements es = canonicalElements fs
  | [], [], _ => rfl
  | [], _ :: _, h => by simp [sameElements] at h
  | _ :: _, [], h => by simp [sameElements] at h
  | v :: es, w :: fs, h => by
    rw [sameElements, Bool.and_eq_true] at h
    rw [canonicalElements, canonicalElements, canonical_eq_of_same v h.1,
      canonicalElements_eq_of_same es h.2]

theorem canonical_eq_of_lookup : ∀ (es : List (String × AttributeValue)) {name : String}
    {x y : AttributeValue}, es.lookup name = some x → x.same y = true → x.canonical = y.canonical
  | [], _, _, _, h, _ => by cases h
  | (n, v) :: rest, name, x, y, h, hxy => by
    rw [List.lookup_cons] at h
    split at h
    · cases h
      exact canonical_eq_of_same v hxy
    · exact canonical_eq_of_lookup rest h hxy

end

/-- Two values hold the same exactly if they have one canonical form. -/
theorem same_iff_canonical {a b : AttributeValue} :
    a.same b = true ↔ a.canonical = b.canonical := by
  constructor
  · exact canonical_eq_of_same a
  · intro h
    have hb : b.canonical.same b = true := same_symm b (same_canonical b)
    rw [← h] at hb
    exact same_trans a (same_canonical a) hb

/-! ## What is hashed of a value and of its canonical form -/

mutual

/-- A hasher is told of a value what it is told of its canonical form. -/
theorem hashWrites_canonical : ∀ v : AttributeValue, v.canonical.hashWrites = v.hashWrites
  | .string _ => by rw [canonical]
  | .number _ => by rw [canonical]
  | .binary _ => by rw [canonical]
  | .stringSet _ => by rw [canonical, hashWrites, hashWrites, setWrites, setWrites, sorted_sorted]
  | .numberSet _ => by rw [canonical, hashWrites, hashWrites, setWrites, setWrites, sorted_sorted]
  | .binarySet _ => by rw [canonical, hashWrites, hashWrites, setWrites, setWrites, sorted_sorted]
  | .bool _ => by rw [canonical]
  | .null _ => by rw [canonical]
  | .list es => by
    rw [canonical, hashWrites, hashWrites, length_canonicalElements, elementWrites_canonical es]
  | .map es => by
    have htold : Keyed.ofFirst (entryWrites (Keyed.ofFirst (canonicalEntries es)).entries) =
        Keyed.ofFirst (entryWrites es) := by
      refine Keyed.ext_get? fun name => ?_
      rw [Keyed.get?_ofFirst, Keyed.get?_ofFirst, lookup_entryWrites, lookup_entryWrites,
        lookup_canonical]
      cases h : es.lookup name with
      | none => rfl
      | some v =>
        rw [Option.map_some, Option.map_some, Option.map_some,
          hashWrites_canonical_of_lookup es h]
    rw [canonical, hashWrites, hashWrites, htold]

theorem elementWrites_canonical : ∀ es : List AttributeValue,
    elementWrites (canonicalElements es) = elementWrites es
  | [] => by rw [canonicalElements]
  | v :: rest => by
    rw [canonicalElements, elementWrites, elementWrites, hashWrites_canonical v,
      elementWrites_canonical rest]

theorem hashWrites_canonical_of_lookup : ∀ (es : List (String × AttributeValue)) {name : String}
    {v : AttributeValue}, es.lookup name = some v → v.canonical.hashWrites = v.hashWrites
  | [], _, _, h => by cases h
  | (n, w) :: rest, name, v, h => by
    rw [List.lookup_cons] at h
    split at h
    · cases h
      exact hashWrites_canonical w
    · exact hashWrites_canonical_of_lookup rest h

end

/-- Of values that hold the same a hasher is told the same. -/
theorem hashWrites_eq_of_same {a b : AttributeValue} (h : a.same b = true) :
    a.hashWrites = b.hashWrites := by
  rw [← hashWrites_canonical a, ← hashWrites_canonical b, same_iff_canonical.1 h]

end AttributeValue

end ItemStore
