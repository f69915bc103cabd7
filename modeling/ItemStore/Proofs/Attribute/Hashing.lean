import ItemStore.Proofs.Attribute.Canonical

/-!
# Attribute values as keys of hash tables

A hash table looks for a key only where its hash leads to, so that keys that are equal have to have
the same hash.  Attribute values do, whatever the hasher: what it is told of a value is a function
of the canonical form.  Hash tables may therefore be trusted to keep attribute values apart exactly
as equality does.

* `Hasher.getKey?_eq_iff`: two keys lead to one entry of a table exactly if they are equal.
* `Hasher.getElem?_firsts`: a table into which entries are put unless there is one finds under a
  key the first of the entries whose keys are equal to it.
* `AttributeValue.equality_agrees_with_hashing` has all of it in one statement.
-/

namespace ItemStore

namespace Hasher

variable {h : Hasher}

instance : EquivBEq h.Key := inferInstanceAs (EquivBEq AttributeValue)

/-- Equal keys have the same hash. -/
instance : LawfulHashable h.Key where
  hash_eq a b hab := by
    have hwrites := AttributeValue.hashWrites_eq_of_same hab
    show h.finish ((AttributeValue.hashWrites a).foldl h.write h.start) =
      h.finish ((AttributeValue.hashWrites b).foldl h.write h.start)
    rw [hwrites]

/-! ## Tables -/

section Tables

variable {β : Type} {m : Std.HashMap h.Key β} {a b : h.Key}

/-- Two keys lead to one entry of a table exactly if they are equal. -/
theorem getKey?_eq_iff (ha : a ∈ m) : m.getKey? a = m.getKey? b ↔ (a == b) = true := by
  constructor
  · intro heq
    obtain ⟨k, hk⟩ := Option.isSome_iff_exists.1 (Std.HashMap.mem_iff_isSome_getKey?.1 ha)
    -- the key that is kept in the entry is equal to both
    have hka := Std.HashMap.getKey?_beq (m := m) (k := a)
    have hkb := Std.HashMap.getKey?_beq (m := m) (k := b)
    rw [hk, Option.all_some] at hka
    rw [← heq, hk, Option.all_some] at hkb
    exact BEq.trans (BEq.symm hka) hkb
  · exact Std.HashMap.getKey?_congr

/-- The table into which entries are put one after another, each unless its key has one. -/
def firsts (entries : List (h.Key × β)) : Std.HashMap h.Key β :=
  entries.foldl (fun m e => m.insertIfNew e.1 e.2) ∅

theorem getElem?_foldl_insertIfNew (entries : List (h.Key × β)) (m : Std.HashMap h.Key β) :
    (entries.foldl (fun m e => m.insertIfNew e.1 e.2) m)[a]? =
      m[a]?.or ((entries.find? fun e => e.1 == a).map (·.2)) := by
  induction entries generalizing m with
  | nil => simp
  | cons e entries ih =>
    rw [List.foldl_cons, ih, Std.HashMap.getElem?_insertIfNew, List.find?_cons]
    by_cases hea : (e.1 == a) = true
    · have hmem : e.1 ∈ m ↔ a ∈ m := Std.HashMap.mem_congr hea
      by_cases ha : a ∈ m
      · simp [hmem, ha]
      · simp [hea, hmem, ha]
    · simp [hea]

/-- Under a key there is the first of the entries that were put there under an equal key. -/
theorem getElem?_firsts (entries : List (h.Key × β)) :
    (firsts entries)[a]? = (entries.find? fun e => e.1 == a).map (·.2) := by
  rw [firsts, getElem?_foldl_insertIfNew, Std.HashMap.getElem?_empty, Option.none_or]

end Tables

end Hasher

namespace AttributeValue

/-- **Equality and hashing of attribute values agree.**

Equality is an equivalence, and values are equal exactly if they have one canonical form.  Of equal
values a hasher is told the same, call by call; and so, in sets and in maps, whatever they hash
with, two values share an entry exactly if they are equal, and the first of several equal values is
the one that is found. -/
theorem equality_agrees_with_hashing :
    (∀ a : AttributeValue, (a == a) = true) ∧
    (∀ a b : AttributeValue, (a == b) = true → (b == a) = true) ∧
    (∀ a b c : AttributeValue, (a == b) = true → (b == c) = true → (a == c) = true) ∧
    (∀ a b : AttributeValue, (a == b) = true ↔ a.canonical = b.canonical) ∧
    (∀ a b : AttributeValue, (a == b) = true → a.hashWrites = b.hashWrites) ∧
    ∀ (h : Hasher) (a b : h.Key),
      (∀ s : Std.HashSet h.Key, a ∈ s → (s.get? a = s.get? b ↔ (a == b) = true)) ∧
      ∀ β : Type,
        (∀ m : Std.HashMap h.Key β, a ∈ m → (m.getKey? a = m.getKey? b ↔ (a == b) = true)) ∧
        ∀ entries : List (h.Key × β),
          (Hasher.firsts entries)[a]? = (entries.find? fun e => e.1 == a).map (·.2) := by
  refine ⟨same_refl, fun a _ => same_symm a, fun a _ _ => same_trans a,
    fun _ _ => same_iff_canonical, fun _ _ => hashWrites_eq_of_same, fun h a b => ⟨?_, ?_⟩⟩
  · intro s ha
    exact Hasher.getKey?_eq_iff (m := s.inner) ha
  · intro β
    exact ⟨fun m ha => Hasher.getKey?_eq_iff ha, Hasher.getElem?_firsts⟩

/-- A map with a set and a list of a set in it. -/
def shelved : AttributeValue :=
  .map [("tags", .stringSet ["red", "blue", "red"]),
    ("sizes", .list [.numberSet ["10", "9"], .null true])]

/-- The same map, written down in another order. -/
def reshelved : AttributeValue :=
  .map [("sizes", .list [.numberSet ["9", "10"], .null true]),
    ("tags", .stringSet ["red", "red", "blue"])]

/-- A hasher that only counts what it is told. -/
def counting : Hasher := ⟨UInt64, 0, fun n _ => n + 1, id⟩

theorem equality_agrees_reshelved :
    (shelved == reshelved) = true ∧ shelved.canonical = reshelved.canonical ∧
      shelved.hashWrites = reshelved.hashWrites ∧
      ∀ s : Std.HashSet counting.Key, (s.insert shelved).get? shelved =
        (s.insert shelved).get? reshelved := by
  have heq : (shelved == reshelved) = true := by decide
  obtain ⟨-, -, -, hcanonical, hwrites, htables⟩ := equality_agrees_with_hashing
  refine ⟨heq, (hcanonical _ _).1 heq, hwrites _ _ heq, fun s => ?_⟩
  exact ((htables counting shelved reshelved).1 _ Std.HashSet.mem_insert_self).2 heq

end AttributeValue

end ItemStore
