import Mathlib.Data.List.Nodup
import ItemStore.Proofs.Attribute.Sameness
import ItemStore.Store.Chunks

/-!
# Items in the order of their keys

The items of a batch come in any order and are sorted by the first key that each of them has.  Where
the keys differ from one another but not in the names of their components, an item has one of them
at most (`beq_of_contains`).  The position of an item is then the place of its own key
(`keyPosition_eq`), and sorting gives back the order of the keys, whatever order the items came in
(`inKeyOrder_eq`).
-/

namespace ItemStore

/-! ## Items and keys -/

/-- An item has the components of a key, with equal values. -/
def Item.Contains (item key : Item) : Prop :=
  ∀ name value, key.get? name = some value →
    ∃ value', item.get? name = some value' ∧ (value' == value) = true

theorem Item.hasKey_iff {item key : Item} : item.hasKey key = true ↔ item.Contains key := by
  unfold hasKey
  rw [List.all_eq_true]
  constructor
  · intro h name value hvalue
    have hentry := h (name, value) (Keyed.get?_eq_some_iff.1 hvalue)
    cases hitem : item.get? name with
    | none => simp [hitem] at hentry
    | some value' => exact ⟨value', rfl, by simpa [hitem] using hentry⟩
  · rintro h ⟨name, value⟩ hentry
    obtain ⟨value', hitem, hsame⟩ := h name value (Keyed.get?_eq_some_iff.2 hentry)
    simpa [hitem] using hsame

theorem Keyed.get?_isSome_of_keys_eq {α : Type} {a b : Keyed α} (h : a.keys = b.keys)
    (k : String) : (a.get? k).isSome = (b.get? k).isSome := by
  rw [Bool.eq_iff_iff]
  show a.contains k = true ↔ b.contains k = true
  rw [← Keyed.mem_keys, ← Keyed.mem_keys, h]

/-- Two keys of one item with the same names are equal. -/
theorem Item.beq_of_contains {item key key' : Item} (hnames : key.keys = key'.keys)
    (h : item.Contains key) (h' : item.Contains key') : (key == key') = true := by
  refine Keyed.beq_of_get? fun name => ?_
  have hsome := Keyed.get?_isSome_of_keys_eq hnames name
  cases hkey : key.get? name with
  | none =>
    rw [hkey, Option.isSome_none] at hsome
    have hkey' : key'.get? name = none := by simpa using hsome.symm
    rw [hkey']
    exact .none
  | some value =>
    rw [hkey, Option.isSome_some] at hsome
    obtain ⟨value', hkey'⟩ := Option.isSome_iff_exists.1 hsome.symm
    obtain ⟨v, hv, hsame⟩ := h name value hkey
    obtain ⟨v', hv', hsame'⟩ := h' name value' hkey'
    rw [hv] at hv'
    cases hv'
    rw [hkey']
    exact .some (BEq.trans (BEq.symm hsame) hsame')

/-! ## Positions -/

/-- Keys of a batch that one item can have at most one of: no two are equal, and all have the same
names. -/
structure DistinctKeys (keys : List Item) : Prop where
  /-- No two keys are equal. -/
  distinct : keys.Pairwise fun key key' => (key == key') = false
  /-- All keys have the same names. -/
  names : ∀ key ∈ keys, ∀ key' ∈ keys, key.keys = key'.keys

theorem DistinctKeys.sublist {keys keys' : List Item} (h : DistinctKeys keys)
    (hsub : keys'.Sublist keys) : DistinctKeys keys' where
  distinct := h.distinct.sublist hsub
  names := fun key hkey key' hkey' => h.names key (hsub.subset hkey) key' (hsub.subset hkey')

section Order

variable {keys : List Item} {found : Item → Option Item}

/-- The position of an item is the place of the key that it was found under. -/
theorem keyPosition_eq (hkeys : DistinctKeys keys) {item : Item} {i : Nat} (hi : i < keys.length)
    (hitem : item.Contains keys[i]) : keyPosition keys item = i := by
  refine (List.findIdx_eq hi).2 ⟨Item.hasKey_iff.2 hitem, fun j hj => ?_⟩
  rw [Bool.eq_false_iff]
  intro hhas
  have hlt : j < keys.length := Nat.lt_trans hj hi
  have hsame : (keys[j] == keys[i]) = true := Item.beq_of_contains
    (hkeys.names _ (List.getElem_mem hlt) _ (List.getElem_mem hi)) (Item.hasKey_iff.1 hhas) hitem
  have hne := List.pairwise_iff_getElem.1 hkeys.distinct j i hlt hi hj
  rw [hsame] at hne
  cases hne

/-- What is found under keys stands in the order of positions. -/
theorem pairwise_keyPosition (hkeys : DistinctKeys keys)
    (hfound : ∀ key ∈ keys, ∀ item, found key = some item → item.Contains key) :
    (keys.filterMap found).Pairwise fun a b => keyPosition keys a < keyPosition keys b := by
  rw [List.pairwise_filterMap, List.pairwise_iff_getElem]
  intro i j hi hj hij a ha b hb
  rw [keyPosition_eq hkeys hi (hfound _ (List.getElem_mem hi) _ ha),
    keyPosition_eq hkeys hj (hfound _ (List.getElem_mem hj) _ hb)]
  exact hij

/-- Sorting items by their keys gives them in the order of the keys, whatever their order was. -/
theorem inKeyOrder_eq (hkeys : DistinctKeys keys)
    (hfound : ∀ key ∈ keys, ∀ item, found key = some item → item.Contains key) {items : List Item}
    (hitems : items.Perm (keys.filterMap found)) :
    inKeyOrder keys items = keys.filterMap found := by
  have hsorted := pairwise_keyPosition hkeys hfound
  have hperm : (inKeyOrder keys items).Perm (keys.filterMap found) :=
    (List.mergeSort_perm _ _).trans hitems
  have hle : (inKeyOrder keys items).Pairwise
      fun a b => keyPosition keys a ≤ keyPosition keys b := by
    have htrans : ∀ a b c : Item, decide (keyPosition keys a ≤ keyPosition keys b) = true →
        decide (keyPosition keys b ≤ keyPosition keys c) = true →
        decide (keyPosition keys a ≤ keyPosition keys c) = true := by
      simpa using fun a b c => Nat.le_trans
    have htotal : ∀ a b : Item, (decide (keyPosition keys a ≤ keyPosition keys b) ||
        decide (keyPosition keys b ≤ keyPosition keys a)) = true := by
      simpa using fun a b => Nat.le_total _ _
    simpa [inKeyOrder] using List.pairwise_mergeSort htrans htotal items
  -- positions are different, so of two items of one position there is only one
  have hnodup : ((keys.filterMap found).map (keyPosition keys)).Nodup :=
    List.pairwise_map.2 (hsorted.imp Nat.ne_of_lt)
  refine hperm.eq_of_pairwise ?_ hle (hsorted.imp Nat.le_of_lt)
  intro a b ha hb hab hba
  exact List.inj_on_of_nodup_map hnodup (hperm.mem_iff.1 ha) hb (Nat.le_antisymm hab hba)

end Order

end ItemStore
