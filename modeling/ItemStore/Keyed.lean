/-!
# Keyed collections

`Keyed α` holds values under text keys, each key once.  The entries are kept in key order and the
order is part of the type, so that two collections with the same entries are the same value: how a
collection was built leaves no trace in it (`ext_get?`).

* `get?` reads one key; `insert` sets one key and leaves every other alone (`get?_insert`).
* `ofList` inserts from left to right, so the last entry of a key is the one that stays.
* `get?_filter`, `get?_union`, `get?_ofList` and `get?_ofFirst` say what the other operations leave
  under a key.
* `entries` lists everything, in key order, and `ofList` undoes it (`ofList_entries`).
-/

namespace ItemStore

universe u v

/-- Values under text keys: every key once, entries in key order. -/
structure Keyed (α : Type u) where
  /-- The keys with their values. -/
  entries : List (String × α)
  /-- The keys strictly increase. -/
  ordered : entries.Pairwise (fun a b => a.1 < b.1)

namespace Keyed

variable {α : Type u} {β : Type v}

@[ext] theorem ext {a b : Keyed α} (h : a.entries = b.entries) : a = b := by
  cases a; cases b; cases h; rfl

/-! ## Reading -/

/-- The collection without entries. -/
def empty : Keyed α := ⟨[], .nil⟩

instance : Inhabited (Keyed α) := ⟨empty⟩

instance : EmptyCollection (Keyed α) := ⟨empty⟩

/-- The value of `key`, if it has one. -/
def get? (c : Keyed α) (key : String) : Option α := c.entries.lookup key

/-- Whether `key` has a value. -/
def contains (c : Keyed α) (key : String) : Bool := (c.get? key).isSome

/-- The keys, in order. -/
def keys (c : Keyed α) : List String := c.entries.map (·.1)

/-- The values, in the order of their keys. -/
def values (c : Keyed α) : List α := c.entries.map (·.2)

/-- How many keys there are. -/
def size (c : Keyed α) : Nat := c.entries.length

/-- Whether there is no key at all. -/
def isEmpty (c : Keyed α) : Bool := c.entries.isEmpty

/-! ## Writing -/

/-- Put `value` under `key` into entries that are in key order. -/
def insertEntry (key : String) (value : α) : List (String × α) → List (String × α)
  | [] => [(key, value)]
  | (k, w) :: rest =>
    if key < k then (key, value) :: (k, w) :: rest
    else if k < key then (k, w) :: insertEntry key value rest
    else (key, value) :: rest

theorem fst_of_mem_insertEntry {key : String} {value : α} {e : String × α} :
    ∀ {es : List (String × α)}, e ∈ insertEntry key value es → e.1 = key ∨ e ∈ es
  | [], h => by
    simp only [insertEntry, List.mem_singleton] at h
    exact .inl (by rw [h])
  | (k, w) :: rest, h => by
    unfold insertEntry at h
    split at h
    · rcases List.mem_cons.1 h with rfl | h
      · exact .inl rfl
      · exact .inr h
    · split at h
      · rcases List.mem_cons.1 h with rfl | h
        · exact .inr (List.mem_cons_self ..)
        · rcases fst_of_mem_insertEntry h with h | h
          · exact .inl h
          · exact .inr (List.mem_cons_of_mem _ h)
      · rcases List.mem_cons.1 h with rfl | h
        · exact .inl rfl
        · exact .inr (List.mem_cons_of_mem _ h)

theorem pairwise_insertEntry {key : String} {value : α} :
    ∀ {es : List (String × α)}, es.Pairwise (fun a b => a.1 < b.1) →
      (insertEntry key value es).Pairwise (fun a b => a.1 < b.1)
  | [], _ => by simp [insertEntry]
  | (k, w) :: rest, h => by
    obtain ⟨hk, hrest⟩ := List.pairwise_cons.1 h
    unfold insertEntry
    split
    · rename_i hlt
      refine List.pairwise_cons.2 ⟨?_, h⟩
      intro e he
      rcases List.mem_cons.1 he with rfl | he
      · exact hlt
      · exact String.lt_trans hlt (hk e he)
    · split
      · rename_i _ hlt
        refine List.pairwise_cons.2 ⟨?_, pairwise_insertEntry hrest⟩
        intro e he
        rcases fst_of_mem_insertEntry he with he | he
        · rw [he]; exact hlt
        · exact hk e he
      · rename_i h1 h2
        have heq : key = k := String.le_antisymm (String.not_lt.1 h2) (String.not_lt.1 h1)
        subst heq
        exact List.pairwise_cons.2 ⟨fun e he => hk e he, hrest⟩

/-- Set `key` to `value`. -/
def insert (c : Keyed α) (key : String) (value : α) : Keyed α :=
  ⟨insertEntry key value c.entries, pairwise_insertEntry c.ordered⟩

/-- Set the keys of `more`, from left to right; a key that comes back takes its last value. -/
def insertAll (c : Keyed α) (more : List (String × α)) : Keyed α :=
  more.foldl (fun acc e => acc.insert e.1 e.2) c

/-- The collection that a list of entries describes. -/
def ofList (es : List (String × α)) : Keyed α := empty.insertAll es

/-- The collection that a list of entries describes when the first entry of a key is the one that
stays. -/
def ofFirst : List (String × α) → Keyed α
  | [] => empty
  | (key, value) :: rest => (ofFirst rest).insert key value

/-- One key with its value. -/
def singleton (key : String) (value : α) : Keyed α := empty.insert key value

/-- Every entry of both collections; where a key is in both, the value of `other` stays. -/
def union (c other : Keyed α) : Keyed α := c.insertAll other.entries

/-- Set `key` to what `f` makes of its value so far. -/
def alter (c : Keyed α) (key : String) (f : Option α → α) : Keyed α :=
  c.insert key (f (c.get? key))

/-- The entries that pass a test. -/
def filter (p : String → α → Bool) (c : Keyed α) : Keyed α :=
  ⟨c.entries.filter (fun e => p e.1 e.2), c.ordered.filter _⟩

/-- The same keys with other values, which may depend on the key. -/
def mapWithKey (f : String → α → β) (c : Keyed α) : Keyed β :=
  ⟨c.entries.map (fun e => (e.1, f e.1 e.2)), by
    rw [List.pairwise_map]
    exact c.ordered⟩

/-! ## Laws -/

theorem lookup_insertEntry (key : String) (value : α) (k : String) :
    ∀ {es : List (String × α)}, es.Pairwise (fun a b => a.1 < b.1) →
      (insertEntry key value es).lookup k = if k = key then some value else es.lookup k
  | [], _ => by
    by_cases hk : k = key
    · simp [insertEntry, hk]
    · have : (k == key) = false := by simp [hk]
      simp [insertEntry, List.lookup_cons, this, hk]
  | (k', w) :: rest, h => by
    obtain ⟨_, hrest⟩ := List.pairwise_cons.1 h
    have ih := lookup_insertEntry key value k hrest
    unfold insertEntry
    split
    · by_cases hk : k = key
      · simp [hk]
      · have : (k == key) = false := by simp [hk]
        simp [List.lookup_cons, this, hk]
    · split
      · rename_i hne hlt
        by_cases hk' : k = k'
        · subst hk'
          have hkk : k ≠ key := by
            intro e; subst e; exact String.lt_irrefl _ hlt
          simp [hkk]
        · have : (k == k') = false := by simp [hk']
          simp [List.lookup_cons, this, ih]
      · rename_i h1 h2
        have heq : key = k' := String.le_antisymm (String.not_lt.1 h2) (String.not_lt.1 h1)
        subst heq
        by_cases hk : k = key
        · simp [hk]
        · have : (k == key) = false := by simp [hk]
          simp [List.lookup_cons, this, hk]

/-- An insertion is seen at its key and nowhere else. -/
@[simp] theorem get?_insert (c : Keyed α) (key : String) (value : α) (k : String) :
    (c.insert key value).get? k = if k = key then some value else c.get? k :=
  lookup_insertEntry key value k c.ordered

@[simp] theorem get?_empty (k : String) : (empty : Keyed α).get? k = none := rfl

/-- A key has a value exactly when the two are an entry. -/
theorem get?_eq_some_iff {c : Keyed α} {k : String} {x : α} :
    c.get? k = some x ↔ (k, x) ∈ c.entries := by
  obtain ⟨es, hes⟩ := c
  show es.lookup k = some x ↔ (k, x) ∈ es
  induction es with
  | nil => simp
  | cons e es ih =>
    obtain ⟨k', w⟩ := e
    obtain ⟨hlt, hrest⟩ := List.pairwise_cons.1 hes
    by_cases hk : k = k'
    · subst hk
      simp only [List.lookup_cons, beq_self_eq_true, List.mem_cons, Prod.mk.injEq, true_and,
        Option.some.injEq]
      constructor
      · intro h; exact .inl h.symm
      · rintro (h | h)
        · exact h.symm
        · exact absurd (hlt _ h) (String.lt_irrefl _)
    · have : (k == k') = false := by simp [hk]
      simp [List.lookup_cons, this, ih hrest, hk]

theorem insertEntry_of_forall_lt {key : String} {value : α} :
    ∀ {es : List (String × α)}, (∀ e ∈ es, e.1 < key) →
      insertEntry key value es = es ++ [(key, value)]
  | [], _ => rfl
  | (k, w) :: rest, h => by
    have hk : k < key := h (k, w) (List.mem_cons_self ..)
    have hrest : insertEntry key value rest = rest ++ [(key, value)] :=
      insertEntry_of_forall_lt fun e he => h e (List.mem_cons_of_mem _ he)
    simp [insertEntry, String.lt_asymm hk, hk, hrest]

theorem entries_insertAll_of_pairwise (c : Keyed α) :
    ∀ {es : List (String × α)}, (c.entries ++ es).Pairwise (fun a b => a.1 < b.1) →
      (c.insertAll es).entries = c.entries ++ es := by
  intro es
  induction es generalizing c with
  | nil => intro _; simp [insertAll]
  | cons e es ih =>
    intro h
    have hlt : ∀ x ∈ c.entries, x.1 < e.1 := fun x hx =>
      (List.pairwise_append.1 h).2.2 x hx e (List.mem_cons_self ..)
    have hins : (c.insert e.1 e.2).entries = c.entries ++ [e] :=
      insertEntry_of_forall_lt hlt
    have h' : ((c.insert e.1 e.2).entries ++ es).Pairwise (fun a b => a.1 < b.1) := by
      rw [hins, List.append_assoc]; exact h
    have := ih (c.insert e.1 e.2) h'
    simp only [insertAll, List.foldl_cons] at this ⊢
    rw [this, hins, List.append_assoc]; rfl

/-- Listing a collection and collecting the list again changes nothing. -/
@[simp] theorem ofList_entries (c : Keyed α) : ofList c.entries = c := by
  apply ext
  have : ((empty : Keyed α).insertAll c.entries).entries = [] ++ c.entries :=
    entries_insertAll_of_pairwise empty (by simpa [empty] using c.ordered)
  simpa [ofList, empty] using this

theorem contains_iff {c : Keyed α} {k : String} : c.contains k = true ↔ ∃ x, c.get? k = some x :=
  Option.isSome_iff_exists

theorem nodup_keys (c : Keyed α) : c.keys.Nodup := by
  refine List.pairwise_map.2 (c.ordered.imp ?_)
  intro a b hab heq
  rw [heq] at hab
  exact String.lt_irrefl _ hab

theorem mem_keys {c : Keyed α} {k : String} : k ∈ c.keys ↔ c.contains k = true := by
  rw [contains_iff, keys, List.mem_map]
  constructor
  · rintro ⟨⟨_, x⟩, he, rfl⟩
    exact ⟨x, get?_eq_some_iff.2 he⟩
  · rintro ⟨x, hx⟩
    exact ⟨(k, x), get?_eq_some_iff.1 hx, rfl⟩

/-- Filtering drops values and changes none. -/
theorem get?_filter (p : String → α → Bool) (c : Keyed α) (k : String) :
    (c.filter p).get? k = (c.get? k).filter (p k) := by
  apply Option.ext
  intro x
  rw [get?_eq_some_iff, Option.filter_eq_some_iff, get?_eq_some_iff]
  exact List.mem_filter

theorem keys_mapWithKey (f : String → α → β) (c : Keyed α) : (c.mapWithKey f).keys = c.keys := by
  rw [keys, keys, mapWithKey, List.map_map]
  rfl

theorem lookup_map (f : String → α → β) (k : String) :
    ∀ es : List (String × α),
      (es.map fun e => (e.1, f e.1 e.2)).lookup k = (es.lookup k).map (f k)
  | [] => rfl
  | (key, value) :: es => by
    rw [List.map_cons, List.lookup_cons, List.lookup_cons, lookup_map f k es]
    by_cases hk : k = key
    · subst hk
      simp
    · have : (k == key) = false := by simp [hk]
      simp [this]

/-- Changing values leaves every value under its key. -/
theorem get?_mapWithKey (f : String → α → β) (c : Keyed α) (k : String) :
    (c.mapWithKey f).get? k = (c.get? k).map (f k) :=
  lookup_map f k c.entries

theorem lookup_eq_none_of_not_mem {es : List (String × α)} {k : String}
    (h : k ∉ es.map (·.1)) : es.lookup k = none := by
  rw [List.lookup_eq_none_iff]
  intro e he
  rw [bne_iff_ne]
  rintro rfl
  exact h (List.mem_map.2 ⟨e, he, rfl⟩)

/-- Among keys that occur once each, every inserted entry stays. -/
theorem get?_insertAll (c : Keyed α) {es : List (String × α)} (h : (es.map (·.1)).Nodup)
    (k : String) : (c.insertAll es).get? k = (es.lookup k).or (c.get? k) := by
  induction es generalizing c with
  | nil => rfl
  | cons e es ih =>
    obtain ⟨key, value⟩ := e
    obtain ⟨hmem, hes⟩ := List.nodup_cons.1 h
    have step : (c.insertAll ((key, value) :: es)).get? k =
        (es.lookup k).or ((c.insert key value).get? k) := ih (c.insert key value) hes
    rw [step, get?_insert, List.lookup_cons]
    by_cases hk : k = key
    · subst hk
      simp [lookup_eq_none_of_not_mem hmem]
    · have : (k == key) = false := by simp [hk]
      simp [this, hk]

/-- In a union the other collection is asked first. -/
theorem get?_union (c other : Keyed α) (k : String) :
    (c.union other).get? k = (other.get? k).or (c.get? k) :=
  get?_insertAll c other.nodup_keys k

theorem lookup_eq_some_iff_mem {κ : Type v} [BEq κ] [LawfulBEq κ] {es : List (κ × α)}
    (h : (es.map (·.1)).Nodup) {k : κ} {x : α} : es.lookup k = some x ↔ (k, x) ∈ es := by
  induction es with
  | nil => simp
  | cons e es ih =>
    obtain ⟨key, value⟩ := e
    obtain ⟨hmem, hes⟩ := List.nodup_cons.1 h
    rw [List.lookup_cons, List.mem_cons]
    by_cases hk : k = key
    · subst hk
      have hno : (k, x) ∉ es := fun hx => hmem (List.mem_map.2 ⟨(k, x), hx, rfl⟩)
      simp [hno, eq_comm]
    · have : (k == key) = false := by simp [hk]
      simp [this, hk, ih hes]

/-- A list of entries in which no key is repeated is collected as it is. -/
theorem get?_ofList {es : List (String × α)} (h : (es.map (·.1)).Nodup) {k : String} {x : α} :
    (ofList es).get? k = some x ↔ (k, x) ∈ es := by
  rw [ofList, get?_insertAll empty h, get?_empty, Option.or_none, lookup_eq_some_iff_mem h]

/-- Where the first entry of a key stays, a key has the value that a list has for it. -/
theorem get?_ofFirst (k : String) : ∀ es : List (String × α), (ofFirst es).get? k = es.lookup k
  | [] => rfl
  | (key, value) :: rest => by
    rw [ofFirst, get?_insert, List.lookup_cons, get?_ofFirst k rest]
    by_cases hk : k = key
    · simp [hk]
    · have : (k == key) = false := by simp [hk]
      simp [this, hk]

/-- Collections that answer every key alike are the same. -/
theorem ext_get? {a b : Keyed α} (h : ∀ k, a.get? k = b.get? k) : a = b := by
  have key : ∀ (xs ys : List (String × α)), xs.Pairwise (fun a b => a.1 < b.1) →
      ys.Pairwise (fun a b => a.1 < b.1) → (∀ e, e ∈ xs ↔ e ∈ ys) → xs = ys := by
    intro xs
    induction xs with
    | nil =>
      intro ys _ _ hm
      cases ys with
      | nil => rfl
      | cons y ys => exact absurd ((hm y).2 (List.mem_cons_self ..)) (by simp)
    | cons x xs ih =>
      intro ys hx hy hm
      cases ys with
      | nil => exact absurd ((hm x).1 (List.mem_cons_self ..)) (by simp)
      | cons y ys =>
        obtain ⟨hx1, hx2⟩ := List.pairwise_cons.1 hx
        obtain ⟨hy1, hy2⟩ := List.pairwise_cons.1 hy
        have hxy : x = y := by
          rcases List.mem_cons.1 ((hm x).1 (List.mem_cons_self ..)) with e | e
          · exact e
          · rcases List.mem_cons.1 ((hm y).2 (List.mem_cons_self ..)) with e' | e'
            · exact e'.symm
            · exact absurd (hy1 x e) (String.lt_asymm (hx1 y e'))
        subst hxy
        rw [ih ys hx2 hy2]
        intro e
        constructor
        · intro he
          rcases List.mem_cons.1 ((hm e).1 (List.mem_cons_of_mem _ he)) with rfl | h'
          · exact absurd (hx1 _ he) (String.lt_irrefl _)
          · exact h'
        · intro he
          rcases List.mem_cons.1 ((hm e).2 (List.mem_cons_of_mem _ he)) with rfl | h'
          · exact absurd (hy1 _ he) (String.lt_irrefl _)
          · exact h'
  refine ext (key _ _ a.ordered b.ordered ?_)
  rintro ⟨k, x⟩
  rw [← get?_eq_some_iff, ← get?_eq_some_iff, h k]

end Keyed

end ItemStore
