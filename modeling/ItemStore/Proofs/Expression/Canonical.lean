import ItemStore.Proofs.Expression.Compaction

/-!
# Compaction is canonical

Texts with bindings are *canonical* when the placeholders for names and those for values are
numbered in the order in which they first occur, none is missing, none is unused, and no two stand
for the same (`Canonical`).

* `canonical_compact`: compaction makes texts and bindings canonical.
* `Canonical.texts_eq` and `Canonical.bindings_beq`: canonical texts that say the same are the same,
  and so are their bindings, up to equality of values.
* `Canonical.compact_eq`: compaction leaves alone what is canonical.
-/

namespace ItemStore

namespace Compaction

/-! ## What is canonical -/

/-- Texts and bindings whose placeholders are numbered: `#n0`, `#n1` and so on for names, `:v0`,
`:v1` and so on for values. -/
structure Canonical (texts : List String) (b : Bindings) : Prop where
  /-- The placeholders for names, in the order of their first occurrences. -/
  names_numbered : nameTokens texts b = (List.range b.names.size).map fun i => "#n" ++ toString i
  /-- The placeholders for values, in the order of their first occurrences. -/
  values_numbered :
    valueTokens texts b = (List.range b.values.size).map fun i => ":v" ++ toString i
  /-- The placeholders that are bound to names. -/
  name_keys : ∀ k, b.names.contains k = true ↔ ∃ i < b.names.size, k = "#n" ++ toString i
  /-- The placeholders that are bound to values. -/
  value_keys : ∀ k, b.values.contains k = true ↔ ∃ i < b.values.size, k = ":v" ++ toString i
  /-- Every placeholder that is bound occurs. -/
  used : ∀ k, b.names.contains k = true ∨ b.values.contains k = true → k ∈ tokensOfAll texts
  /-- The names are pairwise different. -/
  names_distinct : ∀ j k n, b.names.get? j = some n → b.names.get? k = some n → j = k
  /-- The values are pairwise different, as values. -/
  values_distinct : ∀ j k v w, b.values.get? j = some v → b.values.get? k = some w →
    (v == w) = true → j = k

/-! ## Numbering makes canonical -/

section Renumber

variable {texts : List String} {b : Bindings}

theorem biUnique_numbering :
    Relator.BiUnique fun t k => (numbering texts b).lookup t = some k :=
  ⟨fun _ _ _ ht hu => numbering_injective ht hu,
    fun _ _ _ hk hk' => Option.some.inj (hk.symm.trans hk')⟩

/-- The placeholders of one sort are numbered from zero on. -/
theorem filter_renumber (h : b.Defines texts) {p q : String → Bool} {g : Nat → String}
    (hpq : ∀ t k, (numbering texts b).lookup t = some k → p t = q k)
    (hg : ∀ t ∈ (tokensOfAll texts).eraseDups.filter p, (numbering texts b).lookup t =
      some (g (((tokensOfAll texts).eraseDups.filter p).idxOf t))) :
    (tokensOfAll (renumber texts b).1).eraseDups.filter q =
      (List.range ((tokensOfAll texts).eraseDups.filter p).length).map g := by
  have htokens : List.Forall₂ (fun t k => (numbering texts b).lookup t = some k)
      (tokensOfAll texts) (tokensOfAll (renumber texts b).1) := by
    rw [tokensOfAll_renumber h, List.forall₂_map_right_iff, List.forall₂_same]
    intro t ht
    obtain ⟨x, hx⟩ := h.find? ht
    exact lookup_number ht hx
  have hsort := forall₂_filter hpq (forall₂_eraseDups biUnique_numbering htokens)
  have hnodup := (nodup_eraseDups (tokensOfAll texts)).filter p
  generalize (tokensOfAll texts).eraseDups.filter p = l at hg hsort hnodup ⊢
  have heq : List.Forall₂ (fun t k => g (l.idxOf t) = k) l
      ((tokensOfAll (renumber texts b).1).eraseDups.filter q) := by
    refine ((List.forall₂_and_left l _).2 ⟨hg, hsort⟩).imp ?_
    rintro t k ⟨ht, hk⟩
    exact Option.some.inj (ht.symm.trans hk)
  rw [← eq_of_forall₂ (fun _ _ => id) (List.forall₂_map_left_iff.2 heq), ← map_idxOf hnodup,
    List.map_map]
  rfl

theorem nameTokens_renumber (h : b.Defines texts) :
    nameTokens (renumber texts b).1 (renumber texts b).2 =
      (List.range (nameTokens texts b).length).map numberedName :=
  filter_renumber h
    (fun t k htk => by rw [Keyed.contains, Keyed.contains, get?_names_number htk])
    (fun t ht => lookup_numbering_name ht)

theorem valueTokens_renumber (h : b.Defines texts) :
    valueTokens (renumber texts b).1 (renumber texts b).2 =
      (List.range (valueTokens texts b).length).map numberedValue :=
  filter_renumber h
    (fun t k htk => by
      simp only [Keyed.contains, get?_names_number htk, get?_values_number htk])
    (fun t ht => lookup_numbering_value ht)

theorem contains_names_renumber {k : String} :
    (renumber texts b).2.names.contains k = true ↔
      ∃ i < (nameTokens texts b).length, k = numberedName i := by
  have hnodup : (nameTokens texts b).Nodup := (nodup_eraseDups _).filter _
  rw [Keyed.contains_iff]
  constructor
  · rintro ⟨n, hn⟩
    obtain ⟨t, ht, htn⟩ := get?_names_renumber.1 hn
    rcases numbering_cases ht with ⟨hmem, rfl⟩ | ⟨hmem, -⟩
    · exact ⟨_, List.idxOf_lt_length_of_mem hmem, rfl⟩
    · have hno := (mem_valueTokens.1 hmem).2.1
      rw [Keyed.contains, htn] at hno
      cases hno
  · rintro ⟨i, hi, rfl⟩
    have hmem := List.getElem_mem hi
    obtain ⟨n, hn⟩ := Keyed.contains_iff.1 (mem_nameTokens.1 hmem).2
    refine ⟨n, get?_names_renumber.2 ⟨_, ?_, hn⟩⟩
    rw [lookup_numbering_name hmem, hnodup.idxOf_getElem]

theorem contains_values_renumber (hd : b.Disjoint) {k : String} :
    (renumber texts b).2.values.contains k = true ↔
      ∃ i < (valueTokens texts b).length, k = numberedValue i := by
  have hnodup : (valueTokens texts b).Nodup := (nodup_eraseDups _).filter _
  rw [Keyed.contains_iff]
  constructor
  · rintro ⟨v, hv⟩
    obtain ⟨t, ht, htv⟩ := get?_values_renumber.1 hv
    rcases numbering_cases ht with ⟨hmem, -⟩ | ⟨hmem, rfl⟩
    · exact absurd ⟨(mem_nameTokens.1 hmem).2, Keyed.contains_iff.2 ⟨v, htv⟩⟩ (hd t)
    · exact ⟨_, List.idxOf_lt_length_of_mem hmem, rfl⟩
  · rintro ⟨i, hi, rfl⟩
    have hmem := List.getElem_mem hi
    obtain ⟨v, hv⟩ := Keyed.contains_iff.1 (mem_valueTokens.1 hmem).2.2
    refine ⟨v, get?_values_renumber.2 ⟨_, ?_, hv⟩⟩
    rw [lookup_numbering_value hmem, hnodup.idxOf_getElem]

/-- A collection with numbered keys has as many keys as numbers. -/
theorem size_of_numbered {α : Type} {c : Keyed α} {g : Nat → String} {m : Nat}
    (hg : ∀ i j, g i = g j → i = j) (h : ∀ k, c.contains k = true ↔ ∃ i < m, k = g i) :
    c.size = m := by
  have hrange : ((List.range m).map g).Nodup :=
    List.pairwise_map.2 (List.nodup_range.imp fun hij heq => hij (hg _ _ heq))
  have hperm : c.keys.Perm ((List.range m).map g) := by
    refine (List.perm_ext_iff_of_nodup c.nodup_keys hrange).2 fun k => ?_
    rw [Keyed.mem_keys, h, List.mem_map]
    constructor
    · rintro ⟨i, hi, rfl⟩
      exact ⟨i, List.mem_range.2 hi, rfl⟩
    · rintro ⟨i, hi, rfl⟩
      exact ⟨i, List.mem_range.1 hi, rfl⟩
  simpa [Keyed.keys, Keyed.size] using hperm.length_eq

theorem size_names_renumber :
    (renumber texts b).2.names.size = (nameTokens texts b).length :=
  size_of_numbered (fun _ _ h => numberedName_injective h) fun _ => contains_names_renumber

theorem size_values_renumber (hd : b.Disjoint) :
    (renumber texts b).2.values.size = (valueTokens texts b).length :=
  size_of_numbered (fun _ _ h => numberedValue_injective h) fun _ => contains_values_renumber hd

/-- Where no two placeholders are bound to the same, numbering is all that is missing. -/
theorem canonical_renumber (hd : b.Disjoint) (h : b.Defines texts)
    (hinj : ∀ {t u x y}, b.find? t = some x → b.find? u = some y → x.same y = true → t = u) :
    Canonical (renumber texts b).1 (renumber texts b).2 where
  names_numbered := by
    rw [nameTokens_renumber h, size_names_renumber]
    rfl
  values_numbered := by
    rw [valueTokens_renumber h, size_values_renumber hd]
    rfl
  name_keys k := by
    rw [contains_names_renumber, size_names_renumber]
    rfl
  value_keys k := by
    rw [contains_values_renumber hd, size_values_renumber hd]
    rfl
  used k hk := by
    rcases hk with hk | hk
    · obtain ⟨i, hi, rfl⟩ := contains_names_renumber.1 hk
      have hmem : numberedName i ∈ nameTokens (renumber texts b).1 (renumber texts b).2 := by
        rw [nameTokens_renumber h]
        exact List.mem_map.2 ⟨i, List.mem_range.2 hi, rfl⟩
      exact (mem_nameTokens.1 hmem).1
    · obtain ⟨i, hi, rfl⟩ := (contains_values_renumber hd).1 hk
      have hmem : numberedValue i ∈ valueTokens (renumber texts b).1 (renumber texts b).2 := by
        rw [valueTokens_renumber h]
        exact List.mem_map.2 ⟨i, List.mem_range.2 hi, rfl⟩
      exact (mem_valueTokens.1 hmem).1
  names_distinct j k n hj hk := by
    obtain ⟨t, ht, htn⟩ := get?_names_renumber.1 hj
    obtain ⟨u, hu, hun⟩ := get?_names_renumber.1 hk
    have htu : t = u := hinj (Bindings.find?_eq_name.2 htn) (Bindings.find?_eq_name.2 hun)
      (Binding.same_refl _)
    subst htu
    exact Option.some.inj (ht.symm.trans hu)
  values_distinct j k v w hj hk hvw := by
    obtain ⟨t, ht, htv⟩ := get?_values_renumber.1 hj
    obtain ⟨u, hu, huw⟩ := get?_values_renumber.1 hk
    have htu : t = u := hinj (hd.find?_value htv) (hd.find?_value huw) hvw
    subst htu
    exact Option.some.inj (ht.symm.trans hu)

/-- Compaction makes texts and bindings canonical. -/
theorem canonical_compact (hd : b.Disjoint) (h : b.Defines texts) :
    Canonical (compact texts b).1 (compact texts b).2 :=
  canonical_renumber (disjoint_merge hd) (defines_merge h) merge_injective

end Renumber

/-! ## There is one canonical form -/

section Unique

variable {texts texts' : List String} {b b' : Bindings} {t t' u u' : String}

theorem Canonical.disjoint (h : Canonical texts b) : b.Disjoint := by
  rintro k ⟨hn, hv⟩
  obtain ⟨i, -, hi⟩ := (h.name_keys k).1 hn
  obtain ⟨j, -, hj⟩ := (h.value_keys k).1 hv
  exact numberedName_ne_numberedValue i j (hi.symm.trans hj)

theorem Canonical.injective (h : Canonical texts b) {x y : Binding} (hx : b.find? t = some x)
    (hy : b.find? u = some y) (hxy : x.same y = true) : t = u := by
  cases x with
  | name n =>
    rw [Binding.eq_of_same_name hxy] at hy
    exact h.names_distinct t u n (Bindings.find?_eq_name.1 hx) (Bindings.find?_eq_name.1 hy)
  | value v =>
    cases y with
    | name m => cases hxy
    | value w =>
      exact h.values_distinct t u v w (Bindings.find?_eq_value.1 hx).2
        (Bindings.find?_eq_value.1 hy).2 hxy

/-- Under canonical bindings every placeholder matches at most one. -/
theorem biUnique_matches (h : Canonical texts b) (h' : Canonical texts' b') :
    Relator.BiUnique (b.Matches b') := by
  constructor
  · rintro t u k ⟨x, z, hx, hz, hxz⟩ ⟨y, z', hy, hz', hyz⟩
    rw [hz] at hz'
    cases hz'
    exact h.injective hx hy (Binding.same_trans hxz (Binding.same_symm hyz))
  · rintro t j k ⟨x, y, hx, hy, hxy⟩ ⟨x', z, hx', hz, hxz⟩
    rw [hx] at hx'
    cases hx'
    exact h'.injective hy hz (Binding.same_trans (Binding.same_symm hxy) hxz)

/-- Placeholders that stand for the same are of one sort. -/
theorem contains_of_matches (h : b.Matches b' t t') :
    b.names.contains t = b'.names.contains t' ∧
      (!b.names.contains t && b.values.contains t) =
        (!b'.names.contains t' && b'.values.contains t') := by
  obtain ⟨x, y, hx, hy, hxy⟩ := h
  cases x with
  | name n =>
    rw [Binding.eq_of_same_name hxy] at hy
    simp [Keyed.contains, Bindings.find?_eq_name.1 hx, Bindings.find?_eq_name.1 hy]
  | value v =>
    cases y with
    | name m => cases hxy
    | value w =>
      obtain ⟨hn, hv⟩ := Bindings.find?_eq_value.1 hx
      obtain ⟨hm, hw⟩ := Bindings.find?_eq_value.1 hy
      simp [Keyed.contains, hn, hv, hm, hw]

/-- Canonical texts with matching placeholders have the same placeholders, each matching itself. -/
theorem Canonical.same_tokens (h : Canonical texts b) (h' : Canonical texts' b')
    (hs : List.Forall₂ (b.Matches b') (tokensOfAll texts) (tokensOfAll texts')) :
    (nameTokens texts b = nameTokens texts' b' ∧ ∀ t ∈ nameTokens texts b, b.Matches b' t t) ∧
      valueTokens texts b = valueTokens texts' b' ∧
        ∀ t ∈ valueTokens texts b, b.Matches b' t t := by
  have hfirst := forall₂_eraseDups (biUnique_matches h h') hs
  have hnames : List.Forall₂ (b.Matches b') (nameTokens texts b) (nameTokens texts' b') :=
    forall₂_filter (R := b.Matches b') (fun _ _ hm => (contains_of_matches hm).1) hfirst
  have hvalues : List.Forall₂ (b.Matches b') (valueTokens texts b) (valueTokens texts' b') :=
    forall₂_filter (R := b.Matches b') (fun _ _ hm => (contains_of_matches hm).2) hfirst
  have hsize : b.names.size = b'.names.size := by
    simpa [h.names_numbered, h'.names_numbered] using hnames.length_eq
  have hsize' : b.values.size = b'.values.size := by
    simpa [h.values_numbered, h'.values_numbered] using hvalues.length_eq
  have heq : nameTokens texts b = nameTokens texts' b' := by
    rw [h.names_numbered, h'.names_numbered, hsize]
  have heq' : valueTokens texts b = valueTokens texts' b' := by
    rw [h.values_numbered, h'.values_numbered, hsize']
  rw [← heq] at hnames
  rw [← heq'] at hvalues
  exact ⟨⟨heq, List.forall₂_same.1 hnames⟩, heq', List.forall₂_same.1 hvalues⟩

theorem Canonical.mem_tokens (h : Canonical texts b) {x : Binding} (hx : b.find? t = some x) :
    t ∈ nameTokens texts b ∨ t ∈ valueTokens texts b := by
  have hused : t ∈ tokensOfAll texts := h.used t (Bindings.find?_isSome.1 ⟨x, hx⟩)
  cases x with
  | name n => exact .inl (mem_nameTokens_of_find? hused hx)
  | value v => exact .inr (mem_valueTokens_of_find? hused hx)

/-- A placeholder that is bound stands for the same in any other canonical form. -/
theorem Canonical.matches_self (h : Canonical texts b) (h' : Canonical texts' b')
    (hs : List.Forall₂ (b.Matches b') (tokensOfAll texts) (tokensOfAll texts')) {x : Binding}
    (hx : b.find? t = some x) : b.Matches b' t t := by
  obtain ⟨⟨-, hnames⟩, -, hvalues⟩ := h.same_tokens h' hs
  rcases h.mem_tokens hx with ht | ht
  · exact hnames t ht
  · exact hvalues t ht

theorem Canonical.eq_of_matches (h : Canonical texts b) (h' : Canonical texts' b')
    (hs : List.Forall₂ (b.Matches b') (tokensOfAll texts) (tokensOfAll texts'))
    (hm : b.Matches b' t t') : t = t' := by
  have ⟨x, _, hx, _⟩ := hm
  exact (biUnique_matches h h').2 (h.matches_self h' hs hx) hm

theorem matches_of_says (hs : List.Forall₂ (fun t t' => Says (b.resolve t) (b'.resolve t'))
    texts texts') : List.Forall₂ (b.Matches b') (tokensOfAll texts) (tokensOfAll texts') := by
  induction hs with
  | nil => exact .nil
  | cons hs _ ih => exact List.rel_append hs.tokensOf ih

/-- Canonical texts that say the same are the same. -/
theorem Canonical.texts_eq (h : Canonical texts b) (h' : Canonical texts' b')
    (hs : List.Forall₂ (fun t t' => Says (b.resolve t) (b'.resolve t')) texts texts') :
    texts = texts' := by
  have hm := matches_of_says hs
  refine eq_of_forall₂ (fun t t' hsaid => ?_) hs
  have htokens : tokensOf t = tokensOf t' :=
    eq_of_forall₂ (fun _ _ hu => h.eq_of_matches h' hm hu) (Says.tokensOf hsaid)
  rw [tokensOf_eq, tokensOf_eq] at htokens
  exact eq_of_signs_eq (hsaid.eq_of_placeholders htokens)

/-- A placeholder that stands for the same under two bindings has one name, and equal values. -/
theorem rel_get?_of_find? (hd : b.Disjoint) (hd' : b'.Disjoint) {k : String}
    (hk : Option.Rel (fun x y => Binding.same x y = true) (b.find? k) (b'.find? k)) :
    b.names.get? k = b'.names.get? k ∧
      Option.Rel (fun v w => (v == w) = true) (b.values.get? k) (b'.values.get? k) := by
  cases hn : b.names.get? k with
  | some n =>
    rw [Bindings.find?_eq_name.2 hn] at hk
    cases hx : b'.find? k with
    | none => rw [hx] at hk; cases hk
    | some x =>
      rw [hx] at hk
      cases hk with
      | some hsame =>
        rw [Binding.eq_of_same_name hsame] at hx
        rw [Bindings.find?_eq_name.1 hx, hd.get?_values hn,
          hd'.get?_values (Bindings.find?_eq_name.1 hx)]
        exact ⟨rfl, .none⟩
  | none =>
    rw [Bindings.find?, Bindings.find?, hn] at hk
    generalize b.values.get? k = v at hk ⊢
    generalize b'.values.get? k = w at hk ⊢
    cases hm : b'.names.get? k with
    | some m =>
      rw [hm] at hk
      cases v with
      | none => cases hk
      | some v =>
        cases hk with
        | some hsame => cases hsame
    | none =>
      rw [hm] at hk
      cases v <;> cases w
      · exact ⟨rfl, .none⟩
      · cases hk
      · cases hk
      · cases hk with
        | some hsame => exact ⟨rfl, .some hsame⟩

/-- Bindings that keep names and values apart are equal when they answer every placeholder alike. -/
theorem beq_of_find? (hd : b.Disjoint) (hd' : b'.Disjoint)
    (h : ∀ k, Option.Rel (fun x y => Binding.same x y = true) (b.find? k) (b'.find? k)) :
    (b == b') = true := by
  have hboth := fun k => rel_get?_of_find? hd hd' (h k)
  have hnames : b.names = b'.names := Keyed.ext_get? fun k => (hboth k).1
  have hvalues : (b.values == b'.values) = true := Keyed.beq_of_get? fun k => (hboth k).2
  show (b.names.entries == b'.names.entries && b.values == b'.values) = true
  rw [hnames, hvalues, beq_self_eq_true]
  rfl

/-- Canonical bindings of texts that say the same are equal. -/
theorem Canonical.bindings_beq (h : Canonical texts b) (h' : Canonical texts' b')
    (hs : List.Forall₂ (fun t t' => Says (b.resolve t) (b'.resolve t')) texts texts') :
    (b == b') = true := by
  have hm := matches_of_says hs
  have hm' := matches_of_says (hs.flip.imp fun _ _ hsaid => Says.symm hsaid)
  refine beq_of_find? h.disjoint h'.disjoint fun k => ?_
  cases hx : b.find? k with
  | some x =>
    obtain ⟨x', y, hx', hy, hxy⟩ := h.matches_self h' hm hx
    rw [hx] at hx'
    cases hx'
    rw [hy]
    exact .some hxy
  | none =>
    cases hy : b'.find? k with
    | none => exact .none
    | some y =>
      obtain ⟨_, x, _, hx', _⟩ := h'.matches_self h hm' hy
      rw [hx] at hx'
      cases hx'

theorem Canonical.lead_eq_self (h : Canonical texts b) (hb : b.Defines texts)
    (ht : t ∈ tokensOfAll texts) : lead texts b t = t := by
  obtain ⟨x, hx⟩ := hb.find? ht
  obtain ⟨-, y, hy, hyx⟩ := find?_lead ht hx
  exact h.injective hy hx hyx

theorem Canonical.compact_texts (h : Canonical texts b) (hb : b.Defines texts) :
    (compact texts b).1 = texts :=
  (canonical_compact h.disjoint hb).texts_eq h (says_compact hb)

theorem Canonical.number_eq_self (h : Canonical texts b) (hb : b.Defines texts)
    (ht : t ∈ tokensOfAll texts) : number (merge texts b).1 (merge texts b).2 t = t := by
  have hmap : ((tokensOfAll texts).map (lead texts b)).map
      (number (merge texts b).1 (merge texts b).2) = (tokensOfAll texts).map id := by
    rw [← tokensOfAll_merge hb, ← tokensOfAll_renumber (defines_merge hb), ← compact_eq,
      h.compact_texts hb, List.map_id]
  rw [List.map_map, List.map_inj_left] at hmap
  have hnum := hmap t ht
  rwa [Function.comp_apply, h.lead_eq_self hb ht] at hnum

/-- Compaction leaves the binding of a placeholder that occurs in canonical texts alone. -/
theorem Canonical.get?_compact (h : Canonical texts b) (hb : b.Defines texts)
    (ht : t ∈ tokensOfAll texts) :
    (compact texts b).2.names.get? t = b.names.get? t ∧
      (compact texts b).2.values.get? t = b.values.get? t := by
  obtain ⟨x, hx⟩ := hb.find? ht
  have hleads : (leaders texts b).lookup t = some t := by
    rw [lookup_lead ht hx, h.lead_eq_self hb ht]
  have hmerged : t ∈ tokensOfAll (merge texts b).1 := by
    rw [tokensOfAll_merge hb]
    exact List.mem_map.2 ⟨t, ht, h.lead_eq_self hb ht⟩
  have hnumber : (numbering (merge texts b).1 (merge texts b).2).lookup t = some t := by
    rw [lookup_number hmerged (find?_merge.2 ⟨hx, hleads⟩), h.number_eq_self hb ht]
  rw [compact_eq, get?_names_number hnumber, get?_values_number hnumber]
  constructor
  · refine Option.ext fun n => ?_
    rw [get?_names_merge]
    exact and_iff_left hleads
  · refine Option.ext fun v => ?_
    rw [get?_values_merge]
    exact and_iff_left hleads

/-- Compaction leaves alone what is canonical. -/
theorem Canonical.compact_eq_self (h : Canonical texts b) (hb : b.Defines texts) :
    compact texts b = (texts, b) := by
  have hc := canonical_compact h.disjoint hb
  have htexts := h.compact_texts hb
  have hunused : ∀ k, k ∉ tokensOfAll texts → (compact texts b).2.names.get? k =
      b.names.get? k ∧ (compact texts b).2.values.get? k = b.values.get? k := by
    intro k hk
    have hno := mt (h.used k) hk
    have hno' := mt (hc.used k) (by rwa [htexts])
    simp only [Keyed.contains, not_or, Bool.not_eq_true, Option.isSome_eq_false_iff,
      Option.isNone_iff_eq_none] at hno hno'
    rw [hno.1, hno.2, hno'.1, hno'.2]
    exact ⟨rfl, rfl⟩
  have hboth : ∀ k, (compact texts b).2.names.get? k = b.names.get? k ∧
      (compact texts b).2.values.get? k = b.values.get? k := by
    intro k
    by_cases hk : k ∈ tokensOfAll texts
    · exact h.get?_compact hb hk
    · exact hunused k hk
  have hnames : (compact texts b).2.names = b.names := Keyed.ext_get? fun k => (hboth k).1
  have hvalues : (compact texts b).2.values = b.values := Keyed.ext_get? fun k => (hboth k).2
  have hbindings : (compact texts b).2 = b := by
    show (⟨(compact texts b).2.names, (compact texts b).2.values⟩ : Bindings) = ⟨b.names, b.values⟩
    rw [hnames, hvalues]
  exact Prod.ext htexts hbindings

end Unique

end Compaction

end ItemStore
