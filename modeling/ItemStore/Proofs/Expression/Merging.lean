import ItemStore.Proofs.Expression.Resolution

/-!
# Merging keeps what texts say

The first step of compaction lets one placeholder, the *leader*, stand for all placeholders that
are bound to the same.  The facts about leaders are few:

* `find?_lead`: a leader is one of the placeholders, bound to the same as those it leads;
* `lead_eq_iff`: two placeholders have one leader exactly when they are bound to the same;
* `find?_merge`: after merging, every leader has kept its binding.

`says_merge` puts them together: merged texts say what they said before.  `merge_injective` is what
merging is for: no two placeholders that are left are bound to the same.
-/

namespace ItemStore

namespace Compaction

/-! ## Tables -/

/-- A table with an entry for each of some keys, looked up by key. -/
theorem lookup_filterMap {α : Type} (l : List String) (h : String → Option α) (t : String) :
    (l.filterMap fun u => (h u).map fun x => (u, x)).lookup t = if t ∈ l then h t else none := by
  induction l with
  | nil => simp
  | cons u l ih =>
    rw [List.filterMap_cons]
    by_cases htu : t = u
    · subst htu
      cases ht : h t with
      | none => simp [ht, ih]
      | some x => simp
    · have hne : (t == u) = false := by simp [htu]
      cases hu : h u with
      | none => simp [ih, htu]
      | some x => simp [List.lookup_cons, hne, ih, htu]

/-! ## Leaders -/

section Leader

variable {texts : List String} {b : Bindings} {t u : String} {x y : Binding}

/-- A placeholder occurs with what it stands for. -/
theorem mem_occurrences :
    (t, x) ∈ occurrences texts b ↔ t ∈ tokensOfAll texts ∧ b.find? t = some x := by
  rw [occurrences, List.mem_filterMap]
  constructor
  · rintro ⟨s, hs, hsx⟩
    obtain ⟨z, hz, hzx⟩ := Option.map_eq_some_iff.1 hsx
    cases hzx
    exact ⟨List.mem_eraseDups.1 hs, hz⟩
  · rintro ⟨ht, hx⟩
    exact ⟨t, List.mem_eraseDups.2 ht, by rw [hx]; rfl⟩

/-- A bound placeholder has a leader, which is bound to the same. -/
theorem leader_mem (h : (t, x) ∈ occurrences texts b) :
    ∃ y, (leader (occurrences texts b) t x, y) ∈ occurrences texts b ∧ y.same x = true := by
  have hsome : ((occurrences texts b).find? fun u => u.2.same x).isSome = true :=
    List.find?_isSome.2 ⟨(t, x), h, Binding.same_refl x⟩
  obtain ⟨e, he⟩ := Option.isSome_iff_exists.1 hsome
  refine ⟨e.2, ?_, by simpa using List.find?_some he⟩
  rw [leader, he]
  exact List.mem_of_find?_eq_some he

/-- Placeholders for the same have one leader. -/
theorem leader_congr (h : (t, x) ∈ occurrences texts b) (hxy : x.same y = true) :
    leader (occurrences texts b) t x = leader (occurrences texts b) u y := by
  have hsome : ((occurrences texts b).find? fun u => u.2.same x).isSome = true :=
    List.find?_isSome.2 ⟨(t, x), h, Binding.same_refl x⟩
  obtain ⟨e, he⟩ := Option.isSome_iff_exists.1 hsome
  have hfun : (fun u : String × Binding => u.2.same y) = fun u => u.2.same x := by
    funext u
    exact (Binding.same_congr hxy u.2).symm
  rw [leader, leader, hfun, he]
  rfl

/-- The placeholder that stands for another one after merging. -/
def lead (texts : List String) (b : Bindings) (t : String) : String :=
  renameBy (leaders texts b) t

/-- Every placeholder of the texts that is bound has its leader in the table, and no other has one.
-/
theorem lookup_leaders (texts : List String) (b : Bindings) (t : String) :
    (leaders texts b).lookup t =
      if t ∈ tokensOfAll texts then (b.find? t).map (leader (occurrences texts b) t) else none := by
  rw [leaders, Keyed.lookup_map, occurrences, lookup_filterMap]
  simp only [List.mem_eraseDups]
  split <;> rfl

theorem lead_eq (ht : t ∈ tokensOfAll texts) (hx : b.find? t = some x) :
    lead texts b t = leader (occurrences texts b) t x := by
  rw [lead, renameBy, lookup_leaders, if_pos ht, hx]
  rfl

/-- A leader occurs in the texts and stands for the same as those that it leads. -/
theorem find?_lead (ht : t ∈ tokensOfAll texts) (hx : b.find? t = some x) :
    lead texts b t ∈ tokensOfAll texts ∧
      ∃ y, b.find? (lead texts b t) = some y ∧ y.same x = true := by
  obtain ⟨y, hy, hyx⟩ := leader_mem (mem_occurrences.2 ⟨ht, hx⟩)
  rw [← lead_eq ht hx] at hy
  obtain ⟨hmem, hfind⟩ := mem_occurrences.1 hy
  exact ⟨hmem, y, hfind, hyx⟩

/-- Placeholders have one leader exactly if they stand for the same. -/
theorem lead_eq_iff (ht : t ∈ tokensOfAll texts) (hx : b.find? t = some x)
    (hu : u ∈ tokensOfAll texts) (hy : b.find? u = some y) :
    lead texts b t = lead texts b u ↔ x.same y = true := by
  constructor
  · intro h
    obtain ⟨-, x', hx', hxx⟩ := find?_lead ht hx
    obtain ⟨-, y', hy', hyy⟩ := find?_lead hu hy
    rw [h, hy'] at hx'
    cases hx'
    exact Binding.same_trans (Binding.same_symm hxx) hyy
  · intro h
    rw [lead_eq ht hx, lead_eq hu hy]
    exact leader_congr (mem_occurrences.2 ⟨ht, hx⟩) h

/-- Leaders lead themselves. -/
theorem lead_lead (ht : t ∈ tokensOfAll texts) (hx : b.find? t = some x) :
    lead texts b (lead texts b t) = lead texts b t := by
  obtain ⟨hmem, y, hy, hyx⟩ := find?_lead ht hx
  exact (lead_eq_iff hmem hy ht hx).2 hyx

theorem lookup_lead (ht : t ∈ tokensOfAll texts) (hx : b.find? t = some x) :
    (leaders texts b).lookup t = some (lead texts b t) := by
  rw [lookup_leaders, if_pos ht, hx, lead_eq ht hx]
  rfl

theorem mem_of_lookup_leaders (h : (leaders texts b).lookup t = some u) :
    t ∈ tokensOfAll texts := by
  rw [lookup_leaders] at h
  split at h
  · assumption
  · cases h

end Leader

/-! ## Merged bindings -/

section Merge

variable {texts : List String} {b : Bindings} {t u : String} {x y : Binding}

/-- Only leaders keep their names. -/
theorem get?_names_merge {n : String} :
    (merge texts b).2.names.get? t = some n ↔
      b.names.get? t = some n ∧ (leaders texts b).lookup t = some t := by
  rw [merge, Keyed.get?_filter, Option.filter_eq_some_iff, beq_iff_eq]

/-- Only leaders keep their values. -/
theorem get?_values_merge {v : AttributeValue} :
    (merge texts b).2.values.get? t = some v ↔
      b.values.get? t = some v ∧ (leaders texts b).lookup t = some t := by
  rw [merge, Keyed.get?_filter, Option.filter_eq_some_iff, beq_iff_eq]

/-- What is left stands for what it stood for, and leads itself. -/
theorem find?_merge :
    (merge texts b).2.find? t = some x ↔
      b.find? t = some x ∧ (leaders texts b).lookup t = some t := by
  cases x with
  | name n => rw [Bindings.find?_eq_name, Bindings.find?_eq_name, get?_names_merge]
  | value v =>
    rw [Bindings.find?_eq_value, Bindings.find?_eq_value, get?_values_merge, ← and_assoc]
    refine and_congr_left fun hl => and_congr_left fun _ => ?_
    rw [merge, Keyed.get?_filter, hl]
    cases b.names.get? t <;> simp

/-- After merging, the leader of a placeholder stands for the same as the placeholder did. -/
theorem find?_merge_lead (ht : t ∈ tokensOfAll texts) (hx : b.find? t = some x) :
    ∃ y, (merge texts b).2.find? (lead texts b t) = some y ∧ y.same x = true := by
  obtain ⟨hmem, y, hy, hyx⟩ := find?_lead ht hx
  refine ⟨y, find?_merge.2 ⟨hy, ?_⟩, hyx⟩
  rw [lookup_lead hmem hy, lead_lead ht hx]

/-- Placeholders that are left are bound to different things. -/
theorem merge_injective (hx : (merge texts b).2.find? t = some x)
    (hy : (merge texts b).2.find? u = some y) (h : x.same y = true) : t = u := by
  obtain ⟨hxb, ht⟩ := find?_merge.1 hx
  obtain ⟨hyb, hu⟩ := find?_merge.1 hy
  have htm := mem_of_lookup_leaders ht
  have hum := mem_of_lookup_leaders hu
  have htt : lead texts b t = t := Option.some.inj ((lookup_lead htm hxb).symm.trans ht)
  have huu : lead texts b u = u := Option.some.inj ((lookup_lead hum hyb).symm.trans hu)
  rw [← htt, ← huu]
  exact (lead_eq_iff htm hxb hum hyb).2 h

end Merge

/-! ## Merged texts -/

section Texts

variable {texts : List String} {b : Bindings}

theorem mem_tokensOfAll {text t : String} (htext : text ∈ texts) (ht : t ∈ tokensOf text) :
    t ∈ tokensOfAll texts :=
  List.mem_flatMap.2 ⟨text, htext, ht⟩

theorem isToken_of_mem_all {t : String} (h : t ∈ tokensOfAll texts) : IsToken t := by
  obtain ⟨text, -, ht⟩ := List.mem_flatMap.1 h
  exact isToken_of_mem ht

/-- What takes the place of a placeholder of the texts is a placeholder again. -/
theorem isToken_lead (h : b.Defines texts) {t : String} (ht : t ∈ tokensOfAll texts) :
    IsToken (lead texts b t) := by
  obtain ⟨x, hx⟩ := h.find? ht
  exact isToken_of_mem_all (find?_lead ht hx).1

theorem merge_texts (texts : List String) (b : Bindings) :
    (merge texts b).1 = texts.map (renameTokens (lead texts b)) := rfl

/-- Renaming placeholders to placeholders renames each occurrence and adds none. -/
theorem tokensOfAll_rename {f : String → String} (hf : ∀ t ∈ tokensOfAll texts, IsToken (f t)) :
    tokensOfAll (texts.map (renameTokens f)) = (tokensOfAll texts).map f := by
  induction texts with
  | nil => rfl
  | cons text rest ih =>
    have hhead : ∀ t ∈ tokensOf text, IsToken (f t) := fun t ht =>
      hf t (mem_tokensOfAll (List.mem_cons_self ..) ht)
    have hrest : ∀ t ∈ tokensOfAll rest, IsToken (f t) := fun t ht =>
      hf t (List.mem_append_right _ ht)
    have ih' := ih hrest
    simp only [tokensOfAll, List.map_cons, List.flatMap_cons, List.map_append] at ih' ⊢
    rw [tokensOf_renameTokens hhead, ih']

/-- A text says the same after a renaming under which every placeholder stands for the same. -/
theorem says_renameTokens {b' : Bindings} {f : String → String} {text : String}
    (hf : ∀ t ∈ tokensOf text, IsToken (f t) ∧ b'.Matches b (f t) t) :
    Says (b'.resolve (renameTokens f text)) (b.resolve text) := by
  rw [Bindings.resolve, Bindings.resolve, signs_renameTokens fun t ht => (hf t ht).1, List.map_map]
  refine List.forall₂_map_left_iff.2 (List.forall₂_map_right_iff.2 ?_)
  refine List.forall₂_same.2 fun s hs => ?_
  cases s with
  | char c => exact .char c
  | placeholder t =>
    obtain ⟨-, y, x, hy, hx, hyx⟩ := hf t (mem_tokensOf.2 hs)
    rw [Function.comp_apply, Sign.map_placeholder, Sign.map_placeholder, Sign.map_placeholder, hy,
      hx]
    exact .bound hyx

theorem tokensOfAll_merge (h : b.Defines texts) :
    tokensOfAll (merge texts b).1 = (tokensOfAll texts).map (lead texts b) :=
  tokensOfAll_rename fun _ ht => isToken_lead h ht

/-- After merging every placeholder of the texts is bound, if every one was. -/
theorem defines_merge (h : b.Defines texts) : (merge texts b).2.Defines (merge texts b).1 := by
  intro u hu
  rw [tokensOfAll_merge h] at hu
  obtain ⟨t, ht, rfl⟩ := List.mem_map.1 hu
  obtain ⟨x, hx⟩ := h.find? ht
  obtain ⟨y, hy, -⟩ := find?_merge_lead ht hx
  exact Bindings.find?_isSome.1 ⟨y, hy⟩

/-- Merged texts say what they said before. -/
theorem says_merge (h : b.Defines texts) :
    List.Forall₂ (fun t t' => Says ((merge texts b).2.resolve t) (b.resolve t'))
      (merge texts b).1 texts := by
  rw [merge_texts, List.forall₂_map_left_iff]
  refine List.forall₂_same.2 fun text htext => says_renameTokens fun t ht => ?_
  have htm := mem_tokensOfAll htext ht
  obtain ⟨x, hx⟩ := h.find? htm
  obtain ⟨y, hy, hyx⟩ := find?_merge_lead htm hx
  exact ⟨isToken_lead h htm, y, x, hy, hx, hyx⟩

end Texts

end Compaction

end ItemStore
