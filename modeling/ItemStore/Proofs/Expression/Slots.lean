import Mathlib.Logic.Function.Basic
import ItemStore.Proofs.Expression.Bundles
import ItemStore.Proofs.Expression.Sources

/-!
# Filling the slots of a request

A bundle is filled slot by slot, and the placeholders of every slot begin with the stem of the slot.
`Bundle.Holds` is the invariant: every slot has a text that stands for the phrase that was put into
it, and every placeholder belongs to a slot that is filled (`Slot.Owns`).

* `Bundle.Holds.insert`: what a source is compiled to may be put into an empty slot.
* `Bundle.Holds.closed`: a bundle that is filled in this way has every placeholder bound once.
* `Bundle.Holds.compact`: its texts still stand for the same phrases when it is compacted.
-/

namespace ItemStore

/-! ## Bindings apart -/

namespace Bindings

variable {b b' : Bindings}

/-- A placeholder stands for nothing if it has neither a name nor a value. -/
theorem find?_eq_none {t : String} :
    b.find? t = none ↔ b.names.get? t = none ∧ b.values.get? t = none := by
  rw [find?]
  cases b.names.get? t with
  | none => simp
  | some n => simp

/-- Whether no placeholder is bound twice. -/
def Apart (b b' : Bindings) : Prop := ∀ t, b.find? t = none ∨ b'.find? t = none

/-- Joining bindings that are apart changes nothing in the first ones. -/
theorem Apart.within_left (h : b.Apart b') : b.Within (b.union b') := by
  intro t x hx
  obtain hnone | hnone := h t
  · rw [hnone] at hx
    cases hx
  · obtain ⟨hnames, hvalues⟩ := find?_eq_none.1 hnone
    rw [← hx, find?, find?, union, Keyed.get?_union, Keyed.get?_union, hnames, hvalues]
    rfl

/-- Joining bindings that are apart changes nothing in the second ones. -/
theorem Apart.within_right (h : b.Apart b') : b'.Within (b.union b') := by
  intro t x hx
  obtain hnone | hnone := h t
  · obtain ⟨hnames, hvalues⟩ := find?_eq_none.1 hnone
    rw [← hx, find?, find?, union, Keyed.get?_union, Keyed.get?_union, hnames, hvalues,
      Option.or_none, Option.or_none]
  · rw [hnone] at hx
    cases hx

theorem contains_union {α : Type} {c d : Keyed α} {t : String}
    (h : (c.union d).contains t = true) : c.contains t = true ∨ d.contains t = true := by
  rw [Keyed.contains, Keyed.get?_union] at h
  rw [Keyed.contains, Keyed.contains]
  cases hd : d.get? t with
  | none =>
    rw [hd, Option.none_or] at h
    exact .inl h
  | some x => exact .inr rfl

end Bindings

/-! ## The placeholders of a slot -/

namespace Slot

/-- Whether a placeholder has a sigil and the stem of a slot. -/
def Owns (slot : Slot) (sigil : Char) (t : String) : Prop :=
  ∃ cs, t.toList = sigil :: (slot.stem.toList ++ cs)

/-- A placeholder tells whose it is: its sigil and its stem are those of one slot. -/
theorem Owns.unique {slot slot' : Slot} {c c' : Char} {t : String} (h : slot.Owns c t)
    (h' : slot'.Owns c' t) : c = c' ∧ slot = slot' := by
  obtain ⟨cs, h⟩ := h
  obtain ⟨cs', h'⟩ := h'
  rw [h] at h'
  obtain ⟨hsigil, hstem⟩ := List.cons_eq_cons.1 h'
  refine ⟨hsigil, ?_⟩
  -- the stems differ in their first characters
  cases slot <;> cases slot' <;> simp [stem] at hstem ⊢

theorem isTokenChar_stem (slot : Slot) : ∀ c ∈ slot.stem.toList, Piece.isTokenChar c = true := by
  cases slot <;> decide

end Slot

/-- What an expression binds belongs to the slot whose stem it was compiled with. -/
theorem Expression.Stemmed.owns {slot : Slot} {e : Expression} (h : e.Stemmed slot.stem)
    {t : String} {x : Binding} (hx : e.bindings.find? t = some x) : ∃ c, slot.Owns c t := by
  rcases Bindings.find?_isSome.1 ⟨x, hx⟩ with hn | hv
  · exact ⟨_, h.names t hn⟩
  · exact ⟨_, h.values t hv⟩

/-! ## What a bundle holds -/

/-- The phrases in the slots of a request. -/
abbrev Contents := Slot → Option Phrase

namespace Bundle

/-- Whether a bundle has texts for phrases in its slots, and placeholders of these slots only. -/
structure Holds (b : Bundle) (f : Contents) : Prop where
  /-- No slot has two texts. -/
  once : (b.texts.map (·.1)).Nodup
  /-- Every text stands for the phrase of its slot. -/
  texts : ∀ slot, Option.Rel (Spells b.bindings) (b.text? slot) (f slot)
  /-- Placeholders for names belong to slots that are filled. -/
  names : ∀ t, b.bindings.names.contains t = true → ∃ slot, f slot ≠ none ∧ slot.Owns '#' t
  /-- Placeholders for values belong to slots that are filled. -/
  values : ∀ t, b.bindings.values.contains t = true → ∃ slot, f slot ≠ none ∧ slot.Owns ':' t

/-- An empty bundle holds nothing. -/
theorem holds_empty : empty.Holds fun _ => none where
  once := .nil
  texts _ := .none
  names t ht := by cases ht
  values t ht := by cases ht

section Holds

variable {b : Bundle} {f : Contents} {slot : Slot} {e : Expression}

/-- There is no text in a slot in which nothing is held. -/
theorem Holds.text?_eq_none (h : b.Holds f) (hslot : f slot = none) : b.text? slot = none := by
  have hrel := h.texts slot
  rw [hslot] at hrel
  cases htext : b.text? slot with
  | none => rfl
  | some t =>
    rw [htext] at hrel
    cases hrel

theorem Holds.not_mem_slots (h : b.Holds f) (hslot : f slot = none) :
    slot ∉ b.texts.map (·.1) := by
  intro hmem
  obtain ⟨t, ht, rfl⟩ := List.mem_map.1 hmem
  have hlookup : b.text? t.1 = some t.2 := (Keyed.lookup_eq_some_iff_mem h.once).2 ht
  rw [h.text?_eq_none hslot] at hlookup
  cases hlookup

/-- An expression of an empty slot binds nothing that is bound already. -/
theorem Holds.apart (h : b.Holds f) (hslot : f slot = none) (he : e.Stemmed slot.stem) :
    b.bindings.Apart e.bindings := by
  intro t
  have howned : ∀ {x}, b.bindings.find? t = some x → ∃ slot c, f slot ≠ none ∧ slot.Owns c t := by
    intro x hx
    rcases Bindings.find?_isSome.1 ⟨x, hx⟩ with hn | hv
    · obtain ⟨slot', hfilled, howns⟩ := h.names t hn
      exact ⟨slot', _, hfilled, howns⟩
    · obtain ⟨slot', hfilled, howns⟩ := h.values t hv
      exact ⟨slot', _, hfilled, howns⟩
  cases hx : b.bindings.find? t with
  | none => exact .inl rfl
  | some x =>
    refine .inr (Option.eq_none_iff_forall_ne_some.2 fun y hy => ?_)
    obtain ⟨slot', c, hfilled, howns⟩ := howned hx
    obtain ⟨c', howns'⟩ := he.owns hy
    obtain ⟨-, rfl⟩ := howns.unique howns'
    exact hfilled hslot

/-- A text in a free slot goes behind the others. -/
theorem insert_eq (hslot : slot ∉ b.texts.map (·.1)) (he : e.text ≠ "") :
    b.insert slot e = ⟨b.texts ++ [(slot, e.text)], b.bindings.union e.bindings⟩ := by
  have hfilter : b.texts.filter (fun t => t.1 ≠ slot) = b.texts := by
    refine List.filter_eq_self.2 fun t ht => ?_
    simp only [ne_eq, decide_not, Bool.not_eq_eq_eq_not, Bool.not_true, decide_eq_false_iff_not]
    rintro rfl
    exact hslot (List.mem_map_of_mem ht)
  rw [insert, if_neg, hfilter]
  simpa [Expression.isEmpty, String.isEmpty_iff] using he

/-- A slot that is filled last is looked at last. -/
theorem text?_append {bindings : Bindings} {t : String} {slot' : Slot} :
    text? ⟨b.texts ++ [(slot, t)], bindings⟩ slot' =
      (b.text? slot').or (if slot' = slot then some t else none) := by
  rw [text?, text?, List.lookup_append]
  by_cases h : slot' = slot
  · simp [h]
  · simp [List.lookup_cons, h, beq_false_of_ne h]

theorem filled_update {slot' : Slot} {p : Phrase} (h : f slot' ≠ none) :
    Function.update f slot (some p) slot' ≠ none := by
  rw [Function.update_apply]
  split
  · simp
  · exact h

/-- An empty slot is filled with a text and nothing else changes. -/
theorem Holds.fill (h : b.Holds f) (hslot : f slot = none) {p : Phrase} (hp : p ≠ [])
    (he : Spells e.bindings e.text p) (hstem : e.Stemmed slot.stem) :
    (b.insert slot e).Holds (Function.update f slot (some p)) := by
  have hapart := h.apart hslot hstem
  have hnot := h.not_mem_slots hslot
  have htext : e.text ≠ "" := fun hempty => hp (he.eq_empty_iff.1 hempty)
  have hself : Function.update f slot (some p) slot ≠ none := by simp
  rw [insert_eq hnot htext]
  refine ⟨?_, fun slot' => ?_, fun t ht => ?_, fun t ht => ?_⟩
  · rw [List.map_append, List.map_singleton]
    refine List.nodup_append.2 ⟨h.once, by simp, fun x hx y hy => ?_⟩
    rw [List.mem_singleton.1 hy]
    rintro rfl
    exact hnot hx
  · rw [text?_append, Function.update_apply]
    by_cases hslot' : slot' = slot
    · subst hslot'
      rw [if_pos rfl, if_pos rfl, h.text?_eq_none hslot]
      exact .some (he.mono hapart.within_right)
    · rw [if_neg hslot', if_neg hslot', Option.or_none]
      exact rel_imp (fun _ _ hspells => hspells.mono hapart.within_left) (h.texts slot')
  · rcases Bindings.contains_union ht with ht | ht
    · obtain ⟨slot', hfilled, howns⟩ := h.names t ht
      exact ⟨slot', filled_update hfilled, howns⟩
    · exact ⟨slot, hself, hstem.names t ht⟩
  · rcases Bindings.contains_union ht with ht | ht
    · obtain ⟨slot', hfilled, howns⟩ := h.values t ht
      exact ⟨slot', filled_update hfilled, howns⟩
    · exact ⟨slot, hself, hstem.values t ht⟩

theorem update_none (hslot : f slot = none) : Function.update f slot none = f := by
  rw [Function.update_eq_self_iff, hslot]

/-- What a source is compiled to may be put into an empty slot. -/
theorem Holds.insert (h : b.Holds f) (hslot : f slot = none) {s : Source}
    (hmade : s.Made slot.stem e) :
    ∃ p, s.phrase = .ok p ∧ (b.insert slot e).Holds (Function.update f slot p) := by
  obtain ⟨p, hp, hne, hspells, hstem⟩ := hmade
  refine ⟨p, hp, ?_⟩
  cases p with
  | some p => exact h.fill hslot (fun hnil => hne (by rw [hnil])) hspells hstem
  | none =>
    have hempty : e.text = "" := hspells.eq_empty_iff.2 rfl
    have hsame : b.insert slot e = b := by simp [Bundle.insert, Expression.isEmpty, hempty]
    rwa [hsame, update_none hslot]

/-- A condition fills its slot and leaves what is in the others. -/
theorem Holds.withCondition (h : b.Holds f) (hslot : f slot = none)
    {cs : List (Condition String)} {b' : Bundle}
    (hb : b.withCondition slot (Condition.chain cs) = .ok b') :
    ∃ p, (Source.conditions cs).phrase = .ok p ∧ b'.Holds (Function.update f slot p) := by
  cases hc : Condition.chain cs with
  | none =>
    rw [hc] at hb
    cases hb
    cases cs with
    | nil =>
      refine ⟨none, rfl, ?_⟩
      rwa [update_none hslot]
    | cons c cs => cases hc
  | some c =>
    rw [hc] at hb
    obtain ⟨e, he, hb⟩ := bind_eq_ok.1 hb
    cases hb
    exact h.insert hslot (Source.made_of_conditions slot.isTokenChar_stem hc he)

/-- An update fills its slot and leaves what is in the others. -/
theorem Holds.withUpdate (h : b.Holds f) (hslot : f .update = none)
    {actions : List (UpdateAction String)} {b' : Bundle} (hb : b.withUpdate actions = .ok b') :
    ∃ p, (Source.update actions).phrase = .ok p ∧ b'.Holds (Function.update f .update p) := by
  obtain ⟨e, he, hb⟩ := bind_eq_ok.1 hb
  cases hb
  exact h.insert hslot (Source.made_of_update (Slot.isTokenChar_stem _) he)

/-- A projection fills its slot and leaves what is in the others. -/
theorem Holds.withProjection (h : b.Holds f) (hslot : f .projection = none)
    {paths : List String} {b' : Bundle} (hb : b.withProjection paths = .ok b') :
    ∃ p, (Source.projection paths).phrase = .ok p ∧
      b'.Holds (Function.update f .projection p) := by
  obtain ⟨e, he, hb⟩ := bind_eq_ok.1 hb
  cases hb
  exact h.insert hslot (Source.made_of_projection (Slot.isTokenChar_stem _) he)

/-! ## Bundles that are full -/

/-- Every placeholder of a bundle that was filled slot by slot is bound, and to one thing only. -/
theorem Holds.closed (h : b.Holds f) : b.Closed := by
  constructor
  · rintro t ⟨hn, hv⟩
    obtain ⟨slot, -, howns⟩ := h.names t hn
    obtain ⟨slot', -, howns'⟩ := h.values t hv
    exact absurd (howns.unique howns').1 (by decide)
  · intro t ht
    obtain ⟨text, htext, ht⟩ := List.mem_flatMap.1 ht
    obtain ⟨⟨slot, text⟩, hmem, rfl⟩ := List.mem_map.1 htext
    have hrel := h.texts slot
    rw [text?, (Keyed.lookup_eq_some_iff_mem h.once).2 hmem] at hrel
    generalize f slot = p at hrel
    cases hrel with
    | some hspells => exact Bindings.find?_isSome.1 (hspells.exists_find? ht)

/-- The texts of a compacted bundle say the phrases that the bundle holds. -/
theorem Holds.compact (h : b.Holds f) (slot : Slot) :
    Option.Rel (fun t p => Says (b.compact.bindings.resolve t) (p.map (Sign.map some)))
      (b.compact.text? slot) (f slot) := by
  obtain ⟨hslots, hsaid⟩ := saysAs_compact h.closed
  refine rel_trans (fun _ _ _ _ hs hspells => ?_) (rel_lookup hslots hsaid slot) (h.texts slot)
  exact hs.trans hspells.says

end Holds

end Bundle

end ItemStore
