import Mathlib.Data.List.Nodup
import Mathlib.Data.List.ReduceOption
import ItemStore.Proofs.Expression.Slots

/-!
# What a request carries

A request carries the texts of its expressions, each in a field of its own, and one set of bindings
for all of them (`Carried`).  What it carries is *faithful* to the sources that the request was
described with when every text says the phrase of its source (`Renders`), and when the bindings are
neither too few nor too many: every placeholder is bound once, every binding is used, and no two
placeholders stand for the same name or the same value.

* `Bundle.Holds.faithful`: a bundle that was filled slot by slot and compacted is faithful.
* `Bundle.Holds.values_eq_empty`: nothing but names is bound for projections alone.
-/

namespace ItemStore

/-- The expression texts of a request and what their placeholders stand for. -/
structure Carried where
  /-- The texts, one for each field that may have one. -/
  texts : List (Option String)
  /-- What the placeholders of all texts stand for. -/
  bindings : Bindings

/-- Whether a text says what a source means, and is left out exactly if the source is empty. -/
def Renders (b : Bindings) (text : Option String) (s : Source) : Prop :=
  ∃ p, s.Means p ∧
    Option.Rel (fun t q => Says (b.resolve t) (q.map (Sign.map some))) text p

namespace Carried

/-- The placeholders in the texts. -/
def tokens (r : Carried) : List String := Compaction.tokensOfAll r.texts.reduceOption

/-- The placeholders that are bound, entry by entry. -/
def bound (r : Carried) : List String := r.bindings.names.keys ++ r.bindings.values.keys

/-- Whether a request carries what its sources stand for, and nothing besides. -/
structure Faithful (r : Carried) (sources : List Source) : Prop where
  /-- Every text says what its source says. -/
  renders : List.Forall₂ (Renders r.bindings) r.texts sources
  /-- Every placeholder has one entry. -/
  bound_once : ∀ t ∈ r.tokens, r.bound.count t = 1
  /-- Every entry is used. -/
  used : ∀ t ∈ r.bound, t ∈ r.tokens
  /-- No name has two entries. -/
  names_distinct : r.bindings.names.values.Nodup
  /-- No value has two entries. -/
  values_distinct : r.bindings.values.values.Pairwise fun v w => (v == w) = false

end Carried

/-! ## Bindings entry by entry -/

namespace Keyed

variable {α : Type} {c : Keyed α}

/-- Values that are related only under one key are not related in the order of the keys. -/
theorem pairwise_values {R : α → α → Prop}
    (h : ∀ j k x y, c.get? j = some x → c.get? k = some y → R x y → j = k) :
    c.values.Pairwise fun x y => ¬ R x y := by
  rw [values, List.pairwise_map]
  refine c.ordered.imp_of_mem fun {e e'} he he' hlt hR => ?_
  have hkey := h e.1 e'.1 e.2 e'.2 (get?_eq_some_iff.2 he) (get?_eq_some_iff.2 he') hR
  rw [hkey] at hlt
  exact String.lt_irrefl _ hlt

end Keyed

namespace Bundle

variable {b : Bundle} {f : Contents} {slots : List Slot}

/-- The placeholders in the slots of a bundle are all of its placeholders. -/
theorem mem_tokens (honce : (b.texts.map (·.1)).Nodup)
    (hslots : ∀ slot t, b.text? slot = some t → slot ∈ slots) {t : String} :
    t ∈ Carried.tokens ⟨slots.map b.text?, b.bindings⟩ ↔
      t ∈ Compaction.tokensOfAll (b.texts.map (·.2)) := by
  have htexts : ∀ text, text ∈ (slots.map b.text?).reduceOption ↔ text ∈ b.texts.map (·.2) := by
    intro text
    rw [List.reduceOption_mem_iff, List.mem_map, List.mem_map]
    constructor
    · rintro ⟨slot, -, htext⟩
      exact ⟨(slot, text), (Keyed.lookup_eq_some_iff_mem honce).1 htext, rfl⟩
    · rintro ⟨⟨slot, text⟩, hmem, rfl⟩
      have htext : b.text? slot = some text := (Keyed.lookup_eq_some_iff_mem honce).2 hmem
      exact ⟨slot, hslots slot text htext, htext⟩
  rw [Carried.tokens, Compaction.tokensOfAll, Compaction.tokensOfAll, List.mem_flatMap,
    List.mem_flatMap]
  simp only [htexts]

theorem Holds.once_compact (h : b.Holds f) : (b.compact.texts.map (·.1)).Nodup := by
  rw [compact_slots]
  exact h.once

/-- A bundle that was filled slot by slot is faithful to the sources of the slots once it is
compacted. -/
theorem Holds.faithful (h : b.Holds f) (slots : List Slot)
    (hslots : ∀ slot, f slot ≠ none → slot ∈ slots) {sources : List Source}
    (hsources : List.Forall₂ (fun slot s => s.phrase = .ok (f slot)) slots sources) :
    Carried.Faithful ⟨slots.map b.compact.text?, b.compact.bindings⟩ sources := by
  have hcanonical := canonical_compact h.closed
  have hclosed := closed_compact h.closed
  have hmem : ∀ {t}, t ∈ Carried.tokens ⟨slots.map b.compact.text?, b.compact.bindings⟩ ↔
      t ∈ Compaction.tokensOfAll (b.compact.texts.map (·.2)) := by
    refine mem_tokens h.once_compact fun slot t ht => hslots slot fun hnone => ?_
    have hrel := h.compact slot
    rw [ht, hnone] at hrel
    cases hrel
  constructor
  · rw [List.forall₂_map_left_iff]
    exact hsources.imp fun slot s hs => ⟨f slot, Source.phrase_eq_ok_iff.1 hs, h.compact slot⟩
  · intro t ht
    have hnodup : (Carried.bound ⟨slots.map b.compact.text?, b.compact.bindings⟩).Nodup := by
      refine List.nodup_append.2 ⟨Keyed.nodup_keys _, Keyed.nodup_keys _, ?_⟩
      rintro k hk _ hk' rfl
      exact hclosed.1 k ⟨Keyed.mem_keys.1 hk, Keyed.mem_keys.1 hk'⟩
    refine List.count_eq_one_of_mem hnodup ?_
    rw [Carried.bound, List.mem_append, Keyed.mem_keys, Keyed.mem_keys]
    exact hclosed.2 t (hmem.1 ht)
  · intro t ht
    rw [Carried.bound, List.mem_append, Keyed.mem_keys, Keyed.mem_keys] at ht
    exact hmem.2 (hcanonical.used t ht)
  · refine Keyed.pairwise_values (R := Eq) ?_
    rintro j k n _ hj hk rfl
    exact hcanonical.names_distinct j k n hj hk
  · refine (Keyed.pairwise_values hcanonical.values_distinct).imp fun hne => ?_
    simpa using hne

/-- A bundle of phrases without values binds no values. -/
theorem Holds.values_eq_empty (h : b.Holds f) (hf : ∀ slot p, f slot = some p → p.Nominal) :
    b.compact.bindings.values = .empty := by
  refine Keyed.ext_get? fun k => ?_
  rw [Keyed.get?_empty, Option.eq_none_iff_forall_ne_some]
  intro v hv
  have hfind := (closed_compact h.closed).1.find?_value hv
  have hused := (canonical_compact h.closed).used k (.inr (Keyed.contains_iff.2 ⟨v, hv⟩))
  -- the placeholder stands in a text, and in the phrase of the text there is a value for it
  obtain ⟨text, htext, hk⟩ := List.mem_flatMap.1 hused
  obtain ⟨⟨slot, text⟩, hmem, rfl⟩ := List.mem_map.1 htext
  have hrel := h.compact slot
  rw [text?, (Keyed.lookup_eq_some_iff_mem h.once_compact).2 hmem] at hrel
  cases hp : f slot with
  | none =>
    rw [hp] at hrel
    cases hrel
  | some p =>
    rw [hp] at hrel
    cases hrel with
    | some hsaid =>
      obtain ⟨s, hs, hsame⟩ := exists_of_mem_left hsaid
        (List.mem_map_of_mem (mem_tokensOf.1 hk))
      rw [Sign.map_placeholder, hfind] at hsame
      obtain ⟨s', hs', rfl⟩ := List.mem_map.1 hs
      cases s' with
      | char c => cases hsame
      | placeholder y =>
        cases y with
        | name n => cases Sign.same_placeholder_iff.1 hsame
        | value w => exact hf slot p hp w hs'

end Bundle

end ItemStore
