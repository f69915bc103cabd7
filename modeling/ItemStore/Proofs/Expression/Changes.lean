import Mathlib.Data.List.Induction
import ItemStore.Proofs.Expression.Slots

/-!
# Bundles that change

A bundle may be changed in any order and any number of times: an expression is put into a slot, a
text is taken out, the placeholders are compacted.  The bindings are shared and never cleared, so an
expression that comes back into a slot overwrites bindings of the one before it, and bindings of
texts that were taken out stay behind.  No harm is done, because every placeholder in a text has the
stem of its slot or a number (`Slot.Admits`), and what is put into a slot binds placeholders with
the stem of this slot only.

* `Bundle.Keeps` is the invariant, and `Bundle.Keeps.change` says that a change keeps it.
* `Bundle.LastPut` says which expression a slot is to hold after some changes.
* `Bundle.changes_keep_last_put`: after any changes, a slot has a text exactly if there is such an
  expression, and the text says what the expression said.
-/

namespace ItemStore

/-! ## Bindings put together -/

namespace Bindings

variable {b b' : Bindings} {t : String}

/-- What bindings stand for that are put together, where no placeholder for a name becomes one for a
value. -/
theorem find?_union (h : ∀ t, b.names.contains t = true → b'.values.contains t = true → False) :
    (b.union b').find? t = (b'.find? t).or (b.find? t) := by
  rw [find?, find?, find?, union, Keyed.get?_union, Keyed.get?_union]
  cases hname' : b'.names.get? t with
  | some n => rfl
  | none =>
    cases hvalue' : b'.values.get? t with
    | none => rfl
    | some v =>
      cases hname : b.names.get? t with
      | none => rfl
      | some n =>
        exact (h t (Keyed.contains_iff.2 ⟨n, hname⟩) (Keyed.contains_iff.2 ⟨v, hvalue'⟩)).elim

/-- What a text says depends on its own placeholders only. -/
theorem resolve_congr {text : String} (h : ∀ t ∈ tokensOf text, b.find? t = b'.find? t) :
    b.resolve text = b'.resolve text := by
  refine List.map_congr_left fun s hs => ?_
  cases s with
  | char c => rfl
  | placeholder t => rw [Sign.map_placeholder, Sign.map_placeholder, h t (mem_tokensOf.2 hs)]

end Bindings

/-- Every placeholder in a text is bound if the text says anything. -/
theorem exists_find?_left {b b' : Bindings} {text text' : String}
    (h : Says (b.resolve text) (b'.resolve text')) {t : String} (ht : t ∈ tokensOf text) :
    ∃ x, b.find? t = some x := by
  obtain ⟨-, -, x, -, hx, -⟩ := exists_of_mem_left h.tokensOf ht
  exact ⟨x, hx⟩

/-! ## The placeholders in a slot -/

namespace Slot

/-- Whether a placeholder has a number instead of a stem. -/
def Numbered (t : String) : Prop :=
  ∃ i, t = Compaction.numberedName i ∨ t = Compaction.numberedValue i

/-- Whether a placeholder may stand in the text of a slot. -/
def Admits (slot : Slot) (t : String) : Prop := (∃ c, slot.Owns c t) ∨ Numbered t

theorem Owns.not_numbered {slot : Slot} {c : Char} {t : String} (h : slot.Owns c t) :
    ¬ Numbered t := by
  obtain ⟨cs, h⟩ := h
  -- no stem begins like a number
  rintro ⟨i, rfl | rfl⟩ <;>
    cases slot <;> simp [Compaction.numberedName, Compaction.numberedValue, stem] at h

/-- A placeholder of one slot stands in the text of no other. -/
theorem Admits.eq_of_owns {slot slot' : Slot} {c : Char} {t : String} (h : slot'.Admits t)
    (ht : slot.Owns c t) : slot' = slot := by
  rcases h with ⟨c', howns⟩ | hnumbered
  · exact (howns.unique ht).2
  · exact absurd hnumbered ht.not_numbered

end Slot

namespace Expression

/-- Whether an expression was compiled for a slot, from a condition, an update or a projection, with
words of the stem of the slot. -/
def CompiledFor (e : Expression) (slot : Slot) : Prop :=
  (∃ c : Condition String, c.compile slot.stem = .ok e) ∨
    (∃ actions, Update.compile actions slot.stem = .ok e) ∨
    ∃ paths, Projection.compile paths slot.stem = .ok e

theorem CompiledFor.spells {e : Expression} {slot : Slot} (h : e.CompiledFor slot) :
    ∃ p, Spells e.bindings e.text p ∧ e.Stemmed slot.stem := by
  rcases h with ⟨c, hc⟩ | ⟨actions, hactions⟩ | ⟨paths, hpaths⟩
  · obtain ⟨c', -, hspells, hstemmed⟩ := Condition.compile_spells slot.isTokenChar_stem hc
    exact ⟨_, hspells, hstemmed⟩
  · obtain ⟨p, -, -, hspells, hstemmed⟩ := Source.made_of_update slot.isTokenChar_stem hactions
    exact ⟨_, hspells, hstemmed⟩
  · obtain ⟨p, -, -, hspells, hstemmed⟩ :=
      Source.made_of_projection slot.isTokenChar_stem hpaths
    exact ⟨_, hspells, hstemmed⟩

theorem Stemmed.head?_name {e : Expression} {stem : String} (h : e.Stemmed stem) {t : String}
    (ht : e.bindings.names.contains t = true) : t.toList.head? = some '#' := by
  obtain ⟨cs, hcs⟩ := h.names t ht
  rw [hcs, List.head?_cons]

theorem Stemmed.head?_value {e : Expression} {stem : String} (h : e.Stemmed stem) {t : String}
    (ht : e.bindings.values.contains t = true) : t.toList.head? = some ':' := by
  obtain ⟨cs, hcs⟩ := h.values t ht
  rw [hcs, List.head?_cons]

end Expression

/-! ## Changes -/

namespace Bundle

/-- A change to a bundle. -/
inductive Change where
  /-- Put an expression into a slot. -/
  | insert (slot : Slot) (e : Expression)
  /-- Take the text out of a slot. -/
  | take (slot : Slot)
  /-- Make the bindings canonical. -/
  | compact

/-- A bundle after a change. -/
def change (b : Bundle) : Change → Bundle
  | .insert slot e => b.insert slot e
  | .take slot => (b.take slot).2
  | .compact => b.compact

/-- A bundle after changes one after another. -/
def changeAll (b : Bundle) (changes : List Change) : Bundle := changes.foldl change b

/-- Whether a change decides what is in a slot. -/
def Change.Decides (slot : Slot) : Change → Prop
  | .insert slot' e => slot' = slot ∧ e.text ≠ ""
  | .take slot' => slot' = slot
  | .compact => False

/-- An expression with a text was put into a slot, and since then it was neither replaced by another
one nor taken out. -/
def LastPut (changes : List Change) (slot : Slot) (e : Expression) : Prop :=
  ∃ before after, changes = before ++ .insert slot e :: after ∧ e.text ≠ "" ∧
    ∀ c ∈ after, ¬ c.Decides slot

/-- What slots are to hold after a change. -/
def Change.putInto (f : Slot → Option Expression) : Change → Slot → Option Expression
  | .insert slot e => if e.text = "" then f else Function.update f slot (some e)
  | .take slot => Function.update f slot none
  | .compact => f

/-! ## Texts after a change -/

section Texts

variable {b : Bundle} {slot slot' : Slot} {e : Expression}

theorem lookup_filter_slot (texts : List (Slot × String)) (slot slot' : Slot) :
    (texts.filter fun t => t.1 ≠ slot).lookup slot' =
      if slot' = slot then none else texts.lookup slot' := by
  induction texts with
  | nil => rw [List.filter_nil, List.lookup_nil, ite_self]
  | cons t texts ih =>
    obtain ⟨k, text⟩ := t
    by_cases hk : k = slot
    · rw [List.filter_cons_of_neg (by simp [hk]), ih, hk]
      by_cases hslot : slot' = slot
      · rw [if_pos hslot, if_pos hslot]
      · rw [if_neg hslot, if_neg hslot, List.lookup_cons, beq_false_of_ne hslot]
    · rw [List.filter_cons_of_pos (by simp [hk]), List.lookup_cons, List.lookup_cons, ih]
      by_cases hslot : slot' = k
      · subst hslot
        simp [hk]
      · rw [beq_false_of_ne hslot]

theorem insert_of_text (he : e.text ≠ "") :
    b.insert slot e = ⟨b.texts.filter (fun t => t.1 ≠ slot) ++ [(slot, e.text)],
      b.bindings.union e.bindings⟩ := by
  rw [insert, if_neg]
  simpa [Expression.isEmpty, String.isEmpty_iff] using he

theorem insert_of_empty (he : e.text = "") : b.insert slot e = b := by
  simp [insert, Expression.isEmpty, he]

theorem text?_insert (he : e.text ≠ "") :
    (b.insert slot e).text? slot' = if slot' = slot then some e.text else b.text? slot' := by
  rw [insert_of_text he]
  refine (text?_append (b := ⟨b.texts.filter fun t => t.1 ≠ slot, b.bindings⟩)).trans ?_
  rw [text?, lookup_filter_slot]
  by_cases h : slot' = slot
  · rw [if_pos h, if_pos h, if_pos h, Option.none_or]
  · rw [if_neg h, if_neg h, if_neg h, Option.or_none, text?]

theorem text?_take :
    (b.take slot).2.text? slot' = if slot' = slot then none else b.text? slot' :=
  lookup_filter_slot b.texts slot slot'

end Texts

/-! ## What changes keep -/

/-- Whether a bundle has, in every slot, a text that says what an expression said. -/
structure Keeps (b : Bundle) (f : Slot → Option Expression) : Prop where
  /-- No slot has two texts. -/
  once : (b.texts.map (·.1)).Nodup
  /-- Every text says what the expression of its slot said. -/
  texts : ∀ slot, Option.Rel
    (fun t (e : Expression) => Says (b.bindings.resolve t) (e.bindings.resolve e.text))
    (b.text? slot) (f slot)
  /-- The placeholders in a text belong to its slot or to none. -/
  tokens : ∀ slot text, b.text? slot = some text → ∀ t ∈ tokensOf text, slot.Admits t
  /-- Placeholders for names have the sigil of names. -/
  names : ∀ t, b.bindings.names.contains t = true → t.toList.head? = some '#'
  /-- Placeholders for values have the sigil of values. -/
  values : ∀ t, b.bindings.values.contains t = true → t.toList.head? = some ':'

theorem keeps_empty : empty.Keeps fun _ => none where
  once := .nil
  texts _ := .none
  tokens slot text htext := by cases htext
  names t ht := by cases ht
  values t ht := by cases ht

section Keeps

variable {b : Bundle} {f : Slot → Option Expression} {slot : Slot} {e : Expression}

/-- What is bound when an expression has been put in: what it binds itself, and else what was bound
before. -/
theorem Keeps.find?_union (h : b.Keeps f) {stem : String} (he : e.Stemmed stem) (t : String) :
    (b.bindings.union e.bindings).find? t = (e.bindings.find? t).or (b.bindings.find? t) := by
  refine Bindings.find?_union fun t hn hv => ?_
  have hsigil := (h.names t hn).symm.trans (he.head?_value hv)
  simp at hsigil

/-- A text keeps its meaning when an expression is put into another slot: none of its placeholders
is bound anew. -/
theorem Keeps.resolve_other (h : b.Keeps f) (he : e.Stemmed slot.stem) {slot' : Slot}
    (hslot : slot' ≠ slot) {text : String} (htext : b.text? slot' = some text) :
    (b.bindings.union e.bindings).resolve text = b.bindings.resolve text := by
  refine Bindings.resolve_congr fun t ht => ?_
  cases hx : e.bindings.find? t with
  | none => rw [h.find?_union he, hx, Option.none_or]
  | some x =>
    obtain ⟨c, hc⟩ := he.owns hx
    exact absurd ((h.tokens slot' text htext t ht).eq_of_owns hc) hslot

/-- The text of an expression that is put in means what it meant by itself. -/
theorem Keeps.resolve_own (h : b.Keeps f) (he : e.Stemmed slot.stem) {p : Phrase}
    (hspells : Spells e.bindings e.text p) :
    (b.bindings.union e.bindings).resolve e.text = e.bindings.resolve e.text := by
  refine Bindings.resolve_congr fun t ht => ?_
  obtain ⟨x, hx⟩ := hspells.exists_find? ht
  rw [h.find?_union he, hx, Option.some_or]

/-- No slot has two texts after one was put in. -/
theorem nodup_insert (h : (b.texts.map (·.1)).Nodup) (he : e.text ≠ "") :
    ((b.insert slot e).texts.map (·.1)).Nodup := by
  rw [insert_of_text he, List.map_append, List.map_singleton]
  refine List.nodup_append.2 ⟨h.sublist (List.filter_sublist.map _), by simp, ?_⟩
  rintro x hx y hy rfl
  obtain ⟨t, ht, rfl⟩ := List.mem_map.1 hx
  have hne := (List.mem_filter.1 ht).2
  simp only [List.mem_singleton] at hy
  simp [hy] at hne

/-- An expression is put into a slot.  It overwrites bindings of its own slot at most. -/
theorem Keeps.insert (h : b.Keeps f) (he : e.text ≠ "") (hcompiled : e.CompiledFor slot) :
    (b.insert slot e).Keeps (Function.update f slot (some e)) := by
  obtain ⟨p, hspells, hstemmed⟩ := hcompiled.spells
  have hbindings : (b.insert slot e).bindings = b.bindings.union e.bindings := by
    rw [insert_of_text he]
  refine ⟨nodup_insert h.once he, fun slot' => ?_, fun slot' text htext t ht => ?_,
    fun t ht => ?_, fun t ht => ?_⟩
  · rw [text?_insert he, hbindings, Function.update_apply]
    by_cases hslot : slot' = slot
    · rw [if_pos hslot, if_pos hslot]
      refine .some ?_
      rw [h.resolve_own hstemmed hspells]
      exact hspells.says.trans hspells.says.symm
    · rw [if_neg hslot, if_neg hslot]
      refine rel_imp_of_eq (fun text e' htext hsaid => ?_) (h.texts slot')
      rwa [h.resolve_other hstemmed hslot htext]
  · rw [text?_insert he] at htext
    by_cases hslot : slot' = slot
    · rw [if_pos hslot] at htext
      cases htext
      obtain ⟨x, hx⟩ := hspells.exists_find? ht
      exact .inl (hslot ▸ hstemmed.owns hx)
    · rw [if_neg hslot] at htext
      exact h.tokens slot' text htext t ht
  · rw [hbindings] at ht
    exact (Bindings.contains_union ht).elim (h.names t) hstemmed.head?_name
  · rw [hbindings] at ht
    exact (Bindings.contains_union ht).elim (h.values t) hstemmed.head?_value

/-- A text is taken out of a slot. -/
theorem Keeps.take (h : b.Keeps f) (slot : Slot) :
    (b.take slot).2.Keeps (Function.update f slot none) := by
  constructor
  · exact h.once.sublist (List.filter_sublist.map _)
  · intro slot'
    rw [text?_take, Function.update_apply]
    split
    · exact .none
    · exact h.texts slot'
  · intro slot' text htext t ht
    rw [text?_take] at htext
    split at htext
    · cases htext
    · exact h.tokens slot' text htext t ht
  · exact h.names
  · exact h.values

/-- Every placeholder in the texts is bound, and to one thing only. -/
theorem Keeps.closed (h : b.Keeps f) : b.Closed := by
  constructor
  · rintro t ⟨hn, hv⟩
    have hsigil := (h.names t hn).symm.trans (h.values t hv)
    simp at hsigil
  · intro t ht
    obtain ⟨text, htext, ht⟩ := List.mem_flatMap.1 ht
    obtain ⟨⟨slot, text⟩, hmem, rfl⟩ := List.mem_map.1 htext
    have hrel := h.texts slot
    rw [text?, (Keyed.lookup_eq_some_iff_mem h.once).2 hmem] at hrel
    generalize f slot = e at hrel
    cases hrel with
    | some hsaid => exact Bindings.find?_isSome.1 (exists_find?_left hsaid ht)

/-- The bindings are made canonical.  All placeholders have numbers then. -/
theorem Keeps.compact (h : b.Keeps f) : b.compact.Keeps f := by
  have hcanonical := canonical_compact h.closed
  have hclosed := closed_compact h.closed
  obtain ⟨hslots, hsaid⟩ := saysAs_compact h.closed
  have honce : (b.compact.texts.map (·.1)).Nodup := by
    rw [compact_slots]
    exact h.once
  refine ⟨honce, fun slot => ?_, fun slot text htext t ht => ?_, fun t ht => ?_, fun t ht => ?_⟩
  · refine rel_trans (fun _ _ _ _ hs hs' => ?_) (rel_lookup hslots hsaid slot) (h.texts slot)
    exact Says.trans hs hs'
  · have hmem : (slot, text) ∈ b.compact.texts := (Keyed.lookup_eq_some_iff_mem honce).1 htext
    have hall : t ∈ Compaction.tokensOfAll (b.compact.texts.map (·.2)) :=
      List.mem_flatMap.2 ⟨text, List.mem_map.2 ⟨_, hmem, rfl⟩, ht⟩
    rcases hclosed.2 t hall with hn | hv
    · obtain ⟨i, -, hi⟩ := (hcanonical.name_keys t).1 hn
      exact .inr ⟨i, .inl hi⟩
    · obtain ⟨i, -, hi⟩ := (hcanonical.value_keys t).1 hv
      exact .inr ⟨i, .inr hi⟩
  · obtain ⟨i, -, rfl⟩ := (hcanonical.name_keys t).1 ht
    simp
  · obtain ⟨i, -, rfl⟩ := (hcanonical.value_keys t).1 ht
    simp

/-- Every change keeps what the slots are to hold. -/
theorem Keeps.change (h : b.Keeps f) (c : Change)
    (hc : ∀ slot e, c = .insert slot e → e.text ≠ "" → e.CompiledFor slot) :
    (b.change c).Keeps (c.putInto f) := by
  cases c with
  | insert slot e =>
    by_cases he : e.text = ""
    · rw [Bundle.change, insert_of_empty he, Change.putInto, if_pos he]
      exact h
    · rw [Bundle.change, Change.putInto, if_neg he]
      exact h.insert he (hc slot e rfl he)
  | take slot => exact h.take slot
  | compact => exact h.compact

end Keeps

/-! ## Many changes -/

/-- Changes one after another keep what the slots are to hold. -/
theorem Keeps.changeAll {b : Bundle} {f : Slot → Option Expression} (h : b.Keeps f)
    {changes : List Change}
    (hchanges : ∀ slot e, .insert slot e ∈ changes → e.text ≠ "" → e.CompiledFor slot) :
    (b.changeAll changes).Keeps (changes.foldl Change.putInto f) := by
  induction changes generalizing b f with
  | nil => exact h
  | cons c changes ih =>
    refine ih (h.change c fun slot e hc => hchanges slot e ?_) fun slot e hmem =>
      hchanges slot e (List.mem_cons_of_mem _ hmem)
    rw [hc]
    exact List.mem_cons_self ..

theorem lastPut_concat {changes : List Change} {c : Change} {slot : Slot} {e : Expression} :
    LastPut (changes ++ [c]) slot e ↔
      (c = .insert slot e ∧ e.text ≠ "") ∨ (¬ c.Decides slot ∧ LastPut changes slot e) := by
  constructor
  · rintro ⟨before, after, heq, he, hafter⟩
    rcases List.eq_nil_or_concat after with rfl | ⟨after, c', rfl⟩
    · obtain ⟨-, hc⟩ := List.append_inj' heq rfl
      exact .inl ⟨List.singleton_inj.1 hc, he⟩
    · rw [List.concat_eq_append, ← List.cons_append, ← List.append_assoc] at heq
      obtain ⟨hchanges, hc⟩ := List.append_inj' heq rfl
      rw [List.singleton_inj.1 hc]
      refine .inr ⟨hafter c' (by simp), before, after, hchanges, he, fun d hd => ?_⟩
      exact hafter d (by simp [hd])
  · rintro (⟨rfl, he⟩ | ⟨hc, before, after, rfl, he, hafter⟩)
    · exact ⟨changes, [], rfl, he, by simp⟩
    · refine ⟨before, after ++ [c], by simp, he, fun d hd => ?_⟩
      rcases List.mem_append.1 hd with hd | hd
      · exact hafter d hd
      · rw [List.mem_singleton.1 hd]
        exact hc

/-- After a change a slot is to hold what the change put into it, or what it held before if the
change does not decide it. -/
theorem Change.putInto_eq_some_iff {f : Slot → Option Expression} {c : Change} {slot : Slot}
    {e : Expression} :
    c.putInto f slot = some e ↔
      (c = .insert slot e ∧ e.text ≠ "") ∨ (¬ c.Decides slot ∧ f slot = some e) := by
  cases c with
  | compact => simp [putInto, Decides]
  | take slot' =>
    by_cases hslot : slot' = slot
    · simp [putInto, Decides, hslot]
    · simp [putInto, Decides, hslot, Ne.symm hslot]
  | insert slot' e' =>
    by_cases he : e'.text = ""
    · have hnot : Change.insert slot' e' = .insert slot e → e.text = "" := by
        intro h
        cases h
        exact he
      simp only [putInto, Decides, he, if_true, ne_eq, not_true_eq_false, and_false,
        not_false_eq_true, true_and]
      exact ⟨.inr, fun h => h.resolve_left fun h => h.2 (hnot h.1)⟩
    · by_cases hslot : slot' = slot
      · subst hslot
        have hinj : Change.insert slot' e' = .insert slot' e ↔ e' = e := by simp
        rw [putInto, if_neg he, Function.update_self, Option.some_inj, hinj]
        refine ⟨fun h => .inl ⟨h, h ▸ he⟩, fun h => ?_⟩
        rcases h with h | h
        · exact h.1
        · exact absurd ⟨rfl, he⟩ h.1
      · simp [putInto, Decides, he, hslot, Ne.symm hslot]

/-- What the slots are to hold after changes is what was last put into them. -/
theorem foldl_putInto_eq_some_iff {changes : List Change} {slot : Slot} {e : Expression} :
    changes.foldl Change.putInto (fun _ => none) slot = some e ↔ LastPut changes slot e := by
  induction changes using List.reverseRecOn with
  | nil => simp [LastPut]
  | append_singleton changes c ih =>
    rw [List.foldl_append, List.foldl_cons, List.foldl_nil, lastPut_concat, ← ih,
      Change.putInto_eq_some_iff]

/-- **A slot keeps what was last put into it, through any changes of its bundle.**

Begin with an empty bundle and put expressions into slots, take texts out and compact the bundle, in
any order and as often as you like, where every expression with a text was compiled for its slot.  A
slot then has a text exactly if an expression with a text was put into it and not taken out since;
and the text, with what the bundle binds, says what the last such expression said with its own
bindings. -/
theorem changes_keep_last_put (changes : List Change)
    (hchanges : ∀ slot e, .insert slot e ∈ changes → e.text ≠ "" → e.CompiledFor slot)
    (slot : Slot) :
    (((empty.changeAll changes).text? slot).isSome = true ↔ ∃ e, LastPut changes slot e) ∧
      ∀ text e, (empty.changeAll changes).text? slot = some text → LastPut changes slot e →
        Says ((empty.changeAll changes).bindings.resolve text)
          (e.bindings.resolve e.text) := by
  have hrel := (keeps_empty.changeAll hchanges).texts slot
  constructor
  · simp only [← foldl_putInto_eq_some_iff, ← Option.isSome_iff_exists]
    generalize (empty.changeAll changes).text? slot = text at hrel ⊢
    generalize changes.foldl Change.putInto (fun _ => none) slot = e at hrel ⊢
    cases hrel <;> rfl
  · intro text e htext he
    rw [htext, foldl_putInto_eq_some_iff.2 he] at hrel
    cases hrel with
    | some hsaid => exact hsaid

/-- A test on a number. -/
def ageTest : Condition String := .compare (.path "age") .ge (.number "18")

/-- A test on a text. -/
def nameTest : Condition String := .compare (.path "name") .eq (.string "Ada")

/-- A filter is put in beside a projection, and after a compaction another filter replaces it and
the projection is taken out. -/
def refiltered (e e' p : Expression) : List Change :=
  [.insert .filter e, .insert .projection p, .compact, .insert .filter e', .take .projection]

/-- The second filter has the placeholders of the first, and stays as it was. -/
theorem changes_keep_last_put_refiltered :
    ∃ e e' p, ageTest.compile Slot.filter.stem = .ok e ∧
      nameTest.compile Slot.filter.stem = .ok e' ∧
      Projection.compile ["name", "age"] Slot.projection.stem = .ok p ∧
      ∃ text, (empty.changeAll (refiltered e e' p)).text? .filter = some text ∧
        Says ((empty.changeAll (refiltered e e' p)).bindings.resolve text)
          (e'.bindings.resolve e'.text) := by
  obtain ⟨e, he⟩ := exists_eq_ok (x := ageTest.compile Slot.filter.stem) (by decide +kernel)
  obtain ⟨e', he'⟩ := exists_eq_ok (x := nameTest.compile Slot.filter.stem) (by decide +kernel)
  obtain ⟨p, hp⟩ := exists_eq_ok (x := Projection.compile ["name", "age"] Slot.projection.stem)
    (by decide +kernel)
  have htext : (nameTest.compile Slot.filter.stem).toOption.map (·.text) ≠ some "" := by
    decide +kernel
  have hne : e'.text ≠ "" := by
    rw [he'] at htext
    exact fun h => htext (congrArg some h)
  have hlast : LastPut (refiltered e e' p) .filter e' :=
    ⟨[.insert .filter e, .insert .projection p, .compact], [.take .projection], rfl, hne,
      by simp [Change.Decides]⟩
  obtain ⟨hsome, hsays⟩ := changes_keep_last_put (refiltered e e' p) (by
    intro slot d hd _
    simp only [refiltered, List.mem_cons, Change.insert.injEq, reduceCtorEq, List.not_mem_nil,
      or_false, false_or] at hd
    rcases hd with ⟨rfl, rfl⟩ | ⟨rfl, rfl⟩ | ⟨rfl, rfl⟩
    · exact .inl ⟨ageTest, he⟩
    · exact .inr (.inr ⟨_, hp⟩)
    · exact .inl ⟨nameTest, he'⟩) .filter
  obtain ⟨text, htext⟩ := Option.isSome_iff_exists.1 (hsome.2 ⟨e', hlast⟩)
  exact ⟨e, e', p, he, he', hp, text, htext, hsays text e' htext hlast⟩

end Bundle

end ItemStore
