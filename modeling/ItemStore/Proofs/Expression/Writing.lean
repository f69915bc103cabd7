import ItemStore.Proofs.Expression.Phrases
import ItemStore.Proofs.Expression.Words

/-!
# Writing spells phrases

A scribe keeps one invariant: its placeholders are words that its supply has handed out, with the
sigil of their sort (`Scribe.Fresh`).  What one writing does to it is said once, by `Scribe.Grows`:
the invariant is kept and nothing that was bound is lost.  `Yields w Q` says that of a writing `w`,
and that `Q` holds of its result; `Yields.bind` puts writings together.

Every function that writes has one such statement, and they end in

* `Scribe.compile_spells`: the expression of a writing stands for the phrase that the writing
  stands for, and binds placeholders with words of the stem only (`Expression.Stemmed`).
-/

namespace ItemStore

/-! ## The invariant of a scribe -/

namespace Scribe

/-- Whether the placeholders of a scribe are words that were handed out. -/
structure Fresh (s : Scribe) : Prop where
  /-- Words may stand in placeholders. -/
  plain : s.source.Plain
  /-- Placeholders for names. -/
  names : ∀ t, s.bindings.names.contains t = true →
    ∃ k, 0 < k ∧ k ≤ s.source.issued ∧ t = "#" ++ s.source.nth k
  /-- Placeholders for values. -/
  values : ∀ t, s.bindings.values.contains t = true →
    ∃ k, 0 < k ∧ k ≤ s.source.issued ∧ t = ":" ++ s.source.nth k

/-- What writing does to a scribe. -/
structure Grows (s s' : Scribe) : Prop where
  /-- The invariant holds again. -/
  fresh : s'.Fresh
  /-- Words still begin with the same stem. -/
  stem : s'.source.stem = s.source.stem
  /-- What was bound is bound. -/
  within : s.bindings.Within s'.bindings

/-- A scribe that has not written anything more has kept all it had. -/
theorem Fresh.grows {s : Scribe} (h : s.Fresh) : s.Grows s := ⟨h, rfl, .refl _⟩

/-- What grows in two steps grows. -/
theorem Grows.trans {s s' s'' : Scribe} (h : s.Grows s') (h' : s'.Grows s'') : s.Grows s'' :=
  ⟨h'.fresh, h'.stem.trans h.stem, h.within.trans h'.within⟩

/-- A new scribe is fresh if its stem may stand in placeholders. -/
theorem fresh_new {stem : String} (h : ∀ c ∈ stem.toList, Piece.isTokenChar c = true) :
    (new stem).Fresh where
  plain := h
  names t ht := by cases ht
  values t ht := by cases ht

end Scribe

/-! ## Placeholders of a sort -/

/-- No placeholder is one for a name and one for a value. -/
theorem name_ne_value (t u : String) : "#" ++ t ≠ ":" ++ u := by
  intro h
  have hhead := congrArg (fun s => s.toList.head?) h
  simp at hhead

theorem prefixed_inj {s t u : String} (h : s ++ t = s ++ u) : t = u := by
  have hlist := congrArg String.toList h
  rw [String.toList_append, String.toList_append] at hlist
  exact String.toList_injective (List.append_cancel_left hlist)

/-! ## What a writing yields -/

/-- Whether a writing keeps the invariant and has a result with a property, given what is bound
afterwards. -/
def Yields {α : Type} (w : Writing α) (Q : Bindings → α → Prop) : Prop :=
  ∀ s : Scribe, s.Fresh → s.Grows (w s).2 ∧ Q (w s).2.bindings (w s).1

/-- Whether a property of a result stays true when more is bound. -/
def Lasting {α : Type} (Q : Bindings → α → Prop) : Prop :=
  ∀ b b' a, b.Within b' → Q b a → Q b' a

section Yields

variable {α β : Type} {Q R : Bindings → α → Prop}

/-- What needs no placeholder is yielded by any scribe, which stays as it is. -/
theorem Yields.pure {a : α} (h : ∀ b, Q b a) : Yields (Pure.pure a) Q :=
  fun s hs => ⟨hs.grows, h s.bindings⟩

/-- One writing after another: what the first one yields is known of the second. -/
theorem Yields.bind {w : Writing α} {f : α → Writing β} {R : Bindings → β → Prop}
    (hw : Yields w Q) (hQ : Lasting Q) (hf : ∀ a, Yields (f a) fun b c => Q b a → R b c) :
    Yields (w >>= f) R := by
  intro s hs
  obtain ⟨hgrows, hq⟩ := hw s hs
  obtain ⟨hgrows', hr⟩ := hf (w s).1 (w s).2 hgrows.fresh
  exact ⟨hgrows.trans hgrows', hr (hQ _ _ _ hgrows'.within hq)⟩

/-- What is yielded may be said in weaker words. -/
theorem Yields.imp {w : Writing α} (h : Yields w Q) (hQR : ∀ b a, Q b a → R b a) :
    Yields w R := by
  intro s hs
  obtain ⟨hgrows, hq⟩ := h s hs
  exact ⟨hgrows, hQR _ _ hq⟩

end Yields

/-- Whether a text stands for a phrase and is apart from what is in front of it. -/
structure SpellsApart (b : Bindings) (p : Phrase) (text : String) : Prop where
  /-- The text stands for the phrase. -/
  spells : Spells b text p
  /-- It does not prolong a placeholder in front of it. -/
  apart : Apart text.toList

/-- A text goes on spelling a phrase while bindings are added. -/
theorem lasting_spells (p : Phrase) : Lasting fun b text => Spells b text p :=
  fun _ _ _ hb h => h.mono hb

theorem lasting_apart (p : Phrase) : Lasting fun b text => SpellsApart b p text :=
  fun _ _ _ hb h => ⟨h.spells.mono hb, h.apart⟩

theorem lasting_all (ps : List Phrase) : Lasting fun b ts => List.Forall₂ (Spells b) ts ps :=
  fun _ _ _ hb h => h.imp fun _ _ hspells => hspells.mono hb

/-- Texts that are apart spell phrases behind one another. -/
theorem SpellsApart.append {b : Bindings} {p q : Phrase} {t u : String} (h : SpellsApart b p t)
    (h' : SpellsApart b q u) : SpellsApart b (p ++ q) (t ++ u) := by
  refine ⟨h.spells.append h'.spells h'.apart, ?_⟩
  rw [String.toList_append]
  exact h.apart.append h'.apart

/-- Literal text spells itself if a word before it would end there. -/
theorem spellsApart_literal {b : Bindings} {l : String} (hl : Literal l) (ha : Apart l.toList) :
    SpellsApart b (Sign.literal l) l :=
  ⟨spells_literal hl, ha⟩

/-! ## Placeholders -/

namespace Bindings

variable {b : Bindings} {t u : String}

/-- A new name changes what its own placeholder stands for, and no other. -/
theorem find?_insert_name (text : String) :
    find? { b with names := b.names.insert u text } t =
      if t = u then some (.name text) else b.find? t := by
  rw [find?, find?, Keyed.get?_insert]
  by_cases h : t = u
  · rw [if_pos h, if_pos h]
  · rw [if_neg h, if_neg h]

/-- A new value changes what its own placeholder stands for, and no other, if that was free. -/
theorem find?_insert_value (v : AttributeValue) (hu : b.find? u = none) :
    find? { b with values := b.values.insert u v } t =
      if t = u then some (.value v) else b.find? t := by
  rw [find?, find?, Keyed.get?_insert]
  by_cases h : t = u
  · subst h
    have hn : b.names.get? t = none := by
      rw [find?] at hu
      cases hn : b.names.get? t with
      | none => rfl
      | some n => rw [hn] at hu; cases hu
    rw [if_pos rfl, if_pos rfl, hn]
    rfl
  · rw [if_neg h, if_neg h]

/-- Bindings grow when a placeholder that was not bound is. -/
theorem within_of_find? {b' : Bindings} {x : Binding} (hu : b.find? u = none)
    (h : ∀ t, b'.find? t = if t = u then some x else b.find? t) : b.Within b' := by
  intro t y hy
  rw [h, if_neg, hy]
  rintro rfl
  rw [hu] at hy
  cases hy

end Bindings

namespace Scribe

/-- The next word is no placeholder yet. -/
theorem Fresh.find?_eq_none {s : Scribe} (h : s.Fresh) {sigil : String}
    (hsigil : sigil = "#" ∨ sigil = ":") :
    s.bindings.find? (sigil ++ s.source.nth (s.source.issued + 1)) = none := by
  -- a placeholder that is bound has a smaller number, and the sigil of its sort
  rw [Option.eq_none_iff_forall_ne_some]
  intro x hx
  have hnumber : ∀ {t u : String} {k : Nat}, k ≤ s.source.issued →
      t ++ s.source.nth (s.source.issued + 1) = u ++ s.source.nth k → t = u → False := by
    rintro t _ k hk heq rfl
    have := s.source.nth_injective (prefixed_inj heq)
    omega
  rcases Bindings.find?_isSome.1 ⟨x, hx⟩ with hn | hv
  · obtain ⟨k, -, hk, heq⟩ := h.names _ hn
    rcases hsigil with rfl | rfl
    · exact hnumber hk heq rfl
    · exact name_ne_value _ _ heq.symm
  · obtain ⟨k, -, hk, heq⟩ := h.values _ hv
    rcases hsigil with rfl | rfl
    · exact name_ne_value _ _ heq
    · exact hnumber hk heq rfl

/-- A scribe stays fresh when a word is handed out and bound at most to the placeholder of it. -/
theorem Fresh.next {s : Scribe} (h : s.Fresh) {b : Bindings}
    (hnames : ∀ t, b.names.contains t = true →
      t = "#" ++ s.source.nth (s.source.issued + 1) ∨ s.bindings.names.contains t = true)
    (hvalues : ∀ t, b.values.contains t = true →
      t = ":" ++ s.source.nth (s.source.issued + 1) ∨ s.bindings.values.contains t = true) :
    Fresh ⟨{ s.source with issued := s.source.issued + 1 }, b⟩ where
  plain := h.plain
  names t ht := by
    rcases hnames t ht with rfl | ht
    · exact ⟨_, Nat.succ_pos _, Nat.le_refl _, rfl⟩
    · obtain ⟨k, hpos, hk, rfl⟩ := h.names t ht
      exact ⟨k, hpos, Nat.le_succ_of_le hk, rfl⟩
  values t ht := by
    rcases hvalues t ht with rfl | ht
    · exact ⟨_, Nat.succ_pos _, Nat.le_refl _, rfl⟩
    · obtain ⟨k, hpos, hk, rfl⟩ := h.values t ht
      exact ⟨k, hpos, Nat.le_succ_of_le hk, rfl⟩

theorem contains_insert {α : Type} {c : Keyed α} {k t : String} {x : α}
    (h : (c.insert k x).contains t = true) : t = k ∨ c.contains t = true := by
  rw [Keyed.contains, Keyed.get?_insert] at h
  by_cases ht : t = k
  · exact .inl ht
  · rw [if_neg ht] at h
    exact .inr h

/-- A placeholder stands for what it was written for. -/
theorem spellsApart_token {b : Bindings} {t : String} {x : Binding} (ht : IsToken t)
    (hx : b.find? t = some x) : SpellsApart b [.placeholder x] t := by
  have happ := ht.apart []
  rw [List.append_nil] at happ
  exact ⟨spells_token ht hx, happ⟩

/-- A name gets a placeholder of its own, which stands for it. -/
theorem yields_name (text : String) : Yields (name text) fun b t =>
    SpellsApart b (Phrase.name text) t := by
  intro s hs
  have hnone := hs.find?_eq_none (.inl rfl)
  have htoken : IsToken ("#" ++ s.source.nth (s.source.issued + 1)) :=
    TokenSource.isToken_nth hs.plain (c := '#') (by simp) (by decide) (Nat.succ_pos _)
  refine ⟨⟨hs.next (fun t ht => contains_insert ht) (fun t ht => .inr ht), rfl, ?_⟩, ?_⟩
  · exact Bindings.within_of_find? hnone fun t => Bindings.find?_insert_name text
  · refine spellsApart_token htoken ?_
    exact (Bindings.find?_insert_name text).trans (if_pos rfl)

/-- A value gets a placeholder of its own, which stands for it. -/
theorem yields_value (v : AttributeValue) : Yields (value v) fun b t =>
    SpellsApart b (Phrase.value v) t := by
  intro s hs
  have hnone := hs.find?_eq_none (.inr rfl)
  have htoken : IsToken (":" ++ s.source.nth (s.source.issued + 1)) :=
    TokenSource.isToken_nth hs.plain (c := ':') (by simp) (by decide) (Nat.succ_pos _)
  refine ⟨⟨hs.next (fun t ht => .inr ht) (fun t ht => contains_insert ht), rfl, ?_⟩, ?_⟩
  · exact Bindings.within_of_find? hnone fun t => Bindings.find?_insert_value v hnone
  · refine spellsApart_token htoken ?_
    exact (Bindings.find?_insert_value v hnone).trans (if_pos rfl)

/-- Write values, from left to right. -/
theorem yields_valueAll (vs : List AttributeValue) : Yields (valueAll vs) fun b ts =>
    List.Forall₂ (Spells b) ts (vs.map Phrase.value) := by
  induction vs with
  | nil => exact .pure fun _ => .nil
  | cons v vs ih =>
    refine (yields_value v).bind (lasting_apart _) fun t => ?_
    refine ih.bind (lasting_all _) fun ts => .pure fun b hts ht => ?_
    exact .cons ht.spells hts

/-! ## Paths -/

/-- There is no sigil in the text of an index. -/
theorem literal_indexText (n : Nat) : Literal (indexText n) := by
  intro c hc
  rw [indexText, String.toList_append, String.toList_append, List.mem_append, List.mem_append] at hc
  have hdigit : c ∈ (toString n).toList → Piece.isSigil c = false := by
    intro hc
    cases hsigil : Piece.isSigil c with
    | false => rfl
    | true =>
      have htoken := isTokenChar_toString n c hc
      rw [isTokenChar_of_isSigil hsigil] at htoken
      cases htoken
  rcases hc with (hc | hc) | hc
  · simp at hc
    subst hc
    decide
  · exact hdigit hc
  · simp at hc
    subst hc
    decide

theorem spellsApart_indexText {b : Bindings} (n : Nat) :
    SpellsApart b (Sign.literal (indexText n)) (indexText n) :=
  ⟨spells_literal (literal_indexText n), by simp [indexText, Piece.isTokenChar]⟩

/-- Behind the first name of a path stand its other names with a point, and its indexes in brackets.
-/
theorem yields_pathRest (es : List PathElement) : Yields (pathRest es) fun b t =>
    SpellsApart b (Path.phraseRest es) t := by
  induction es with
  | nil => exact .pure fun b => ⟨spells_empty b, apart_nil⟩
  | cons e es ih =>
    cases e with
    | name text =>
      refine (yields_name text).bind (lasting_apart _) fun t => ?_
      refine ih.bind (lasting_apart _) fun u => .pure fun b hu ht => ?_
      exact ((spellsApart_literal (by decide) (by decide)).append ht).append hu
    | index n =>
      refine ih.bind (lasting_apart _) fun u => .pure fun b hu => ?_
      exact (spellsApart_indexText n).append hu

/-- A path is written with a placeholder for each of its names. -/
theorem yields_path (p : Path) : Yields (path p) fun b t => SpellsApart b p.phrase t := by
  obtain ⟨es⟩ := p
  cases es with
  | nil => exact yields_pathRest []
  | cons e es =>
    cases e with
    | name text =>
      refine (yields_name text).bind (lasting_apart _) fun t => ?_
      refine (yields_pathRest es).bind (lasting_apart _) fun u => .pure fun b hu ht => ?_
      exact ht.append hu
    | index n => exact yields_pathRest (.index n :: es)

end Scribe

/-! ## Conditions -/

namespace Condition

/-- A call spells the phrase of its arguments in parentheses. -/
theorem spells_callText {b : Bindings} {function : String} (hf : Literal (function ++ "("))
    {ts : List String} {ps : List Phrase} (h : List.Forall₂ (Spells b) ts ps) :
    Spells b (callText function ts) (Phrase.call function ps) :=
  ((Spells.joined (by decide) (fun _ => by simp [Piece.isTokenChar]) h).literal_append
    hf).append_literal (by decide) (by decide)

/-- Joined texts spell the joined phrases, in parentheses if they are nested. -/
theorem spells_join {b : Bindings} (nested : Bool) {word : String}
    (hword : Literal (" " ++ word ++ " ")) {ts : List String} {ps : List Phrase}
    (h : List.Forall₂ (Spells b) ts ps) :
    Spells b (join nested word ts) (Phrase.join nested word ps) := by
  have hjoined : Spells b ((" " ++ word ++ " ").intercalate ts)
      (Phrase.joined (" " ++ word ++ " ") ps) :=
    Spells.joined hword (fun _ => by simp [Piece.isTokenChar]) h
  rw [join, Phrase.join, h.length_eq]
  split
  · exact (hjoined.literal_append (by decide)).append_literal (by decide) (by decide)
  · exact hjoined

/-- A subject is written as its path, or as the size of it. -/
theorem yields_writeSubject (s : Subject Path) : Yields (writeSubject s) fun b t =>
    Spells b t s.phrase := by
  cases s with
  | path p => exact (Scribe.yields_path p).imp fun _ _ h => h.spells
  | size p =>
    refine (Scribe.yields_path p).bind (lasting_apart _) fun t => .pure fun b ht => ?_
    exact spells_callText (by decide) (.cons ht.spells .nil)

/-- There is no sigil in a comparison sign, and none of them goes on with a word. -/
theorem literal_sign (op : Comparison) : Literal op.sign ∧ Apart op.sign.toList := by
  cases op <;> decide

mutual

/-- Writing a condition spells its phrase. -/
theorem yields_write (nested : Bool) : ∀ c : Condition Path, Yields (write nested c) fun b t =>
    Spells b t (c.phrase nested)
  | .all children => by
    rw [write, phrase]
    exact (yields_writeAll children).bind (lasting_all _) fun ts =>
      .pure fun b hts => spells_join nested (by decide) hts
  | .any children => by
    rw [write, phrase]
    exact (yields_writeAll children).bind (lasting_all _) fun ts =>
      .pure fun b hts => spells_join nested (by decide) hts
  | .not child => by
    rw [write, phrase]
    exact (yields_write true child).bind (lasting_spells _) fun t =>
      .pure fun b ht => ht.literal_append (by decide)
  | .compare subject op value => by
    rw [write, phrase]
    refine (yields_writeSubject subject).bind (lasting_spells _) fun t => ?_
    refine (Scribe.yields_value value).bind (lasting_apart _) fun u => .pure fun b hu ht => ?_
    obtain ⟨hliteral, hap⟩ := literal_sign op
    exact (ht.append_literal hliteral hap).append hu.spells hu.apart
  | .between subject low high => by
    rw [write, phrase]
    refine (yields_writeSubject subject).bind (lasting_spells _) fun t => ?_
    refine (Scribe.yields_value low).bind (lasting_apart _) fun u => ?_
    refine (Scribe.yields_value high).bind (lasting_apart _) fun v => .pure fun b hv hu ht => ?_
    have hlow := (ht.append_literal (l := " BETWEEN ") (by decide) (by decide)).append hu.spells
      hu.apart
    exact (hlow.append_literal (l := " AND ") (by decide) (by decide)).append hv.spells hv.apart
  | .oneOf subject values => by
    rw [write, phrase]
    refine (yields_writeSubject subject).bind (lasting_spells _) fun t => ?_
    refine (Scribe.yields_valueAll values).bind (lasting_all _) fun ts => .pure fun b hts ht => ?_
    have hcall : Spells b (" " ++ callText "IN " ts)
        (Sign.literal " " ++ Phrase.call "IN " (values.map Phrase.value)) :=
      (spells_callText (by decide) hts).literal_append (by decide)
    have hapart : Apart (" " ++ callText "IN " ts).toList := by simp [Piece.isTokenChar]
    rw [String.append_assoc, List.append_assoc]
    exact ht.append hcall hapart
  | .beginsWith path value => by
    rw [write, phrase]
    refine (Scribe.yields_path path).bind (lasting_apart _) fun t => ?_
    refine (Scribe.yields_value value).bind (lasting_apart _) fun u => .pure fun b hu ht => ?_
    exact spells_callText (by decide) (.cons ht.spells (.cons hu.spells .nil))
  | .contains path value => by
    rw [write, phrase]
    refine (Scribe.yields_path path).bind (lasting_apart _) fun t => ?_
    refine (Scribe.yields_value value).bind (lasting_apart _) fun u => .pure fun b hu ht => ?_
    exact spells_callText (by decide) (.cons ht.spells (.cons hu.spells .nil))
  | .present path => by
    rw [write, phrase]
    refine (Scribe.yields_path path).bind (lasting_apart _) fun t => .pure fun b ht => ?_
    exact spells_callText (by decide) (.cons ht.spells .nil)
  | .absent path => by
    rw [write, phrase]
    refine (Scribe.yields_path path).bind (lasting_apart _) fun t => .pure fun b ht => ?_
    exact spells_callText (by decide) (.cons ht.spells .nil)
  | .hasKind path kind => by
    rw [write, phrase]
    refine (Scribe.yields_path path).bind (lasting_apart _) fun t => ?_
    refine (Scribe.yields_value (.string kind.descriptor)).bind (lasting_apart _) fun u =>
      .pure fun b hu ht => ?_
    exact spells_callText (by decide) (.cons ht.spells (.cons hu.spells .nil))

theorem yields_writeAll : ∀ cs : List (Condition Path), Yields (writeAll cs) fun b ts =>
    List.Forall₂ (Spells b) ts (phraseAll cs)
  | [] => .pure fun _ => .nil
  | c :: rest => by
    rw [writeAll, phraseAll]
    refine (yields_write true c).bind (lasting_spells _) fun t => ?_
    refine (yields_writeAll rest).bind (lasting_all _) fun ts => .pure fun b hts ht => ?_
    exact .cons ht hts

end

end Condition

/-! ## Updates -/

/-- An action is written as the phrase for its kind. -/
theorem UpdateAction.yields_write (a : UpdateAction Path) : Yields a.write fun b t =>
    Spells b t a.phrase := by
  refine (Scribe.yields_path a.path).bind (lasting_apart _) fun t => ?_
  cases a with
  | set p v onlyIfAbsent =>
    cases onlyIfAbsent with
    | false =>
      refine (Scribe.yields_value v).bind (lasting_apart _) fun u => .pure fun b hu ht => ?_
      exact (ht.spells.append_literal (by decide) (by decide)).append hu.spells hu.apart
    | true =>
      refine (Scribe.yields_value v).bind (lasting_apart _) fun u => .pure fun b hu ht => ?_
      exact ((((ht.spells.append_literal (by decide) (by decide)).append ht.spells
        ht.apart).append_literal (by decide) (by decide)).append hu.spells
        hu.apart).append_literal (by decide) (by decide)
  | remove p => exact .pure fun b ht => ht.spells
  | add p v =>
    refine (Scribe.yields_value v).bind (lasting_apart _) fun u => .pure fun b hu ht => ?_
    exact (ht.spells.append_literal (by decide) (by decide)).append hu.spells hu.apart
  | delete p v =>
    refine (Scribe.yields_value v).bind (lasting_apart _) fun u => .pure fun b hu ht => ?_
    exact (ht.spells.append_literal (by decide) (by decide)).append hu.spells hu.apart
  | append p v =>
    refine (Scribe.yields_value v).bind (lasting_apart _) fun u => .pure fun b hu ht => ?_
    exact ((((ht.spells.append_literal (by decide) (by decide)).append ht.spells
      ht.apart).append_literal (by decide) (by decide)).append hu.spells
      hu.apart).append_literal (by decide) (by decide)
  | prepend p v =>
    refine (Scribe.yields_value v).bind (lasting_apart _) fun u => .pure fun b hu ht => ?_
    exact ((((ht.spells.append_literal (by decide) (by decide)).append hu.spells
      hu.apart).append_literal (by decide) (by decide)).append ht.spells
      ht.apart).append_literal (by decide) (by decide)
  | increment p v =>
    refine (Scribe.yields_value v).bind (lasting_apart _) fun u => .pure fun b hu ht => ?_
    exact (((ht.spells.append_literal (by decide) (by decide)).append ht.spells
      ht.apart).append_literal (by decide) (by decide)).append hu.spells hu.apart
  | decrement p v =>
    refine (Scribe.yields_value v).bind (lasting_apart _) fun u => .pure fun b hu ht => ?_
    exact (((ht.spells.append_literal (by decide) (by decide)).append ht.spells
      ht.apart).append_literal (by decide) (by decide)).append hu.spells hu.apart

/-- Actions are written one after another, each with placeholders of its own. -/
theorem UpdateAction.yields_writeAll (as : List (UpdateAction Path)) :
    Yields (writeAll as) fun b ts => List.Forall₂ (Spells b) ts (as.map UpdateAction.phrase) := by
  induction as with
  | nil => exact .pure fun _ => .nil
  | cons a as ih =>
    refine a.yields_write.bind (lasting_spells _) fun t => ?_
    exact ih.bind (lasting_all _) fun ts => .pure fun b hts ht => .cons ht hts

namespace Update

theorem literal_keyword (k : UpdateClause) : Literal (k.keyword ++ " ") := by
  cases k <;> decide

/-- A clause is written if it has an action, behind its keyword. -/
theorem yields_writeClauses (actions : List (UpdateAction Path)) (ks : List UpdateClause) :
    Yields (writeClauses actions ks) fun b ts =>
      List.Forall₂ (Spells b) ts (clausePhrases actions ks) := by
  induction ks with
  | nil => exact .pure fun _ => .nil
  | cons k ks ih =>
    refine (UpdateAction.yields_writeAll (ofClause k actions)).bind (lasting_all _) fun parts => ?_
    refine ih.bind (lasting_all _) fun more => ?_
    have hempty : ∀ b, List.Forall₂ (Spells b) parts
        ((ofClause k actions).map UpdateAction.phrase) →
          parts.isEmpty = (ofClause k actions).isEmpty := by
      intro b hparts
      have hlength := hparts.length_eq
      rw [List.length_map] at hlength
      rw [Bool.eq_iff_iff, List.isEmpty_iff_length_eq_zero, List.isEmpty_iff_length_eq_zero,
        hlength]
    cases hparts : parts.isEmpty with
    | true =>
      refine .pure fun b hmore hspells => ?_
      have hnone := hempty b hspells
      rw [hparts] at hnone
      rw [clausePhrases, List.filter_cons_of_neg (by simp [← hnone])]
      exact hmore
    | false =>
      refine .pure fun b hmore hspells => ?_
      have hsome := hempty b hspells
      rw [hparts] at hsome
      rw [clausePhrases, List.filter_cons_of_pos (by simp [← hsome])]
      refine .cons ?_ hmore
      exact (Spells.joined (by decide) (fun _ => by simp [Piece.isTokenChar])
        hspells).literal_append (literal_keyword k)

/-- An update is written clause by clause, with blanks between them. -/
theorem yields_update (actions : List (UpdateAction Path)) :
    Yields (do return " ".intercalate (← writeClauses actions UpdateClause.all)) fun b t =>
      Spells b t (phrase actions) :=
  (yields_writeClauses actions UpdateClause.all).bind (lasting_all _) fun _ => .pure fun _ hts =>
    Spells.joined (by decide) (fun _ => by simp [Piece.isTokenChar]) hts

end Update

/-! ## Projections -/

namespace Projection

/-- Paths are written one after another, each with placeholders of its own. -/
theorem yields_writePaths (ps : List Path) : Yields (writePaths ps) fun b ts =>
    List.Forall₂ (Spells b) ts (ps.map Path.phrase) := by
  induction ps with
  | nil => exact .pure fun _ => .nil
  | cons p ps ih =>
    refine (Scribe.yields_path p).bind (lasting_apart _) fun t => ?_
    exact ih.bind (lasting_all _) fun ts => .pure fun b hts ht => .cons ht.spells hts

theorem yields_projection (ps : List Path) :
    Yields (do return ", ".intercalate (← writePaths ps)) fun b t => Spells b t (phrase ps) :=
  (yields_writePaths ps).bind (lasting_all _) fun _ => .pure fun _ hts =>
    Spells.joined (by decide) (fun _ => by simp [Piece.isTokenChar]) hts

end Projection

/-! ## Compiled expressions -/

/-- Whether an expression binds placeholders with words of a stem only. -/
structure Expression.Stemmed (e : Expression) (stem : String) : Prop where
  /-- Placeholders for names. -/
  names : ∀ t, e.bindings.names.contains t = true →
    ∃ cs, t.toList = '#' :: (stem.toList ++ cs)
  /-- Placeholders for values. -/
  values : ∀ t, e.bindings.values.contains t = true →
    ∃ cs, t.toList = ':' :: (stem.toList ++ cs)

/-- What is written with words of a stem stands for the phrase it is to stand for. -/
theorem Scribe.compile_spells {stem : String}
    (hstem : ∀ c ∈ stem.toList, Piece.isTokenChar c = true) {w : Writing String} {p : Phrase}
    (hw : Yields w fun b t => Spells b t p) :
    Spells (compile stem w).bindings (compile stem w).text p ∧ (compile stem w).Stemmed stem := by
  obtain ⟨hgrows, hspells⟩ := hw (new stem) (fresh_new hstem)
  refine ⟨hspells, ?_, ?_⟩
  · intro t ht
    obtain ⟨k, -, -, rfl⟩ := hgrows.fresh.names t ht
    refine ⟨ItemStore.word k, ?_⟩
    rw [String.toList_append, TokenSource.toList_nth, hgrows.stem]
    rfl
  · intro t ht
    obtain ⟨k, -, -, rfl⟩ := hgrows.fresh.values t ht
    refine ⟨ItemStore.word k, ?_⟩
    rw [String.toList_append, TokenSource.toList_nth, hgrows.stem]
    rfl

end ItemStore
