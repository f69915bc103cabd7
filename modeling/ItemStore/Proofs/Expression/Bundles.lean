import ItemStore.Proofs.Expression.Canonical

/-!
# Bundles and expressions in canonical form

What compaction does to texts with bindings, said of the bundle of a request and of a single
expression.  Both are `Closed` when every placeholder in them is bound, and to one thing only.

* `Bundle.saysAs_compact`: a compacted bundle has the same slots and says in each what was said.
* `compact_canonical_form`: compaction makes bundles and expressions canonical, those that say the
  same become the same, and a second compaction changes nothing.
-/

namespace ItemStore

/-! ## Bundles -/

namespace Bundle

/-- Whether every placeholder in the texts is bound, to a name or to a value. -/
def Closed (b : Bundle) : Prop := b.bindings.Disjoint ∧ b.bindings.Defines (b.texts.map (·.2))

/-- Whether the placeholders are numbered across all texts. -/
def Canonical (b : Bundle) : Prop := Compaction.Canonical (b.texts.map (·.2)) b.bindings

/-- Whether two bundles have texts that say the same in the same slots. -/
def SaysAs (b b' : Bundle) : Prop :=
  b.texts.map (·.1) = b'.texts.map (·.1) ∧
    List.Forall₂ (fun t t' => Says (b.bindings.resolve t) (b'.bindings.resolve t'))
      (b.texts.map (·.2)) (b'.texts.map (·.2))

instance (b : Bundle) : Decidable b.Closed := inferInstanceAs (Decidable (_ ∧ _))

theorem compact_eq_zip (b : Bundle) :
    b.compact.texts = (b.texts.map (·.1)).zip
      (Compaction.compact (b.texts.map (·.2)) b.bindings).1 := rfl

@[simp] theorem compact_bindings (b : Bundle) :
    b.compact.bindings = (Compaction.compact (b.texts.map (·.2)) b.bindings).2 := rfl

/-- Compaction leaves every text in its slot. -/
@[simp] theorem compact_slots (b : Bundle) : b.compact.texts.map (·.1) = b.texts.map (·.1) := by
  rw [compact_eq_zip]
  exact List.map_fst_zip (by simp [Compaction.length_compact])

/-- The texts of a bundle are compacted together, so that they share their placeholders. -/
@[simp] theorem compact_texts (b : Bundle) :
    b.compact.texts.map (·.2) = (Compaction.compact (b.texts.map (·.2)) b.bindings).1 := by
  rw [compact_eq_zip]
  exact List.map_snd_zip (by simp [Compaction.length_compact])

/-- The texts of a bundle are its slots with what is in them. -/
theorem texts_eq {b b' : Bundle} (h : b.texts.map (·.1) = b'.texts.map (·.1))
    (h' : b.texts.map (·.2) = b'.texts.map (·.2)) : b.texts = b'.texts :=
  (List.zip_of_prod h h').trans (List.zip_of_prod rfl rfl).symm

instance (b b' : Bundle) : Decidable (b.SaysAs b') :=
  have : DecidableRel fun t t' => Says (b.bindings.resolve t) (b'.bindings.resolve t') :=
    fun _ _ => inferInstanceAs (Decidable (Says _ _))
  inferInstanceAs (Decidable (_ ∧ _))

/-- A compacted bundle has a binding for every placeholder that is left in it. -/
theorem closed_compact {b : Bundle} (h : b.Closed) : b.compact.Closed := by
  refine ⟨Compaction.disjoint_compact h.1, ?_⟩
  rw [compact_texts]
  exact Compaction.defines_compact h.2

/-- Compaction changes how a bundle says something, never what it says. -/
theorem saysAs_compact {b : Bundle} (h : b.Closed) : b.compact.SaysAs b := by
  refine ⟨compact_slots b, ?_⟩
  rw [compact_texts]
  exact Compaction.says_compact h.2

theorem SaysAs.symm {b b' : Bundle} (h : b.SaysAs b') : b'.SaysAs b :=
  ⟨h.1.symm, h.2.flip.imp fun _ _ hsaid => Says.symm hsaid⟩

theorem SaysAs.trans {b b' b'' : Bundle} (h : b.SaysAs b') (h' : b'.SaysAs b'') :
    b.SaysAs b'' := by
  refine ⟨h.1.trans h'.1, forall₂_trans (fun _ _ _ hs hs' => ?_) h.2 h'.2⟩
  exact Says.trans hs hs'

/-- A bundle is canonical once it has been compacted. -/
theorem canonical_compact {b : Bundle} (h : b.Closed) : b.compact.Canonical := by
  rw [Canonical, compact_texts]
  exact Compaction.canonical_compact h.1 h.2

/-- Canonical bundles that say the same have the same texts and equal bindings. -/
theorem Canonical.unique {b b' : Bundle} (h : b.Canonical) (h' : b'.Canonical)
    (hs : b.SaysAs b') : b.texts = b'.texts ∧ (b.bindings == b'.bindings) = true :=
  ⟨texts_eq hs.1 (Compaction.Canonical.texts_eq h h' hs.2),
    Compaction.Canonical.bindings_beq h h' hs.2⟩

/-- Bundles that say the same are compacted to the same texts, with equal bindings. -/
theorem compact_unique {b b' : Bundle} (h : b.Closed) (h' : b'.Closed) (hs : b.SaysAs b') :
    b.compact.texts = b'.compact.texts ∧
      (b.compact.bindings == b'.compact.bindings) = true :=
  (canonical_compact h).unique (canonical_compact h')
    (((saysAs_compact h).trans hs).trans (saysAs_compact h').symm)

/-- There is nothing left to do for a bundle that is canonical already. -/
theorem Canonical.compact_eq {b : Bundle} (h : b.Canonical) (hb : b.Closed) : b.compact = b := by
  have heq := Compaction.Canonical.compact_eq_self h hb.2
  have htexts : b.compact.texts = b.texts :=
    texts_eq (compact_slots b) (by rw [compact_texts, heq])
  have hbindings : b.compact.bindings = b.bindings := by rw [compact_bindings, heq]
  show (⟨b.compact.texts, b.compact.bindings⟩ : Bundle) = ⟨b.texts, b.bindings⟩
  rw [htexts, hbindings]

end Bundle

/-! ## Single expressions -/

namespace Expression

/-- Whether every placeholder in the text is bound, to a name or to a value. -/
def Closed (e : Expression) : Prop := e.bindings.Disjoint ∧ e.bindings.Defines [e.text]

/-- Whether the placeholders are numbered. -/
def Canonical (e : Expression) : Prop := Compaction.Canonical [e.text] e.bindings

/-- Whether two expressions say the same. -/
def SaysAs (e e' : Expression) : Prop :=
  Says (e.bindings.resolve e.text) (e'.bindings.resolve e'.text)

instance (e : Expression) : Decidable e.Closed := inferInstanceAs (Decidable (_ ∧ _))

theorem compact_eq (e : Expression) :
    Compaction.compact [e.text] e.bindings = ([e.compact.text], e.compact.bindings) := rfl

/-- A compacted expression has a binding for every placeholder that is left in it. -/
theorem closed_compact {e : Expression} (h : e.Closed) : e.compact.Closed :=
  ⟨Compaction.disjoint_compact h.1, Compaction.defines_compact h.2⟩

theorem saysAs_compact {e : Expression} (h : e.Closed) : e.compact.SaysAs e :=
  (List.forall₂_cons.1 (Compaction.says_compact h.2)).1

theorem canonical_compact {e : Expression} (h : e.Closed) : e.compact.Canonical :=
  Compaction.canonical_compact h.1 h.2

/-- Expressions that say the same are compacted to the same text, with equal bindings. -/
theorem compact_unique {e e' : Expression} (h : e.Closed) (h' : e'.Closed) (hs : e.SaysAs e') :
    e.compact.text = e'.compact.text ∧
      (e.compact.bindings == e'.compact.bindings) = true := by
  have hsaid : e.compact.SaysAs e'.compact :=
    Says.trans (Says.trans (saysAs_compact h) hs) (saysAs_compact h').symm
  have hall : List.Forall₂ (fun t t' => Says (e.compact.bindings.resolve t)
      (e'.compact.bindings.resolve t')) [e.compact.text] [e'.compact.text] := .cons hsaid .nil
  refine ⟨?_, Compaction.Canonical.bindings_beq (canonical_compact h) (canonical_compact h') hall⟩
  exact List.head_eq_of_cons_eq
    (Compaction.Canonical.texts_eq (canonical_compact h) (canonical_compact h') hall)

theorem Canonical.compact_eq {e : Expression} (h : e.Canonical) (he : e.Closed) :
    e.compact = e := by
  have heq := Compaction.Canonical.compact_eq_self h he.2
  rw [Expression.compact_eq] at heq
  obtain ⟨htexts, hbindings⟩ := Prod.mk.inj heq
  show (⟨e.compact.text, e.compact.bindings⟩ : Expression) = ⟨e.text, e.bindings⟩
  rw [List.head_eq_of_cons_eq htexts, hbindings]

end Expression

/-! ## The canonical form -/

/-- **Compaction makes canonical** what is closed, a bundle as well as a single expression: what
says the same becomes the same, up to equality of values, and what is compact already stays as it
is. -/
theorem compact_canonical_form :
    (∀ b : Bundle, b.Closed → b.compact.Canonical ∧
      (∀ b' : Bundle, b'.Closed → b.SaysAs b' → b.compact.texts = b'.compact.texts ∧
        (b.compact.bindings == b'.compact.bindings) = true) ∧
      b.compact.compact = b.compact) ∧
    (∀ e : Expression, e.Closed → e.compact.Canonical ∧
      (∀ e' : Expression, e'.Closed → e.SaysAs e' → e.compact.text = e'.compact.text ∧
        (e.compact.bindings == e'.compact.bindings) = true) ∧
      e.compact.compact = e.compact) := by
  constructor
  · intro b hb
    have hcanonical := Bundle.canonical_compact hb
    exact ⟨hcanonical, fun b' hb' hs => Bundle.compact_unique hb hb' hs,
      hcanonical.compact_eq (Bundle.closed_compact hb)⟩
  · intro e he
    have hcanonical := Expression.canonical_compact he
    exact ⟨hcanonical, fun e' he' hs => Expression.compact_unique he he' hs,
      hcanonical.compact_eq (Expression.closed_compact he)⟩

/-- A bundle whose placeholders repeat a name and a value across its texts. -/
def repeating : Bundle where
  texts := [(.filter, "#n1 IN (:b,:a,:v0)"), (.projection, "#x, #n1.#n0")]
  bindings :=
    ⟨.ofList [("#n1", "size"), ("#x", "name"), ("#n0", "size"), ("#unused", "name")],
      .ofList [(":b", .stringSet ["u", "w"]), (":a", .number "1"),
        (":v0", .stringSet ["w", "u"])]⟩

/-- A bundle that says the same with one placeholder for each name and value. -/
def sparing : Bundle where
  texts := [(.filter, "#n7 IN (:q,:p,:q)"), (.projection, "#n, #n7.#n7")]
  bindings :=
    ⟨.ofList [("#n7", "size"), ("#n", "name")],
      .ofList [(":q", .stringSet ["w", "u"]), (":p", .number "1")]⟩

/-- Two bundles that say the same, one with a placeholder for every occurrence and one that repeats
them. -/
theorem compact_canonical_form_repeating :
    repeating.Closed ∧ sparing.Closed ∧ repeating.SaysAs sparing ∧ repeating.compact.Canonical ∧
      repeating.compact.texts = sparing.compact.texts ∧
      (repeating.compact.bindings == sparing.compact.bindings) = true ∧
      repeating.compact.compact = repeating.compact := by
  have hclosed : repeating.Closed := by decide +kernel
  have hclosed' : sparing.Closed := by decide +kernel
  have hsaid : repeating.SaysAs sparing := by decide +kernel
  obtain ⟨hcanonical, hunique, hagain⟩ := compact_canonical_form.1 repeating hclosed
  obtain ⟨htexts, hbindings⟩ := hunique sparing hclosed' hsaid
  exact ⟨hclosed, hclosed', hsaid, hcanonical, htexts, hbindings, hagain⟩

end ItemStore
