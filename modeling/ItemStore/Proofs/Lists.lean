import Mathlib.Data.List.Forall2
import Mathlib.Data.List.Induction
import Mathlib.Data.List.Nodup

/-!
# Lists that correspond

Two lists correspond when their elements are related one by one (`List.Forall₂`).  Here is what the
proofs need of it besides the library: correspondence and membership, entries under keys, the first
occurrences of elements (`List.eraseDups`), and functions that may fail.

* `exists_of_mem_left`, `exists_forall₂`: from elements to lists and back.
* `rel_lookup`: entries with the same keys and corresponding values answer alike.
* `forall₂_eraseDups`: lists that correspond one to one have first occurrences in the same places.
* `map_eraseDups_eq_iff`: when first occurrences have the first occurrences of values.
* `mapM_eq_ok`, `mapM_eq_some`: a function that may fail succeeds on a list if it does on every
  element; where it fails, it fails on one of them (`exists_of_mapM_eq_error`).
* `map_eq_of_forall₂`: elements that correspond by a function are its values.
* `flatMap_filter_perm`: elements that are gathered by their keys are the elements.
-/

namespace ItemStore

/-! ## Elements -/

theorem exists_of_mem_left {α β : Type} {R : α → β → Prop} {l : List α} {l' : List β}
    (h : List.Forall₂ R l l') {a : α} (ha : a ∈ l) : ∃ b ∈ l', R a b := by
  induction h with
  | nil => cases ha
  | cons hab _ ih =>
    rcases List.mem_cons.1 ha with rfl | ha
    · exact ⟨_, List.mem_cons_self .., hab⟩
    · obtain ⟨b, hb, hR⟩ := ih ha
      exact ⟨b, List.mem_cons_of_mem _ hb, hR⟩

theorem forall₂_trans {α β γ : Type} {R : α → β → Prop} {S : β → γ → Prop} {T : α → γ → Prop}
    (hT : ∀ a b c, R a b → S b c → T a c) {l : List α} {l' : List β} {l'' : List γ}
    (h : List.Forall₂ R l l') (h' : List.Forall₂ S l' l'') : List.Forall₂ T l l'' := by
  induction h generalizing l'' with
  | nil =>
    cases h'
    exact .nil
  | cons hab _ ih =>
    cases h' with
    | cons hbc hrest => exact .cons (hT _ _ _ hab hbc) (ih hrest)

/-- What corresponds to the elements of a list, taken together. -/
theorem exists_forall₂ {α β : Type} {R : α → β → Prop} {l : List α} (h : ∀ a ∈ l, ∃ b, R a b) :
    ∃ l', List.Forall₂ R l l' := by
  induction l with
  | nil => exact ⟨[], .nil⟩
  | cons a l ih =>
    obtain ⟨b, hb⟩ := h a (List.mem_cons_self ..)
    obtain ⟨l', hl'⟩ := ih fun x hx => h x (List.mem_cons_of_mem _ hx)
    exact ⟨b :: l', .cons hb hl'⟩

/-- Whether two lists correspond can be decided place by place. -/
instance decideForall₂ {α β : Type} {R : α → β → Prop} [DecidableRel R] :
    DecidableRel (List.Forall₂ R)
  | [], [] => isTrue .nil
  | [], _ :: _ => isFalse (by rintro ⟨⟩)
  | _ :: _, [] => isFalse (by rintro ⟨⟩)
  | a :: as, b :: bs =>
    have : Decidable (List.Forall₂ R as bs) := decideForall₂ as bs
    decidable_of_iff (R a b ∧ List.Forall₂ R as bs) List.forall₂_cons.symm

/-! ## Entries -/

section Rel

variable {α β γ : Type} {R : α → β → Prop} {x : Option α} {y : Option β} {z : Option γ}

theorem rel_imp_of_eq {S : α → β → Prop} (hS : ∀ a b, x = some a → R a b → S a b)
    (h : Option.Rel R x y) : Option.Rel S x y := by
  cases h with
  | some h => exact .some (hS _ _ rfl h)
  | none => exact .none

theorem rel_imp {S : α → β → Prop} (hS : ∀ a b, R a b → S a b) (h : Option.Rel R x y) :
    Option.Rel S x y :=
  rel_imp_of_eq (fun a b _ => hS a b) h

/-- Corresponding values that two functions take to the same are taken to the same. -/
theorem map_eq_map_of_rel {f : α → γ} {g : β → γ} (hfg : ∀ a b, x = some a → R a b → f a = g b)
    (h : Option.Rel R x y) : x.map f = y.map g := by
  cases h with
  | some h => exact congrArg some (hfg _ _ rfl h)
  | none => rfl

theorem rel_swap {S : β → α → Prop} (hS : ∀ a b, x = some a → R a b → S b a)
    (h : Option.Rel R x y) : Option.Rel S y x := by
  cases h with
  | some h => exact .some (hS _ _ rfl h)
  | none => exact .none

theorem rel_trans {S : β → γ → Prop} {T : α → γ → Prop}
    (hT : ∀ a b c, x = some a → R a b → S b c → T a c) (h : Option.Rel R x y)
    (h' : Option.Rel S y z) : Option.Rel T x z := by
  cases h with
  | some hab =>
    cases h' with
    | some hbc => exact .some (hT _ _ _ rfl hab hbc)
  | none =>
    cases h'
    exact .none

end Rel

/-- Entries with the same keys and corresponding values answer a key alike. -/
theorem rel_lookup {κ α β : Type} [BEq κ] {R : α → β → Prop} {l : List (κ × α)}
    {l' : List (κ × β)} (hkeys : l.map (·.1) = l'.map (·.1))
    (h : List.Forall₂ R (l.map (·.2)) (l'.map (·.2))) (k : κ) :
    Option.Rel R (l.lookup k) (l'.lookup k) := by
  induction l generalizing l' with
  | nil =>
    cases List.map_eq_nil_iff.1 hkeys.symm
    exact .none
  | cons e l ih =>
    cases l' with
    | nil => cases hkeys
    | cons e' l' =>
      obtain ⟨hkey, hrest⟩ : e.1 = e'.1 ∧ l.map (·.1) = l'.map (·.1) := List.cons_eq_cons.1 hkeys
      obtain ⟨hR, hall⟩ := List.forall₂_cons.1 h
      rw [List.lookup_cons, List.lookup_cons, hkey]
      split
      · exact .some hR
      · exact ih hrest hall

/-! ## First occurrences -/

section Occurrences

variable {α β : Type}

theorem forall₂_filter {R : α → β → Prop} {p : α → Bool} {q : β → Bool}
    (hpq : ∀ x y, R x y → p x = q y) {l : List α} {l' : List β} (h : List.Forall₂ R l l') :
    List.Forall₂ R (l.filter p) (l'.filter q) :=
  List.rel_filter (fun x y hxy => Bool.eq_iff_iff.1 (hpq x y hxy)) h

theorem eq_of_forall₂ {R : α → α → Prop} (hR : ∀ x y, R x y → x = y) {l l' : List α}
    (h : List.Forall₂ R l l') : l = l' := by
  have heq : List.Forall₂ Eq l l' := h.imp hR
  rwa [List.forall₂_eq_eq_eq] at heq

variable [BEq α] [LawfulBEq α] [BEq β] [LawfulBEq β]

/-- First occurrences are distinct. -/
theorem nodup_eraseDups (l : List α) : l.eraseDups.Nodup := by
  cases l with
  | nil => simp
  | cons a as =>
    rw [List.eraseDups_cons, List.nodup_cons, List.mem_eraseDups]
    exact ⟨by simp, nodup_eraseDups _⟩
termination_by l.length
decreasing_by
  have := List.length_filter_le (fun b => !b == a) as
  simp only [List.length_cons]
  omega

/-- Lists that correspond one to one have corresponding first occurrences. -/
theorem forall₂_eraseDups {R : α → β → Prop} (hR : Relator.BiUnique R) {l : List α} {l' : List β}
    (h : List.Forall₂ R l l') : List.Forall₂ R l.eraseDups l'.eraseDups := by
  cases h with
  | nil => simp
  | @cons a b as bs hab hrest =>
    rw [List.eraseDups_cons, List.eraseDups_cons]
    refine .cons hab (forall₂_eraseDups hR (forall₂_filter ?_ hrest))
    intro x y hxy
    have heq : x = a ↔ y = b := by
      constructor
      · rintro rfl
        exact hR.2 hxy hab
      · rintro rfl
        exact hR.1 hxy hab
    simp [heq]
termination_by l.length
decreasing_by
  have := List.length_filter_le (fun x => !x == a) as
  simp only [List.length_cons]
  omega

theorem map_idxOf {l : List α} (h : l.Nodup) : l.map l.idxOf = List.range l.length := by
  refine List.ext_getElem (by simp) fun i hi hi' => ?_
  rw [List.getElem_map, List.getElem_range, h.idxOf_getElem]

/-- An element behind others is a first occurrence if it is not among them. -/
theorem eraseDups_concat (l : List α) (a : α) :
    (l ++ [a]).eraseDups = if a ∈ l then l.eraseDups else l.eraseDups ++ [a] := by
  rw [List.eraseDups_append, List.removeAll, List.filter_cons]
  by_cases h : a ∈ l <;> simp [h, List.eraseDups_cons]

theorem eraseDups_of_nodup {l : List α} (h : l.Nodup) : l.eraseDups = l := by
  induction l using List.reverseRecOn with
  | nil => rfl
  | append_singleton l a ih =>
    obtain ⟨hl, -, hapart⟩ := List.nodup_append.1 h
    have ha : a ∉ l := fun ha => hapart a ha a (List.mem_singleton_self a) rfl
    rw [eraseDups_concat, if_neg ha, ih hl]

/-- What is left out of the elements would be left out of their values. -/
theorem eraseDups_map_eraseDups (f : α → β) (l : List α) :
    (l.eraseDups.map f).eraseDups = (l.map f).eraseDups := by
  induction l using List.reverseRecOn with
  | nil => rfl
  | append_singleton l a ih =>
    rw [eraseDups_concat, List.map_append, List.map_singleton, eraseDups_concat]
    split
    · rename_i ha
      rw [ih, if_pos (List.mem_map_of_mem ha)]
    · have hmem : f a ∈ l.eraseDups.map f ↔ f a ∈ l.map f := by simp
      rw [List.map_append, List.map_singleton, eraseDups_concat, ih]
      simp only [hmem]

/-- The first occurrences have every value once exactly if no two elements have one value. -/
theorem map_eraseDups_eq_iff (f : α → β) (l : List α) :
    l.eraseDups.map f = (l.map f).eraseDups ↔ ∀ a ∈ l, ∀ b ∈ l, f a = f b → a = b := by
  constructor
  · intro h a ha b hb heq
    have hnodup : (l.eraseDups.map f).Nodup := h ▸ nodup_eraseDups _
    exact List.inj_on_of_nodup_map hnodup (List.mem_eraseDups.2 ha) (List.mem_eraseDups.2 hb) heq
  · intro h
    have hnodup : (l.eraseDups.map f).Nodup :=
      (nodup_eraseDups l).map_on fun a ha b hb =>
        h a (List.mem_eraseDups.1 ha) b (List.mem_eraseDups.1 hb)
    rw [← eraseDups_map_eraseDups, eraseDups_of_nodup hnodup]

end Occurrences

/-! ## Values of a function -/

section Values

variable {α β : Type} {f : α → β}

theorem map_eq_of_forall₂ {l : List β} {l' : List α} (h : List.Forall₂ (fun b a => f a = b) l l') :
    l'.map f = l :=
  eq_of_forall₂ (fun _ _ heq => heq) (List.forall₂_map_left_iff.2 h.flip)

theorem exists_map_eq {l : List β} (h : ∀ b ∈ l, ∃ a, f a = b) : ∃ l' : List α, l'.map f = l := by
  obtain ⟨l', hl'⟩ := exists_forall₂ h
  exact ⟨l', map_eq_of_forall₂ hl'⟩

/-- Lists that functions take to the same have elements that they take to the same. -/
theorem forall₂_of_map_eq {γ : Type} {f : α → γ} {g : β → γ} {l : List α} {l' : List β}
    (h : l.map f = l'.map g) : List.Forall₂ (fun a b => f a = g b) l l' := by
  rw [← List.forall₂_eq_eq_eq, List.forall₂_map_left_iff, List.forall₂_map_right_iff] at h
  exact h

end Values

/-! ## Elements by their keys -/

/-- Elements that are gathered by their keys are the elements, each once. -/
theorem flatMap_filter_perm {α κ : Type} [DecidableEq κ] (key : α → κ) {ks : List κ}
    (hks : ks.Nodup) {l : List α} (hl : ∀ a ∈ l, key a ∈ ks) :
    (ks.flatMap fun k => l.filter fun a => key a = k).Perm l := by
  induction ks generalizing l with
  | nil =>
    have hnil : l = [] := List.eq_nil_iff_forall_not_mem.2 fun a ha => List.not_mem_nil (hl a ha)
    rw [hnil]
    exact .refl _
  | cons k ks ih =>
    obtain ⟨hk, hks⟩ := List.nodup_cons.1 hks
    -- the other keys find the same elements among those that `k` does not take
    have hothers : (ks.flatMap fun k' => l.filter fun a => key a = k') =
        ks.flatMap fun k' =>
          (l.filter fun a => !decide (key a = k)).filter fun a => key a = k' := by
      refine List.flatMap_congr fun k' hk' => ?_
      rw [List.filter_filter]
      refine List.filter_congr fun a _ => ?_
      by_cases ha : key a = k'
      · have hne : key a ≠ k := fun heq => hk (heq ▸ ha ▸ hk')
        simp [ha, ha ▸ hne]
      · simp [ha]
    have hrest := ih hks (l := l.filter fun a => !decide (key a = k)) fun a ha => by
      obtain ⟨hmem, hne⟩ := List.mem_filter.1 ha
      exact (List.mem_cons.1 (hl a hmem)).resolve_left (by simpa using hne)
    rw [List.flatMap_cons, hothers]
    exact (List.Perm.append_left _ hrest).trans (List.filter_append_perm _ l)

/-! ## Functions that may fail -/

theorem exists_eq_ok {ε α : Type} {x : Except ε α} (h : x.toBool = true) : ∃ a, x = .ok a := by
  cases x with
  | error e => cases h
  | ok a => exact ⟨a, rfl⟩

theorem bind_eq_ok {ε α β : Type} {x : Except ε α} {f : α → Except ε β} {r : β} :
    (x >>= f) = .ok r ↔ ∃ a, x = .ok a ∧ f a = .ok r := by
  cases x with
  | error e => simp [bind, Except.bind]
  | ok a => simp [bind, Except.bind]

theorem map_eq_ok {ε α β : Type} {x : Except ε α} {f : α → β} {r : β} :
    x.map f = .ok r ↔ ∃ a, x = .ok a ∧ f a = r := by
  cases x with
  | error e => simp [Except.map]
  | ok a => simp [Except.map]

theorem map_eq_error {ε α β : Type} {x : Except ε α} {f : α → β} {e : ε} :
    x.map f = .error e ↔ x = .error e := by
  cases x <;> simp [Except.map]

/-- A function succeeds on a list exactly if it succeeds on every element. -/
theorem mapM_eq_ok {ε α β : Type} {f : α → Except ε β} {l : List α} {l' : List β} :
    l.mapM f = .ok l' ↔ List.Forall₂ (fun a b => f a = .ok b) l l' := by
  induction l generalizing l' with
  | nil => cases l' <;> simp [pure, Except.pure]
  | cons a l ih =>
    rw [List.mapM_cons, bind_eq_ok, List.forall₂_cons_left_iff]
    constructor
    · rintro ⟨b, hb, h⟩
      obtain ⟨bs, hbs, h⟩ := bind_eq_ok.1 h
      cases h
      exact ⟨b, bs, hb, ih.1 hbs, rfl⟩
    · rintro ⟨b, bs, hb, hbs, rfl⟩
      exact ⟨b, hb, bind_eq_ok.2 ⟨bs, ih.2 hbs, rfl⟩⟩

/-- A computation fails in its first part, or in its second with the result of the first. -/
theorem bind_eq_error {ε α β : Type} {x : Except ε α} {f : α → Except ε β} {e : ε} :
    (x >>= f) = .error e ↔ x = .error e ∨ ∃ a, x = .ok a ∧ f a = .error e := by
  cases x with
  | error e' => simp [bind, Except.bind]
  | ok a => simp [bind, Except.bind]

/-- Where a function fails on a list, it fails on one of the elements. -/
theorem exists_of_mapM_eq_error {ε α β : Type} {f : α → Except ε β} {l : List α} {e : ε}
    (h : l.mapM f = .error e) : ∃ a ∈ l, f a = .error e := by
  induction l with
  | nil => cases h
  | cons a l ih =>
    rw [List.mapM_cons] at h
    rcases bind_eq_error.1 h with ha | ⟨b, -, h⟩
    · exact ⟨a, List.mem_cons_self .., ha⟩
    · rcases bind_eq_error.1 h with hl | ⟨bs, -, h⟩
      · obtain ⟨a', ha', hfail⟩ := ih hl
        exact ⟨a', List.mem_cons_of_mem _ ha', hfail⟩
      · cases h

theorem mapM_eq_some {α β : Type} {f : α → Option β} {l : List α} {l' : List β} :
    l.mapM f = some l' ↔ List.Forall₂ (fun a b => f a = some b) l l' := by
  induction l generalizing l' with
  | nil => cases l' <;> simp
  | cons a l ih =>
    rw [List.mapM_cons, Option.bind_eq_bind, Option.bind_eq_some_iff, List.forall₂_cons_left_iff]
    constructor
    · rintro ⟨b, hb, h⟩
      obtain ⟨bs, hbs, h⟩ := Option.bind_eq_some_iff.1 h
      cases h
      exact ⟨b, bs, hb, ih.1 hbs, rfl⟩
    · rintro ⟨b, bs, hb, hbs, rfl⟩
      exact ⟨b, hb, Option.bind_eq_some_iff.2 ⟨bs, ih.2 hbs, rfl⟩⟩

/-- What is recovered from each element is recovered from a list. -/
theorem exists_mapM_of_map_eq {α β γ δ ε : Type} {f : α → γ} {g : β → γ} {r : α → Option δ}
    {h : δ → ε} {k : β → ε} (hr : ∀ a b, f a = g b → ∃ d, r a = some d ∧ h d = k b)
    {l : List α} {l' : List β} (heq : l.map f = l'.map g) :
    ∃ ds, l.mapM r = some ds ∧ ds.map h = l'.map k := by
  induction l generalizing l' with
  | nil =>
    obtain rfl : l' = [] := List.map_eq_nil_iff.1 heq.symm
    exact ⟨[], rfl, rfl⟩
  | cons a l ih =>
    cases l' with
    | nil => cases heq
    | cons b l' =>
      obtain ⟨hhead, htail⟩ := List.cons_eq_cons.1 heq
      obtain ⟨d, hd, hdk⟩ := hr a b hhead
      obtain ⟨ds, hds, hdsk⟩ := ih htail
      exact ⟨d :: ds, by rw [List.mapM_cons, hd, hds]; rfl, by
        rw [List.map_cons, List.map_cons, hdk, hdsk]⟩

end ItemStore
