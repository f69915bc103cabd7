import ItemStore.Attribute.Marshal
import ItemStore.Proofs.Lists

/-!
# Plain JSON survives

Plain JSON is taken to an attribute value and back.  On the way out a number becomes its text; on
the way back the text is read as a signed word, as an unsigned word or as a double, whichever comes
first, so a number comes back if no reading before its own takes the text.

* `readInteger_toString` and `readInteger_mark`: the text of an integer is read as the integer, and
  the text of a double, which has a point or a power of ten in it, is read as no integer.
* `Json.HasNumber` and `AttributeValue.HasNumber` say which numbers and texts of numbers occur at
  any depth; everything that is said of a tree is said in terms of them.
* `toJson_ofJson`: JSON whose numbers are `Kept` comes back.
* `toJson_eq_error_iff`: the way back fails exactly at a text that is no number, and the error names
  one.
-/

namespace ItemStore

/-! ## Integers -/

section Integers

theorem all_isDecimalDigit_toDigits (n : Nat) : (Nat.toDigits 10 n).all isDecimalDigit = true :=
  List.all_eq_true.2 fun _ hc => Nat.isDigit_of_mem_toDigits (by decide) (by decide) hc

theorem isEmpty_toDigits (n : Nat) : (Nat.toDigits 10 n).isEmpty = false :=
  List.isEmpty_eq_false_iff.2 Nat.toDigits_ne_nil

theorem digitsValue_toDigits (n : Nat) : digitsValue (Nat.toDigits 10 n) = n :=
  Nat.ofDigitChars_toDigits (by decide) (by decide)

/-- No sign stands in front of the digits of a natural number. -/
theorem exists_toDigits_eq_cons (n : Nat) :
    ∃ d ds, Nat.toDigits 10 n = d :: ds ∧ d ≠ '-' ∧ d ≠ '+' := by
  obtain ⟨d, ds, hdigits⟩ := List.exists_cons_of_ne_nil (Nat.toDigits_ne_nil (b := 10) (n := n))
  have hd : isDecimalDigit d = true :=
    List.all_eq_true.1 (all_isDecimalDigit_toDigits n) d (hdigits ▸ List.mem_cons_self ..)
  refine ⟨d, ds, hdigits, ?_, ?_⟩
  · rintro rfl
    exact absurd hd (by decide)
  · rintro rfl
    exact absurd hd (by decide)

theorem splitSign_toDigits (n : Nat) :
    splitSign (Nat.toDigits 10 n) = (false, Nat.toDigits 10 n) := by
  obtain ⟨d, ds, hdigits, hminus, hplus⟩ := exists_toDigits_eq_cons n
  rw [hdigits]
  exact splitSign.eq_3 _ (fun _ h => hminus (List.cons_eq_cons.1 h).1)
    fun _ h => hplus (List.cons_eq_cons.1 h).1

theorem toList_toString_ofNat (m : Nat) : (toString (Int.ofNat m)).toList = Nat.toDigits 10 m :=
  Nat.toList_repr

theorem toList_toString_negSucc (m : Nat) :
    (toString (Int.negSucc m)).toList = '-' :: Nat.toDigits 10 (m + 1) := by
  show ("-" ++ Nat.repr (m + 1)).toList = _
  rw [String.toList_append, Nat.toList_repr]
  rfl

/-- The text of an integer is read as the integer. -/
theorem readInteger_toString (n : Int) : readInteger (toString n) = some n := by
  cases n with
  | ofNat m =>
    rw [readInteger, toList_toString_ofNat, splitSign_toDigits]
    simp only [isEmpty_toDigits, all_isDecimalDigit_toDigits, digitsValue_toDigits]
    rfl
  | negSucc m =>
    rw [readInteger, toList_toString_negSucc, splitSign]
    simp only [isEmpty_toDigits, all_isDecimalDigit_toDigits, digitsValue_toDigits]
    rfl

/-- The text of a natural number is read as the number. -/
theorem readNatural_toString (n : Nat) : readNatural (toString (n : Int)) = some n := by
  have htext : (toString (n : Int)).toList = Nat.toDigits 10 n := toList_toString_ofNat n
  obtain ⟨d, ds, hdigits, -, hplus⟩ := exists_toDigits_eq_cons n
  have hall : (d :: ds).all isDecimalDigit = true := hdigits ▸ all_isDecimalDigit_toDigits n
  have hvalue : digitsValue (d :: ds) = n := hdigits ▸ digitsValue_toDigits n
  rw [readNatural, htext, hdigits]
  split
  · rename_i heq
    exact absurd (List.cons_eq_cons.1 heq).1 hplus
  · simp [hall, hvalue]

/-- A text with a character in it that is neither a digit nor a sign is read as no integer. -/
theorem readInteger_mark {text : String} {c : Char} (hc : c ∈ text.toList)
    (hmark : isDecimalDigit c = false ∧ c ≠ '-' ∧ c ≠ '+') :
    readInteger text = none ∧ readNatural text = none := by
  obtain ⟨hdigit, hminus, hplus⟩ := hmark
  have hnot {digits : List Char} (h : c ∈ digits) : digits.all isDecimalDigit = false :=
    List.all_eq_false.2 ⟨c, h, by simp [hdigit]⟩
  have hsplit : c ∈ (splitSign text.toList).2 := by
    unfold splitSign
    split
    · rename_i heq
      exact (List.mem_cons.1 (heq ▸ hc)).resolve_left hminus
    · rename_i heq
      exact (List.mem_cons.1 (heq ▸ hc)).resolve_left hplus
    · exact hc
  refine ⟨by simp [readInteger, hnot hsplit], ?_⟩
  unfold readNatural
  split
  · rename_i heq
    simp [hnot ((List.mem_cons.1 (heq ▸ hc)).resolve_left hplus)]
  · simp [hnot hc]

end Integers

/-! ## Doubles -/

namespace Layout

/-- A character that marks the text of a double: a point or a power of ten. -/
def IsMark (c : Char) : Prop := c = '.' ∨ c = 'e'

theorem exists_mark_inPlace (digits : List Char) (e : Int) :
    ∃ c ∈ (json.inPlace digits e).toList, IsMark c := by
  refine ⟨'.', ?_, .inl rfl⟩
  unfold inPlace
  split
  · simp [json]
  · dsimp only
    split <;> simp

theorem exists_mark_scientific (digits : List Char) (lead : Int) :
    ∃ c ∈ (scientific digits lead).toList, IsMark c := by
  refine ⟨'e', ?_, .inr rfl⟩
  unfold scientific
  simp

/-- The text of a double in JSON has a mark in it. -/
theorem exists_mark_float {x : Float} (hx : Binary64.isFinite x = true) :
    ∃ c ∈ (json.float x).toList, IsMark c := by
  obtain ⟨m, hm⟩ := Option.isSome_iff_exists.1 hx
  have hbehind (sign : String) {text : String} (h : ∃ c ∈ text.toList, IsMark c) :
      ∃ c ∈ (sign ++ text).toList, IsMark c := by
    obtain ⟨c, hc, hmark⟩ := h
    exact ⟨c, by rw [String.toList_append]; exact List.mem_append_right _ hc, hmark⟩
  unfold float
  rw [hm]
  dsimp only
  split
  · exact hbehind _ ⟨'.', by simp [json], .inl rfl⟩
  · refine hbehind _ ?_
    unfold decimal
    dsimp only
    split
    · exact exists_mark_inPlace _ _
    · exact exists_mark_scientific _ _

end Layout

/-! ## Numbers that come back -/

/-- A number comes back from its text: it is an integer of a signed or an unsigned word, or a finite
double that is read from its text. -/
inductive JsonNumber.Kept : JsonNumber → Prop where
  /-- An integer of a word. -/
  | integer {n : Int} : -(twoTo 63 : Int) ≤ n → n < twoTo 64 → Kept (.integer n)
  /-- A double that its text is read as. -/
  | real {x : Float} : Binary64.isFinite x = true →
      readFloat (Json.numberText (.real x)) = some x → Kept (.real x)

namespace Marshal

/-- A text is no number: no signed word, no unsigned word and no finite double is read from it. -/
structure Unreadable (text : String) : Prop where
  signed : readSigned 64 text = none
  unsigned : readUnsigned 64 text = none
  finite : ∀ x, readFloat text = some x → Binary64.isFinite x = false

theorem number?_eq_none_iff {text : String} : number? text = none ↔ Unreadable text := by
  unfold number?
  constructor
  · intro h
    split at h
    · cases h
    · rename_i hsigned
      split at h
      · cases h
      · rename_i hunsigned
        refine ⟨hsigned, hunsigned, fun x hx => ?_⟩
        rw [hx] at h
        simpa [Option.filter] using h
  · rintro ⟨hsigned, hunsigned, hfinite⟩
    rw [hsigned, hunsigned]
    cases hread : readFloat text with
    | none => rfl
    | some x => simp [hfinite x hread]

/-- A number that is kept is read from its text. -/
theorem number?_numberText {n : JsonNumber} (h : n.Kept) :
    number? (Json.numberText n) = some n := by
  cases h with
  | @integer n hlow hhigh =>
    have hread : readInteger (Json.numberText (.integer n)) = some n := readInteger_toString n
    by_cases hsmall : n < (twoTo 63 : Int)
    · have hsigned : readSigned 64 (Json.numberText (.integer n)) = some n := by
        rw [readSigned, hread, Option.filter_some, if_pos (by simp [hlow, hsmall])]
      rw [number?, hsigned]
    · -- from here on a signed word is too small, and an unsigned one takes over
      have hpos : (0 : Int) ≤ n := Int.le_trans (Int.natCast_nonneg _) (Int.not_lt.1 hsmall)
      obtain ⟨m, rfl⟩ := Int.eq_ofNat_of_zero_le hpos
      have hsigned : readSigned 64 (Json.numberText (.integer m)) = none := by
        rw [readSigned, hread, Option.filter_some, if_neg (by simp [hsmall])]
      have hunsigned : readUnsigned 64 (Json.numberText (.integer m)) = some m := by
        have hnatural : readNatural (Json.numberText (.integer m)) = some m :=
          readNatural_toString m
        have hm : m < twoTo 64 := Int.ofNat_lt.1 hhigh
        rw [readUnsigned, readNaturalBelow, hnatural, Option.filter_some, if_pos (by simp [hm])]
      rw [number?, hsigned, hunsigned]
  | @real x hfinite hread =>
    obtain ⟨c, hc, hmark⟩ := Layout.exists_mark_float hfinite
    have hapart : isDecimalDigit c = false ∧ c ≠ '-' ∧ c ≠ '+' := by
      rcases hmark with rfl | rfl <;> decide
    obtain ⟨hinteger, hnatural⟩ := readInteger_mark hc hapart
    have htext : Json.numberText (.real x) = Layout.json.float x := rfl
    unfold number? readSigned readUnsigned readNaturalBelow
    rw [hread, htext, hinteger, hnatural]
    simp [hfinite]

end Marshal

/-! ## Numbers at any depth -/

/-- A number occurs in a JSON value, at any depth. -/
inductive Json.HasNumber : Json → JsonNumber → Prop where
  /-- The number itself. -/
  | here (n : JsonNumber) : HasNumber (.number n) n
  /-- A number in an element. -/
  | element {elements : List Json} {j : Json} {n : JsonNumber} : j ∈ elements → HasNumber j n →
      HasNumber (.array elements) n
  /-- A number in a field. -/
  | field {fields : List (String × Json)} {field : String × Json} {n : JsonNumber} :
      field ∈ fields → HasNumber field.2 n → HasNumber (.object fields) n

/-- The text of a number occurs in an attribute value, at any depth. -/
inductive AttributeValue.HasNumber : AttributeValue → String → Prop where
  /-- The number itself. -/
  | here (text : String) : HasNumber (.number text) text
  /-- An element of a set of numbers. -/
  | ofSet {elements : List String} {text : String} : text ∈ elements →
      HasNumber (.numberSet elements) text
  /-- A number in an element. -/
  | element {elements : List AttributeValue} {v : AttributeValue} {text : String} : v ∈ elements →
      HasNumber v text → HasNumber (.list elements) text
  /-- A number in an entry. -/
  | entry {entries : List (String × AttributeValue)} {e : String × AttributeValue} {text : String} :
      e ∈ entries → HasNumber e.2 text → HasNumber (.map entries) text

namespace Marshal

/-! ## There and back -/

mutual

/-- JSON whose numbers are kept comes back. -/
theorem toJson_ofJson : (j : Json) → (∀ n, j.HasNumber n → n.Kept) → toJson (ofJson j) = .ok j
  | .null, _ => rfl
  | .bool _, _ => rfl
  | .number n, h => by
    rw [ofJson, toJson, number, number?_numberText (h n (.here n))]
  | .string _, _ => rfl
  | .array elements, h => by
    rw [ofJson, toJson, toElements_ofElements elements fun j hj n hn => h n (.element hj hn)]
    rfl
  | .object fields, h => by
    rw [ofJson, toJson, toFields_ofFields fields fun e he n hn => h n (.field he hn)]
    rfl

theorem toElements_ofElements : (js : List Json) → (∀ j ∈ js, ∀ n, j.HasNumber n → n.Kept) →
    toElements (ofElements js) = .ok js
  | [], _ => rfl
  | j :: rest, h => by
    rw [ofElements, toElements, toJson_ofJson j (h j (List.mem_cons_self ..)),
      toElements_ofElements rest fun j' hj' => h j' (List.mem_cons_of_mem _ hj')]
    rfl

theorem toFields_ofFields : (fields : List (String × Json)) →
    (∀ e ∈ fields, ∀ n, e.2.HasNumber n → n.Kept) → toFields (ofFields fields) = .ok fields
  | [], _ => rfl
  | (name, j) :: rest, h => by
    rw [ofFields, toFields, toJson_ofJson j (h (name, j) (List.mem_cons_self ..)),
      toFields_ofFields rest fun e he => h e (List.mem_cons_of_mem _ he)]
    rfl

end

/-! ## Failures -/

theorem number_eq_ok_iff {text : String} {j : Json} :
    number text = .ok j ↔ ∃ n, number? text = some n ∧ j = .number n := by
  unfold number
  cases number? text with
  | none => simp
  | some n => simp [eq_comm]

theorem number_eq_error_iff {text : String} {e : StoreError} :
    number text = .error e ↔ Unreadable text ∧ e = .invalid (.notANumber text) := by
  rw [← number?_eq_none_iff]
  unfold number
  cases number? text with
  | none => simp [eq_comm]
  | some n => simp

theorem toElements_eq_mapM (vs : List AttributeValue) : toElements vs = vs.mapM toJson := by
  induction vs with
  | nil => rfl
  | cons v vs ih => rw [toElements, List.mapM_cons, ih]

theorem toFields_eq_mapM (es : List (String × AttributeValue)) :
    toFields es = es.mapM fun e => (toJson e.2).map fun j => (e.1, j) := by
  induction es with
  | nil => rfl
  | cons e es ih =>
    rw [toFields, List.mapM_cons, ih]
    cases toJson e.2 <;> rfl

/-- Where the way back succeeds, every text of a number is one.  The induction is on where the text
occurs. -/
theorem readable_of_toJson_eq_ok {v : AttributeValue} {text : String} (h : v.HasNumber text) :
    ∀ {j : Json}, toJson v = .ok j → ¬ Unreadable text := by
  have hnumber {text : String} {j : Json} (h : number text = .ok j) : ¬ Unreadable text := by
    obtain ⟨n, hn, -⟩ := number_eq_ok_iff.1 h
    simp [← number?_eq_none_iff, hn]
  induction h with
  | here text =>
    intro j hj
    exact hnumber hj
  | ofSet htext =>
    intro j hj
    obtain ⟨js, hjs, -⟩ := bind_eq_ok.1 hj
    obtain ⟨j', -, hj'⟩ := exists_of_mem_left (mapM_eq_ok.1 hjs) htext
    exact hnumber hj'
  | element hv _ ih =>
    intro j hj
    obtain ⟨js, hjs, -⟩ := bind_eq_ok.1 hj
    rw [toElements_eq_mapM] at hjs
    obtain ⟨j', -, hj'⟩ := exists_of_mem_left (mapM_eq_ok.1 hjs) hv
    exact ih hj'
  | entry he _ ih =>
    intro j hj
    obtain ⟨fields, hfields, -⟩ := bind_eq_ok.1 hj
    rw [toFields_eq_mapM] at hfields
    obtain ⟨field, -, hfield⟩ := exists_of_mem_left (mapM_eq_ok.1 hfields) he
    obtain ⟨j', hj', -⟩ := map_eq_ok.1 hfield
    exact ih hj'

/-- Where the way back fails, the error names a text that is no number. -/
theorem blames_of_toJson_eq_error {e : StoreError} (v : AttributeValue)
    (h : toJson v = .error e) :
    ∃ text, v.HasNumber text ∧ Unreadable text ∧ e = .invalid (.notANumber text) := by
  -- an array or an object around what has been read cannot fail
  have hinside {α : Type} {x : Except StoreError α} {f : α → Json}
      (h : (do return f (← x)) = .error e) : x = .error e := by
    rcases bind_eq_error.1 h with h | ⟨_, -, h⟩
    · exact h
    · cases h
  match v with
  | .number text => exact ⟨text, .here text, number_eq_error_iff.1 h⟩
  | .numberSet texts =>
    obtain ⟨text, htext, hfail⟩ := exists_of_mapM_eq_error (hinside h)
    exact ⟨text, .ofSet htext, number_eq_error_iff.1 hfail⟩
  | .list elements =>
    have hlist := hinside h
    rw [toElements_eq_mapM] at hlist
    obtain ⟨v, hv, hfail⟩ := exists_of_mapM_eq_error hlist
    obtain ⟨text, hhas, hblame⟩ := blames_of_toJson_eq_error v hfail
    exact ⟨text, .element hv hhas, hblame⟩
  | .map entries =>
    have hmap := hinside h
    rw [toFields_eq_mapM] at hmap
    obtain ⟨⟨name, v⟩, hv, hfail⟩ := exists_of_mapM_eq_error hmap
    have hsmaller : sizeOf v < 1 + sizeOf entries := by
      have hentry := List.sizeOf_lt_of_mem hv
      rw [Prod.mk.sizeOf_spec] at hentry
      omega
    obtain ⟨text, hhas, hblame⟩ := blames_of_toJson_eq_error v (map_eq_error.1 hfail)
    exact ⟨text, .entry hv hhas, hblame⟩

/-- The way back fails exactly at the texts that are no numbers. -/
theorem toJson_eq_error_iff {v : AttributeValue} :
    (∃ e, toJson v = .error e) ↔ ∃ text, v.HasNumber text ∧ Unreadable text := by
  constructor
  · rintro ⟨e, he⟩
    obtain ⟨text, hhas, hno, -⟩ := blames_of_toJson_eq_error v he
    exact ⟨text, hhas, hno⟩
  · rintro ⟨text, hhas, hno⟩
    cases hread : toJson v with
    | error e => exact ⟨e, rfl⟩
    | ok j => exact absurd hno (readable_of_toJson_eq_ok hhas hread)

end Marshal

/-! ## Fields in order -/

namespace Keyed

variable {α β : Type} {es : List (String × α)}

theorem ofList_concat (es : List (String × α)) (e : String × α) :
    ofList (es ++ [e]) = (ofList es).insert e.1 e.2 := by
  rw [ofList, insertAll, List.foldl_concat]
  rfl

theorem mem_of_mem_ofList {e : String × α} (h : e ∈ (ofList es).entries) : e ∈ es := by
  induction es using List.reverseRecOn with
  | nil => cases h
  | append_singleton es last ih =>
    rw [ofList_concat, ← get?_eq_some_iff, get?_insert] at h
    split at h
    · rename_i hname
      obtain ⟨name, value⟩ := e
      cases h
      cases hname
      exact List.mem_append_right _ (List.mem_singleton_self _)
    · exact List.mem_append_left _ (ih (get?_eq_some_iff.1 h))

/-- Values may be changed before or after entries are collected. -/
theorem ofList_map (f : String → α → β) (es : List (String × α)) :
    ofList (es.map fun e => (e.1, f e.1 e.2)) = (ofList es).mapWithKey f := by
  induction es using List.reverseRecOn with
  | nil => rfl
  | append_singleton es last ih =>
    refine ext_get? fun k => ?_
    rw [List.map_append, List.map_singleton, ofList_concat, ofList_concat, ih, get?_insert,
      get?_mapWithKey, get?_mapWithKey, get?_insert]
    split
    · rename_i hk
      rw [hk, Option.map_some]
    · rfl

/-- Entries that have a key each are only put in order. -/
theorem entries_ofList_perm (h : (es.map (·.1)).Nodup) : (ofList es).entries.Perm es :=
  (List.perm_ext_iff_of_nodup ((ofList es).nodup_keys.of_map _) (h.of_map _)).2 fun ⟨_, _⟩ =>
    get?_eq_some_iff.symm.trans (get?_ofList h)

theorem entries_ofList_of_pairwise (h : es.Pairwise fun a b => a.1 < b.1) :
    (ofList es).entries = es :=
  entries_insertAll_of_pairwise empty h

end Keyed

namespace Marshal

/-! ## Items -/

theorem ofFields_eq_map (fields : List (String × Json)) :
    ofFields fields = fields.map fun e => (e.1, ofJson e.2) := by
  induction fields with
  | nil => rfl
  | cons e fields ih => rw [ofFields, ih, List.map_cons]

/-- An object is the item of its fields, and nothing else is an item. -/
theorem item_eq_ok_iff {j : Json} {i : Item} :
    item j = .ok i ↔ ∃ fields, j = .object fields ∧ i = .ofList (ofFields fields) := by
  cases j <;> simp [item, ofJson, eq_comm]

/-- The fields of an object come back in their order by name. -/
theorem itemToJson_ofFields {fields : List (String × Json)}
    (h : ∀ n, (Json.object fields).HasNumber n → n.Kept) :
    itemToJson (.ofList (ofFields fields)) = .ok (.object (Keyed.ofList fields).entries) := by
  have hentries : (Keyed.ofList (ofFields fields)).entries =
      ofFields (Keyed.ofList fields).entries := by
    rw [ofFields_eq_map, ofFields_eq_map, Keyed.ofList_map fun _ => ofJson]
    rfl
  have hback := toFields_ofFields (Keyed.ofList fields).entries fun e he n hn =>
    h n (.field (Keyed.mem_of_mem_ofList he) hn)
  rw [itemToJson, AttributeValue.ofItem, hentries, toJson, hback]
  rfl

/-- **Plain JSON survives marshalling, and only texts that are no numbers fail on the way back.**

A JSON value whose numbers, at any depth, are integers of a word or finite doubles that are read
from their texts comes back from its attribute value.  It has an item exactly if it is an object;
and from the item of an object with a name for each field the same fields come back, in the order of
their names, so that an object in this order comes back as it was.  Of the attribute values, those
fail to be JSON in which some number, at any depth and also in a set, has a text that is read
neither as a signed nor as an unsigned word nor as a finite double. -/
theorem plain_json_survives :
    (∀ j : Json, (∀ n, j.HasNumber n → n.Kept) →
      toJson (ofJson j) = .ok j ∧
      ∀ fields, j = .object fields → (fields.map (·.1)).Nodup →
        ∃ i fields', item j = .ok i ∧ itemToJson i = .ok (.object fields') ∧
          fields'.Perm fields ∧ (fields.Pairwise (fun a b => a.1 < b.1) → fields' = fields)) ∧
    (∀ j : Json, (∃ i, item j = .ok i) ↔ ∃ fields, j = .object fields) ∧
    ∀ v : AttributeValue,
      (∃ e, toJson v = .error e) ↔ ∃ text, v.HasNumber text ∧ Unreadable text := by
  refine ⟨fun j hj => ⟨toJson_ofJson j hj, ?_⟩, fun j => ?_, fun v => toJson_eq_error_iff⟩
  · rintro fields rfl hnames
    exact ⟨_, _, item_eq_ok_iff.2 ⟨fields, rfl, rfl⟩, itemToJson_ofFields hj,
      Keyed.entries_ofList_perm hnames, Keyed.entries_ofList_of_pairwise⟩
  · constructor
    · rintro ⟨i, hi⟩
      obtain ⟨fields, hfields, -⟩ := item_eq_ok_iff.1 hi
      exact ⟨fields, hfields⟩
    · rintro ⟨fields, hfields⟩
      exact ⟨_, item_eq_ok_iff.2 ⟨fields, hfields, rfl⟩⟩

/-- An object with numbers at the bounds of words, negative zero and fields in their order. -/
def boundaryObject : Json :=
  .object [("above", .number (.integer 9223372036854775808)),
    ("list", .array [.number (.integer (-9223372036854775808)), .null,
      .number (.real (Float.ofBits 0x8000000000000000))]),
    ("part", .object [("half", .number (.real (Float.ofBits 0x3FE0000000000000)))])]

theorem kept_boundaryObject (n : JsonNumber) (h : boundaryObject.HasNumber n) : n.Kept := by
  have hnegativeZero : (JsonNumber.real (Float.ofBits 0x8000000000000000)).Kept :=
    .real (by decide +kernel) (by decide +kernel)
  have hhalf : (JsonNumber.real (Float.ofBits 0x3FE0000000000000)).Kept :=
    .real (by decide +kernel) (by decide +kernel)
  cases h with
  | field hfield h =>
    simp only [List.mem_cons, List.not_mem_nil, or_false] at hfield
    rcases hfield with rfl | rfl | rfl
    · cases h
      exact .integer (by decide) (by decide)
    · cases h with
      | element helement h =>
        simp only [List.mem_cons, List.not_mem_nil, or_false] at helement
        rcases helement with rfl | rfl | rfl
        · cases h
          exact .integer (by decide) (by decide)
        · cases h
        · cases h
          exact hnegativeZero
    · cases h with
      | field hfield h =>
        cases List.mem_singleton.1 hfield
        cases h
        exact hhalf

theorem plain_json_survives_boundaries :
    toJson (ofJson boundaryObject) = .ok boundaryObject ∧
    ∃ i, item boundaryObject = .ok i ∧ itemToJson i = .ok boundaryObject := by
  obtain ⟨hback, hitem⟩ := plain_json_survives.1 boundaryObject kept_boundaryObject
  obtain ⟨i, fields, hi, hfields, -, hsame⟩ := hitem _ rfl (by decide)
  exact ⟨hback, i, hi, by rw [hfields, hsame (by decide)]; rfl⟩

end Marshal

end ItemStore
