import ItemStore.Json.Printer
import ItemStore.Json.Reader
import ItemStore.Proofs.Attribute.Marshal
import ItemStore.Proofs.Json.Texts
import ItemStore.Proofs.Text.Utf8

/-!
# JSON text is read back

What the printer writes for a value is JSON text, and it is read as the value again, up to the order
of fields: a reader keeps the fields of an object in the order of their names (`Json.sorted`).

* `StringUnit.Spells`: a character as it stands inside a string, whether it is escaped or not, is
  read as the character.
* `number?_toString`: the text of an integer that fits a word is read as the integer.  Doubles are
  left aside here, and so are integers past a word, which are read as doubles (`Json.Whole`).
* `Lexeme.Prints`: a text is that of some lexemes, whatever stands behind it and cannot go on with
  the last of them.  This is what adds up along a value.
* `exists_draft`: the text of a value is that of the lexemes of a tree, and the tree is read as the
  value.
-/

namespace ItemStore

namespace Json

open Utf8 (bytesOf)
open Json.Lexeme (isLetter isNumberByte escaped? hexValue? isNumber)

/-! ## Strings -/

namespace StringUnit

theorem WrittenAll.append {us vs : List StringUnit} {bs cs : List UInt8} (hus : WrittenAll us bs)
    (hvs : WrittenAll vs cs) : WrittenAll (us ++ vs) (bs ++ cs) := by
  induction hus with
  | nil => exact hvs
  | cons hu _ ih =>
    rw [List.cons_append, List.append_assoc]
    exact .cons hu ih

theorem Written.all {u : StringUnit} {bs : List UInt8} (h : Written u bs) : WrittenAll [u] bs := by
  simpa using WrittenAll.cons h .nil

/-- Bytes are read as they are. -/
theorem bytes?_append_map (bs : List UInt8) (rest : List StringUnit) :
    bytes? (bs.map .byte ++ rest) = (bytes? rest).map (bs ++ ·) := by
  induction bs with
  | nil => simp
  | cons b bs ih =>
    rw [List.map_cons, List.cons_append, bytes?, ih]
    cases bytes? rest <;> rfl

/-- Bytes stand for themselves if they are no quote, no backslash and no control characters. -/
theorem writtenAll_map {bs : List UInt8} (h : ∀ b ∈ bs, b ≠ 0x22 ∧ b ≠ 0x5c ∧ 0x20 ≤ b) :
    WrittenAll (bs.map .byte) bs := by
  induction bs with
  | nil => exact .nil
  | cons b bs ih =>
    obtain ⟨⟨hquote, hbackslash, hcontrol⟩, hbs⟩ := List.forall_mem_cons.1 h
    exact .cons (.byte hquote hbackslash hcontrol) (ih hbs)

/-- Units are written with a text, and they are read as a character. -/
structure Spells (us : List StringUnit) (text : String) (c : Char) : Prop where
  /-- How the units are written. -/
  written : WrittenAll us (bytesOf text.toList)
  /-- How they are read, in front of others. -/
  read (rest : List StringUnit) :
    bytes? (us ++ rest) = (bytes? rest).map (String.utf8EncodeChar c ++ ·)

/-- A letter behind a backslash. -/
theorem spells_escape {c : Char} {text : String} {b : UInt8} (letter : UInt8)
    (hletter : escaped? letter = some b) (hc : String.utf8EncodeChar c = [b])
    (htext : bytesOf text.toList = [0x5c, letter]) : Spells [.byte b] text c where
  written := by
    rw [htext]
    exact (Written.escape hletter).all
  read rest := by
    rw [hc]
    exact bytes?_append_map [b] rest

theorem hexValue?_digitChar :
    ∀ n < 16, hexValue? (UInt8.ofNat (Nat.digitChar n).toNat) = some n := by
  decide

theorem toNat_digitChar_lt : ∀ n < 16, (Nat.digitChar n).toNat < 128 := by
  decide

/-- The code unit of a control character behind a backslash. -/
theorem spells_codeUnit {c : Char} (hc : c.toNat < 32) :
    Spells [.codeUnit c.toNat] ("\\u00" ++ hexByte c.toNat) c where
  written := by
    have hhigh : c.toNat / 16 < 16 := by omega
    have hlow : c.toNat % 16 < 16 := by omega
    have htext : ("\\u00" ++ hexByte c.toNat).toList =
        ['\\', 'u', '0', '0', Nat.digitChar (c.toNat / 16), Nat.digitChar (c.toNat % 16)] := by
      simp [hexByte]
    have hzero : hexValue? 0x30 = some 0 := rfl
    have hwritten := (Written.codeUnit hzero hzero (hexValue?_digitChar _ hhigh)
      (hexValue?_digitChar _ hlow)).all
    have hvalue : ((0 * 16 + 0) * 16 + c.toNat / 16) * 16 + c.toNat % 16 = c.toNat := by omega
    rw [hvalue] at hwritten
    rw [htext, Utf8.bytesOf_of_lt]
    · exact hwritten
    · simpa using ⟨toNat_digitChar_lt _ hhigh, toNat_digitChar_lt _ hlow⟩
  read rest := by
    have hleading : ¬ (0xD800 ≤ c.toNat && c.toNat ≤ 0xDBFF) = true := by simp; omega
    have htrailing : ¬ (0xDC00 ≤ c.toNat && c.toNat ≤ 0xDFFF) = true := by simp; omega
    have hchar : Utf8.encode (String.singleton (Char.ofNat c.toNat)) = String.utf8EncodeChar c := by
      rw [Utf8.encode_eq, String.toList_singleton, Char.ofNat_toNat, Utf8.bytesOf_cons,
        Utf8.bytesOf_nil, List.append_nil]
    rw [List.singleton_append, bytes?.eq_def]
    dsimp only
    rw [if_neg hleading, if_neg htrailing, hchar]
    cases bytes? rest <;> rfl

/-- Any other character. -/
theorem spells_self {c : Char} (hquote : c ≠ '"') (hbackslash : c ≠ '\\')
    (hcontrol : ¬ c.toNat < 32) :
    Spells ((String.utf8EncodeChar c).map .byte) (String.singleton c) c where
  written := by
    rw [String.toList_singleton, Utf8.bytesOf_cons, Utf8.bytesOf_nil, List.append_nil]
    apply writtenAll_map
    have hlarge {b : UInt8} (hb : 32 ≤ b.toNat) : 0x20 ≤ b := UInt8.le_iff_toNat_le.2 hb
    rcases Utf8.charBytes_cases c with ⟨hlt, hbytes⟩ | ⟨-, hhigh⟩
    · have hbyte : (UInt8.ofNat c.toNat).toNat = c.toNat := Utf8.toNat_byte (by omega)
      rw [hbytes]
      refine List.forall_mem_singleton.2 ⟨?_, ?_, hlarge (by omega)⟩
      · intro h
        rw [h] at hbyte
        exact hquote (Char.toNat_inj.1 hbyte.symm)
      · intro h
        rw [h] at hbyte
        exact hbackslash (Char.toNat_inj.1 hbyte.symm)
    · intro b hb
      have hb := hhigh b hb
      refine ⟨?_, ?_, hlarge (by omega)⟩
      · rintro rfl
        exact absurd hb (by decide)
      · rintro rfl
        exact absurd hb (by decide)
  read rest := bytes?_append_map _ rest

theorem exists_spells (c : Char) : ∃ us, Spells us (escapeChar c) c := by
  unfold escapeChar
  split
  · exact ⟨_, spells_escape 0x22 rfl rfl rfl⟩
  · exact ⟨_, spells_escape 0x5c rfl rfl rfl⟩
  · exact ⟨_, spells_escape 0x62 rfl rfl rfl⟩
  · exact ⟨_, spells_escape 0x66 rfl rfl rfl⟩
  · exact ⟨_, spells_escape 0x6e rfl rfl rfl⟩
  · exact ⟨_, spells_escape 0x72 rfl rfl rfl⟩
  · exact ⟨_, spells_escape 0x74 rfl rfl rfl⟩
  · split
    · rename_i hc
      exact ⟨_, spells_codeUnit hc⟩
    · rename_i hquote hbackslash _ _ _ _ _ hc
      exact ⟨_, spells_self hquote hbackslash hc⟩

theorem exists_units (cs : List Char) : ∃ us, bytes? us = some (bytesOf cs) ∧
    WrittenAll us (bytesOf (cs.flatMap fun c => (escapeChar c).toList)) := by
  induction cs with
  | nil => exact ⟨[], rfl, .nil⟩
  | cons c cs ih =>
    obtain ⟨us, hspells⟩ := exists_spells c
    obtain ⟨vs, hvs, hwritten⟩ := ih
    refine ⟨us ++ vs, ?_, ?_⟩
    · rw [hspells.read, hvs, Option.map_some, Utf8.bytesOf_cons]
    · rw [List.flatMap_cons, Utf8.bytesOf_append]
      exact hspells.written.append hwritten

end StringUnit

theorem toList_quote (s : String) :
    (quote s).toList = '"' :: (s.toList.flatMap (fun c => (escapeChar c).toList) ++ ['"']) := by
  have hfold (cs : List Char) (acc : String) :
      (cs.foldl (fun acc c => acc ++ escapeChar c) acc).toList =
        acc.toList ++ cs.flatMap fun c => (escapeChar c).toList := by
    induction cs generalizing acc with
    | nil => simp
    | cons c cs ih =>
      rw [List.foldl_cons, ih, String.toList_append, List.flatMap_cons, List.append_assoc]
  rw [quote, String.toList_append, hfold]
  rfl

/-- A string is written with units that are read as its text. -/
theorem exists_string (s : String) : ∃ us, StringUnit.text? us = some s ∧
    Lexeme.Written (.string us) (bytesOf (quote s).toList) := by
  obtain ⟨us, hbytes, hwritten⟩ := StringUnit.exists_units s.toList
  refine ⟨us, ?_, ?_⟩
  · rw [StringUnit.text?, hbytes, ← Utf8.encode_eq]
    exact Utf8.decode?_encode s
  · rw [toList_quote, Utf8.bytesOf_cons, Utf8.bytesOf_append]
    exact .string hwritten

/-! ## Numbers -/

/-- The digits of a number begin with a zero only if there is no other digit. -/
theorem eq_nil_of_toDigits_eq_zero_cons {n : Nat} {rest : List Char}
    (h : Nat.toDigits 10 n = '0' :: rest) : rest = [] := by
  -- the digits of `n` are those of `n / 10` and one more
  induction n using Nat.strongRecOn generalizing rest with
  | ind n ih =>
    by_cases hn : n < 10
    · rw [Nat.toDigits_of_lt_base hn] at h
      exact (List.cons.inj h).2.symm
    · obtain ⟨d, ds, hds⟩ :=
        List.exists_cons_of_ne_nil (Nat.toDigits_ne_nil (b := 10) (n := n / 10))
      rw [Nat.toDigits_of_base_le (by decide) (by omega), hds, List.cons_append] at h
      obtain ⟨rfl, -⟩ := List.cons.inj h
      obtain rfl := ih (n / 10) (by omega) hds
      have hzero : digitsValue (Nat.toDigits 10 (n / 10)) = 0 := by
        rw [hds]
        rfl
      rw [digitsValue_toDigits] at hzero
      omega

/-- Digits are a number if no zero stands in front, with a minus before them or without. -/
theorem isNumber_digits {d : Char} {ds : List Char}
    (hdigits : ∀ c ∈ d :: ds, isDecimalDigit c = true) (hzero : d = '0' → ds = []) :
    isNumber (d :: ds) = true ∧ isNumber ('-' :: d :: ds) = true := by
  by_cases hd : d = '0'
  · subst hd
    rw [hzero rfl]
    exact ⟨rfl, rfl⟩
  have hfirst : isDecimalDigit d = true := hdigits d List.mem_cons_self
  have hminus : d ≠ '-' := by
    rintro rfl
    cases hfirst
  have hrest : (d :: ds).dropWhile isDecimalDigit = [] := List.dropWhile_eq_nil_iff.2 hdigits
  simp [isNumber, hminus, hfirst, hrest, Lexeme.isFraction, Lexeme.isExponent]

theorem isNumber_toDigits (n : Nat) :
    isNumber (Nat.toDigits 10 n) = true ∧ isNumber ('-' :: Nat.toDigits 10 n) = true := by
  have hdigits : ∀ c ∈ Nat.toDigits 10 n, isDecimalDigit c = true :=
    List.all_eq_true.1 (all_isDecimalDigit_toDigits n)
  obtain ⟨d, ds, hds, -⟩ := exists_toDigits_eq_cons n
  rw [hds] at hdigits ⊢
  exact isNumber_digits hdigits fun hd => eq_nil_of_toDigits_eq_zero_cons (hd ▸ hds)

theorem isNumber_toString (n : Int) : isNumber (toString n).toList = true := by
  cases n with
  | ofNat m =>
    rw [toList_toString_ofNat]
    exact (isNumber_toDigits m).1
  | negSucc m =>
    rw [toList_toString_negSucc]
    exact (isNumber_toDigits (m + 1)).2

theorem isNumberByte_of_mem_toString {n : Int} {c : Char} (h : c ∈ (toString n).toList) :
    c.toNat < 128 ∧ isNumberByte (UInt8.ofNat c.toNat) = true := by
  have hdigit {m : Nat} (hc : c ∈ Nat.toDigits 10 m) :
      c.toNat < 128 ∧ isNumberByte (UInt8.ofNat c.toNat) = true := by
    obtain ⟨hlow, hhigh⟩ := Char.isDigit_iff_toNat.1
      (Nat.isDigit_of_mem_toDigits (by decide) (by decide) hc)
    have hlow : 48 ≤ c.toNat := hlow
    have hhigh : c.toNat ≤ 57 := hhigh
    have hbyte : 0x30 ≤ UInt8.ofNat c.toNat ∧ UInt8.ofNat c.toNat ≤ 0x39 :=
      ⟨Utf8.byte_le_byte hlow (by omega), Utf8.byte_le_byte hhigh (by decide)⟩
    exact ⟨by omega, by simp [isNumberByte, hbyte]⟩
  cases n with
  | ofNat m =>
    rw [toList_toString_ofNat] at h
    exact hdigit h
  | negSucc m =>
    rw [toList_toString_negSucc] at h
    rcases List.mem_cons.1 h with rfl | h
    · decide
    · exact hdigit h

/-- The text of an integer is a number. -/
theorem written_toString (n : Int) :
    Lexeme.Written (.number (toString n).toList) (bytesOf (toString n).toList) := by
  have hbytes : bytesOf (toString n).toList =
      (toString n).toList.map fun c => UInt8.ofNat c.toNat :=
    Utf8.bytesOf_of_lt fun c hc => (isNumberByte_of_mem_toString hc).1
  have hchars : (bytesOf (toString n).toList).map Lexeme.char = (toString n).toList := by
    rw [hbytes, List.map_map]
    refine (List.map_congr_left fun c hc => ?_).trans (List.map_id _)
    have hlt := (isNumberByte_of_mem_toString hc).1
    show Char.ofNat (UInt8.ofNat c.toNat).toNat = c
    rw [Utf8.toNat_byte (by omega), Char.ofNat_toNat]
  refine .number ?_ ?_
  · rw [hbytes]
    exact List.forall_mem_map.2 fun c hc => (isNumberByte_of_mem_toString hc).2
  · rw [hchars, Lexeme.ofNumber?, if_pos (isNumber_toString n)]

/-- The text of an integer that fits a word is read as the integer. -/
theorem number?_toString {n : Int} (h : fitsWord n = true) :
    number? (toString n).toList = some (.integer n) := by
  have hread : readInteger (String.ofList (toString n).toList) = some n := by
    rw [String.ofList_toList, readInteger_toString]
  unfold number?
  dsimp only
  rw [hread, Option.filter_some, if_pos]
  -- there is no point and no exponent in it, and it is not the text of negative zero
  rw [h, Bool.and_true]
  cases n with
  | ofNat m =>
    obtain ⟨d, ds, hds, hminus, -⟩ := exists_toDigits_eq_cons m
    have hdigits := all_isDecimalDigit_toDigits m
    rw [hds] at hdigits
    rw [toList_toString_ofNat, hds]
    split
    · rename_i hcons
      exact absurd (List.cons.inj hcons).1 hminus
    · rw [hdigits]
      rfl
  | negSucc m =>
    have hzero : Nat.toDigits 10 (m + 1) ≠ ['0'] := by
      intro hzero
      have hvalue := digitsValue_toDigits (m + 1)
      rw [hzero] at hvalue
      cases hvalue
    rw [toList_toString_negSucc]
    simp [all_isDecimalDigit_toDigits, isEmpty_toDigits, hzero]

/-! ## Lexemes one after another -/

namespace Lexeme

/-- No lexeme goes on with the first of some bytes. -/
def Ends (bytes : List UInt8) : Prop := ∀ b ∈ bytes.head?, ∀ l : Lexeme, l.goesOn b = false

/-- A text is that of lexemes, whatever stands behind it and ends the last of them. -/
def Prints (ls : List Lexeme) (text : List Char) : Prop :=
  ∀ (more : List Lexeme) (rest : List UInt8), Ends rest → Text more rest →
    Text (ls ++ more) (bytesOf text ++ rest)

theorem ends_nil : Ends [] := nofun

theorem ends_cons {b : UInt8} (hletter : isLetter b = false) (hnumber : isNumberByte b = false)
    (rest : List UInt8) : Ends (b :: rest) := by
  rintro c ⟨⟩ l
  cases l <;> first | exact hletter | exact hnumber | rfl

/-- A lexeme of one character: it never goes on, and no other lexeme goes on with it. -/
structure Sign (l : Lexeme) (c : Char) : Prop where
  written : Written l (bytesOf [c])
  stops : ∀ b, l.goesOn b = false
  ends : ∀ rest, Ends (bytesOf [c] ++ rest)

theorem sign_openArray : Sign .openArray '[' :=
  ⟨.openArray, fun _ => rfl, fun _ => ends_cons rfl rfl _⟩

theorem sign_closeArray : Sign .closeArray ']' :=
  ⟨.closeArray, fun _ => rfl, fun _ => ends_cons rfl rfl _⟩

theorem sign_openObject : Sign .openObject '\x7b' :=
  ⟨.openObject, fun _ => rfl, fun _ => ends_cons rfl rfl _⟩

theorem sign_closeObject : Sign .closeObject '\x7d' :=
  ⟨.closeObject, fun _ => rfl, fun _ => ends_cons rfl rfl _⟩

theorem sign_comma : Sign .comma ',' := ⟨.comma, fun _ => rfl, fun _ => ends_cons rfl rfl _⟩

theorem sign_colon : Sign .colon ':' := ⟨.colon, fun _ => rfl, fun _ => ends_cons rfl rfl _⟩

namespace Prints

variable {l : Lexeme} {c : Char} {ls ls' : List Lexeme} {text text' : List Char}

theorem nil : Prints [] [] := fun _ _ _ hmore => hmore

theorem single (h : Written l (bytesOf text)) : Prints [l] text :=
  fun _ _ hends hmore => .lexeme h (fun b hb => hends b hb l) hmore

theorem cons (hl : Sign l c) (h : Prints ls text) : Prints (l :: ls) (c :: text) := by
  intro more rest hrest hmore
  rw [Utf8.bytesOf_cons_append]
  exact .lexeme hl.written (fun b _ => hl.stops b) (h more rest hrest hmore)

/-- A sign ends the lexemes before it. -/
theorem append_cons (h : Prints ls text) (hl : Sign l c) (h' : Prints ls' text') :
    Prints (ls ++ l :: ls') (text ++ c :: text') := by
  intro more rest hrest hmore
  have hends : Ends (bytesOf (c :: text') ++ rest) := by
    rw [Utf8.bytesOf_cons_append]
    exact hl.ends _
  rw [Utf8.bytesOf_append, List.append_assoc, List.append_assoc]
  exact h _ _ hends (h'.cons hl more rest hrest hmore)

/-- Parts with commas between them. -/
theorem intercalate {parts : List (List Lexeme)} {texts : List (List Char)}
    (h : List.Forall₂ Prints parts texts) :
    Prints ([.comma].intercalate parts) ([','].intercalate texts) := by
  induction h with
  | nil => exact nil
  | cons hp hparts ih =>
    cases hparts with
    | nil =>
      rw [List.intercalate_singleton, List.intercalate_singleton]
      exact hp
    | cons =>
      rw [List.intercalate_cons_cons, List.intercalate_cons_cons, List.append_assoc,
        List.append_assoc]
      exact hp.append_cons sign_comma ih

end Prints

end Lexeme

/-! ## Values -/

open Json.Lexeme (Prints)

mutual

/-- A value with the fields of every object in the order of their names, each name once. -/
def sorted : Json → Json
  | .array elements => .array (sortedElements elements)
  | .object fields => .object (Keyed.ofList (sortedFields fields)).entries
  | j => j

/-- Elements whose objects have their fields in order. -/
def sortedElements : List Json → List Json
  | [] => []
  | j :: rest => j.sorted :: sortedElements rest

/-- Fields whose objects have their fields in order. -/
def sortedFields : List (String × Json) → List (String × Json)
  | [] => []
  | (name, j) :: rest => (name, j.sorted) :: sortedFields rest

end

/-- All numbers of a value, at any depth, are integers that fit a word. -/
def Whole (j : Json) : Prop := ∀ n, j.HasNumber n → ∃ i, n = .integer i ∧ fitsWord i = true

mutual

/-- The text of a value is that of a tree, and the tree is read as the value. -/
theorem exists_draft : (j : Json) → j.Whole →
    ∃ d, ofDraft? d = some j.sorted ∧ Prints d.lexemes j.compact.toList
  | .null, _ => ⟨.null, rfl, .single (.word (by decide +kernel) rfl)⟩
  | .bool true, _ => ⟨.bool true, rfl, .single (.word (by decide +kernel) rfl)⟩
  | .bool false, _ => ⟨.bool false, rfl, .single (.word (by decide +kernel) rfl)⟩
  | .number n, h => by
    obtain ⟨i, rfl, hfits⟩ := h n (.here n)
    refine ⟨.number (toString i).toList, ?_, .single (written_toString i)⟩
    rw [ofDraft?, number?_toString hfits]
    rfl
  | .string s, _ => by
    obtain ⟨us, htext, hwritten⟩ := exists_string s
    refine ⟨.string us, ?_, .single hwritten⟩
    rw [ofDraft?, htext]
    rfl
  | .array elements, h => by
    obtain ⟨ds, hds, hprints⟩ := exists_drafts elements fun j hj n hn => h n (.element hj hn)
    refine ⟨.array ds, ?_, ?_⟩
    · rw [ofDraft?, hds]
      rfl
    · have htext : (Json.array elements).compact.toList =
          '[' :: ([','].intercalate ((compactElements elements).map String.toList) ++ [']']) := by
        simp [compact]
      rw [htext]
      exact .cons Lexeme.sign_openArray
        ((Prints.intercalate hprints).append_cons Lexeme.sign_closeArray .nil)
  | .object fields, h => by
    obtain ⟨fs, hfs, hprints⟩ := exists_draftFields fields fun e he n hn => h n (.field he hn)
    refine ⟨.object fs, ?_, ?_⟩
    · rw [ofDraft?, hfs]
      rfl
    · have htext : (Json.object fields).compact.toList =
          '\x7b' :: ([','].intercalate ((compactFields fields).map String.toList) ++
            ['\x7d']) := by
        simp [compact]
      rw [htext]
      exact .cons Lexeme.sign_openObject
        ((Prints.intercalate hprints).append_cons Lexeme.sign_closeObject .nil)

theorem exists_drafts : (js : List Json) → (∀ j ∈ js, j.Whole) →
    ∃ ds, ofDrafts? ds = some (sortedElements js) ∧
      List.Forall₂ Prints (Draft.elementLexemes ds) ((compactElements js).map String.toList)
  | [], _ => ⟨[], rfl, .nil⟩
  | j :: rest, h => by
    obtain ⟨d, hd, hprints⟩ := exists_draft j (h j List.mem_cons_self)
    obtain ⟨ds, hds, hrest⟩ := exists_drafts rest fun j' hj' => h j' (List.mem_cons_of_mem _ hj')
    refine ⟨d :: ds, ?_, .cons hprints hrest⟩
    rw [ofDrafts?, hd, hds]
    rfl

theorem exists_draftFields : (fields : List (String × Json)) → (∀ e ∈ fields, e.2.Whole) →
    ∃ fs, ofDraftFields? fs = some (sortedFields fields) ∧
      List.Forall₂ Prints (Draft.fieldLexemes fs) ((compactFields fields).map String.toList)
  | [], _ => ⟨[], rfl, .nil⟩
  | (name, j) :: rest, h => by
    obtain ⟨us, hname, hwritten⟩ := exists_string name
    obtain ⟨d, hd, hprints⟩ := exists_draft j (h (name, j) List.mem_cons_self)
    obtain ⟨fs, hfs, hrest⟩ := exists_draftFields rest fun e he => h e (List.mem_cons_of_mem _ he)
    refine ⟨(us, d) :: fs, ?_, .cons ?_ hrest⟩
    · rw [ofDraftFields?, hname, hd, hfs]
      rfl
    · have htext : (quote name ++ ":" ++ j.compact).toList =
          (quote name).toList ++ ':' :: j.compact.toList := by
        simp
      rw [htext]
      exact (Prints.single hwritten).append_cons Lexeme.sign_colon hprints

end

/-- **A value is read back from its text**, with the fields of every object in the order of their
names.  The numbers of the value have to be integers that fit a word. -/
theorem ofText?_compact {j : Json} (h : j.Whole) : ofText? j.compact = some j.sorted := by
  obtain ⟨d, hd, hprints⟩ := exists_draft j h
  have htext : Lexeme.Text d.lexemes (Utf8.encode j.compact) := by
    have htext := hprints [] [] Lexeme.ends_nil .nil
    rw [List.append_nil, List.append_nil, ← Utf8.encode_eq] at htext
    exact htext
  rw [ofText?, ofBytes?, Draft.ofBytes?_eq_some_iff.2 htext]
  exact hd

end Json

end ItemStore
