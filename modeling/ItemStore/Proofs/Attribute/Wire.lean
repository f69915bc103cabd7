import ItemStore.Attribute.Wire
import ItemStore.Proofs.Lists
import ItemStore.Proofs.Text.Base64

/-!
# The wire forms of attribute values

A wire form is an object with one field, named for a kind, with what that kind of value carries.
`IsWire` has one rule for each kind and says nothing of reading or writing.  Writing and reading are
inverse to each other between values and wire forms:

* `isWire_toJson` and `exists_toJson_eq`: what writing produces is the wire forms, all of them.
* `ofJson?_toJson` and `toJson_of_ofJson?`: reading undoes writing, and writing undoes reading.
* `ofJson?_toJson_inverse` has both in one statement.
-/

namespace ItemStore

namespace AttributeValue

/-! ## Elements -/

section Elements

variable {α β : Type} {f : α → Option β} {g : β → α}

/-- What reads back one element reads back a list. -/
theorem mapM_map (h : ∀ b, f (g b) = some b) (l : List β) : (l.map g).mapM f = some l :=
  mapM_eq_some.2 (List.forall₂_map_left_iff.2 (List.forall₂_same.2 fun b _ => h b))

/-- What writes back one element writes back a list. -/
theorem map_of_mapM (h : ∀ a b, f a = some b → g b = a) {l : List α} {l' : List β}
    (hl : l.mapM f = some l') : l'.map g = l :=
  map_eq_of_forall₂ ((mapM_eq_some.1 hl).imp h)

end Elements

/-! ## Wire forms -/

/-- A JSON value is the wire form of an attribute value. -/
inductive IsWire : Json → Prop where
  /-- Any text. -/
  | string (text : String) : IsWire (.object [("S", .string text)])
  /-- The digits of a number, whatever they are. -/
  | number (text : String) : IsWire (.object [("N", .string text)])
  /-- Bytes in base64. -/
  | binary {text : String} : Base64.IsBase64 text → IsWire (.object [("B", .string text)])
  /-- An array of texts. -/
  | stringSet (texts : List String) : IsWire (.object [("SS", .array (texts.map .string))])
  /-- An array of texts, too. -/
  | numberSet (texts : List String) : IsWire (.object [("NS", .array (texts.map .string))])
  /-- An array of bytes in base64. -/
  | binarySet {texts : List String} : (∀ text ∈ texts, Base64.IsBase64 text) →
      IsWire (.object [("BS", .array (texts.map .string))])
  /-- A truth value. -/
  | bool (b : Bool) : IsWire (.object [("BOOL", .bool b)])
  /-- A truth value that switches the null marker. -/
  | null (b : Bool) : IsWire (.object [("NULL", .bool b)])
  /-- An array of wire forms. -/
  | list {elements : List Json} : (∀ j ∈ elements, IsWire j) →
      IsWire (.object [("L", .array elements)])
  /-- An object of wire forms. -/
  | map {fields : List (String × Json)} : (∀ field ∈ fields, IsWire field.2) →
      IsWire (.object [("M", .object fields)])

/-! ## Writing -/

mutual

/-- What writing produces is a wire form. -/
theorem isWire_toJson : (v : AttributeValue) → IsWire v.toJson
  | .string text => .string text
  | .number text => .number text
  | .binary bytes => .binary (Base64.isBase64_encode bytes)
  | .stringSet texts => .stringSet texts
  | .numberSet texts => .numberSet texts
  | .binarySet elements => by
    have htexts : ∀ text ∈ elements.map Base64.encode, Base64.IsBase64 text := by
      intro text htext
      obtain ⟨bytes, -, rfl⟩ := List.mem_map.1 htext
      exact Base64.isBase64_encode bytes
    have hset := IsWire.binarySet htexts
    rwa [List.map_map] at hset
  | .bool b => .bool b
  | .null b => .null b
  | .list elements => .list (isWire_elementsToJson elements)
  | .map entries => .map (isWire_entriesToJson entries)

theorem isWire_elementsToJson : (vs : List AttributeValue) → ∀ j ∈ elementsToJson vs, IsWire j
  | [] => by simp [elementsToJson]
  | v :: rest => List.forall_mem_cons.2 ⟨isWire_toJson v, isWire_elementsToJson rest⟩

theorem isWire_entriesToJson :
    (es : List (String × AttributeValue)) → ∀ field ∈ entriesToJson es, IsWire field.2
  | [] => by simp [entriesToJson]
  | (_, v) :: rest => List.forall_mem_cons.2 ⟨isWire_toJson v, isWire_entriesToJson rest⟩

end

theorem elementsToJson_eq_map (vs : List AttributeValue) : elementsToJson vs = vs.map toJson := by
  induction vs with
  | nil => rfl
  | cons v vs ih => rw [elementsToJson, ih, List.map_cons]

theorem entriesToJson_eq_map (es : List (String × AttributeValue)) :
    entriesToJson es = es.map fun e => (e.1, e.2.toJson) := by
  induction es with
  | nil => rfl
  | cons e es ih => rw [entriesToJson, ih, List.map_cons]

theorem exists_encode_eq {text : String} (h : Base64.IsBase64 text) :
    ∃ bytes, Base64.encode bytes = text := by
  obtain ⟨bytes, hspells⟩ := h
  exact ⟨bytes, Base64.encode_of_decode? ((Base64.decode?_eq_some_iff ..).2 hspells)⟩

/-- Every wire form is what writing produces for some value. -/
theorem exists_toJson_eq {j : Json} (h : IsWire j) : ∃ v : AttributeValue, v.toJson = j := by
  induction h with
  | string text => exact ⟨.string text, rfl⟩
  | number text => exact ⟨.number text, rfl⟩
  | binary htext =>
    obtain ⟨bytes, rfl⟩ := exists_encode_eq htext
    exact ⟨.binary bytes, rfl⟩
  | stringSet texts => exact ⟨.stringSet texts, rfl⟩
  | numberSet texts => exact ⟨.numberSet texts, rfl⟩
  | binarySet htexts =>
    obtain ⟨elements, rfl⟩ := exists_map_eq fun text htext => exists_encode_eq (htexts text htext)
    exact ⟨.binarySet elements, by rw [List.map_map]; rfl⟩
  | bool b => exact ⟨.bool b, rfl⟩
  | null b => exact ⟨.null b, rfl⟩
  | list _ ih =>
    obtain ⟨elements, rfl⟩ := exists_map_eq ih
    exact ⟨.list elements, by rw [toJson, elementsToJson_eq_map]⟩
  | @map fields _ ih =>
    have hfields : ∀ field ∈ fields, ∃ e : String × AttributeValue, (e.1, e.2.toJson) = field := by
      intro field hfield
      obtain ⟨v, hv⟩ := ih field hfield
      exact ⟨(field.1, v), by rw [hv]⟩
    obtain ⟨entries, rfl⟩ := exists_map_eq hfields
    exact ⟨.map entries, by rw [toJson, entriesToJson_eq_map]⟩

/-! ## Reading -/

theorem string?_string (text : String) : Json.string? (.string text) = some text := rfl

theorem bytes?_string_encode (bytes : List UInt8) :
    bytes? (.string (Base64.encode bytes)) = some bytes :=
  Base64.decode?_encode bytes

theorem string_of_string? {j : Json} {text : String} (h : j.string? = some text) :
    .string text = j := by
  cases j with
  | string s =>
    cases h
    rfl
  | _ => cases h

theorem string_encode_of_bytes? {j : Json} {bytes : List UInt8} (h : bytes? j = some bytes) :
    .string (Base64.encode bytes) = j := by
  obtain ⟨text, htext, hdecode⟩ := Option.bind_eq_some_iff.1 h
  rw [Base64.encode_of_decode? hdecode, string_of_string? htext]

mutual

/-- Reading undoes writing. -/
theorem ofJson?_toJson : (v : AttributeValue) → ofJson? v.toJson = some v
  | .string _ => rfl
  | .number _ => rfl
  | .binary bytes => by
    rw [toJson, ofJson?, Base64.decode?_encode, Option.map_some]
  | .stringSet texts => by
    rw [toJson, ofJson?, mapM_map string?_string, Option.map_some]
  | .numberSet texts => by
    rw [toJson, ofJson?, mapM_map string?_string, Option.map_some]
  | .binarySet elements => by
    rw [toJson, ofJson?, mapM_map bytes?_string_encode, Option.map_some]
  | .bool _ => rfl
  | .null _ => rfl
  | .list elements => by
    rw [toJson, ofJson?, elementsOfJson?_elementsToJson elements, Option.map_some]
  | .map entries => by
    rw [toJson, ofJson?, entriesOfJson?_entriesToJson entries, Option.map_some]

theorem elementsOfJson?_elementsToJson :
    (vs : List AttributeValue) → elementsOfJson? (elementsToJson vs) = some vs
  | [] => rfl
  | v :: rest => by
    rw [elementsToJson, elementsOfJson?, ofJson?_toJson v, elementsOfJson?_elementsToJson rest]
    rfl

theorem entriesOfJson?_entriesToJson :
    (es : List (String × AttributeValue)) → entriesOfJson? (entriesToJson es) = some es
  | [] => rfl
  | (name, v) :: rest => by
    rw [entriesToJson, entriesOfJson?, ofJson?_toJson v, entriesOfJson?_entriesToJson rest]
    rfl

end

section Read

variable {v : AttributeValue} {text : String} {elements : List Json}
  {fields : List (String × Json)}

theorem toJson_of_binary (h : ofJson? (.object [("B", .string text)]) = some v) :
    v.toJson = .object [("B", .string text)] := by
  rw [ofJson?] at h
  obtain ⟨bytes, hbytes, rfl⟩ := Option.map_eq_some_iff.1 h
  rw [toJson, Base64.encode_of_decode? hbytes]

theorem toJson_of_stringSet (h : ofJson? (.object [("SS", .array elements)]) = some v) :
    v.toJson = .object [("SS", .array elements)] := by
  rw [ofJson?] at h
  obtain ⟨texts, htexts, rfl⟩ := Option.map_eq_some_iff.1 h
  rw [toJson, map_of_mapM (fun _ _ => string_of_string?) htexts]

theorem toJson_of_numberSet (h : ofJson? (.object [("NS", .array elements)]) = some v) :
    v.toJson = .object [("NS", .array elements)] := by
  rw [ofJson?] at h
  obtain ⟨texts, htexts, rfl⟩ := Option.map_eq_some_iff.1 h
  rw [toJson, map_of_mapM (fun _ _ => string_of_string?) htexts]

theorem toJson_of_binarySet (h : ofJson? (.object [("BS", .array elements)]) = some v) :
    v.toJson = .object [("BS", .array elements)] := by
  rw [ofJson?] at h
  obtain ⟨bytes, hbytes, rfl⟩ := Option.map_eq_some_iff.1 h
  rw [toJson, map_of_mapM (fun _ _ => string_encode_of_bytes?) hbytes]

/-- A list is written as it was read if its elements are. -/
theorem toJson_of_list (hread : ∀ vs, elementsOfJson? elements = some vs →
    elementsToJson vs = elements) (h : ofJson? (.object [("L", .array elements)]) = some v) :
    v.toJson = .object [("L", .array elements)] := by
  rw [ofJson?] at h
  obtain ⟨vs, hvs, rfl⟩ := Option.map_eq_some_iff.1 h
  rw [toJson, hread vs hvs]

/-- A map is written as it was read if its entries are. -/
theorem toJson_of_map (hread : ∀ es, entriesOfJson? fields = some es → entriesToJson es = fields)
    (h : ofJson? (.object [("M", .object fields)]) = some v) :
    v.toJson = .object [("M", .object fields)] := by
  rw [ofJson?] at h
  obtain ⟨es, hes, rfl⟩ := Option.map_eq_some_iff.1 h
  rw [toJson, hread es hes]

theorem elementsToJson_of_cons {j : Json} {vs : List AttributeValue}
    (hfirst : ∀ v, ofJson? j = some v → v.toJson = j)
    (hrest : ∀ vs, elementsOfJson? elements = some vs → elementsToJson vs = elements)
    (h : elementsOfJson? (j :: elements) = some vs) : elementsToJson vs = j :: elements := by
  obtain ⟨v, hv, h⟩ := Option.bind_eq_some_iff.1 h
  obtain ⟨more, hmore, h⟩ := Option.bind_eq_some_iff.1 h
  cases h
  rw [elementsToJson, hfirst v hv, hrest more hmore]

theorem entriesToJson_of_cons {name : String} {j : Json} {es : List (String × AttributeValue)}
    (hfirst : ∀ v, ofJson? j = some v → v.toJson = j)
    (hrest : ∀ es, entriesOfJson? fields = some es → entriesToJson es = fields)
    (h : entriesOfJson? ((name, j) :: fields) = some es) :
    entriesToJson es = (name, j) :: fields := by
  obtain ⟨v, hv, h⟩ := Option.bind_eq_some_iff.1 h
  obtain ⟨more, hmore, h⟩ := Option.bind_eq_some_iff.1 h
  cases h
  rw [entriesToJson, hfirst v hv, hrest more hmore]

end Read

/-- Writing undoes reading.  The induction is that of reading, with one case for each kind. -/
theorem toJson_of_ofJson? : (j : Json) → ∀ v, ofJson? j = some v → v.toJson = j := by
  refine (ofJson?.mutual_induct (fun j => ∀ v, ofJson? j = some v → v.toJson = j)
    (fun fields => ∀ es, entriesOfJson? fields = some es → entriesToJson es = fields)
    (fun elements => ∀ vs, elementsOfJson? elements = some vs → elementsToJson vs = elements)
    ?string ?number ?binary ?stringSet ?numberSet ?binarySet ?bool ?null ?list ?map ?other ?shape
    ?noElement ?element ?noEntry ?entry).1
  case string | number | bool | null =>
    intro payload v h
    cases h
    rfl
  case binary => exact fun _ _ => toJson_of_binary
  case stringSet => exact fun _ _ => toJson_of_stringSet
  case numberSet => exact fun _ _ => toJson_of_numberSet
  case binarySet => exact fun _ _ => toJson_of_binarySet
  case list => exact fun _ hread _ => toJson_of_list hread
  case map => exact fun _ hread _ => toJson_of_map hread
  case other =>
    -- a name that is no kind's, or not what the kind carries
    intro descriptor payload hS hN hB hSS hNS hBS hBOOL hNULL hL hM v h
    rw [ofJson?] at h
    · cases h
    all_goals assumption
  case shape =>
    -- no object with exactly one field
    intro j hshape v h
    rw [ofJson?] at h
    · cases h
    · exact hshape
  case noElement | noEntry =>
    intro read h
    cases h
    rfl
  case element => exact fun _ _ hfirst hrest _ => elementsToJson_of_cons hfirst hrest
  case entry => exact fun _ _ _ hfirst hrest _ => entriesToJson_of_cons hfirst hrest

/-- **Writing and reading are inverse to each other** between values and wire forms.

What was written is read back as the value that it was.  A JSON value can be read if and only if it
is a wire form, and what is read from it is written as the very same JSON value. -/
theorem ofJson?_toJson_inverse :
    (∀ v : AttributeValue, ofJson? v.toJson = some v) ∧
    (∀ j, (∃ v, ofJson? j = some v) ↔ IsWire j) ∧
    (∀ j v, ofJson? j = some v → v.toJson = j) := by
  refine ⟨ofJson?_toJson, ?_, toJson_of_ofJson?⟩
  intro j
  constructor
  · rintro ⟨v, hv⟩
    rw [← toJson_of_ofJson? j v hv]
    exact isWire_toJson v
  · intro hj
    obtain ⟨v, rfl⟩ := exists_toJson_eq hj
    exact ⟨v, ofJson?_toJson v⟩

-- The last digit has bits that no byte uses, and they are not zero.
example : (ofJson? (.object [("L", .array [.object [("B", .string "QR==")]])])).isNone := by
  decide +kernel

end AttributeValue

end ItemStore
