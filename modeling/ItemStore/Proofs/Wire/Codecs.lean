import ItemStore.Proofs.Attribute.Wire
import ItemStore.Wire.Codec

/-!
# Laws of codecs

A codec and a record are put together from parts, and so is what is known of them: one law for each
way of putting parts together.  Two properties are followed through all of them, each at one value.

* `RoundTrips`: what is written for the value is read as the value.  A record may be read from any
  fields that agree with the written ones under its own names, so that records side by side in one
  object do not disturb each other (`Record.RoundTrips.pair`).
* `Tidy`: what is written for the value holds no null at any depth, and a field of certain names
  never holds an object without fields (`Json.Tidy`).

A value that would be written as null could not come back from a field that may be missing, where
null reads as none; this is why `RoundTrips` excludes it.
-/

namespace ItemStore

variable {α β : Type}

/-! ## Reading what was written -/

/-- A value comes back from what is written for it, and that is not null. -/
structure Codec.RoundTrips (c : Codec α) (x : α) : Prop where
  decode_encode : c.decode (c.encode x) = some x
  encode_ne_null : c.encode x ≠ .null

/-- The value comes back from any fields that agree with those written for it. -/
structure Record.RoundTrips (r : Record α) (x : α) : Prop where
  written : ∀ field ∈ r.write x, field.1 ∈ r.names
  read_of_agree : r.names.Nodup → ∀ fields : List (String × Json),
    (∀ name ∈ r.names, fields.lookup name = (r.write x).lookup name) → r.read fields = some x

namespace Codec.RoundTrips

theorem text {s : String} : Codec.text.RoundTrips s := ⟨rfl, Json.noConfusion⟩

theorem bool {b : Bool} : Codec.bool.RoundTrips b := ⟨rfl, Json.noConfusion⟩

/-- A double comes back if it is written as a number, which is so if it is finite. -/
theorem float {x : Float} (h : Binary64.isFinite x = true) : Codec.float.RoundTrips x := by
  have hwritten : Json.ofFloat x = .number (.real x) := if_pos h
  refine ⟨?_, ?_⟩
  · show (Json.ofFloat x).float? = some x
    rw [hwritten]
    rfl
  · show Json.ofFloat x ≠ .null
    rw [hwritten]
    exact Json.noConfusion

/-- The integer of a word lies within the bounds that reading checks. -/
theorem int32 {n : Int32} : Codec.int32.RoundTrips n := by
  have hlow : -(twoTo 31 : Int) ≤ n.toInt := n.le_toInt
  have hhigh : n.toInt < twoTo 31 := n.toInt_lt
  refine ⟨?_, Json.noConfusion⟩
  show ((some n.toInt).filter fun n => -(twoTo 31 : Int) ≤ n && n < twoTo 31).map Int32.ofInt =
    some n
  rw [Option.filter_some, if_pos (by simp [hlow, hhigh]), Option.map_some, Int32.ofInt_toInt]

/-- A wire form is an object, so it is never null, not even that of the null value. -/
theorem value {v : AttributeValue} : Codec.value.RoundTrips v :=
  ⟨v.ofJson?_toJson, by cases v <;> exact Json.noConfusion⟩

/-- The entries of an item are in key order already, so they come back in their order. -/
theorem item {i : Item} : Codec.item.RoundTrips i := by
  refine ⟨?_, Json.noConfusion⟩
  show (AttributeValue.entriesOfJson? (AttributeValue.entriesToJson i.entries)).bind
    (fun es => some (Keyed.ofList es)) = some i
  rw [AttributeValue.entriesOfJson?_entriesToJson, Option.bind_some, Keyed.ofList_entries]

variable {c : Codec α}

/-- A list comes back if its elements do, one by one. -/
theorem list {xs : List α} (h : ∀ x ∈ xs, c.RoundTrips x) : c.list.RoundTrips xs := by
  refine ⟨?_, Json.noConfusion⟩
  show (xs.map c.encode).mapM c.decode = some xs
  exact mapM_eq_some.2
    (List.forall₂_map_left_iff.2 (List.forall₂_same.2 fun x hx => (h x hx).decode_encode))

/-- The keys of a collection are the names of the fields, and come back with their values. -/
theorem keyed {xs : Keyed α} (h : ∀ e ∈ xs.entries, c.RoundTrips e.2) : c.keyed.RoundTrips xs := by
  have hread : ((xs.entries.map fun e => (e.1, c.encode e.2)).mapM fun e =>
      (c.decode e.2).map fun x => (e.1, x)) = some xs.entries := by
    refine mapM_eq_some.2 (List.forall₂_map_left_iff.2 (List.forall₂_same.2 fun e he => ?_))
    rw [(h e he).decode_encode, Option.map_some]
  refine ⟨?_, Json.noConfusion⟩
  show Option.bind (List.mapM _ _) (fun entries => some (Keyed.ofList entries)) = some xs
  rw [hread, Option.bind_some, Keyed.ofList_entries]

/-- A choice comes back if it is the first one with its label. -/
theorem labels {label : α → String} {choices : List α} {x : α}
    (h : (choices.find? fun y => label y == label x) = some x) :
    (Codec.labels label choices).RoundTrips x :=
  ⟨h, Json.noConfusion⟩

end Codec.RoundTrips

namespace Record.RoundTrips

variable {a : Record α} {b : Record β} {c : Codec α} {name : String}

/-- A required field is found under its name, whatever else is in the object. -/
theorem required {x : α} (h : c.RoundTrips x) : (Record.required name c).RoundTrips x where
  written field hfield := by
    cases List.mem_singleton.1 hfield
    exact List.mem_cons_self
  read_of_agree _ fields hagree := by
    have hlookup : fields.lookup name = some (c.encode x) := by
      rw [hagree name List.mem_cons_self]
      exact List.lookup_cons_self
    show (fields.lookup name).bind c.decode = some x
    rw [hlookup, Option.bind_some, h.decode_encode]

/-- A filled field is always written, so what is read when it is missing does not matter. -/
theorem filled {x missing : α} (h : c.RoundTrips x) :
    (Record.filled name c missing).RoundTrips x where
  written field hfield := by
    cases List.mem_singleton.1 hfield
    exact List.mem_cons_self
  read_of_agree _ fields hagree := by
    have hlookup : fields.lookup name = some (c.encode x) := by
      rw [hagree name List.mem_cons_self]
      exact List.lookup_cons_self
    simp only [Record.filled, hlookup, h.decode_encode]

/-- A field that may be missing reads as none when it was left out.  When it was written it does
not hold null, so it reads as a value. -/
theorem optional {x? : Option α} (h : ∀ x ∈ x?, c.RoundTrips x) :
    (Record.optional name c).RoundTrips x? where
  written field hfield := by
    cases x? with
    | none => cases hfield
    | some x =>
      cases List.mem_singleton.1 hfield
      exact List.mem_cons_self
  read_of_agree _ fields hagree := by
    have hlookup := hagree name List.mem_cons_self
    cases x? with
    | none =>
      have hnone : fields.lookup name = none := hlookup
      simp only [Record.optional, hnone]
    | some x =>
      have hsome : fields.lookup name = some (c.encode x) := hlookup.trans List.lookup_cons_self
      have hx := h x rfl
      simp only [Record.optional, hsome]
      split
      · rename_i hnull
        cases hnull
      · rename_i hnull
        exact absurd (Option.some.inj hnull) hx.encode_ne_null
      · rename_i hj
        rw [← Option.some.inj hj, hx.decode_encode, Option.map_some]

/-- A sparse field that was left out reads as the empty value, which is the only one left out. -/
theorem sparse {isEmpty : α → Bool} {empty x : α} (hempty : isEmpty x = true → x = empty)
    (h : c.RoundTrips x) : (Record.sparse name c isEmpty empty).RoundTrips x where
  written field hfield := by
    simp only [Record.sparse] at hfield
    split at hfield
    · cases hfield
    · cases List.mem_singleton.1 hfield
      exact List.mem_cons_self
  read_of_agree _ fields hagree := by
    have hlookup := hagree name List.mem_cons_self
    simp only [Record.sparse] at hlookup ⊢
    split at hlookup
    · rename_i hx
      have hnone : fields.lookup name = none := hlookup
      rw [hnone, hempty hx]
    · have hsome : fields.lookup name = some (c.encode x) := hlookup.trans List.lookup_cons_self
      simp only [hsome, h.decode_encode]

/-- A collection without entries is left out, and no other collection has none. -/
theorem sparseKeyed {xs : Keyed α} (h : ∀ e ∈ xs.entries, c.RoundTrips e.2) :
    (Record.sparseKeyed name c).RoundTrips xs :=
  .sparse (fun hempty => Keyed.ext (List.isEmpty_iff.1 hempty)) (.keyed h)

theorem sparseItem {i : Item} : (Record.sparseItem name).RoundTrips i :=
  .sparse (fun hempty => Keyed.ext (List.isEmpty_iff.1 hempty)) .item

theorem sparseList {xs : List α} (h : ∀ x ∈ xs, c.RoundTrips x) :
    (Record.sparseList name c).RoundTrips xs :=
  .sparse List.isEmpty_iff.1 (.list h)

/-- Fields of other names do not change what is found under a name. -/
theorem lookup_append_of_not_mem {xs ys : List (String × Json)} {name : String}
    (h : ∀ field ∈ ys, field.1 ≠ name) : (xs ++ ys).lookup name = xs.lookup name := by
  have hnone : ys.lookup name = none :=
    Keyed.lookup_eq_none_of_not_mem fun hmem => by
      obtain ⟨field, hfield, hname⟩ := List.mem_map.1 hmem
      exact h field hfield hname
  rw [List.lookup_append, hnone, Option.or_none]

/-- Records with different names can be written into one object. -/
theorem pair {x : α × β} (ha : a.RoundTrips x.1) (hb : b.RoundTrips x.2) :
    (Record.pair a b).RoundTrips x where
  written field hfield := by
    rcases List.mem_append.1 hfield with hfield | hfield
    · exact List.mem_append_left _ (ha.written field hfield)
    · exact List.mem_append_right _ (hb.written field hfield)
  read_of_agree hnodup fields hagree := by
    obtain ⟨hanodup, hbnodup, hdisjoint⟩ := List.nodup_append.1 hnodup
    have hreada : a.read fields = some x.1 := by
      refine ha.read_of_agree hanodup fields fun name hname => ?_
      rw [hagree name (List.mem_append_left _ hname)]
      exact lookup_append_of_not_mem fun field hfield heq =>
        hdisjoint name hname field.1 (hb.written field hfield) heq.symm
    have hreadb : b.read fields = some x.2 := by
      refine hb.read_of_agree hbnodup fields fun name hname => ?_
      have hnone : (a.write x.1).lookup name = none :=
        Keyed.lookup_eq_none_of_not_mem fun hmem => by
          obtain ⟨field, hfield, heq⟩ := List.mem_map.1 hmem
          exact hdisjoint field.1 (ha.written field hfield) name hname heq
      rw [hagree name (List.mem_append_right _ hname)]
      show (a.write x.1 ++ b.write x.2).lookup name = _
      rw [List.lookup_append, hnone, Option.none_or]
    show (a.read fields).bind (fun y => (b.read fields).bind fun z => some (y, z)) = some x
    rw [hreada, hreadb]
    rfl

/-- What is packed again after it was unpacked is what it was. -/
theorem iso {pack : α → β} {unpack : β → α} {y : β} (hpack : pack (unpack y) = y)
    (h : a.RoundTrips (unpack y)) : (Record.iso pack unpack a).RoundTrips y where
  written := h.written
  read_of_agree hnodup fields hagree := by
    show (a.read fields).map pack = some y
    rw [h.read_of_agree hnodup fields hagree, Option.map_some, hpack]

end Record.RoundTrips

/-- An object with the fields of a record is read from those very fields. -/
theorem Codec.RoundTrips.record {r : Record α} {x : α} (hnodup : r.names.Nodup)
    (h : r.RoundTrips x) : r.codec.RoundTrips x :=
  ⟨h.read_of_agree hnodup (r.write x) fun _ _ => rfl, Json.noConfusion⟩

/-! ## What is never written -/

/-- A JSON value holds no null, at any depth, and no field whose name is in `full` holds an object
without fields. -/
inductive Json.Tidy (full : List String) : Json → Prop where
  | bool (b : Bool) : Tidy full (.bool b)
  | number (n : JsonNumber) : Tidy full (.number n)
  | string (text : String) : Tidy full (.string text)
  | array {elements : List Json} (h : ∀ j ∈ elements, Tidy full j) : Tidy full (.array elements)
  | object {fields : List (String × Json)}
      (h : ∀ field ∈ fields, Tidy full field.2)
      (hfull : ∀ field ∈ fields, field.1 ∈ full → field.2 ≠ .object []) :
      Tidy full (.object fields)

/-- A field may stand in a tidy object. -/
def Json.TidyField (full : List String) (name : String) (j : Json) : Prop :=
  j.Tidy full ∧ (name ∈ full → j ≠ .object [])

/-- What is written for a value is tidy. -/
def Codec.Tidy (full : List String) (c : Codec α) (x : α) : Prop := (c.encode x).Tidy full

/-- What is written for a value may be the field of a name in a tidy object. -/
def Codec.TidyField (full : List String) (name : String) (c : Codec α) (x : α) : Prop :=
  (c.encode x).TidyField full name

/-- The fields that are written for a value may stand in a tidy object. -/
def Record.Tidy (full : List String) (r : Record α) (x : α) : Prop :=
  ∀ field ∈ r.write x, field.2.TidyField full field.1

section Tidy

variable {full : List String} {a : Record α} {b : Record β} {c : Codec α} {name : String}

theorem Json.tidy_object_iff {fields : List (String × Json)} :
    (Json.object fields).Tidy full ↔ ∀ field ∈ fields, field.2.TidyField full field.1 := by
  constructor
  · rintro (_ | _ | _ | _ | ⟨h, hfull⟩) field hfield
    exact ⟨h field hfield, hfull field hfield⟩
  · intro h
    exact .object (fun field hfield => (h field hfield).1) fun field hfield => (h field hfield).2

theorem Json.tidy_array_iff {elements : List Json} :
    (Json.array elements).Tidy full ↔ ∀ j ∈ elements, j.Tidy full := by
  constructor
  · rintro (_ | _ | _ | ⟨h⟩ | _)
    exact h
  · exact .array

/-- Where every object may be empty nothing else is asked of a field. -/
theorem Codec.Tidy.field {x : α} (h : c.Tidy [] x) : c.TidyField [] name x :=
  ⟨h, fun hmem => absurd hmem List.not_mem_nil⟩

/-- An object with a field is not empty, so it may stand under any name. -/
theorem Json.tidyField_object_singleton {field : String × Json}
    (h : field.2.TidyField full field.1) :
    (Json.object [field]).TidyField full name :=
  ⟨tidy_object_iff.2 (List.forall_mem_singleton.2 h), fun _ => by simp⟩

theorem Json.tidyField_array {elements : List Json} (h : ∀ j ∈ elements, j.Tidy full) :
    (Json.array elements).TidyField full name :=
  ⟨.array h, fun _ => Json.noConfusion⟩

theorem Json.tidyField_string {text : String} : (Json.string text).TidyField full name :=
  ⟨.string text, fun _ => Json.noConfusion⟩

theorem Json.tidyField_bool {b : Bool} : (Json.bool b).TidyField full name :=
  ⟨.bool b, fun _ => Json.noConfusion⟩

/-- A wire form is an object with one field; only the one of an empty map holds an empty object, in
its field `M`. -/
theorem AttributeValue.IsWire.tidyField (hmap : "M" ∉ full) {j : Json} (h : IsWire j) :
    ∀ name, j.TidyField full name := by
  induction h with
  | string | number | binary => exact fun _ => Json.tidyField_object_singleton Json.tidyField_string
  | stringSet | numberSet | binarySet =>
    refine fun _ => Json.tidyField_object_singleton (Json.tidyField_array fun j hj => ?_)
    obtain ⟨text, _, rfl⟩ := List.mem_map.1 hj
    exact .string text
  | bool | null => exact fun _ => Json.tidyField_object_singleton Json.tidyField_bool
  | list _ ih =>
    exact fun _ => Json.tidyField_object_singleton (Json.tidyField_array fun j hj => (ih j hj "").1)
  | map _ ih =>
    refine fun _ => Json.tidyField_object_singleton ⟨?_, fun hmem => absurd hmem hmap⟩
    exact Json.tidy_object_iff.2 fun field hfield => ih field hfield field.1

namespace Codec

@[simp] theorem tidyField_text {s : String} : Codec.text.TidyField full name s :=
  Json.tidyField_string

@[simp] theorem tidyField_bool {b : Bool} : Codec.bool.TidyField full name b :=
  Json.tidyField_bool

@[simp] theorem tidyField_int32 {n : Int32} : Codec.int32.TidyField full name n :=
  ⟨.number _, fun _ => Json.noConfusion⟩

@[simp] theorem tidyField_labels {label : α → String} {choices : List α} {x : α} :
    (Codec.labels label choices).TidyField full name x :=
  Json.tidyField_string

@[simp] theorem tidyField_value (hmap : "M" ∉ full) {v : AttributeValue} :
    Codec.value.TidyField full name v :=
  v.isWire_toJson.tidyField hmap name

/-- A double that is not finite is written as null. -/
@[simp] theorem tidy_float_iff {x : Float} :
    Codec.float.Tidy full x ↔ Binary64.isFinite x = true := by
  show (Json.ofFloat x).Tidy full ↔ _
  unfold Json.ofFloat
  split
  · rename_i hfinite
    exact ⟨fun _ => hfinite, fun _ => .number _⟩
  · rename_i hfinite
    exact ⟨nofun, fun h => absurd h hfinite⟩

@[simp] theorem tidyField_float_iff {x : Float} :
    Codec.float.TidyField full name x ↔ Binary64.isFinite x = true := by
  have hkind : Json.ofFloat x ≠ .object [] := by
    unfold Json.ofFloat
    split <;> exact Json.noConfusion
  exact (and_iff_left fun _ => hkind).trans tidy_float_iff

@[simp] theorem tidyField_list_iff {xs : List α} :
    c.list.TidyField full name xs ↔ ∀ x ∈ xs, c.Tidy full x := by
  refine ⟨fun h x hx => ?_, fun h => Json.tidyField_array (List.forall_mem_map.2 h)⟩
  exact Json.tidy_array_iff.1 h.1 (c.encode x) (List.mem_map_of_mem hx)

/-- A collection may stand in a field that is never empty if it has an entry. -/
@[simp] theorem tidyField_keyed_iff {xs : Keyed α} :
    c.keyed.TidyField full name xs ↔
      (∀ e ∈ xs.entries, c.TidyField full e.1 e.2) ∧ (name ∈ full → xs.entries ≠ []) := by
  refine and_congr (Json.tidy_object_iff.trans List.forall_mem_map) ?_
  simp [Codec.keyed]

/-- The attributes of an item are tidy, so it is only asked whether there are any. -/
@[simp] theorem tidyField_item_iff (hmap : "M" ∉ full) {i : Item} :
    Codec.item.TidyField full name i ↔ (name ∈ full → i.entries ≠ []) := by
  have htidy : (Item.toJson i).Tidy full := Json.tidy_object_iff.2 fun field hfield =>
    (AttributeValue.isWire_entriesToJson i.entries field hfield).tidyField hmap field.1
  refine (and_iff_right htidy).trans ?_
  simp [Codec.item, Item.toJson, AttributeValue.entriesToJson_eq_map]

@[simp] theorem tidy_item (hmap : "M" ∉ full) {i : Item} : Codec.item.Tidy full i := by
  have hfield : Codec.item.TidyField full "M" i :=
    (tidyField_item_iff hmap).2 fun hmem => absurd hmem hmap
  exact hfield.1

end Codec

namespace Record

@[simp] theorem write_required {x : α} :
    (Record.required name c).write x = [(name, c.encode x)] := rfl

/-- The fields of the first record stand in front of those of the second one. -/
@[simp] theorem write_pair {x : α × β} :
    (Record.pair a b).write x = a.write x.1 ++ b.write x.2 := rfl

@[simp] theorem write_iso {pack : α → β} {unpack : β → α} {y : β} :
    (Record.iso pack unpack a).write y = a.write (unpack y) := rfl

/-- An object is tidy if the fields that are written for it are. -/
@[simp] theorem tidy_codec_iff {x : α} : a.codec.Tidy full x ↔ a.Tidy full x :=
  Json.tidy_object_iff

@[simp] theorem tidyField_codec_iff {x : α} :
    a.codec.TidyField full name x ↔ a.Tidy full x ∧ (name ∈ full → a.write x ≠ []) := by
  refine and_congr Json.tidy_object_iff ?_
  simp [Record.codec]

@[simp] theorem tidy_required_iff {x : α} :
    (Record.required name c).Tidy full x ↔ c.TidyField full name x :=
  List.forall_mem_singleton

@[simp] theorem tidy_filled_iff {x missing : α} :
    (Record.filled name c missing).Tidy full x ↔ c.TidyField full name x :=
  List.forall_mem_singleton

/-- Nothing is asked of a field that is left out. -/
@[simp] theorem tidy_optional_iff {x? : Option α} :
    (Record.optional name c).Tidy full x? ↔ ∀ x ∈ x?, c.TidyField full name x := by
  cases x? with
  | none => simp [Record.Tidy, Record.optional]
  | some x => simp [Record.Tidy, Record.optional, Codec.TidyField]

/-- What counts as empty is not written. -/
theorem tidy_sparse_iff {isEmpty : α → Bool} {empty x : α} :
    (Record.sparse name c isEmpty empty).Tidy full x ↔
      (isEmpty x = false → c.TidyField full name x) := by
  cases hx : isEmpty x with
  | true => simp [Record.Tidy, Record.sparse, hx]
  | false => simp [Record.Tidy, Record.sparse, hx, Codec.TidyField]

/-- A sparse collection is written only if it has an entry, so its field never holds an empty
object. -/
@[simp] theorem tidy_sparseKeyed_iff {xs : Keyed α} :
    (Record.sparseKeyed name c).Tidy full xs ↔
      ∀ e ∈ xs.entries, c.TidyField full e.1 e.2 := by
  rw [Record.sparseKeyed, tidy_sparse_iff, Codec.tidyField_keyed_iff, Keyed.isEmpty]
  cases hxs : xs.entries with
  | nil => simp
  | cons e es => simp

/-- A sparse item is written only if it has an attribute. -/
@[simp] theorem tidy_sparseItem (hmap : "M" ∉ full) {i : Item} :
    (Record.sparseItem name).Tidy full i := by
  rw [Record.sparseItem, tidy_sparse_iff, Codec.tidyField_item_iff hmap, Keyed.isEmpty]
  intro hne _ hnil
  rw [hnil] at hne
  cases hne

@[simp] theorem tidy_sparseList_iff {xs : List α} :
    (Record.sparseList name c).Tidy full xs ↔ ∀ x ∈ xs, c.Tidy full x := by
  rw [Record.sparseList, tidy_sparse_iff, Codec.tidyField_list_iff]
  cases xs with
  | nil => simp
  | cons x xs => simp

/-- Records side by side are tidy if each of them is. -/
@[simp] theorem tidy_pair_iff {x : α × β} :
    (Record.pair a b).Tidy full x ↔ a.Tidy full x.1 ∧ b.Tidy full x.2 :=
  List.forall_mem_append

@[simp] theorem tidy_iso_iff {pack : α → β} {unpack : β → α} {y : β} :
    (Record.iso pack unpack a).Tidy full y ↔ a.Tidy full (unpack y) :=
  Iff.rfl

end Record

end Tidy

end ItemStore
