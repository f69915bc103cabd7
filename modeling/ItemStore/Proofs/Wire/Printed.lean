import ItemStore.Proofs.Json.Printed
import ItemStore.Proofs.Wire.Codecs
import ItemStore.Wire.Exchange

/-!
# The text of a request

A request is read back from its text as what is written for it (`Operation.ofText?_requestText`).
The one thing to see is that every number in it is an integer that fits a word: attribute values
hold their numbers as texts, and the other numbers of a request are words of 32 bits.  `Whole` is
followed through codecs and records for that.
-/

namespace ItemStore

variable {α β : Type}

namespace Json

@[simp] theorem whole_string {s : String} : (Json.string s).Whole := nofun

@[simp] theorem whole_bool {b : Bool} : (Json.bool b).Whole := nofun

/-- The numbers of an array are those of its elements. -/
@[simp] theorem whole_array_iff {elements : List Json} :
    (Json.array elements).Whole ↔ ∀ j ∈ elements, j.Whole := by
  constructor
  · intro h j hj n hn
    exact h n (.element hj hn)
  · rintro h n (_ | ⟨hj, hn⟩ | _)
    exact h _ hj n hn

/-- The numbers of an object are those in its fields. -/
@[simp] theorem whole_object_iff {fields : List (String × Json)} :
    (Json.object fields).Whole ↔ ∀ field ∈ fields, field.2.Whole := by
  constructor
  · intro h field hfield n hn
    exact h n (.field hfield hn)
  · rintro h n (_ | _ | ⟨hfield, hn⟩)
    exact h _ hfield n hn

end Json

/-- There are no numbers in a wire form, only texts of numbers. -/
theorem AttributeValue.IsWire.whole {j : Json} (h : IsWire j) : j.Whole := by
  induction h with
  | string | number | binary | bool | null => simp
  | stringSet | numberSet | binarySet => simp
  | list _ ih => simpa using ih
  | map _ ih => simpa using ih

/-- All numbers in what is written for a value are integers that fit a word. -/
def Codec.Whole (c : Codec α) : Prop := ∀ x, (c.encode x).Whole

/-- All numbers in the fields that are written for a value are integers that fit a word. -/
def Record.Whole (r : Record α) : Prop := ∀ x, ∀ field ∈ r.write x, field.2.Whole

namespace Codec.Whole

variable {c : Codec α}

theorem text : Codec.text.Whole := fun _ => Json.whole_string

theorem bool : Codec.bool.Whole := fun _ => Json.whole_bool

/-- A word of 32 bits fits the words of 64 bits that JSON texts are read with. -/
theorem int32 : Codec.int32.Whole := by
  rintro n _ ⟨⟩
  have hlow : -2147483648 ≤ n.toInt := n.le_toInt
  have hhigh : n.toInt < 2147483648 := n.toInt_lt
  have hfits : Json.fitsWord n.toInt = true := by
    simp only [Json.fitsWord, Bool.and_eq_true, decide_eq_true_eq]
    exact ⟨by show -9223372036854775808 ≤ _; omega, by show _ < 18446744073709551616; omega⟩
  exact ⟨_, rfl, hfits⟩

theorem item : Codec.item.Whole := fun i => Json.whole_object_iff.2 fun field hfield =>
  (AttributeValue.isWire_entriesToJson i.entries field hfield).whole

theorem value : Codec.value.Whole := fun v => v.isWire_toJson.whole

theorem labels {label : α → String} {choices : List α} : (Codec.labels label choices).Whole :=
  fun _ => Json.whole_string

/-- A list holds no numbers but those of its elements. -/
theorem list (h : c.Whole) : c.list.Whole := fun _ =>
  Json.whole_array_iff.2 (List.forall_mem_map.2 fun x _ => h x)

theorem keyed (h : c.Whole) : c.keyed.Whole := fun _ =>
  Json.whole_object_iff.2 (List.forall_mem_map.2 fun e _ => h e.2)

theorem record {r : Record α} (h : r.Whole) : r.codec.Whole := fun x =>
  Json.whole_object_iff.2 (h x)

end Codec.Whole

namespace Record.Whole

variable {a : Record α} {b : Record β} {c : Codec α} {name : String}

theorem required (h : c.Whole) : (Record.required name c).Whole := fun x =>
  List.forall_mem_singleton.2 (h x)

theorem optional (h : c.Whole) : (Record.optional name c).Whole
  | none => nofun
  | some x => List.forall_mem_singleton.2 (h x)

theorem sparse {isEmpty : α → Bool} {empty : α} (h : c.Whole) :
    (Record.sparse name c isEmpty empty).Whole := by
  intro x field hfield
  simp only [Record.sparse] at hfield
  split at hfield
  · cases hfield
  · cases List.mem_singleton.1 hfield
    exact h x

/-- What two records write has the numbers of the one and of the other. -/
theorem pair (ha : a.Whole) (hb : b.Whole) : (Record.pair a b).Whole := fun x =>
  List.forall_mem_append.2 ⟨ha x.1, hb x.2⟩

theorem iso {pack : α → β} {unpack : β → α} (h : a.Whole) : (Record.iso pack unpack a).Whole :=
  fun y => h (unpack y)

end Record.Whole

namespace Operation

open Codec.Whole Record.Whole in
/-- The numbers of a request are integers that fit a word: one rule for each way in which codecs are
put together, down to texts, words and items. -/
theorem requestCodec_whole (op : Operation) : op.requestCodec.Whole := by
  cases op <;> repeat' first
    | exact text | exact bool | exact int32 | exact item | exact value | exact labels
    | apply record | apply iso | apply pair | apply required | apply Record.Whole.optional
    | apply sparse | apply list | apply keyed

/-- **The text of a request reads back as the request**: as what is written for it, with the fields
of every object in the order of their names. -/
theorem ofText?_requestText (op : Operation) (request : op.Request) :
    Json.ofText? (op.requestText request) = some (op.requestCodec.encode request).sorted :=
  Json.ofText?_compact (op.requestCodec_whole request)

end Operation

end ItemStore
