import ItemStore.Proofs.Wire.Codecs
import ItemStore.Wire.Exchange

/-!
# What is left out

A setting that is not given and a collection without entries are not written.  The property that is
followed through codecs and records is `Terse`, at one value: whatever field is written, the value
could not be read without it.  A field for an absent setting, or for a collection without entries,
could be dropped without being missed, since a missing field reads as just that; so none is written.

Some fields of responses are written whatever they hold (`filledFields`), and nothing is said of
those.  The laws stand beside those of `Codecs`, one for each way of putting records together.
-/

namespace ItemStore

variable {α β : Type}

/-- The fields that are always written although they may be missing on reading. -/
def filledFields : List String := ["Count", "ScannedCount", "Responses"]

/-- Among fields without the one of a name, nothing is found under that name. -/
theorem lookup_filter_name (fields : List (String × Json)) (name : String) :
    (fields.filter fun field => field.1 != name).lookup name = none :=
  Keyed.lookup_eq_none_of_not_mem (by simp)

/-- What is written for a value is an object, and the value is not read from the object without one
of its fields, those in `always` apart. -/
def Codec.Terse (always : List String) (c : Codec α) (x : α) : Prop :=
  ∃ fields : List (String × Json), c.encode x = .object fields ∧
    ∀ name ∈ fields.map Prod.fst, name ∉ always →
      c.decode (.object (fields.filter fun field => field.1 != name)) ≠ some x

/-- The value is not read from fields in which one that is written for it is missing, those in
`always` apart. -/
def Record.Terse (always : List String) (r : Record α) (x : α) : Prop :=
  ∀ field ∈ r.write x, field.1 ∉ always →
    ∀ fields : List (String × Json), fields.lookup field.1 = none → r.read fields ≠ some x

/-- An object is read without a field as the record is. -/
theorem Codec.Terse.record {always : List String} {r : Record α} {x : α}
    (h : r.Terse always x) : r.codec.Terse always x := by
  refine ⟨r.write x, rfl, fun name hname halways => ?_⟩
  obtain ⟨field, hfield, rfl⟩ := List.mem_map.1 hname
  exact h field hfield halways _ (lookup_filter_name _ _)

namespace Record

variable {always : List String} {a : Record α} {b : Record β} {c : Codec α} {name : String}

@[simp] theorem terse_required {x : α} : (Record.required name c).Terse always x := by
  intro field hfield _ fields hmissing
  cases List.mem_singleton.1 hfield
  show (fields.lookup name).bind c.decode ≠ some x
  rw [hmissing]
  exact nofun

/-- An optional field is written for a value, and without it none is read. -/
@[simp] theorem terse_optional {x? : Option α} : (Record.optional name c).Terse always x? := by
  intro field hfield _ fields hmissing
  cases x? with
  | none => cases hfield
  | some x =>
    cases List.mem_singleton.1 hfield
    simp only [Record.optional, hmissing]
    rintro ⟨⟩

/-- A sparse field is written for what is not empty, and without it the empty value is read. -/
theorem terse_sparse {isEmpty : α → Bool} {empty x : α} (hempty : isEmpty empty = true) :
    (Record.sparse name c isEmpty empty).Terse always x := by
  intro field hfield _ fields hmissing
  cases hx : isEmpty x with
  | true => simp [Record.sparse, hx] at hfield
  | false =>
    have hname : field = (name, c.encode x) := by simpa [Record.sparse, hx] using hfield
    subst hname
    simp only [Record.sparse, hmissing]
    rintro ⟨⟩
    rw [hempty] at hx
    cases hx

@[simp] theorem terse_sparseKeyed {xs : Keyed α} : (Record.sparseKeyed name c).Terse always xs :=
  terse_sparse rfl

@[simp] theorem terse_sparseItem {i : Item} : (Record.sparseItem name).Terse always i :=
  terse_sparse rfl

@[simp] theorem terse_sparseList {xs : List α} : (Record.sparseList name c).Terse always xs :=
  terse_sparse rfl

@[simp] theorem terse_filled {x missing : α} (h : name ∈ always) :
    (Record.filled name c missing).Terse always x := by
  intro field hfield halways
  cases List.mem_singleton.1 hfield
  exact absurd h halways

/-- A field that one of two records misses is missed by both. -/
theorem Terse.pair {x : α × β} (ha : a.Terse always x.1) (hb : b.Terse always x.2) :
    (Record.pair a b).Terse always x := by
  intro field hfield halways fields hmissing hread
  obtain ⟨y, hy, hread⟩ := Option.bind_eq_some_iff.1 hread
  obtain ⟨z, hz, heq⟩ := Option.bind_eq_some_iff.1 hread
  obtain rfl := Option.some.inj heq
  rcases List.mem_append.1 hfield with hfield | hfield
  · exact ha field hfield halways fields hmissing hy
  · exact hb field hfield halways fields hmissing hz

/-- If packing loses nothing, only the packed fields are read as the value. -/
theorem Terse.iso {pack : α → β} {unpack : β → α} {y : β}
    (hunpack : ∀ x, unpack (pack x) = x) (h : a.Terse always (unpack y)) :
    (Record.iso pack unpack a).Terse always y := by
  intro field hfield halways fields hmissing hread
  obtain ⟨x, hx, rfl⟩ := Option.map_eq_some_iff.1 hread
  rw [hunpack] at h
  refine h field ?_ halways fields hmissing hx
  simpa [hunpack] using hfield

end Record

section Parts

variable {always : List String}

@[simp] theorem namesRecord_terse {names : Keyed String} : namesRecord.Terse always names :=
  Record.terse_sparseKeyed

@[simp] theorem Bindings.terse {b : Bindings} : record.Terse always b :=
  .iso (fun _ => rfl) (.pair namesRecord_terse Record.terse_sparseKeyed)

@[simp] theorem WriteReturns.terse {r : WriteReturns} : record.Terse always r := by
  refine .iso (fun _ => rfl) ?_
  repeat' apply Record.Terse.pair
  all_goals simp

end Parts

namespace Operation

/-- Nothing of a request is written that reading could do without. -/
theorem request_terse {always : List String} (op : Operation) (request : op.Request) :
    op.requestCodec.Terse always request := by
  cases op <;> refine .record (.iso (fun _ => rfl) ?_) <;> repeat' apply Record.Terse.pair
  all_goals simp

/-- Of a response, only the fields that are always written may be missing on reading. -/
theorem response_terse (op : Operation) (response : op.Response) :
    op.responseCodec.Terse filledFields response := by
  cases op <;> refine .record (.iso (fun _ => rfl) ?_) <;> repeat' apply Record.Terse.pair
  all_goals simp [filledFields]

end Operation

end ItemStore
