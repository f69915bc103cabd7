import Mathlib.Algebra.BigOperators.Group.List.Basic
import ItemStore.Proofs.Lists
import ItemStore.Wire.Capacity

/-!
# Capacity is summed by table

Readings of consumed capacity are merged into a list of sums, one for each table.  A reading has
units in fields of its own and in the fields of its parts, which are the table itself and the
indexes; here a field is looked up by its name (`units`) and a part by what it is (`part?`), so that
one law says of all of them what a sum is.

Units are of any type with a sum that has a zero and does not depend on how it is grouped.  The
doubles on the wire come close to that.

* `SumOf` says what the sum of readings is, field by field and part by part, and `SumsByTable` what
  the sums of a list of readings are; merging one more reading keeps it (`SumsByTable.mergeInto`).
* `absorb_assoc` and `mergeAll_mergeInto`: merging commutes with the grouping of readings, where
  what is merged is itself a list of sums.
* `capacity_summed_by_table` has both for whole lists of readings.
-/

namespace ItemStore

/-! ## Fields and parts -/

/-- A field with units. -/
inductive CapacityField where
  | read
  | write
  | total
deriving DecidableEq, Repr

/-- A part of a reading that has fields of its own. -/
inductive CapacityPart where
  /-- The table itself. -/
  | base
  /-- A local index. -/
  | localIndex (name : String)
  /-- A global index. -/
  | globalIndex (name : String)
deriving DecidableEq, Repr

section Parts

variable {U : Type}

/-- The units in a field. -/
def Capacity.units (c : Capacity U) : CapacityField → Option U
  | .read => c.read
  | .write => c.write
  | .total => c.total

/-- The units in a field of the whole reading. -/
def ConsumedCapacity.units (c : ConsumedCapacity U) : CapacityField → Option U
  | .read => c.read
  | .write => c.write
  | .total => c.total

/-- A part of a reading, if it is there. -/
def ConsumedCapacity.part? (c : ConsumedCapacity U) : CapacityPart → Option (Capacity U)
  | .base => c.base
  | .localIndex name => c.localIndexes.get? name
  | .globalIndex name => c.globalIndexes.get? name

theorem Capacity.units_empty (f : CapacityField) : ({} : Capacity U).units f = none := by
  cases f <;> rfl

theorem Capacity.ext_units {a b : Capacity U} (h : ∀ f, a.units f = b.units f) : a = b := by
  obtain ⟨_, _, _⟩ := a
  obtain ⟨_, _, _⟩ := b
  cases h .read
  cases h .write
  cases h .total
  rfl

theorem ConsumedCapacity.ext_units {a b : ConsumedCapacity U} (htable : a.table = b.table)
    (hunits : ∀ f, a.units f = b.units f) (hparts : ∀ p, a.part? p = b.part? p) : a = b := by
  have hlocal : a.localIndexes = b.localIndexes :=
    Keyed.ext_get? fun name => hparts (.localIndex name)
  have hglobal : a.globalIndexes = b.globalIndexes :=
    Keyed.ext_get? fun name => hparts (.globalIndex name)
  obtain ⟨_, _, _, _, _, _, _⟩ := a
  obtain ⟨_, _, _, _, _, _, _⟩ := b
  cases htable
  cases hunits .read
  cases hunits .write
  cases hunits .total
  cases hparts .base
  cases hlocal
  cases hglobal
  rfl

end Parts

/-! ## Adding readings -/

section Adding

variable {U : Type} [AddMonoid U]

/-- The sum of the units that are there; nothing, if none are. -/
def sumPresent (units : List (Option U)) : Option U :=
  match units.filterMap id with
  | [] => none
  | present => some present.sum

theorem sumPresent_singleton (units : Option U) : sumPresent [units] = units := by
  cases units <;> simp [sumPresent]

/-- Units that come behind others are added to their sum. -/
theorem sumPresent_concat (units : List (Option U)) (more : Option U) :
    sumPresent (units ++ [more]) = addUnits (sumPresent units) more := by
  cases more with
  | none => simp [sumPresent, addUnits]
  | some u =>
    unfold sumPresent addUnits
    rw [List.filterMap_append]
    cases units.filterMap id with
    | nil => simp
    | cons first rest => simp [add_assoc]

theorem none_addUnits (units : Option U) : addUnits none units = units := by
  cases units <;> simp [addUnits]

theorem addUnits_assoc (a b c : Option U) :
    addUnits (addUnits a b) c = addUnits a (addUnits b c) := by
  cases c with
  | none => rfl
  | some z =>
    cases b with
    | none => simp [addUnits]
    | some y => simp [addUnits, add_assoc]

namespace Capacity

theorem units_absorb (c more : Capacity U) (f : CapacityField) :
    (c.absorb more).units f = addUnits (c.units f) (more.units f) := by
  cases f <;> rfl

theorem absorb_assoc (a b c : Capacity U) : (a.absorb b).absorb c = a.absorb (b.absorb c) :=
  ext_units fun f => by simp only [units_absorb, addUnits_assoc]

theorem empty_absorb (c : Capacity U) : ({} : Capacity U).absorb c = c :=
  ext_units fun f => by rw [units_absorb, units_empty, none_addUnits]

end Capacity

namespace ConsumedCapacity

theorem units_absorb (c more : ConsumedCapacity U) (f : CapacityField) :
    (c.absorb more).units f = addUnits (c.units f) (more.units f) := by
  cases f <;> rfl

/-- The sums of the readings of indexes are the sums index by index. -/
theorem get?_absorbIndexes (c more : Keyed (Capacity U)) (name : String) :
    (absorbIndexes c more).get? name = absorbBase (c.get? name) (more.get? name) := by
  have hfold : ∀ (es : List (String × Capacity U)) (c : Keyed (Capacity U)),
      (es.map (·.1)).Nodup →
      (es.foldl (fun acc e => acc.alter e.1 fun old => (old.getD {}).absorb e.2) c).get? name =
        absorbBase (c.get? name) (es.lookup name) := by
    intro es
    induction es with
    | nil => intro c _; rfl
    | cons e es ih =>
      intro c hes
      obtain ⟨hfirst, hrest⟩ := List.nodup_cons.1 hes
      rw [List.foldl_cons, ih _ hrest, Keyed.alter, Keyed.get?_insert, List.lookup_cons]
      by_cases hname : name = e.1
      · subst hname
        rw [if_pos rfl, Keyed.lookup_eq_none_of_not_mem hfirst]
        simp [absorbBase]
      · have hne : (name == e.1) = false := by simp [hname]
        rw [if_neg hname, hne]
  exact hfold more.entries c more.nodup_keys

theorem part?_absorb (c more : ConsumedCapacity U) (p : CapacityPart) :
    (c.absorb more).part? p = absorbBase (c.part? p) (more.part? p) := by
  cases p with
  | base => rfl
  | localIndex name => exact get?_absorbIndexes ..
  | globalIndex name => exact get?_absorbIndexes ..

theorem isSome_absorbBase (c more : Option (Capacity U)) :
    (absorbBase c more).isSome = (c.isSome || more.isSome) := by
  cases c <;> cases more <;> rfl

/-- A part that is missing counts like one without any units. -/
theorem units_absorbBase (c more : Option (Capacity U)) (f : CapacityField) :
    (absorbBase c more).bind (·.units f) =
      addUnits (c.bind (·.units f)) (more.bind (·.units f)) := by
  cases more with
  | none => rfl
  | some reading =>
    cases c with
    | none =>
      show (({} : Capacity U).absorb reading).units f = addUnits none (reading.units f)
      rw [Capacity.empty_absorb, none_addUnits]
    | some sum => exact Capacity.units_absorb sum reading f

theorem absorbBase_assoc (a b c : Option (Capacity U)) :
    absorbBase (absorbBase a b) c = absorbBase a (absorbBase b c) := by
  cases c with
  | none => rfl
  | some z =>
    cases b with
    | none => simp [absorbBase, Capacity.empty_absorb]
    | some y => simp [absorbBase, Capacity.absorb_assoc]

theorem absorb_assoc (a b c : ConsumedCapacity U) :
    (a.absorb b).absorb c = a.absorb (b.absorb c) := by
  refine ext_units rfl (fun f => ?_) fun p => ?_
  · simp only [units_absorb, addUnits_assoc]
  · simp only [part?_absorb, absorbBase_assoc]

end ConsumedCapacity

/-! ## Sums -/

/-- A reading is the sum of readings: field by field, and part by part.  It has the parts that any
of them has. -/
structure ConsumedCapacity.SumOf (readings : List (ConsumedCapacity U))
    (sum : ConsumedCapacity U) : Prop where
  /-- The units of the whole readings. -/
  units : ∀ f, sum.units f = sumPresent (readings.map fun r => r.units f)
  /-- No part is lost and none comes from nowhere. -/
  parts : ∀ p, (sum.part? p).isSome = readings.any fun r => (r.part? p).isSome
  /-- The units of the parts. -/
  partUnits : ∀ p f, (sum.part? p).bind (·.units f) =
    sumPresent (readings.map fun r => (r.part? p).bind (·.units f))

/-- Sums of readings by table: one for each table, in the order in which the tables come first, and
each the sum of the readings of its table.  Readings that name no table are together, too. -/
structure ConsumedCapacity.SumsByTable (readings sums : List (ConsumedCapacity U)) : Prop where
  /-- The tables. -/
  tables : sums.map table = (readings.map table).eraseDups
  /-- The sums. -/
  sums : ∀ sum ∈ sums, SumOf (readings.filter fun r => r.table = sum.table) sum

namespace ConsumedCapacity

variable {readings sums : List (ConsumedCapacity U)} {r sum : ConsumedCapacity U}

theorem sumOf_singleton (r : ConsumedCapacity U) : SumOf [r] r where
  units _ := (sumPresent_singleton _).symm
  parts _ := by simp
  partUnits _ _ := (sumPresent_singleton _).symm

theorem SumOf.absorb (h : SumOf readings sum) (r : ConsumedCapacity U) :
    SumOf (readings ++ [r]) (sum.absorb r) where
  units f := by
    rw [units_absorb, h.units, List.map_append, List.map_singleton, sumPresent_concat]
  parts p := by
    rw [part?_absorb, isSome_absorbBase, h.parts, List.any_append, List.any_cons, List.any_nil,
      Bool.or_false]
  partUnits p f := by
    rw [part?_absorb, units_absorbBase, h.partUnits, List.map_append, List.map_singleton,
      sumPresent_concat]

/-! ## Merging a reading -/

/-- A table that has no sum so far gets one at the end. -/
theorem tables_mergeInto (sums : List (ConsumedCapacity U)) (r : ConsumedCapacity U) :
    (mergeInto sums r).map table =
      if r.table ∈ sums.map table then sums.map table else sums.map table ++ [r.table] := by
  induction sums with
  | nil => simp [mergeInto]
  | cons first rest ih =>
    rw [mergeInto]
    split
    · rename_i hfirst
      rw [if_pos (by simp [hfirst])]
      rfl
    · rename_i hfirst
      have hmem : r.table ∈ (first :: rest).map table ↔ r.table ∈ rest.map table := by
        simp [Ne.symm hfirst]
      simp only [hmem]
      rw [List.map_cons, ih]
      split <;> rfl

/-- What a reading is merged into: a sum of another table is as it was, that of its table has the
reading added, and a new sum is the reading itself. -/
theorem of_mem_mergeInto (hsums : (sums.map table).Nodup) (h : sum ∈ mergeInto sums r) :
    (sum ∈ sums ∧ sum.table ≠ r.table) ∨
      (∃ old ∈ sums, old.table = r.table ∧ sum = old.absorb r) ∨
      (r.table ∉ sums.map table ∧ sum = r) := by
  induction sums with
  | nil => exact .inr (.inr ⟨by simp, List.mem_singleton.1 h⟩)
  | cons first rest ih =>
    obtain ⟨hapart, hrest⟩ := List.nodup_cons.1 hsums
    rw [mergeInto] at h
    split at h
    · rename_i hfirst
      rcases List.mem_cons.1 h with rfl | h
      · exact .inr (.inl ⟨first, List.mem_cons_self .., hfirst, rfl⟩)
      · refine .inl ⟨List.mem_cons_of_mem _ h, fun hsum => hapart ?_⟩
        rw [hfirst, ← hsum]
        exact List.mem_map_of_mem h
    · rename_i hfirst
      rcases List.mem_cons.1 h with rfl | h
      · exact .inl ⟨List.mem_cons_self .., hfirst⟩
      · rcases ih hrest h with ⟨hmem, hne⟩ | ⟨old, hold, htable, rfl⟩ | ⟨hnew, rfl⟩
        · exact .inl ⟨List.mem_cons_of_mem _ hmem, hne⟩
        · exact .inr (.inl ⟨old, List.mem_cons_of_mem _ hold, htable, rfl⟩)
        · refine .inr (.inr ⟨?_, rfl⟩)
          rw [List.map_cons, List.mem_cons, not_or]
          exact ⟨Ne.symm hfirst, hnew⟩

theorem sumsByTable_nil : SumsByTable ([] : List (ConsumedCapacity U)) [] where
  tables := rfl
  sums := by simp

theorem SumsByTable.nodup (h : SumsByTable readings sums) : (sums.map table).Nodup := by
  rw [h.tables]
  exact nodup_eraseDups _

/-- Merging one more reading keeps the sums. -/
theorem SumsByTable.mergeInto (h : SumsByTable readings sums) (r : ConsumedCapacity U) :
    SumsByTable (readings ++ [r]) (mergeInto sums r) where
  tables := by
    rw [tables_mergeInto, List.map_append, List.map_singleton, eraseDups_concat, h.tables]
    simp only [List.mem_eraseDups]
  sums := by
    intro sum hsum
    rw [List.filter_append]
    rcases of_mem_mergeInto h.nodup hsum with ⟨hmem, hne⟩ | ⟨old, hold, htable, rfl⟩ | ⟨hnew, rfl⟩
    · have hnone : [r].filter (fun r => r.table = sum.table) = [] := by simp [Ne.symm hne]
      rw [hnone, List.append_nil]
      exact h.sums sum hmem
    · have hsum : (old.absorb r).table = r.table := htable
      have hone : [r].filter (fun r' => r'.table = (old.absorb r).table) = [r] := by simp [hsum]
      rw [hone]
      exact (h.sums old hold).absorb r
    · have hnone : readings.filter (fun r => r.table = sum.table) = [] := by
        rw [h.tables, List.mem_eraseDups] at hnew
        simpa [List.filter_eq_nil_iff] using hnew
      have hone : [sum].filter (fun r => r.table = sum.table) = [sum] := by simp
      rw [hnone, hone]
      exact sumOf_singleton sum

/-- Merging readings one by one brings their sums.  The induction is on the readings, from the
end. -/
theorem sumsByTable_mergeAll (readings : List (ConsumedCapacity U)) :
    SumsByTable readings (mergeAll [] readings) := by
  induction readings using List.reverseRecOn with
  | nil => exact sumsByTable_nil
  | append_singleton readings r ih =>
    rw [mergeAll, List.foldl_concat]
    exact ih.mergeInto r

/-! ## Merging sums -/

section Grouping

variable (sums)

/-- A sum of two readings is merged like the one and then the other. -/
theorem mergeInto_absorb {a b : ConsumedCapacity U} (h : a.table = b.table) :
    mergeInto sums (a.absorb b) = mergeInto (mergeInto sums a) b := by
  have htable : (a.absorb b).table = a.table := rfl
  induction sums with
  | nil => simp [mergeInto, h]
  | cons first rest ih =>
    by_cases hfirst : first.table = a.table
    · have hsum : (first.absorb a).table = b.table := hfirst.trans h
      rw [mergeInto, mergeInto, htable, if_pos hfirst, if_pos hfirst, mergeInto, if_pos hsum,
        absorb_assoc]
    · rw [mergeInto, mergeInto, htable, if_neg hfirst, if_neg hfirst, mergeInto,
        if_neg (h ▸ hfirst), ih]

/-- Readings of two tables may change places, if the first of them has a sum already. -/
theorem mergeInto_comm {a b : ConsumedCapacity U} (hne : a.table ≠ b.table)
    (ha : a.table ∈ sums.map table) :
    mergeInto (mergeInto sums a) b = mergeInto (mergeInto sums b) a := by
  induction sums with
  | nil => cases ha
  | cons first rest ih =>
    by_cases hfirst : first.table = a.table
    · have hsum : (first.absorb a).table = a.table := hfirst
      have hother : first.table ≠ b.table := fun hb => hne (hfirst.symm.trans hb)
      rw [mergeInto, if_pos hfirst, mergeInto, if_neg (hsum ▸ hne), mergeInto, if_neg hother,
        mergeInto, if_pos hfirst]
    · have hrest : a.table ∈ rest.map table := by
        simpa [Ne.symm hfirst] using ha
      rw [mergeInto, if_neg hfirst]
      by_cases hother : first.table = b.table
      · have hsum : (first.absorb b).table ≠ a.table := hfirst
        rw [mergeInto, if_pos hother, mergeInto, if_pos hother, mergeInto, if_neg hsum]
      · rw [mergeInto, if_neg hother, mergeInto, if_neg hother, mergeInto, if_neg hfirst, ih hrest]

/-- A reading may be merged before others, if its table has a sum already and none of the others is
of its table. -/
theorem mergeAll_mergeInto_comm {r : ConsumedCapacity U} {others : List (ConsumedCapacity U)}
    (hr : r.table ∈ sums.map table) (hothers : r.table ∉ others.map table) :
    mergeAll (mergeInto sums r) others = mergeInto (mergeAll sums others) r := by
  induction others generalizing sums with
  | nil => rfl
  | cons other others ih =>
    rw [List.map_cons, List.mem_cons, not_or] at hothers
    have hmem : r.table ∈ (mergeInto sums other).map table := by
      rw [tables_mergeInto]
      split
      · exact hr
      · exact List.mem_append_left _ hr
    rw [mergeAll, List.foldl_cons, mergeInto_comm sums hothers.1 hr]
    exact ih _ hmem hothers.2

/-- A reading that is merged into sums before these are merged may as well come behind them. -/
theorem mergeAll_mergeInto {part : List (ConsumedCapacity U)} (r : ConsumedCapacity U)
    (hpart : (part.map table).Nodup) :
    mergeAll sums (mergeInto part r) = mergeInto (mergeAll sums part) r := by
  induction part generalizing sums with
  | nil => rfl
  | cons first rest ih =>
    obtain ⟨hapart, hrest⟩ := List.nodup_cons.1 hpart
    rw [mergeInto]
    split
    · rename_i hfirst
      have hmem : r.table ∈ (mergeInto sums first).map table := by
        rw [tables_mergeInto, hfirst]
        split
        · assumption
        · exact List.mem_append_right _ (List.mem_singleton_self _)
      rw [mergeAll, List.foldl_cons, mergeInto_absorb sums hfirst]
      exact mergeAll_mergeInto_comm _ hmem (hfirst ▸ hapart)
    · exact ih _ hrest

/-- Readings may be merged before they are merged into sums.  The induction is on the readings, from
the end. -/
theorem mergeAll_mergeAll (readings : List (ConsumedCapacity U)) :
    mergeAll sums (mergeAll [] readings) = mergeAll sums readings := by
  induction readings using List.reverseRecOn with
  | nil => rfl
  | append_singleton readings r ih =>
    have hlast (acc : List (ConsumedCapacity U)) :
        mergeAll acc (readings ++ [r]) = mergeInto (mergeAll acc readings) r := List.foldl_concat ..
    rw [hlast, hlast, mergeAll_mergeInto sums r (sumsByTable_mergeAll readings).nodup, ih]

end Grouping

/-- **Consumed capacity is summed by table, however the readings are grouped.**

With units whose sum has a zero and does not depend on grouping, merging readings brings one sum for
each table, in the order in which the tables come first.  In it every field, of the whole reading
and of every part, is missing exactly if it is missing in all readings of the table, and is the sum
of those that are there otherwise; and it has every index that one of them has.  So readings that
are merged in groups first, page by page, segment by segment or chunk by chunk, and then the sums of
the groups in order, come to the same as all readings merged at once. -/
theorem capacity_summed_by_table (readings : List (ConsumedCapacity U)) :
    SumsByTable readings (mergeAll [] readings) ∧
    ∀ (sums : List (ConsumedCapacity U)) (groups : List (List (ConsumedCapacity U))),
      groups.foldl (fun sums group => mergeAll sums (mergeAll [] group)) sums =
        mergeAll sums groups.flatten := by
  refine ⟨sumsByTable_mergeAll readings, fun sums groups => ?_⟩
  induction groups generalizing sums with
  | nil => rfl
  | cons group groups ih =>
    rw [List.foldl_cons, ih, mergeAll_mergeAll, List.flatten_cons, mergeAll, mergeAll, mergeAll,
      List.foldl_append]

end ConsumedCapacity

end Adding

/-- Units that are missing in some readings of a table, and readings of another table in between. -/
example :
    let readings : List (ConsumedCapacity Nat) :=
      [{ table := "a", total := some 1 }, { table := "b", total := some 2 },
        { table := "a", read := some 3 }, { table := "a", total := some 4 }]
    (ConsumedCapacity.mergeAll [] readings).map (fun c => (c.table, c.total, c.read)) =
      [(some "a", some 5, some 3), (some "b", some 2, none)] := by
  decide

end ItemStore
