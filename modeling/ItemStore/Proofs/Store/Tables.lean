import Mathlib.Data.List.Permutation
import ItemStore.Proofs.Lists
import ItemStore.Store.Pages

/-!
# Tables that scans page through

A scan reads a table or a segment of it from a key on.  `Table` is what a scan can see of a table:
the items of a part that come behind a key, where the segments of a table have all of its items
together.  A provider `PagesThrough` a table if its pages are what matches among the next items, and
the keys that it reports are those behind which the other items come.

* `PagesThrough.split` and `PagesThrough.length_le` are all that is needed of such a page.
* `rowPager_pagesThrough` is a provider that keeps rows in order, with keys that count rows, and
  `skewPager_pagesThrough` one that keeps all of them in the first segment.
-/

namespace ItemStore

/-! ## Tables -/

/-- A table as scans read it: a part of it is one of several segments, or all of it. -/
structure Table where
  /-- The items of a part that come behind a key, in the order of a scan. -/
  behind : (segment total : Option Int32) → (key : Item) → List Item
  /-- However many segments a table is divided into, they have its items together. -/
  divided : ∀ n, 1 ≤ n → n < twoTo 31 →
    ((List.range n).flatMap fun i =>
      behind (some (.ofNat i)) (some (.ofNat n)) .empty).Perm (behind none none .empty)

namespace Table

variable (table : Table)

/-- What is left of a part behind the key that was reported for it; without a key nothing is. -/
def left (segment total : Option Int32) : Option Item → List Item
  | some key => table.behind segment total key
  | none => []

/-- What a scan is to read: the items of its part behind its start key. -/
def ahead (request : ScanRequest) : List Item :=
  table.behind request.segment request.totalSegments request.startKey

/-- What is left for a scan behind a key that was reported to it. -/
def leftFor (request : ScanRequest) (key : Option Item) : List Item :=
  table.left request.segment request.totalSegments key

end Table

/-- The same scan, of the whole table and without a size. -/
def ScanRequest.whole (request : ScanRequest) : ScanRequest :=
  { request with limit := none, startKey := .empty, segment := none, totalSegments := none }

/-- What matches for a scan among the items that it is to read. -/
def Table.matching (table : Table) (pick : ScanRequest → Item → Option Item)
    (request : ScanRequest) : List Item :=
  (table.ahead request).filterMap (pick request.whole)

/-! ## Providers -/

/-- A provider pages through a table.  It looks at some of the items that a scan is to read, at the
first ones and at no more than the scan allows, and answers with what matches among them; and it
reports a key behind which the others come, if there are any.  `pick` is what a scan returns for an
item, if the item matches. -/
def Provider.PagesThrough {σ : Type} (provider : Provider σ) (table : Table)
    (pick : ScanRequest → Item → Option Item) : Prop :=
  ∀ (request : ScanRequest) (state : σ) (page : Page),
    (provider .scan request state).1.outcome = .ok page →
    ∃ n, (∀ limit, request.limit = some limit → n ≤ limit.toInt.toNat) ∧
      page.items = ((table.ahead request).take n).filterMap (pick request.whole) ∧
      table.leftFor request page.next? = (table.ahead request).drop n

section PagesThrough

variable {σ : Type} {provider : Provider σ} {table : Table}
  {pick : ScanRequest → Item → Option Item} {request : ScanRequest} {state : σ} {page : Page}

/-- What a page has and what matches behind its key are what matches for the scan. -/
theorem Provider.PagesThrough.split (h : provider.PagesThrough table pick)
    (hpage : (provider .scan request state).1.outcome = .ok page) :
    page.items ++ (table.leftFor request page.next?).filterMap (pick request.whole) =
      (table.ahead request).filterMap (pick request.whole) := by
  obtain ⟨n, -, hitems, hleft⟩ := h request state page hpage
  rw [hitems, hleft, ← List.filterMap_append, List.take_append_drop]

/-- A page has no more items than the scan allows to be looked at. -/
theorem Provider.PagesThrough.length_le (h : provider.PagesThrough table pick)
    (hpage : (provider .scan request state).1.outcome = .ok page) {limit : Int32}
    (hlimit : request.limit = some limit) : page.items.length ≤ limit.toInt.toNat := by
  obtain ⟨n, hn, hitems, -⟩ := h request state page hpage
  have hlength : page.items.length ≤ n := by
    rw [hitems]
    exact (List.length_filterMap_le ..).trans (List.length_take_le ..)
  exact hlength.trans (hn limit hlimit)

end PagesThrough

/-! ## Rows in order -/

section Rows

variable (rows : List Item)

/-- The rows of a part: every `total`-th row belongs to the same segment. -/
def rowsOf : (segment total : Option Int32) → List Item
  | some i, some n =>
    (rows.zipIdx.filter fun e => e.2 % n.toInt.toNat == i.toInt.toNat).map Prod.fst
  | _, _ => rows

/-- A key that counts rows. -/
def rowKey (n : Nat) : Item := .singleton "row" (.list (List.replicate n (.null true)))

/-- How many rows a key counts. -/
def rowCount (key : Item) : Nat :=
  match key.get? "row" with
  | some (.list elements) => elements.length
  | _ => 0

/-- A key of a row tells how many rows were read before it. -/
theorem rowCount_rowKey (n : Nat) : rowCount (rowKey n) = n := by
  have hget : (rowKey n).get? "row" = some (.list (List.replicate n (.null true))) := by
    rw [rowKey, Keyed.singleton, Keyed.get?_insert, if_pos rfl]
  rw [rowCount, hget]
  exact List.length_replicate

theorem toNat_toInt_ofNat {n : Nat} (h : n < twoTo 31) : (Int32.ofNat n).toInt.toNat = n := by
  rw [Int32.toInt_ofNat_of_lt h, Int.toNat_natCast]

/-- The rows of all segments together are all rows. -/
theorem rowsOf_perm {n : Nat} (hpos : 1 ≤ n) (h : n < twoTo 31) :
    ((List.range n).flatMap fun i => rowsOf rows (some (.ofNat i)) (some (.ofNat n))).Perm
      rows := by
  have hparts : ((List.range n).flatMap fun i => rowsOf rows (some (.ofNat i)) (some (.ofNat n))) =
      ((List.range n).flatMap fun i => rows.zipIdx.filter fun e => e.2 % n = i).map Prod.fst := by
    rw [List.map_flatMap]
    refine List.flatMap_congr fun i hi => ?_
    have hlt : i < twoTo 31 := (List.mem_range.1 hi).trans h
    simp only [rowsOf, toNat_toInt_ofNat h, toNat_toInt_ofNat hlt, beq_eq_decide]
  have hperm := flatMap_filter_perm (fun e : Item × Nat => e.2 % n) List.nodup_range
    (l := rows.zipIdx) fun e _ => List.mem_range.2 (Nat.mod_lt _ hpos)
  rw [hparts]
  simpa using hperm.map Prod.fst

/-- Rows as a table. -/
def rowTable : Table where
  behind segment total key := (rowsOf rows segment total).drop (rowCount key)
  divided := by
    intro n hpos hn
    exact rowsOf_perm rows hpos hn

/-- How many rows a page holds at most. -/
def rowSize (request : ScanRequest) : Nat :=
  (request.limit.map fun limit => limit.toInt.toNat).getD ((rowTable rows).ahead request).length

/-- The page that a scan of rows gets. -/
def rowPage (request : ScanRequest) : Page :=
  let ahead := (rowTable rows).ahead request
  let n := rowSize rows request
  { items := ahead.take n
    count := .ofNat (ahead.take n).length
    scannedCount := .ofNat (ahead.take n).length
    lastKey := if (ahead.drop n).isEmpty then .empty else rowKey (rowCount request.startKey + n) }

/-- A provider that keeps rows. -/
def rowPager : Provider Unit
  | .scan, request, s => ({ outcome := .ok (rowPage rows request) }, s)
  | _, _, s => ({ outcome := .error (.transport "off") }, s)

theorem rowPager_pagesThrough : (rowPager rows).PagesThrough (rowTable rows) fun _ => some := by
  intro request state page hpage
  have hrows : rowPage rows request = page := Except.ok.inj hpage
  subst hrows
  refine ⟨rowSize rows request, ?_, ?_, ?_⟩
  · intro limit hlimit
    simp [rowSize, hlimit]
  · simp [rowPage]
  · -- the key is empty only when no row is left
    by_cases hlast : (((rowTable rows).ahead request).drop (rowSize rows request)).isEmpty
    · have hnext : (rowPage rows request).next? = none := by
        simp only [rowPage, Page.next?, hlast, if_true]
        rfl
      rw [hnext, List.isEmpty_iff.1 hlast]
      rfl
    · have hnext : (rowPage rows request).next? =
          some (rowKey (rowCount request.startKey + rowSize rows request)) := by
        simp only [rowPage, Page.next?, hlast]
        rfl
      rw [hnext]
      show (rowsOf rows _ _).drop (rowCount (rowKey _)) = ((rowsOf rows _ _).drop _).drop _
      rw [rowCount_rowKey, List.drop_drop]

end Rows

/-- A provider that answers every scan with a page, whatever its state. -/
def scanPager (page : ScanRequest → Page) : Provider Unit
  | .scan, request, s => ({ outcome := .ok (page request) }, s)
  | _, _, s => ({ outcome := .error (.transport "off") }, s)

/-! ## Rows in one segment -/

section Skew

variable (rows : List Item)

/-- Rows as a table whose first segment has all of them. -/
def skewTable : Table where
  behind segment _ key :=
    if segment = none ∨ segment = some 0 then rows.drop (rowCount key) else []
  divided := by
    intro n hpos hn
    obtain ⟨n, rfl⟩ : ∃ m, n = m + 1 := ⟨n - 1, by omega⟩
    have hothers : ∀ i ∈ List.range n, some (Int32.ofNat (i + 1)) ≠ some 0 := by
      intro i hi hzero
      have hlt := List.mem_range.1 hi
      have hvalue := congrArg (fun k => k.toInt.toNat) (Option.some.inj hzero)
      simp only [toNat_toInt_ofNat (show i + 1 < twoTo 31 by omega)] at hvalue
      exact absurd hvalue (Nat.succ_ne_zero i)
    rw [List.range_succ_eq_map, List.flatMap_cons, List.flatMap_map]
    have hrest : ((List.range n).flatMap fun i =>
        if some (Int32.ofNat i.succ) = none ∨ some (Int32.ofNat i.succ) = some 0 then
          rows.drop (rowCount .empty) else []) = [] := by
      refine List.flatMap_eq_nil_iff.2 fun i hi => if_neg ?_
      rintro (h | h)
      · cases h
      · exact hothers i hi h
    rw [hrest, List.append_nil]
    exact .refl _

/-- The page that a scan of such a table gets. -/
def skewPage (request : ScanRequest) : Page :=
  if request.segment = none ∨ request.segment = some 0 then
    rowPage rows { request with segment := none, totalSegments := none }
  else {}

/-- Rows that are all in one segment are served page by page too. -/
theorem skewPager_pagesThrough :
    (scanPager (skewPage rows)).PagesThrough (skewTable rows) fun _ => some := by
  intro request state page hpage
  have hrows : skewPage rows request = page := Except.ok.inj hpage
  subst hrows
  by_cases hfirst : request.segment = none ∨ request.segment = some 0
  · obtain ⟨n, hlimit, hitems, hleft⟩ := rowPager_pagesThrough rows
      { request with segment := none, totalSegments := none } state _ rfl
    have hpage : skewPage rows request =
        rowPage rows { request with segment := none, totalSegments := none } := if_pos hfirst
    have hahead : (skewTable rows).ahead request =
        (rowTable rows).ahead { request with segment := none, totalSegments := none } :=
      if_pos hfirst
    have hbehind : ∀ key, (skewTable rows).leftFor request key = (rowTable rows).leftFor
        { request with segment := none, totalSegments := none } key := by
      intro key
      cases key with
      | none => rfl
      | some key => exact if_pos hfirst
    rw [hpage, hahead, hbehind]
    exact ⟨n, hlimit, hitems, hleft⟩
  · have hpage : skewPage rows request = {} := if_neg hfirst
    have hahead : (skewTable rows).ahead request = [] := if_neg hfirst
    rw [hpage, hahead]
    exact ⟨0, fun _ _ => Nat.zero_le _, rfl, rfl⟩

end Skew
end ItemStore
