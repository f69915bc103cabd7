import ItemStore.Proofs.Store.Pages
import ItemStore.Proofs.Store.Tables

/-!
# Partitions that queries page through

A query reads the items of a partition from a key on.  `Partitions` is what queries can see: the
items that a query has behind a key, and what it returns for each of them.  A provider
`PagesQueries` if a page of a query is what matches among the next items, at least one of which was
looked at, and if it reports a key exactly when items are left, behind which these come.

* `PageOf.items_of_last` and `PageOf.items_of_more` are all that is needed of such a page.
* `run_send_page`: a provider that does not keep failing brings one for every query.
* `rowReader_pagesQueries` is a provider that keeps rows in order and looks at a few at a time.
-/

namespace ItemStore

/-! ## Partitions -/

/-- The same query, of all items and without a size. -/
def QueryRequest.whole (request : QueryRequest) : QueryRequest :=
  { request with limit := none, startKey := .empty }

/-- A query may look at one item at least. -/
def QueryRequest.Positive (request : QueryRequest) : Prop :=
  ∀ limit, request.limit = some limit → 1 ≤ limit.toInt

/-- What queries can see of the items that a provider has. -/
structure Partitions where
  /-- The items that a query has behind a key, in its order. -/
  behind : (whole : QueryRequest) → (key : Item) → List Item
  /-- What a query returns for an item, if the item matches. -/
  pick : (whole : QueryRequest) → Item → Option Item

namespace Partitions

variable (parts : Partitions) (request : QueryRequest)

/-- What a query is to read: its items behind its start key. -/
def ahead : List Item := parts.behind request.whole request.startKey

/-- What matches for a query among the items that it is to read. -/
def matching : List Item := (parts.ahead request).filterMap (parts.pick request.whole)

/-- A page of a query: what matches among the first `n` of the items that it is to read. -/
structure PageOf (n : Nat) (page : Page) : Prop where
  /-- One item at least is looked at, if there is any. -/
  progress : parts.ahead request ≠ [] → 1 ≤ n
  /-- No more items are looked at than the query allows. -/
  within : ∀ limit, request.limit = some limit → n ≤ limit.toInt.toNat
  /-- Those that match are returned, in their order. -/
  items : page.items = ((parts.ahead request).take n).filterMap (parts.pick request.whole)
  /-- There is a key exactly if items are left. -/
  last : page.next? = none ↔ (parts.ahead request).drop n = []
  /-- The items that are left come behind the key. -/
  left : ∀ key, page.next? = some key →
    parts.behind request.whole key = (parts.ahead request).drop n

namespace PageOf

variable {parts request} {n : Nat} {page : Page}

/-- A page has no more items than the query allows to be looked at. -/
theorem length_le (h : parts.PageOf request n page) {limit : Int32}
    (hlimit : request.limit = some limit) : page.items.length ≤ limit.toInt.toNat := by
  have hlength : page.items.length ≤ n := by
    rw [h.items]
    exact (List.length_filterMap_le ..).trans (List.length_take_le ..)
  exact hlength.trans (h.within limit hlimit)

/-- The last page has all that matches. -/
theorem items_of_last (h : parts.PageOf request n page) (hlast : page.next? = none) :
    page.items = parts.matching request := by
  have hall : (parts.ahead request).take n = parts.ahead request :=
    List.take_of_length_le (List.drop_eq_nil_iff.1 (h.last.1 hlast))
  rw [h.items, hall, matching]

/-- Any other page has what matches, but for what matches behind its key. -/
theorem items_of_more (h : parts.PageOf request n page) {key : Item}
    (hnext : page.next? = some key) :
    page.items ++ parts.matching { request with startKey := key } = parts.matching request := by
  have hahead : parts.ahead { request with startKey := key } = (parts.ahead request).drop n :=
    h.left key hnext
  have hmatching : parts.matching { request with startKey := key } =
      ((parts.ahead request).drop n).filterMap (parts.pick request.whole) := by
    rw [matching, hahead]
    rfl
  rw [h.items, hmatching, ← List.filterMap_append, List.take_append_drop, matching]

/-- Fewer items are left behind a key. -/
theorem length_ahead_lt (h : parts.PageOf request n page) {key : Item}
    (hnext : page.next? = some key) :
    (parts.ahead { request with startKey := key }).length < (parts.ahead request).length := by
  have hahead : parts.ahead { request with startKey := key } = (parts.ahead request).drop n :=
    h.left key hnext
  have hleft : (parts.ahead request).drop n ≠ [] := fun hnil => by
    rw [h.last.2 hnil] at hnext
    cases hnext
  have hlt : n < (parts.ahead request).length := Nat.lt_of_not_le fun hle =>
    hleft (List.drop_eq_nil_of_le hle)
  have hpos : 1 ≤ n := h.progress (List.ne_nil_of_length_pos (Nat.zero_lt_of_lt hlt))
  rw [hahead, List.length_drop]
  omega

end PageOf

end Partitions

/-! ## Providers -/

/-- A provider pages through partitions: what it answers to a query is a page of it. -/
def Provider.PagesQueries {σ : Type} (provider : Provider σ) (parts : Partitions) : Prop :=
  ∀ (request : QueryRequest) (state : σ) (page : Page), request.Positive →
    (provider .query request state).1.outcome = .ok page → ∃ n, parts.PageOf request n page

namespace Store

variable {σ : Type} {store : Store σ} {parts : Partitions}

/-- A provider does not keep failing: in every state it has a delivery for every query. -/
def AnsweringQueries (store : Store σ) : Prop :=
  ∀ (request : QueryRequest) (state : σ), request.Positive →
    ∃ d : Delivery .query, store.Delivers request state d

/-- Sending a query brings a page of it. -/
theorem run_send_page (hpages : store.provider.PagesQueries parts)
    (hanswering : store.AnsweringQueries) {request : QueryRequest} (hpos : request.Positive)
    (s : Session σ) : ∃ page n s', parts.PageOf request n page ∧
      s.run (store.send .query request) = (.ok page, s') := by
  rcases store.run_send_answered (show Operation.query.Request from request) s with
    ⟨hnone, -⟩ | ⟨page, s', hrun, state, hpage⟩
  · exact absurd (hanswering request s.state hpos) hnone
  · obtain ⟨n, hn⟩ := hpages request state page hpos hpage
    exact ⟨page, n, s', hn, hrun⟩

end Store

/-! ## Rows that are read -/

section Rows

variable (rows : List Item) (pick : QueryRequest → Item → Option Item) (size : Nat)

/-- Rows as a partition: keys count rows. -/
def rowParts : Partitions where
  behind _ key := rows.drop (rowCount key)
  pick := pick

/-- How many rows a query looks at: no more than `size`, and no more than it allows. -/
def readSize (request : QueryRequest) : Nat :=
  match request.limit with
  | some limit => min size limit.toInt.toNat
  | none => size

/-- The page that a query of rows gets. -/
def readPage (request : QueryRequest) : Page :=
  let ahead := (rowParts rows pick).ahead request
  let n := readSize size request
  let items := (ahead.take n).filterMap (pick request.whole)
  { items
    count := .ofNat items.length
    scannedCount := .ofNat (ahead.take n).length
    lastKey := if (ahead.drop n).isEmpty then .empty else rowKey (rowCount request.startKey + n) }

/-- A provider that keeps rows for queries. -/
def rowReader : Provider Unit
  | .query, request, s => ({ outcome := .ok (readPage rows pick size request) }, s)
  | _, _, s => ({ outcome := .error (.transport "off") }, s)

theorem next?_readPage (request : QueryRequest) : (readPage rows pick size request).next? =
    if ((rowParts rows pick).ahead request).drop (readSize size request) = [] then none
    else some (rowKey (rowCount request.startKey + readSize size request)) := by
  by_cases hlast : ((rowParts rows pick).ahead request).drop (readSize size request) = []
  · simp only [readPage, Page.next?, hlast, List.isEmpty_nil, if_true]
    rfl
  · have hmore : (((rowParts rows pick).ahead request).drop (readSize size request)).isEmpty =
        false := by simpa using hlast
    simp only [readPage, Page.next?, hmore, hlast]
    rfl

theorem rowReader_pagesQueries (hsize : 1 ≤ size) :
    (rowReader rows pick size).PagesQueries (rowParts rows pick) := by
  intro request state page hpos hpage
  have hread : readPage rows pick size request = page := Except.ok.inj hpage
  subst hread
  refine ⟨readSize size request, ?_, ?_, rfl, ?_, ?_⟩
  · intro _
    cases hlimit : request.limit with
    | none => simpa [readSize, hlimit] using hsize
    | some limit =>
      have hone := hpos limit hlimit
      simp only [readSize, hlimit]
      omega
  · intro limit hlimit
    simp only [readSize, hlimit]
    exact Nat.min_le_right ..
  · rw [next?_readPage]
    split
    · simp_all
    · simp_all
  · intro key hkey
    rw [next?_readPage] at hkey
    split at hkey
    · cases hkey
    · cases hkey
      show rows.drop (rowCount (rowKey _)) = (rows.drop _).drop _
      rw [rowCount_rowKey, List.drop_drop]

theorem rowReader_answering :
    (Store.new (rowReader rows pick size)).AnsweringQueries := by
  intro request state _
  exact ⟨⟨[], readPage rows pick size request⟩, by simp, Nat.le_max_left .., rfl⟩

end Rows

end ItemStore
