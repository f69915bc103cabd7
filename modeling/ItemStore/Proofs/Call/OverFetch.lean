import Mathlib.Algebra.Order.Ring.Int
import Mathlib.Tactic.Positivity
import ItemStore.Proofs.Call.Drains
import ItemStore.Proofs.Call.Faithful
import ItemStore.Proofs.Expression.Connectives

/-!
# How much a filtered scan asks for

A filter drops items, so a scan with a filter asks for more than it needs: five times as many for
every test that the filter combines.  The tests are counted in the text of the request; here their
number is that of the tree, and a size that no request can carry becomes the largest one.

* `Paging.toInt_overFetch`: the size is the product, cut off at the largest word.
* `Condition.boundTests_le`: the words of a filter with less than `2 ^ 31` connectives are counted
  in 32 bits.
* `Store.scan_over_fetches`: every request of a filtered scan carries the size for its filter.
-/

namespace ItemStore

/-! ## Sizes -/

/-- As much is asked for as the tests make of it, or as much as a request can carry. -/
theorem Paging.toInt_overFetch {limit : Int32} (h : 1 ≤ limit.toInt) (n : Nat) :
    (overFetch limit n).toInt = min (limit.toInt * 5 ^ n) (2 ^ 31 - 1) := by
  have hlargest : Int32.maxValue.toInt = 2 ^ 31 - 1 := by decide
  have hword : ((twoTo 31 : Nat) : Int) = 2 ^ 31 := by decide
  have hpow (m : Nat) : (5 : Int) ^ m ≤ limit.toInt * 5 ^ m :=
    le_mul_of_one_le_left (by positivity) h
  unfold overFetch
  split
  · rename_i hmany
    have hmost : (5 : Int) ^ 28 ≤ 5 ^ n := by
      exact_mod_cast Nat.pow_le_pow_right (by decide : 0 < 5) hmany
    have hlarge := hpow n
    rw [hlargest, min_eq_right (by omega)]
  · have hcast : ((Nat.pow 5 n : Nat) : Int) = 5 ^ n := Nat.cast_pow 5 n
    have hpos : (0 : Int) < 5 ^ n := by positivity
    have hlarge := hpow n
    simp only [hcast, hword, Bool.and_eq_true, decide_eq_true_eq]
    split
    · rename_i hfits
      rw [Int32.toInt_ofInt_of_le (by omega) hfits.2, min_eq_left (by omega)]
    · rw [hlargest, min_eq_right (by omega)]

namespace Condition

variable {P : Type}

mutual

/-- Tests for bounds are leaves of a tree, and a tree has one leaf more than connectives. -/
theorem boundTests_le : ∀ c : Condition P, c.boundTests ≤ c.connectives + 1
  | .all children => by
    have hparts := boundTestsAll_le children
    rw [boundTests, connectives, weigh, weigh]
    omega
  | .any children => by
    have hparts := boundTestsAll_le children
    rw [boundTests, connectives, weigh, weigh]
    omega
  | .not child => by
    have hchild := boundTests_le child
    rw [boundTests, connectives] at hchild ⊢
    rw [weigh, weigh]
    omega
  | .between _ _ _ => Nat.le_refl 1
  | .compare _ _ _ | .oneOf _ _ | .beginsWith _ _ | .contains _ _ | .present _ | .absent _
  | .hasKind _ _ => Nat.zero_le 1

theorem boundTestsAll_le : ∀ cs : List (Condition P),
    weighAll 0 0 0 1 cs ≤ weighAll 1 1 1 0 cs + cs.length
  | [] => Nat.le_refl 0
  | c :: rest => by
    have hhead := boundTests_le c
    have hrest := boundTestsAll_le rest
    rw [boundTests, connectives] at hhead
    rw [weighAll, weighAll, List.length_cons]
    omega

end

end Condition

/-! ## The requests of a filtered scan -/

/-- How many items a page of a scan in so many segments would look at without a filter: as many as
the caller says, and otherwise the share of a segment. -/
def Call.Scan.baseSize (c : Call.Scan) (segments : Nat) : Option Int32 :=
  c.paging.pageSize.or
    ((c.paging.limit.map fun limit => ceilDiv limit segments).map Paging.clamp)

/-- A request of a scan has a filter and asks for pages of a size. -/
def ScanRequest.Asks (filter : String) (size : Int) (r : ScanRequest) : Prop :=
  r.filter = some filter ∧ r.limit.map Int32.toInt = some size

/-- The filter of a compiled scan has the words of the tree that it was made from. -/
theorem Call.Scan.words_filter {c : Call.Scan} {f : Condition String} {request : ScanRequest}
    (hfilter : Condition.chain c.filters = some f) (hcompile : c.compile = .ok request) :
    ∃ text, request.filter = some text ∧
      Paging.countWords (fun w => w == "AND" || w == "OR" || w == "NOT") text =
        f.connectives + f.boundTests ∧
      Paging.countWords (fun w => w == "BETWEEN") text = f.boundTests ∧
      Paging.complexity text = 1 + f.connectives := by
  obtain ⟨p, hp, hrel⟩ := (List.forall₂_cons.1 (Call.Scan.faithful hcompile).renders).1
  obtain ⟨f', -, hparsed, rfl⟩ := hp.of_chain hfilter
  have hconnectives : f.connectives = f'.connectives :=
    Condition.weigh_of_parsedAs _ _ _ _ f hparsed
  have hbounds : f.boundTests = f'.boundTests := Condition.weigh_of_parsedAs _ _ _ _ f hparsed
  rw [hconnectives, hbounds]
  cases htext : request.filter with
  | none =>
    have hnone : Option.Rel _ request.filter _ := hrel
    rw [htext] at hnone
    cases hnone
  | some text =>
    have hsome : Option.Rel _ request.filter _ := hrel
    rw [htext] at hsome
    cases hsome with
    | some hsaid =>
      obtain ⟨hwords, hbetween⟩ := Condition.words_of_says hsaid
      exact ⟨text, rfl, hwords, hbetween, Condition.complexity_of_says hsaid⟩

namespace Store

variable {σ : Type}

/-- A scan sends only requests with what its first requests have in common and no start key
changes. -/
theorem scan_sends {P : ScanRequest → Prop} (store : Store σ) (budget : Nat) {c : Call.Scan}
    {request : ScanRequest} {segments : Nat} (hcompile : c.compile = .ok request)
    (hsegments : Paging.segmentCount (c.segments.getD store.config.scanSegments) c.paging.limit =
      segments)
    (hkeep : ∀ r key, P r → P (PageKind.scan.resume r key))
    (hP : ∀ r ∈ requestsFor (request.sized c.paging segments) segments, P r) (s : Session σ) :
    ∃ xs : List (Submission .scan), (s.run (store.scan budget c)).2.log =
        s.log ++ xs.flatMap Submission.attempts ∧ ∀ x ∈ xs, P x.request := by
  rw [scan, Session.run_lift_bind, hcompile]
  dsimp only
  by_cases hlimit : c.paging.limit = some 0
  · refine ⟨[], ?_, by simp⟩
    simp [runScan, hlimit]
  · obtain ⟨xss, result, f, s', hall, hrun, hlog⟩ :=
      store.run_runScan_drains hlimit hsegments budget request s
    exact ⟨xss.flatten, by rw [hrun, hlog], hall.requests hkeep hP⟩

/-- **A filtered scan asks for more by the connectives of its filter.**

The filter of a compiled scan is counted as its tree has it: it has a word for every connective, two
for every test for bounds, and no other of that kind, and with less than `2 ^ 31` connectives all of
them are counted in 32 bits.  Every request that the scan sends, for any page of any segment, then
asks for five times as many items as it would without a filter, five times that for every
connective, and no more than a request can carry. -/
theorem scan_over_fetches (store : Store σ) (budget : Nat) {c : Call.Scan}
    {f : Condition String} {request : ScanRequest} {segments : Nat} {base : Int32}
    (hfilter : Condition.chain c.filters = some f) (hcompile : c.compile = .ok request)
    (hsegments : Paging.segmentCount (c.segments.getD store.config.scanSegments) c.paging.limit =
      segments)
    (hbase : c.baseSize segments = some base) (hpos : 1 ≤ base.toInt) (s : Session σ) :
    ∃ text, request.filter = some text ∧
      Paging.countWords (fun w => w == "AND" || w == "OR" || w == "NOT") text =
        f.connectives + f.boundTests ∧
      Paging.countWords (fun w => w == "BETWEEN") text = f.boundTests ∧
      (f.connectives < 2 ^ 31 → f.connectives + f.boundTests < 2 ^ 32) ∧
      Paging.complexity text = 1 + f.connectives ∧
      ∃ xs : List (Submission .scan), (s.run (store.scan budget c)).2.log =
          s.log ++ xs.flatMap Submission.attempts ∧
        ∀ x ∈ xs, ScanRequest.Asks text
          (min (base.toInt * 5 ^ (1 + f.connectives)) (2 ^ 31 - 1)) x.request := by
  obtain ⟨text, htext, hwords, hbetween, hcomplexity⟩ := c.words_filter hfilter hcompile
  have hbounds : f.boundTests ≤ f.connectives + 1 := f.boundTests_le
  have hsized : (request.sized c.paging segments).limit.map Int32.toInt =
      some (min (base.toInt * 5 ^ (1 + f.connectives)) (2 ^ 31 - 1)) := by
    have hbase' : (c.paging.pageSize.or
        ((c.paging.limit.map fun limit => ceilDiv limit segments).map Paging.clamp)) = some base :=
      hbase
    simp only [ScanRequest.sized, hbase', htext, Option.map_some, hcomplexity,
      Paging.toInt_overFetch hpos]
  refine ⟨text, htext, hwords, hbetween, by omega, hcomplexity, store.scan_sends budget hcompile
    hsegments (fun _ _ h => h) (fun r hr => ?_) s⟩
  obtain ⟨hwhole, hlimit⟩ := of_mem_requestsFor _ _ hr
  exact ⟨(congrArg ScanRequest.filter hwhole).trans htext, by rw [hlimit, hsized]⟩

/-- A provider that has nothing to say. -/
def silent : Provider Unit := fun op _ state => ({ outcome := .ok op.emptyResponse }, state)

/-- A scan of two segments.  Attributes in its filter have the names of connectives. -/
def filteredScan : Call.Scan where
  table := "t"
  filters := [.not (.between (.path "AND") (.number "1") (.number "2")),
    .any [.present "OR", .oneOf (.size "a.NOT[7]") [.number "3", .number "4"],
      .between (.path "AND") (.number "1") (.number "5")]]
  paging := { limit := some 10 }
  segments := some 2

example :
    ({ filteredScan with filters := filteredScan.filters.take 1 } : Call.Scan).compile.toOption.bind
      ScanRequest.filter = some "NOT #n0 BETWEEN :v0 AND :v1" := by
  decide +kernel

theorem scan_over_fetches_filtered :
    ∃ f request, Condition.chain filteredScan.filters = some f ∧
      filteredScan.compile = .ok request ∧
      Paging.segmentCount (filteredScan.segments.getD (new silent).config.scanSegments)
        filteredScan.paging.limit = 2 ∧
      filteredScan.baseSize 2 = some 5 ∧ 1 ≤ (5 : Int32).toInt ∧
      f.connectives = 4 ∧ f.boundTests = 2 ∧
      ∃ text, request.filter = some text ∧ Paging.complexity text = 5 ∧
        ∃ xs : List (Submission .scan), xs ≠ [] ∧
          (({ state := () } : Session Unit).run ((new silent).scan 3 filteredScan)).2.log =
            xs.flatMap Submission.attempts ∧
          ∀ x ∈ xs, ScanRequest.Asks text 15625 x.request := by
  obtain ⟨request, hcompile⟩ := exists_eq_ok (x := filteredScan.compile) (by decide +kernel)
  have hsegments : Paging.segmentCount
      (filteredScan.segments.getD (new silent).config.scanSegments)
      filteredScan.paging.limit = 2 := by decide
  have hbase : filteredScan.baseSize 2 = some 5 := by decide
  obtain ⟨text, htext, -, -, -, hcomplexity, xs, hlog, hxs⟩ := (new silent).scan_over_fetches 3
    (f := .all [.not (.between (.path "AND") (.number "1") (.number "2")),
      .any [.present "OR", .oneOf (.size "a.NOT[7]") [.number "3", .number "4"],
        .between (.path "AND") (.number "1") (.number "5")]])
    rfl hcompile hsegments hbase (by decide) { state := () }
  have hsent : (({ state := () } : Session Unit).run
      ((new silent).scan 3 filteredScan)).2.log.length = 2 := by decide +kernel
  refine ⟨_, request, rfl, hcompile, hsegments, hbase, by decide, rfl, rfl, text, htext,
    hcomplexity, xs, ?_, hlog, hxs⟩
  rintro rfl
  rw [hlog] at hsent
  cases hsent

end Store

end ItemStore
