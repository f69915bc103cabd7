import ItemStore.Error
import ItemStore.Proofs.Service.Bodies

/-!
# Failures that may pass

Whether another attempt is made after a failed response rests on two things: its status, and the
name of the error type in its body.  Where the name stands is said here by `ServiceCode.Names`, and
which names count by `ServiceCode.transientNames`.

* `ServiceCode.ofType_namespace`: a namespace in front of an error type means nothing.
* `ServiceCode.transient_ofType_iff`: the codes that may pass are those of the transient names.
* `StoreError.isRetryable_within`: the requests that an error is passed on under mean nothing.
* `StoreError.response_retried_iff` has these together, for every status and all bytes.
-/

namespace ItemStore

/-! ## The names of codes -/

namespace ServiceCode

/-- The names of failures that may pass by themselves. -/
def transientNames : List String :=
  ["ProvisionedThroughputExceededException", "RequestLimitExceeded", "ThrottlingException",
    "InternalServerError", "InternalFailure", "ServiceUnavailable", "ServiceUnavailableException"]

/-- The name in an error type: what stands behind the last `#`, or all of it if there is none. -/
inductive Names : String → String → Prop
  | bare {name : String} : '#' ∉ name.toList → Names name name
  | behind (ns : String) {name : String} : '#' ∉ name.toList → Names (ns ++ "#" ++ name) name

theorem afterNamespace_of_not_mem {cs : List Char} (h : '#' ∉ cs) : afterNamespace cs = cs := by
  cases cs with
  | nil => rfl
  | cons c rest =>
    obtain ⟨hc, hrest⟩ := List.ne_and_not_mem_of_not_mem_cons h
    rw [afterNamespace, if_neg (by simpa using hrest), if_neg (by simpa using Ne.symm hc)]

/-- What stands in front of a `#` is skipped. -/
theorem afterNamespace_append (ns cs : List Char) :
    afterNamespace (ns ++ '#' :: cs) = afterNamespace cs := by
  induction ns with
  | nil =>
    rw [List.nil_append, afterNamespace]
    split
    · rfl
    · rename_i hcs
      rw [if_pos (beq_self_eq_true _), afterNamespace_of_not_mem (by simpa using hcs)]
  | cons c ns ih =>
    have hmem : (ns ++ '#' :: cs).contains '#' = true := by simp
    rw [List.cons_append, afterNamespace, if_pos hmem, ih]

/-- Nothing is skipped but up to the last `#`. -/
theorem afterNamespace_spec (cs : List Char) :
    '#' ∉ afterNamespace cs ∧
      (cs = afterNamespace cs ∨ ∃ ns, cs = ns ++ '#' :: afterNamespace cs) := by
  induction cs with
  | nil => exact ⟨List.not_mem_nil, .inl rfl⟩
  | cons c rest ih =>
    by_cases hrest : '#' ∈ rest
    · obtain ⟨hnot, hcases⟩ := ih
      rw [afterNamespace, if_pos (by simpa using hrest)]
      refine ⟨hnot, .inr ?_⟩
      rcases hcases with heq | ⟨ns, hns⟩
      · rw [← heq] at hnot
        exact absurd hrest hnot
      · exact ⟨c :: ns, congrArg (c :: ·) hns⟩
    · by_cases hc : c = '#'
      · subst hc
        have hskip : afterNamespace ('#' :: rest) = rest := by
          rw [← List.nil_append ('#' :: rest), afterNamespace_append,
            afterNamespace_of_not_mem hrest]
        rw [hskip]
        exact ⟨hrest, .inr ⟨[], rfl⟩⟩
      · have hnot : '#' ∉ c :: rest := by
          rw [List.mem_cons, not_or]
          exact ⟨Ne.symm hc, hrest⟩
        rw [afterNamespace_of_not_mem hnot]
        exact ⟨hnot, .inl rfl⟩

theorem names_iff {type name : String} :
    Names type name ↔ String.ofList (afterNamespace type.toList) = name := by
  constructor
  · rintro (hname | ⟨ns, hname⟩)
    · rw [afterNamespace_of_not_mem hname, String.ofList_toList]
    · have htype : (ns ++ "#" ++ name).toList = ns.toList ++ '#' :: name.toList := by simp
      rw [htype, afterNamespace_append, afterNamespace_of_not_mem hname, String.ofList_toList]
  · rintro rfl
    obtain ⟨hnot, heq | ⟨ns, hns⟩⟩ := afterNamespace_spec type.toList
    · rw [← heq, String.ofList_toList]
      rw [← heq] at hnot
      exact .bare hnot
    · have htype : type =
          String.ofList ns ++ "#" ++ String.ofList (afterNamespace type.toList) := by
        apply String.toList_inj.1
        simpa using hns
      have hname : '#' ∉ (String.ofList (afterNamespace type.toList)).toList := by
        simpa using hnot
      have hbehind := Names.behind (String.ofList ns) hname
      rwa [← htype] at hbehind

/-- A namespace in front of an error type does not change its code. -/
theorem ofType_namespace (ns type : String) : ofType (ns ++ "#" ++ type) = ofType type := by
  have htype : (ns ++ "#" ++ type).toList = ns.toList ++ '#' :: type.toList := by simp
  unfold ofType
  rw [htype, afterNamespace_append]

theorem transient_ofName_iff {name : String} :
    ((ofName name).isThrottling || (ofName name).isInternal) = true ↔ name ∈ transientNames := by
  constructor
  · intro h
    unfold ofName at h
    -- one case for each name: it is listed, or its code does not count
    split at h
    all_goals first
      | simp [transientNames]; done
      | cases h
  · intro h
    simp only [transientNames, List.mem_cons, List.not_mem_nil, or_false] at h
    rcases h with rfl | rfl | rfl | rfl | rfl | rfl | rfl
    all_goals rfl

/-- The codes that may pass are those of error types with a transient name. -/
theorem transient_ofType_iff {type : String} :
    ((ofType type).isThrottling || (ofType type).isInternal) = true ↔
      ∃ name, Names type name ∧ name ∈ transientNames := by
  unfold ofType
  rw [transient_ofName_iff]
  simp only [names_iff, exists_eq_left']

end ServiceCode

/-! ## Failed responses -/

theorem Status.isServerError_iff {status : Nat} :
    Status.isServerError status = true ↔ 500 ≤ status ∧ status ≤ 599 := by
  unfold Status.isServerError
  rw [Bool.and_eq_true, decide_eq_true_eq, decide_eq_true_eq]
  omega

namespace ServiceError

variable {bytes : List UInt8} {body : Body}

theorem isTransient_iff {e : ServiceError} :
    e.isTransient = true ↔
      (500 ≤ e.status ∧ e.status ≤ 599) ∨ (e.code.isThrottling || e.code.isInternal) = true := by
  unfold isTransient
  rw [Bool.or_eq_true, Status.isServerError_iff]
  exact or_comm

theorem status_ofResponse (status : Nat) (bytes : List UInt8) :
    (ofResponse status bytes).status = status := by
  unfold ofResponse
  split <;> rfl

theorem code_ofResponse (status : Nat) (h : ErrorBody bytes body) :
    (ofResponse status bytes).code = .ofType (body.errorType.getD "") := by
  unfold ofResponse
  rw [Body.ofBytes?_eq_some_iff.2 h]

/-- What is no error body has no code. -/
theorem code_ofResponse_of_unreadable (status : Nat) (h : ∀ body, ¬ ErrorBody bytes body) :
    (ofResponse status bytes).code = .unknown := by
  unfold ofResponse
  split
  · rename_i body hbody
    exact absurd (Body.ofBytes?_eq_some_iff.1 hbody) (h body)
  · rfl

/-- A failed response tells by its status or by its error type that it may pass. -/
theorem isTransient_ofResponse (status : Nat) (bytes : List UInt8) :
    (ofResponse status bytes).isTransient = true ↔
      (500 ≤ status ∧ status ≤ 599) ∨
        ∃ body type name, ErrorBody bytes body ∧ body.errorType = some type ∧
          ServiceCode.Names type name ∧ name ∈ ServiceCode.transientNames := by
  rw [isTransient_iff, status_ofResponse]
  apply or_congr_right
  constructor
  · intro h
    by_cases hreadable : ∃ body, ErrorBody bytes body
    · obtain ⟨body, hbody⟩ := hreadable
      rw [code_ofResponse status hbody] at h
      obtain ⟨name, hname, hlisted⟩ := ServiceCode.transient_ofType_iff.1 h
      cases htype : body.errorType with
      | none =>
        -- the empty error type has the empty name, which is not listed
        rw [htype] at h
        cases h
      | some type =>
        rw [htype] at hname
        exact ⟨body, type, name, hbody, htype, hname, hlisted⟩
    · rw [code_ofResponse_of_unreadable status (not_exists.1 hreadable)] at h
      cases h
  · rintro ⟨body, type, name, hbody, htype, hname, hlisted⟩
    rw [code_ofResponse status hbody, htype]
    exact ServiceCode.transient_ofType_iff.2 ⟨name, hname, hlisted⟩

/-- What is no error body may pass by its status only. -/
theorem isTransient_ofResponse_of_unreadable (status : Nat) (h : ∀ body, ¬ ErrorBody bytes body) :
    (ofResponse status bytes).isTransient = true ↔ 500 ≤ status ∧ status ≤ 599 := by
  rw [isTransient_ofResponse]
  apply or_iff_left
  rintro ⟨body, -, -, hbody, -⟩
  exact h body hbody

/-- Error types that differ by a namespace tell the same. -/
theorem isTransient_ofResponse_namespace (status : Nat) {bytes' : List UInt8} {body' : Body}
    {ns type : String} (h : ErrorBody bytes body) (htype : body.errorType = some type)
    (h' : ErrorBody bytes' body') (htype' : body'.errorType = some (ns ++ "#" ++ type)) :
    (ofResponse status bytes').isTransient = (ofResponse status bytes).isTransient := by
  have hcode : (ofResponse status bytes').code = (ofResponse status bytes).code := by
    rw [code_ofResponse status h, code_ofResponse status h', htype, htype']
    exact ServiceCode.ofType_namespace ns type
  unfold isTransient
  rw [hcode, status_ofResponse, status_ofResponse]

end ServiceError

namespace StoreError

/-- An error under the requests that it is passed on with, the outermost first. -/
def within (e : StoreError) : List (Operation × String) → StoreError
  | [] => e
  | (op, text) :: inner => .request op text (e.within inner)

/-- Whether an attempt may be repeated does not depend on the requests. -/
theorem isRetryable_within (e : StoreError) (layers : List (Operation × String)) :
    (e.within layers).isRetryable = e.isRetryable := by
  induction layers with
  | nil => rfl
  | cons layer layers ih => exact ih

/-- The error of a failed response. -/
def ofResponse (status : Nat) (bytes : List UInt8) (layers : List (Operation × String)) :
    StoreError :=
  (StoreError.service (.ofResponse status bytes)).within layers

/-- **When a failed response is worth another attempt.**

Take a response with any status and any bytes, and pass its error on with any requests.  Another
attempt may succeed exactly if the status is one of a failing provider, or the bytes are an error
body whose error type has a transient name behind its last `#`.  So a namespace in front of the
error type changes nothing, and where the bytes are no error body the status decides. -/
theorem response_retried_iff (status : Nat) (bytes : List UInt8)
    (layers : List (Operation × String)) :
    ((ofResponse status bytes layers).isRetryable = true ↔
      (500 ≤ status ∧ status ≤ 599) ∨
        ∃ body type name, ServiceError.ErrorBody bytes body ∧ body.errorType = some type ∧
          ServiceCode.Names type name ∧ name ∈ ServiceCode.transientNames) ∧
      (∀ ns type body body' bytes' layers', ServiceError.ErrorBody bytes body →
        body.errorType = some type → ServiceError.ErrorBody bytes' body' →
        body'.errorType = some (ns ++ "#" ++ type) →
        (ofResponse status bytes' layers').isRetryable =
          (ofResponse status bytes layers).isRetryable) ∧
      ((∀ body, ¬ ServiceError.ErrorBody bytes body) →
        ((ofResponse status bytes layers).isRetryable = true ↔ 500 ≤ status ∧ status ≤ 599)) := by
  have hretry : ∀ bytes layers, (ofResponse status bytes layers).isRetryable =
      (ServiceError.ofResponse status bytes).isTransient := by
    intro bytes layers
    exact isRetryable_within _ layers
  refine ⟨?_, ?_, ?_⟩
  · rw [hretry]
    exact ServiceError.isTransient_ofResponse status bytes
  · intro ns type body body' bytes' layers' hbody htype hbody' htype'
    rw [hretry, hretry]
    exact ServiceError.isTransient_ofResponse_namespace status hbody htype hbody' htype'
  · intro hnone
    rw [hretry]
    exact ServiceError.isTransient_ofResponse_of_unreadable status hnone

/-- The bytes of a text of characters below 128. -/
def asciiBytes (text : String) : List UInt8 := text.toList.map fun c => UInt8.ofNat c.toNat

/-- An error type with two namespaces, among fields that nobody asks for. -/
def slowBody : List UInt8 :=
  asciiBytes "\x7b\"hint\":[1,\x7b\x7d],\"__type\":\"a#b#ThrottlingException\"\x7d"

/-- The same error type in another namespace, in a body that is an array. -/
def slowArray : List UInt8 := asciiBytes "[\"c#a#b#ThrottlingException\",\"slow\"]"

theorem response_retried_iff_slow :
    (ofResponse 400 slowBody [(.putItem, "first")]).isRetryable = true ∧
      (ofResponse 400 slowArray []).isRetryable = true ∧
      (ofResponse 400 slowBody.dropLast []).isRetryable = false := by
  have hslow : (ServiceError.Body.ofBytes? slowBody).map (·.errorType) =
      some (some "a#b#ThrottlingException") := by decide +kernel
  have hslow' : (ServiceError.Body.ofBytes? slowArray).map (·.errorType) =
      some (some ("c" ++ "#" ++ "a#b#ThrottlingException")) := by decide +kernel
  have hcut : (ServiceError.Body.ofBytes? slowBody.dropLast).isNone = true := by decide +kernel
  obtain ⟨body, hbody, htype⟩ := Option.map_eq_some_iff.1 hslow
  obtain ⟨body', hbody', htype'⟩ := Option.map_eq_some_iff.1 hslow'
  rw [ServiceError.Body.ofBytes?_eq_some_iff] at hbody hbody'
  have hname : ServiceCode.Names "a#b#ThrottlingException" "ThrottlingException" :=
    ServiceCode.names_iff.2 (by decide +kernel)
  have hlisted : "ThrottlingException" ∈ ServiceCode.transientNames := by
    simp [ServiceCode.transientNames]
  obtain ⟨hretried, hnamespace, -⟩ :=
    response_retried_iff 400 slowBody [(.putItem, "first")]
  obtain ⟨-, -, hunreadable⟩ := response_retried_iff 400 slowBody.dropLast []
  have hfirst := hretried.2 (.inr ⟨body, _, _, hbody, htype, hname, hlisted⟩)
  refine ⟨hfirst, ?_, ?_⟩
  · rw [hnamespace "c" _ body body' slowArray [] hbody htype hbody' htype']
    exact hfirst
  · have hnone : ∀ body, ¬ ServiceError.ErrorBody slowBody.dropLast body := by
      intro body hbody
      rw [← ServiceError.Body.ofBytes?_eq_some_iff] at hbody
      rw [hbody] at hcut
      cases hcut
    rw [← Bool.not_eq_true, hunreadable hnone]
    omega

end StoreError

end ItemStore
