import Mathlib.Data.List.Chain
import ItemStore.Proofs.Store.Submissions
import ItemStore.Store.Chunks

/-!
# Chunks until nothing is open

A chunk is submitted, and then what the response left open of it, until nothing is open, a
submission fails or the submissions are used up.  `Submits` lists these courses, one rule for each
way in which a submission can end, and `SubmitsAll` those of the chunks of a batch.  `run_submit`
and `run_runBatch` say that a run takes one of them: the log grows by the attempts of its
submissions, and the result is what their responses are put together to.

What a course keeps follows from one step of it: `Submits.requests` carries any property of requests
that no remainder loses from the chunk to every request that is sent for it.
-/

namespace ItemStore

namespace Store

variable {σ : Type} {op : Operation}

section Courses

variable (store : Store σ) (kind : BatchKind op)

/-- The submissions for what is open of a chunk, with the responses that they come to or the error
that they end with.  The first of them is the `n`-th for its chunk, and at most `pauses` may follow
it. -/
inductive Submits : (n pauses : Nat) → op.Request → List (Submission op) →
    Except StoreError (List op.Response) → Prop where
  /-- A submission fails. -/
  | failed {n pauses x e} : store.Sent store.config.retry.pauses x → x.outcome = .error e →
      Submits n pauses x.request [x] (.error (named op x.request e))
  /-- Nothing is left open. -/
  | done {n pauses x p} : store.Sent store.config.retry.pauses x → x.outcome = .ok p →
      kind.entries (kind.remainder x.request p) = 0 → Submits n pauses x.request [x] (.ok [p])
  /-- Something is left open, and the submissions are used up. -/
  | spent {n x p} : store.Sent store.config.retry.pauses x → x.outcome = .ok p →
      kind.entries (kind.remainder x.request p) ≠ 0 →
      Submits n 0 x.request [x]
        (.error (.unprocessed op (kind.entries (kind.remainder x.request p)) n))
  /-- Something is left open, and it is submitted. -/
  | again {n pauses x p xs result} : store.Sent store.config.retry.pauses x → x.outcome = .ok p →
      kind.entries (kind.remainder x.request p) ≠ 0 →
      Submits (n + 1) pauses (kind.remainder x.request p) xs result →
      Submits n (pauses + 1) x.request (x :: xs) (result.map (p :: ·))

/-- The submissions for chunks, chunk by chunk, with what the responses to each are put together to,
or with the error that one of them ends with. -/
inductive SubmitsAll : List op.Request → List (List (Submission op)) →
    Except StoreError (List op.Response) → Prop where
  /-- No chunk is left. -/
  | nil : SubmitsAll [] [] (.ok [])
  /-- A chunk fails. -/
  | failed {chunk chunks xs e} :
      Submits store kind 1 store.config.retry.pauses chunk xs (.error e) →
      SubmitsAll (chunk :: chunks) [xs] (.error e)
  /-- A chunk is done, and the others follow. -/
  | cons {chunk chunks xs ps xss result} :
      Submits store kind 1 store.config.retry.pauses chunk xs (.ok ps) →
      SubmitsAll chunks xss result →
      SubmitsAll (chunk :: chunks) (xs :: xss)
        (result.map (kind.arrange chunk (ps.foldl kind.merge op.emptyResponse) :: ·))

end Courses

variable {store : Store σ} {kind : BatchKind op}

/-! ## What runs do -/

section Steps

variable {chunk request : op.Request} {merged : op.Response} {n pauses : Nat} {s s' : Session σ}

theorem run_submit_failed {e : StoreError} (h : s.run (store.send op request) = (.error e, s')) :
    s.run (store.submit kind chunk request merged n pauses) = (.error e, s') := by
  rw [submit.eq_def, Session.run_bind, h]

theorem run_submit_done {p : op.Response} (h : s.run (store.send op request) = (.ok p, s'))
    (hdone : kind.entries (kind.remainder request p) = 0) :
    s.run (store.submit kind chunk request merged n pauses) =
      (.ok (kind.arrange chunk (kind.merge merged p)), s') := by
  rw [submit.eq_def, Session.run_bind, h]
  simp only [hdone, if_true, Session.run_pure]

theorem run_submit_spent {p : op.Response} (h : s.run (store.send op request) = (.ok p, s'))
    (hopen : kind.entries (kind.remainder request p) ≠ 0) :
    s.run (store.submit kind chunk request merged n 0) =
      (.error (.unprocessed op (kind.entries (kind.remainder request p)) n), s') := by
  rw [submit.eq_def, Session.run_bind, h]
  simp only [hopen, if_false, Session.run_throw]

theorem run_submit_again {p : op.Response} (h : s.run (store.send op request) = (.ok p, s'))
    (hopen : kind.entries (kind.remainder request p) ≠ 0) :
    s.run (store.submit kind chunk request merged n (pauses + 1)) =
      s'.run (store.submit kind chunk (kind.remainder request p) (kind.merge merged p) (n + 1)
        pauses) := by
  rw [submit.eq_def, Session.run_bind, h]
  simp only [hopen, if_false]

end Steps

/-- A run takes one of the courses.  The induction is on the submissions that may still follow. -/
theorem run_submit (store : Store σ) (kind : BatchKind op) (chunk request : op.Request)
    (merged : op.Response) (n pauses : Nat) (s : Session σ) :
    ∃ xs result s', store.Submits kind n pauses request xs result ∧
      s.run (store.submit kind chunk request merged n pauses) =
        (result.map (fun ps => kind.arrange chunk (ps.foldl kind.merge merged)), s') ∧
      s'.log = s.log ++ xs.flatMap Submission.attempts := by
  obtain ⟨x, s', rfl, hsent, hrun, hlog⟩ := store.run_send request s
  have hlog' : s'.log = s.log ++ [x].flatMap Submission.attempts := by simpa using hlog
  cases hx : x.outcome with
  | error e =>
    rw [hx] at hrun
    exact ⟨[x], _, s', .failed hsent hx, run_submit_failed hrun, hlog'⟩
  | ok p =>
    rw [hx] at hrun
    by_cases hopen : kind.entries (kind.remainder x.request p) = 0
    · exact ⟨[x], _, s', .done hsent hx hopen, run_submit_done hrun hopen, hlog'⟩
    cases pauses with
    | zero => exact ⟨[x], _, s', .spent hsent hx hopen, run_submit_spent hrun hopen, hlog'⟩
    | succ pauses =>
      obtain ⟨xs, result, s'', hsubmits, hrun', hlog''⟩ := run_submit store kind chunk
        (kind.remainder x.request p) (kind.merge merged p) (n + 1) pauses s'
      refine ⟨x :: xs, _, s'', .again hsent hx hopen hsubmits, ?_, ?_⟩
      · rw [run_submit_again hrun hopen, hrun']
        cases result <;> rfl
      · rw [hlog'', hlog, List.flatMap_cons, List.append_assoc]

/-- A run over chunks submits them one by one, and merges what comes for each behind what came for
those before it.  The induction is on the chunks. -/
theorem run_runChunks (store : Store σ) (kind : BatchKind op) (merged : op.Response)
    (chunks : List op.Request) (s : Session σ) :
    ∃ xss result s', store.SubmitsAll kind chunks xss result ∧
      s.run (store.runChunks kind merged chunks) =
        (result.map (List.foldl kind.merge merged), s') ∧
      s'.log = s.log ++ xss.flatten.flatMap Submission.attempts := by
  induction chunks generalizing merged s with
  | nil => exact ⟨[], _, s, .nil, rfl, by simp⟩
  | cons chunk chunks ih =>
    obtain ⟨xs, result, s', hsubmits, hrun, hlog⟩ :=
      store.run_submit kind chunk chunk op.emptyResponse 1 store.config.retry.pauses s
    have hrun' : s.run (store.runChunk kind chunk) = _ := hrun
    cases result with
    | error e =>
      refine ⟨[xs], _, s', .failed hsubmits, ?_, by simpa using hlog⟩
      rw [runChunks, Session.run_bind, hrun']
      rfl
    | ok ps =>
      obtain ⟨xss, result, s'', hall, hrest, hlog'⟩ := ih
        (kind.merge merged (kind.arrange chunk (ps.foldl kind.merge op.emptyResponse))) s'
      refine ⟨xs :: xss, _, s'', .cons hsubmits hall, ?_, ?_⟩
      · rw [runChunks, Session.run_bind, hrun']
        simp only [Except.map, hrest]
        cases result <;> rfl
      · rw [hlog', hlog, List.flatten_cons, List.flatMap_append, List.append_assoc]

/-- A run of a batch submits its chunks, and merges what comes for them. -/
theorem run_runBatch (store : Store σ) (kind : BatchKind op) (batch : op.Request)
    (s : Session σ) :
    ∃ xss result s', store.SubmitsAll kind (kind.chunks batch) xss result ∧
      s.run (store.runBatch kind batch) =
        (result.map (List.foldl kind.merge op.emptyResponse), s') ∧
      s'.log = s.log ++ xss.flatten.flatMap Submission.attempts :=
  store.run_runChunks kind op.emptyResponse (kind.chunks batch) s

/-! ## What courses keep -/

section Kept

variable {n pauses : Nat} {request : op.Request} {xs : List (Submission op)}
  {result : Except StoreError (List op.Response)}

/-- The first request is the one that the course is about. -/
theorem Submits.head (h : store.Submits kind n pauses request xs result) :
    xs.head?.map Submission.request = some request := by
  cases h <;> rfl

/-- Every later request is what the response to the one before it left open. -/
theorem Submits.chain (h : store.Submits kind n pauses request xs result) :
    xs.IsChain fun x y => ∃ p, x.outcome = .ok p ∧ y.request = kind.remainder x.request p := by
  induction h with
  | failed => exact .singleton _
  | done => exact .singleton _
  | spent => exact .singleton _
  | again _ hx _ hrest ih =>
    refine ih.cons fun y hy => ?_
    have hhead := hrest.head
    rw [Option.mem_def.1 hy] at hhead
    exact ⟨_, hx, Option.some.inj hhead⟩

/-- A course fails with its last submission, or because the submissions are used up. -/
theorem Submits.failed_last {e : StoreError}
    (h : store.Submits kind n pauses request xs (.error e)) :
    (∃ answered x source, xs = answered ++ [x] ∧ x.outcome = .error source ∧
      e = named op x.request source) ∨
      ∃ remaining attempts, e = .unprocessed op remaining attempts := by
  generalize hresult : Except.error e = result at h
  induction h with
  | failed _ hx =>
    cases hresult
    exact .inl ⟨[], _, _, rfl, hx, rfl⟩
  | done => cases hresult
  | spent =>
    cases hresult
    exact .inr ⟨_, _, rfl⟩
  | @again _ _ x _ _ result _ _ _ _ ih =>
    cases result with
    | ok ps => cases hresult
    | error e' =>
      cases hresult
      rcases ih rfl with ⟨answered, last, source, rfl, hlast, he⟩ | hspent
      · exact .inl ⟨x :: answered, last, source, rfl, hlast, he⟩
      · exact .inr hspent

/-- What a request has and no remainder of it loses, all requests of a course have. -/
theorem Submits.requests {P : op.Request → Prop}
    (hkeep : ∀ request state p, (store.provider op request state).1.outcome = .ok p → P request →
      P (kind.remainder request p))
    (h : store.Submits kind n pauses request xs result) (hP : P request) :
    ∀ x ∈ xs, P x.request := by
  induction h with
  | failed => simpa using hP
  | done => simpa using hP
  | spent => simpa using hP
  | again hsent hx _ _ ih =>
    obtain ⟨state, hstate⟩ := hsent.answered _ hx
    exact List.forall_mem_cons.2 ⟨hP, ih (hkeep _ _ _ hstate hP)⟩

/-- What holds of the last submission, and of one whose remainder it holds of, holds of a course
that comes to its responses. -/
theorem Submits.induction_ok {motive : op.Request → List (Submission op) → List op.Response → Prop}
    (done : ∀ x p, store.Sent store.config.retry.pauses x → x.outcome = .ok p →
      kind.entries (kind.remainder x.request p) = 0 → motive x.request [x] [p])
    (again : ∀ x p xs ps, store.Sent store.config.retry.pauses x → x.outcome = .ok p →
      motive (kind.remainder x.request p) xs ps → motive x.request (x :: xs) (p :: ps))
    {ps : List op.Response} (h : store.Submits kind n pauses request xs (.ok ps)) :
    motive request xs ps := by
  generalize hresult : Except.ok ps = result at h
  induction h generalizing ps with
  | failed => cases hresult
  | done hsent hx hdone =>
    cases hresult
    exact done _ _ hsent hx hdone
  | spent => cases hresult
  | again hsent hx _ _ ih =>
    obtain ⟨ps', hps', rfl⟩ := map_eq_ok.1 hresult.symm
    exact again _ _ _ _ hsent hx (ih hps'.symm)

variable {chunks : List op.Request} {xss : List (List (Submission op))}

/-- The courses are those of the first chunks. -/
theorem SubmitsAll.courses (h : store.SubmitsAll kind chunks xss result) :
    List.Forall₂ (fun chunk xs => ∃ result,
      store.Submits kind 1 store.config.retry.pauses chunk xs result)
      (chunks.take xss.length) xss := by
  induction h with
  | nil => exact .nil
  | failed h => exact .cons ⟨_, h⟩ (by simp)
  | cons h _ ih => exact .cons ⟨_, h⟩ ih

/-- A batch fails with its last course. -/
theorem SubmitsAll.failed_last {e : StoreError} (h : store.SubmitsAll kind chunks xss (.error e)) :
    ∃ chunk ∈ chunks, ∃ before xs, xss = before ++ [xs] ∧
      store.Submits kind 1 store.config.retry.pauses chunk xs (.error e) := by
  generalize hresult : Except.error e = result at h
  induction h with
  | nil => cases hresult
  | failed hxs =>
    cases hresult
    exact ⟨_, List.mem_cons_self .., [], _, rfl, hxs⟩
  | @cons _ _ xs _ _ result _ _ ih =>
    cases result with
    | ok rs => cases hresult
    | error e' =>
      cases hresult
      obtain ⟨chunk, hchunk, before, last, rfl, hlast⟩ := ih rfl
      exact ⟨chunk, List.mem_cons_of_mem _ hchunk, xs :: before, last, rfl, hlast⟩

/-- What all chunks have and no remainder loses, all requests of a batch have. -/
theorem SubmitsAll.requests {P : op.Request → Prop}
    (hkeep : ∀ request state p, (store.provider op request state).1.outcome = .ok p → P request →
      P (kind.remainder request p))
    (h : store.SubmitsAll kind chunks xss result) (hP : ∀ chunk ∈ chunks, P chunk) :
    ∀ x ∈ xss.flatten, P x.request := by
  induction h with
  | nil => simp
  | failed h =>
    have hchunk := h.requests hkeep (hP _ (List.mem_cons_self ..))
    simpa using hchunk
  | cons h _ ih =>
    obtain ⟨hfirst, hrest⟩ := List.forall_mem_cons.1 hP
    intro x hx
    rw [List.flatten_cons, List.mem_append] at hx
    rcases hx with hx | hx
    · exact h.requests hkeep hfirst x hx
    · exact ih hrest x hx

/-- In a batch that comes to an end every chunk comes to its responses. -/
theorem SubmitsAll.done {rs : List op.Response} (h : store.SubmitsAll kind chunks xss (.ok rs)) :
    List.Forall₂ (fun chunk xs => ∃ ps,
      store.Submits kind 1 store.config.retry.pauses chunk xs (.ok ps)) chunks xss := by
  generalize hresult : Except.ok rs = result at h
  induction h generalizing rs with
  | nil => exact .nil
  | failed => cases hresult
  | cons h _ ih =>
    obtain ⟨rs', hrs', -⟩ := map_eq_ok.1 hresult.symm
    exact .cons ⟨_, h⟩ (ih hrs'.symm)

/-- In a batch that comes to an end what comes for every chunk is put together from its
responses. -/
theorem SubmitsAll.responses {rs : List op.Response}
    (h : store.SubmitsAll kind chunks xss (.ok rs)) :
    List.Forall₂ (fun chunk r => ∃ xs ps,
      store.Submits kind 1 store.config.retry.pauses chunk xs (.ok ps) ∧
        r = kind.arrange chunk (ps.foldl kind.merge op.emptyResponse)) chunks rs := by
  generalize hresult : Except.ok rs = result at h
  induction h generalizing rs with
  | nil =>
    cases hresult
    exact .nil
  | failed => cases hresult
  | cons h _ ih =>
    obtain ⟨rs', hrs', rfl⟩ := map_eq_ok.1 hresult.symm
    exact .cons ⟨_, _, h, rfl⟩ (ih hrs'.symm)

end Kept

end Store

end ItemStore
