import ItemStore.Proofs.Store.Submissions

/-!
# How often a request is attempted

Ask a provider for the same thing over and over, and the attempts come to one outcome after another,
whatever is done about them: `outcome` is what the `n`-th of them comes to.  Sending a request walks
along these outcomes.  It goes on behind an error that may pass, stops at the first other outcome or
when the attempts are used up, and returns the outcome at which it stopped.

* `afterAttempts` is the session after the first so many attempts, and `run_attempt_next` says that
  the next attempt leads to the next one.
* `run_attempts_until` finds the outcome at which the loop over attempts stops.
* `execute_stops_at_first` has all of it in one statement.
-/

namespace ItemStore

/-- An attempt came to an error that may pass. -/
def Passing {α : Type} (outcome : Except StoreError α) : Prop :=
  ∃ e, outcome = .error e ∧ e.isRetryable = true

namespace Store

variable {σ : Type} {op : Operation} (store : Store σ) (request : op.Request)

/-! ## Outcomes, one after another -/

/-- The state of a provider that was asked for the same thing `n` times. -/
def stateAfter (state : σ) : Nat → σ
  | 0 => state
  | n + 1 => (store.provider op request (stateAfter state n)).2

/-- The answer to the `n`-th attempt, counted from one. -/
def nthReply (state : σ) (n : Nat) : Reply op.Response :=
  (store.provider op request (store.stateAfter request state (n - 1))).1

/-- What the `n`-th attempt comes to: an answer that takes longer than the attempt may take counts
as a missed deadline. -/
def outcome (state : σ) (n : Nat) : Except StoreError op.Response :=
  if (store.config.deadline n).nanos < (store.nthReply request state n).delay.nanos then
    .error (.deadlineExceeded (store.config.deadline n))
  else (store.nthReply request state n).outcome

/-- What the first `n` attempts come to. -/
def outcomes (state : σ) (n : Nat) : List (Except StoreError op.Response) :=
  (List.range' 1 n).map (store.outcome request state)

theorem outcomes_succ (state : σ) (n : Nat) :
    store.outcomes request state (n + 1) =
      store.outcomes request state n ++ [store.outcome request state (n + 1)] := by
  rw [outcomes, List.range'_concat, List.map_append, outcomes]
  simp [Nat.add_comm]

/-- The session after the first `n` attempts. -/
def afterAttempts (s : Session σ) (n : Nat) : Session σ where
  state := store.stateAfter request s.state n
  counters :=
    { attempts := s.counters.attempts + n
      armed := s.counters.armed + n
      disarmed := s.counters.disarmed + n }
  log := s.log ++ (store.outcomes request s.state n).map fun outcome =>
    { operation := op, request, outcome }

theorem afterAttempts_zero (s : Session σ) : store.afterAttempts request s 0 = s := by
  simp [afterAttempts, outcomes, stateAfter]

/-! ## The loop over attempts -/

/-- The next attempt comes to the next outcome. -/
theorem run_attempt_next (s : Session σ) (n : Nat) :
    (store.afterAttempts request s n).run (store.attempt op request (n + 1)) =
      (store.outcome request s.state (n + 1), store.afterAttempts request s (n + 1)) := by
  have hlog : (store.afterAttempts request s (n + 1)).log =
      (store.afterAttempts request s n).log ++
        [{ operation := op, request, outcome := store.outcome request s.state (n + 1) }] := by
    simp [afterAttempts, outcomes_succ]
  have hsession : store.afterAttempts request s (n + 1) =
      { state := store.stateAfter request s.state (n + 1)
        counters := (store.afterAttempts request s n).counters.tick
        log := (store.afterAttempts request s n).log ++
          [{ operation := op, request, outcome := store.outcome request s.state (n + 1) }] } := by
    rw [← hlog]
    rfl
  rw [hsession]
  rfl

/-- The loop over attempts goes on as long as errors may pass and attempts are left, and comes to
the outcome at which it stops.  The induction is on the retries that are left behind the first `n`
attempts. -/
theorem run_attempts_until (s : Session σ) (n retries : Nat) :
    ∃ j, n < j ∧ j ≤ n + retries + 1 ∧
      (∀ i, n < i → i < j → Passing (store.outcome request s.state i)) ∧
      (j ≤ n + retries → ¬ Passing (store.outcome request s.state j)) ∧
      (store.afterAttempts request s n).run (store.attempts op request (n + 1) retries) =
        (store.outcome request s.state j, store.afterAttempts request s j) := by
  induction retries generalizing n with
  | zero =>
    refine ⟨n + 1, by omega, by omega, by omega, by omega, ?_⟩
    rw [attempts, run_attempt_next]
  | succ retries ih =>
    by_cases hpassing : Passing (store.outcome request s.state (n + 1))
    · obtain ⟨j, hj, hle, hbefore, hstop, hrun⟩ := ih (n + 1)
      refine ⟨j, by omega, by omega, ?_, fun hlast => hstop (by omega), ?_⟩
      · intro i hi hij
        rcases Nat.lt_or_eq_of_le (Nat.succ_le_of_lt hi) with hlt | rfl
        · exact hbefore i hlt hij
        · exact hpassing
      · obtain ⟨e, he, hretry⟩ := hpassing
        rw [attempts, Session.run_tryCatch, run_attempt_next, he]
        simp only [hretry, if_true, hrun]
    · refine ⟨n + 1, by omega, by omega, by omega, fun _ => hpassing, ?_⟩
      rw [attempts, Session.run_tryCatch, run_attempt_next]
      cases houtcome : store.outcome request s.state (n + 1) with
      | ok p => rfl
      | error e =>
        have hfinal : e.isRetryable ≠ true := fun hretry => hpassing ⟨e, houtcome, hretry⟩
        simp only [if_neg hfinal, Session.run_throw]

/-- **A request is attempted until an attempt comes to something final**, or until the attempts are
used up.

With `m` attempts allowed, at least one, there is a number `j` of attempts from one to `m` such that
all earlier attempts come to errors that may pass, and the `j`-th does so only if it is the last one
allowed.  Exactly the first `j` attempts are made, each with the request, and the result is what the
`j`-th comes to; as many attempts are counted, deadlines set and deadlines taken back. -/
theorem execute_stops_at_first (store : Store σ) (request : op.Request) (s : Session σ) :
    ∃ j, 1 ≤ j ∧ j ≤ max 1 store.config.retry.maxAttempts ∧
      (∀ i, 1 ≤ i → i < j → Passing (store.outcome request s.state i)) ∧
      (j < max 1 store.config.retry.maxAttempts →
        ¬ Passing (store.outcome request s.state j)) ∧
      (s.run (store.execute op request)).1 = store.outcome request s.state j ∧
      (s.run (store.execute op request)).2 =
        { state := store.stateAfter request s.state j
          counters :=
            { attempts := s.counters.attempts + j
              armed := s.counters.armed + j
              disarmed := s.counters.disarmed + j }
          log := s.log ++ (List.range' 1 j).map fun i =>
            { operation := op, request, outcome := store.outcome request s.state i } } := by
  obtain ⟨j, hj, hle, hbefore, hstop, hrun⟩ :=
    store.run_attempts_until request s 0 store.config.retry.pauses
  have hmost : 0 + store.config.retry.pauses + 1 = max 1 store.config.retry.maxAttempts := by
    unfold RetryPolicy.pauses
    omega
  have hexecute : s.run (store.execute op request) =
      (store.outcome request s.state j, store.afterAttempts request s j) := by
    rw [afterAttempts_zero] at hrun
    exact hrun
  refine ⟨j, hj, by omega, fun i hi => hbefore i hi, fun hlt => hstop (by omega), ?_, ?_⟩
  · rw [hexecute]
  · rw [hexecute, afterAttempts, outcomes, List.map_map]
    rfl

end Store

end ItemStore
