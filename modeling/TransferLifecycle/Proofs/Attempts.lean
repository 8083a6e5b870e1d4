import TransferLifecycle.Processor

set_option autoImplicit false

/- The attempts that are made at one command. A command alone in a queue is tried again at once, as
long as the storage fails and attempts are left; it is given up exactly when all of them failed so.
-/
namespace TransferLifecycle

/-- An attempt that the storage failed, and that may be made again. -/
def Attempt.isStorageFailure : Attempt → Bool
  | .ok (.failure f) => f.isRetryable
  | _ => false

/-- What an answer means that is not a failure of the storage. -/
def Outcome.status : Outcome TransferProcess → Status
  | .success p => .processed p
  | .failure f => .rejected f

/-- The command is given up. -/
def Status.isExhausted : Status → Bool
  | .exhausted _ => true
  | _ => false

namespace RetryPolicy

variable {policy : RetryPolicy} {made : Nat} {outcome : Outcome TransferProcess}

theorem judge_of_settled (settled : Attempt.isStorageFailure (.ok outcome) = false) :
    policy.judge made outcome = outcome.status := by
  cases outcome with
  | success p => rfl
  | failure f =>
    simp only [Attempt.isStorageFailure] at settled
    simp [judge, settled, Outcome.status]

theorem judge_of_again {f : Failure} (failed : f.isRetryable = true)
    (left : made < policy.maxAttempts) : policy.judge made (.failure f) = .requeued made := by
  simp [judge, failed, left]

theorem judge_of_last {f : Failure} (failed : f.isRetryable = true)
    (used : policy.maxAttempts ≤ made) : policy.judge made (.failure f) = .exhausted f := by
  simp [judge, failed, Nat.not_lt.2 used]

end RetryPolicy

namespace Queue

variable {σ : Type} {policy : RetryPolicy} {submit : σ → Command → Attempt × σ} {c : Command}

/-- From `s`, with `made` attempts behind them, the given attempts at a command lead to a status
and to the state `after`. -/
inductive Tried (policy : RetryPolicy) (submit : σ → Command → Attempt × σ) (c : Command) :
    Nat → σ → List Attempt → Status → σ → Prop
  | settled {made : Nat} {s after : σ} {outcome : Outcome TransferProcess}
      (attempt : submit s c = (.ok outcome, after))
      (settled : Attempt.isStorageFailure (.ok outcome) = false) :
      Tried policy submit c made s [.ok outcome] outcome.status after
  | exhausted {made : Nat} {s after : σ} {f : Failure}
      (attempt : submit s c = (.ok (.failure f), after)) (failed : f.isRetryable = true)
      (used : policy.maxAttempts ≤ made + 1) :
      Tried policy submit c made s [.ok (.failure f)] (.exhausted f) after
  | again {made : Nat} {s mid after : σ} {f : Failure} {attempts : List Attempt} {status : Status}
      (attempt : submit s c = (.ok (.failure f), mid)) (failed : f.isRetryable = true)
      (left : made + 1 < policy.maxAttempts)
      (rest : Tried policy submit c (made + 1) mid attempts status after) :
      Tried policy submit c made s (.ok (.failure f) :: attempts) status after

namespace Tried

variable {made : Nat} {s after : σ} {attempts : List Attempt} {status : Status}

theorem length_pos (tried : Tried policy submit c made s attempts status after) :
    0 < attempts.length := by cases tried <;> simp

theorem length_le (tried : Tried policy submit c made s attempts status after)
    (left : made < policy.maxAttempts) : made + attempts.length ≤ policy.maxAttempts := by
  induction tried with
  | settled _ _ => exact left
  | exhausted _ _ _ => exact left
  | again _ _ more _ ih =>
    have bound := ih more
    simp only [List.length_cons]
    omega

/-- A command is given up exactly when the attempts are used up and the storage failed them all. -/
theorem isExhausted_iff (tried : Tried policy submit c made s attempts status after)
    (left : made < policy.maxAttempts) :
    status.isExhausted = true ↔
      made + attempts.length = policy.maxAttempts ∧
        ∀ a ∈ attempts, Attempt.isStorageFailure a = true := by
  induction tried with
  | @settled made s after outcome _ settled =>
    have given : outcome.status.isExhausted = false := by cases outcome <;> rfl
    simp [given, settled]
  | exhausted _ failed used =>
    simp only [Status.isExhausted, List.length_singleton, List.mem_singleton, true_iff]
    exact ⟨by omega, by rintro a rfl; exact failed⟩
  | again _ failed more _ ih =>
    rw [ih more]
    simp only [List.length_cons, List.mem_cons, forall_eq_or_imp, Attempt.isStorageFailure, failed,
      true_and]
    rw [Nat.add_right_comm, Nat.add_assoc]

end Tried

/-- A run is the same through a view of the state that the attempts respect. -/
theorem drain_view {τ : Type} (policy : RetryPolicy) {submit : σ → Command → Attempt × σ}
    {seen : τ → Command → Attempt × τ} (view : τ → σ)
    (answers : ∀ t c, submit (view t) c = ((seen t c).1, view (seen t c).2)) (t : τ) (q : Queue) :
    q.drain policy submit (view t) =
      ((q.drain policy seen t).1, (q.drain policy seen t).2.1,
        view (q.drain policy seen t).2.2) := by
  fun_induction drain policy seen t q with
  | case1 t => rw [drain]
  | case2 t item rest i after attempt => rw [drain, answers, attempt]
  | case3 t item rest outcome after attempt status result left last drained ih =>
    rw [drained] at ih
    rw [drain, answers, attempt]
    simp only
    rw [ih]

/-- Keeps a list of the attempts beside the state, the newest last. -/
def logged (submit : σ → Command → Attempt × σ) (s : σ × List Attempt) (c : Command) :
    Attempt × σ × List Attempt :=
  ((submit s.1 c).1, (submit s.1 c).2, s.2 ++ [(submit s.1 c).1])

/-- The list of attempts changes nothing about a run. -/
theorem drain_logged (policy : RetryPolicy) (submit : σ → Command → Attempt × σ) (s : σ)
    (q : Queue) (log : List Attempt) :
    q.drain policy submit s =
      ((q.drain policy (logged submit) (s, log)).1, (q.drain policy (logged submit) (s, log)).2.1,
        (q.drain policy (logged submit) (s, log)).2.2.1) :=
  drain_view policy Prod.fst (fun _ _ => rfl) (s, log) q

/-- The tally of a command that came to `status` in the end. -/
def triedTally (attempts : List Attempt) (status : Status) : Tally :=
  { status.tally with retried := attempts.length - 1 + status.tally.retried }

theorem Tried.triedTally_again {made : Nat} {s after : σ} {attempts : List Attempt}
    {status : Status} (tried : Tried policy submit c made s attempts status after) (a : Attempt) :
    Tally.add ⟨0, 0, 1, 0⟩ (triedTally attempts status) = triedTally (a :: attempts) status := by
  have positive := tried.length_pos
  simp only [Tally.add, triedTally, Nat.zero_add, List.length_cons]
  congr 1
  omega

theorem drain_cons_of_error {s after : σ} {item : QueuedCommand} {i : Interruption}
    (attempt : submit s item.command = (.error i, after)) (rest : Queue) :
    drain policy submit s (item :: rest) = (.error i, rest, after) := by
  rw [drain, attempt]

theorem drain_cons_of_ok {s after : σ} {item : QueuedCommand} {outcome : Outcome TransferProcess}
    (attempt : submit s item.command = (.ok outcome, after)) (rest : Queue) :
    drain policy submit s (item :: rest) =
      let status := policy.judge (item.attempts + 1) outcome
      let later := drain policy submit after (settle rest item.command status)
      (later.1.map status.tally.add, later.2) := by
  rw [drain, attempt]

theorem drain_nil (policy : RetryPolicy) (submit : σ → Command → Attempt × σ) (s : σ) :
    drain policy submit s [] = (.ok .zero, [], s) := by rw [drain]

section Single

variable (policy) (made : Nat) {s after : σ} {f : Failure}

theorem drain_of_settled {outcome : Outcome TransferProcess}
    (attempt : submit s c = (.ok outcome, after))
    (settled : Attempt.isStorageFailure (.ok outcome) = false) :
    drain policy submit s [⟨c, made⟩] = (.ok outcome.status.tally, [], after) := by
  rw [drain_cons_of_ok attempt]
  simp only [RetryPolicy.judge_of_settled settled]
  cases outcome <;> simp only [Outcome.status, settle, drain_nil] <;> rfl

theorem drain_of_again (attempt : submit s c = (.ok (.failure f), after))
    (failed : f.isRetryable = true) (left : made + 1 < policy.maxAttempts) :
    drain policy submit s [⟨c, made⟩] =
      let (result, rest, last) := drain policy submit after [⟨c, made + 1⟩]
      (result.map (Tally.add ⟨0, 0, 1, 0⟩), rest, last) := by
  rw [drain_cons_of_ok attempt]
  simp only [RetryPolicy.judge_of_again failed left]
  rfl

theorem drain_of_last (attempt : submit s c = (.ok (.failure f), after))
    (failed : f.isRetryable = true) (used : policy.maxAttempts ≤ made + 1) :
    drain policy submit s [⟨c, made⟩] = (.ok ⟨0, 0, 0, 1⟩, [], after) := by
  rw [drain_cons_of_ok attempt]
  simp only [RetryPolicy.judge_of_last failed used, settle, drain_nil]
  rfl

end Single

/-- Where a command cannot be interrupted, draining it is a number of attempts at it. -/
theorem exists_tried (policy : RetryPolicy) {kept : σ → Prop}
    (step : ∀ s, kept s → ∃ outcome after, submit s c = (.ok outcome, after) ∧ kept after)
    (made : Nat) (s : σ) (log : List Attempt) (start : kept s) :
    ∃ attempts status after, Tried policy submit c made s attempts status after ∧
      drain policy (logged submit) (s, log) [⟨c, made⟩] =
        (.ok (triedTally attempts status), [], (after, log ++ attempts)) := by
  -- By the number of attempts that are left.
  induction left : policy.maxAttempts - made using Nat.strongRecOn generalizing made s log with
  | ind left ih =>
    obtain ⟨outcome, mid, attempt, good⟩ := step s start
    have submitted : logged submit (s, log) c = (.ok outcome, mid, log ++ [.ok outcome]) := by
      simp only [logged, attempt]
    cases failed : Attempt.isStorageFailure (.ok outcome) with
    | false =>
      refine ⟨_, _, mid, .settled attempt failed, ?_⟩
      rw [drain_of_settled policy made submitted failed]
      cases outcome <;> rfl
    | true =>
      cases outcome with
      | success p => cases failed
      | failure f =>
        change f.isRetryable = true at failed
        by_cases more : made + 1 < policy.maxAttempts
        · obtain ⟨attempts, status, after, tried, later⟩ :=
            ih (policy.maxAttempts - (made + 1)) (by omega) (made + 1) mid
              (log ++ [.ok (.failure f)]) good rfl
          refine ⟨_, status, after, .again attempt failed more tried, ?_⟩
          rw [drain_of_again policy made submitted failed more, later]
          simp only [Except.map, tried.triedTally_again (.ok (.failure f)), List.append_assoc,
            List.singleton_append]
        · have used : policy.maxAttempts ≤ made + 1 := by omega
          refine ⟨_, _, mid, .exhausted attempt failed used, ?_⟩
          rw [drain_of_last policy made submitted failed used]
          rfl

end Queue

end TransferLifecycle
