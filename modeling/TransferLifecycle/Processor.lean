import TransferLifecycle.Dispatcher
import TransferLifecycle.Queue
import TransferLifecycle.Tally

set_option autoImplicit false

/- Works off a queue of commands. A command that met a failure of the storage goes back to the end
of the queue until its attempts are used up; a command that met a fault is gone. How a command is
applied is left open: `submit` acts on a state of any kind. -/
namespace TransferLifecycle

structure RetryPolicy where
  maxAttempts : Nat
  positive : 0 < maxAttempts := by decide

namespace RetryPolicy

def default : RetryPolicy := { maxAttempts := 3 }

/-- No attempt at all stands for the default number. -/
def ofNat (attempts : Nat) : RetryPolicy :=
  if h : 0 < attempts then ⟨attempts, h⟩ else default

end RetryPolicy

inductive Status where
  | processed (process : TransferProcess)
  | rejected (failure : Failure)
  | requeued (attempts : Nat)
  | exhausted (failure : Failure)
  deriving DecidableEq, Repr

def Status.tally : Status → Tally
  | processed _ => ⟨1, 0, 0, 0⟩
  | rejected _ => ⟨0, 1, 0, 0⟩
  | requeued _ => ⟨0, 0, 1, 0⟩
  | exhausted _ => ⟨0, 0, 0, 1⟩

/-- What the attempt numbered `attempts` means for its command. -/
def RetryPolicy.judge (policy : RetryPolicy) (attempts : Nat) : Outcome TransferProcess → Status
  | .success p => .processed p
  | .failure f =>
    if !f.isRetryable then .rejected f
    else if attempts < policy.maxAttempts then .requeued attempts
    else .exhausted f

namespace Queue

variable {σ : Type}

/-- The rest of the queue after a command was judged. -/
def settle (rest : Queue) (c : Command) : Status → Queue
  | .requeued attempts => rest.requeue ⟨c, attempts⟩
  | _ => rest

/-- Takes the first command, if there is one, and makes one attempt at it. -/
def processNext (policy : RetryPolicy) (submit : σ → Command → Attempt × σ) (s : σ) :
    Queue → Except Interruption (Option Status) × Queue × σ
  | [] => (.ok none, [], s)
  | item :: rest =>
    match submit s item.command with
    | (.error i, after) => (.error i, rest, after)
    | (.ok outcome, after) =>
      let status := policy.judge (item.attempts + 1) outcome
      (.ok (some status), settle rest item.command status, after)

/-- No more than this many attempts are left. -/
def attemptsLeft (policy : RetryPolicy) : Queue → Nat
  | [] => 0
  | item :: rest => policy.maxAttempts - item.attempts + 1 + attemptsLeft policy rest

theorem attemptsLeft_requeue (policy : RetryPolicy) (q : Queue) (item : QueuedCommand) :
    attemptsLeft policy (q.requeue item) =
      attemptsLeft policy q + (policy.maxAttempts - item.attempts + 1) := by
  induction q with
  | nil => simp [requeue, attemptsLeft]
  | cons first rest ih =>
    rw [requeue, List.cons_append, attemptsLeft, ← requeue, ih, attemptsLeft]
    omega

theorem attemptsLeft_settle_lt (policy : RetryPolicy) (item : QueuedCommand) (rest : Queue)
    (outcome : Outcome TransferProcess) :
    attemptsLeft policy (settle rest item.command (policy.judge (item.attempts + 1) outcome)) <
      attemptsLeft policy (item :: rest) := by
  unfold RetryPolicy.judge
  split
  next => simp [settle, attemptsLeft]
  next =>
    split
    next => simp [settle, attemptsLeft]
    next =>
      split
      next more =>
        rw [settle, attemptsLeft_requeue, attemptsLeft]
        simp only
        omega
      next => simp [settle, attemptsLeft]

/-- Works until the queue is empty. An interruption leaves the rest of the queue as it is. -/
def drain (policy : RetryPolicy) (submit : σ → Command → Attempt × σ) (s : σ) (q : Queue) :
    Except Interruption Tally × Queue × σ :=
  match q with
  | [] => (.ok .zero, [], s)
  | item :: rest =>
    match submit s item.command with
    | (.error i, after) => (.error i, rest, after)
    | (.ok outcome, after) =>
      let status := policy.judge (item.attempts + 1) outcome
      let (result, left, last) := drain policy submit after (settle rest item.command status)
      (result.map status.tally.add, left, last)
termination_by attemptsLeft policy q
decreasing_by exact attemptsLeft_settle_lt policy item rest outcome

theorem drain_eq (policy : RetryPolicy) (submit : σ → Command → Attempt × σ) (s : σ) (q : Queue) :
    q.drain policy submit s =
      match q.processNext policy submit s with
      | (.error i, left, after) => (.error i, left, after)
      | (.ok none, left, after) => (.ok .zero, left, after)
      | (.ok (some status), left, after) =>
        let (result, last) := left.drain policy submit after
        (result.map status.tally.add, last) := by
  cases q with
  | nil => rw [drain, processNext]
  | cons item rest =>
    rw [drain, processNext]
    rcases submit s item.command with ⟨_ | outcome, after⟩
    · rfl
    · rfl

end Queue

end TransferLifecycle
