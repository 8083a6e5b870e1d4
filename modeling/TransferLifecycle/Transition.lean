import TransferLifecycle.Command
import TransferLifecycle.Outcome

set_option autoImplicit false

/- Which transitions there are. Asking for the state that a process is already in is no error: the
command was delivered before, and nothing has to be done. -/
namespace TransferLifecycle

structure Transition where
  source : State
  target : State
  deriving DecidableEq, Repr

namespace Transition

def isNoop (t : Transition) : Bool := t.source == t.target

def refusal (current : State) (kind : CommandKind) : Failure :=
  .single .illegalTransition <|
    if current.isTerminal then
      s!"Cannot apply '{kind.name}' to transfer process in terminal state {current.name}"
    else
      s!"Cannot apply '{kind.name}' to transfer process in state {current.name}"

def find (current : State) (kind : CommandKind) : Except Failure Transition :=
  if current = kind.target ∨ current ∈ kind.sources then .ok ⟨current, kind.target⟩
  else .error (refusal current kind)

theorem find_ok_iff (current : State) (kind : CommandKind) (t : Transition) :
    find current kind = .ok t ↔
      t = ⟨current, kind.target⟩ ∧ (current = kind.target ∨ current ∈ kind.sources) := by
  unfold find
  split <;> simp_all [eq_comm]

theorem find_error_iff (current : State) (kind : CommandKind) (f : Failure) :
    find current kind = .error f ↔
      f = refusal current kind ∧ current ≠ kind.target ∧ current ∉ kind.sources := by
  unfold find
  split
  next h =>
    constructor
    · intro e; cases e
    · rintro ⟨_, other, outside⟩; exact absurd h (not_or.2 ⟨other, outside⟩)
  next h =>
    rw [not_or] at h
    simp [h, eq_comm]

end Transition

/-- What a command makes of a process at a given time. -/
def Command.applyTo (c : Command) (p : TransferProcess) (now : Instant) : Outcome TransferProcess :=
  match Transition.find p.state c.kind with
  | .error f => .failure f
  | .ok t =>
    if t.isNoop then .success p
    else .success ((p.enter t.target now).withDetail (c.action.detail p.errorDetail))

end TransferLifecycle
