import TransferLifecycle.Transition

set_option autoImplicit false

/- A handler answers the commands of one kind. The standard handlers apply the transition; a handler
of another make may answer anything, or abort. -/
namespace TransferLifecycle

structure Handler where
  kind : CommandKind
  handle : TransferProcess → Command → Instant → Except Abort (Outcome TransferProcess)

namespace Handler

/-- The abort of a standard handler that got a command of another kind. -/
def kindMismatch (given expected : CommandKind) : Abort :=
  ⟨"assertion `left == right` failed\n  left: " ++ given.label ++ "\n right: " ++ expected.label⟩

def standard (kind : CommandKind) : Handler where
  kind
  handle p c now :=
    if c.kind = kind then .ok (c.applyTo p now) else .error (kindMismatch c.kind kind)

theorem standard_handle_of_kind (c : Command) (p : TransferProcess) (now : Instant) :
    (standard c.kind).handle p c now = .ok (c.applyTo p now) := by simp [standard]

end Handler

end TransferLifecycle
