import TransferLifecycle.CommandKind
import TransferLifecycle.Outcome
import TransferLifecycle.TransferProcess

set_option autoImplicit false

/- What stops a computation before it has an outcome: a fault in how handlers were put together,
which is reported, or an abort. -/
namespace TransferLifecycle

inductive DispatchFault where
  | unresolvedHandler (kind : CommandKind)
  | handlerIdMismatch (kind : CommandKind) (expected returned : ProcessId)
  deriving DecidableEq, Repr

def DispatchFault.message : DispatchFault → String
  | unresolvedHandler kind => s!"No handler registered for '{kind.name}' commands"
  | handlerIdMismatch kind expected returned =>
    s!"Handler for '{kind.name}' returned process {returned.text} while handling {expected.text}"

inductive Interruption where
  | error (fault : DispatchFault)
  | abort (reason : Abort)
  deriving DecidableEq, Repr

abbrev Attempt := Except Interruption (Outcome TransferProcess)

end TransferLifecycle
