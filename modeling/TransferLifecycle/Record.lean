import TransferLifecycle.Command

set_option autoImplicit false

/- A record of a log either brings a process into being or commands one. Each record is about
exactly one process. -/
namespace TransferLifecycle

inductive Record where
  | initiate (id : ProcessId)
  | command (command : Command)
  deriving DecidableEq, Repr

def Record.processId : Record → ProcessId
  | initiate id => id
  | command c => c.processId

end TransferLifecycle
