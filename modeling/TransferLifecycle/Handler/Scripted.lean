import TransferLifecycle.Handler

set_option autoImplicit false

/- Handlers that do not follow the life cycle: they leave a process alone, change one part of it, or
answer the same to everything. -/
namespace TransferLifecycle.Handler

def succeeding (kind : CommandKind) (change : TransferProcess → TransferProcess) : Handler :=
  ⟨kind, fun p _ _ => .ok (.success (change p))⟩

def inert (kind : CommandKind) : Handler := succeeding kind id

def relabelling (kind : CommandKind) (newId : ProcessId) : Handler :=
  succeeding kind fun p => { p with id := newId }

def detailing (kind : CommandKind) (detail : Option String) : Handler :=
  succeeding kind (·.withDetail detail)

def jumping (kind : CommandKind) (state : State) : Handler := succeeding kind (·.withState state)

def rejecting (kind : CommandKind) (failure : Failure) : Handler :=
  ⟨kind, fun _ _ _ => .ok (.failure failure)⟩

def aborting (kind : CommandKind) (text : String) : Handler :=
  ⟨kind, fun _ _ _ => .error ⟨text⟩⟩

end TransferLifecycle.Handler
