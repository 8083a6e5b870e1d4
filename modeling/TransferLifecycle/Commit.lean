import TransferLifecycle.Interruption
import TransferLifecycle.Registry
import TransferLifecycle.Session

set_option autoImplicit false

/- One command at the store: the process is loaded, the handler decides, and what changed is saved.
Nothing is announced here. -/
namespace TransferLifecycle

/-- What is to be done about a loaded process. -/
inductive Decision where
  | reject (failure : Failure)
  | keep (process : TransferProcess)
  | write (next : TransferProcess)
  deriving DecidableEq, Repr

def Handler.decide (h : Handler) (current : TransferProcess) (c : Command) (now : Instant) :
    Except Interruption Decision :=
  match h.handle current c now with
  | .error reason => .error (.abort reason)
  | .ok (.failure f) => .ok (.reject f)
  | .ok (.success next) =>
    if next.id ≠ current.id then .error (.error (.handlerIdMismatch h.kind current.id next.id))
    else if next = current then .ok (.keep next)
    else .ok (.write next)

/-- What became of a command at the store. Only a change of state is announced. -/
inductive Commit where
  | rejected (failure : Failure)
  | unchanged (process : TransferProcess)
  | changed (process : TransferProcess) (previous : State)
  deriving DecidableEq, Repr

def Commit.outcome : Commit → Outcome TransferProcess
  | rejected f => .failure f
  | unchanged p | changed p _ => .success p

def storageFailure (e : StoreError) : Failure := .single .storage e.message

def notFoundFailure (id : ProcessId) : Failure :=
  .single .notFound (StoreError.notFound id).message

namespace Session

/-- Saves what a handler made of the current process. -/
def save (s : Session) (current next : TransferProcess) : Commit × Session :=
  match s.store.save next with
  | (.error e, store) => (.rejected (storageFailure e), { s with store })
  | (.ok (), store) =>
    (if next.state = current.state then .unchanged next else .changed next current.state,
      { s with store })

def commit (s : Session) (h : Handler) (c : Command) : Except Interruption Commit × Session :=
  match s.store.load c.processId with
  | (.error e, store) => (.ok (.rejected (storageFailure e)), { s with store })
  | (.ok none, store) => (.ok (.rejected (notFoundFailure c.processId)), { s with store })
  | (.ok (some current), store) =>
    let read := { s with store, clock := s.clock.advance }
    match h.decide current c s.clock.now with
    | .error i => (.error i, read)
    | .ok (.reject f) => (.ok (.rejected f), read)
    | .ok (.keep p) => (.ok (.unchanged p), read)
    | .ok (.write next) =>
      let (committed, saved) := read.save current next
      (.ok committed, saved)

end Session

end TransferLifecycle
