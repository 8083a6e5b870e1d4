import TransferLifecycle.Commit

set_option autoImplicit false

/- A committed change is announced to the listeners in their order, to each in full before the next.
A listener may submit a command in between; an abort ends the announcement. -/
namespace TransferLifecycle

namespace Session

/-- Delivers callbacks to the listener at a place. A submitted command is handed to `submit`; its
answer is dropped, but an abort goes through. -/
def call (submit : Session → Command → Attempt × Session) (place : Nat) (l : Listener) :
    Session → List Callback → Option Abort × Session
  | s, [] => (none, s)
  | s, cb :: rest =>
    let heard := s.deliver ⟨place, cb⟩
    match l.react s.deliveries cb with
    | .none => call submit place l heard rest
    | .abort reason => (some reason, heard)
    | .submit c =>
      match submit heard c with
      | (.error (.abort reason), after) => (some reason, after)
      | (_, after) => call submit place l after rest

/-- Tells the listeners of a change, one after the other. An abort ends the round. -/
def announce (submit : Session → Command → Attempt × Session) (process : TransferProcess)
    (previous : State) : Nat → List Listener → Session → Option Abort × Session
  | _, [], s => (none, s)
  | place, l :: rest, s =>
    match s.call submit place l ((Hook.ofState process.state).map (⟨·, process, previous⟩)) with
    | (some reason, after) => (some reason, after)
    | (none, after) => announce submit process previous (place + 1) rest after

end Session

end TransferLifecycle
