import TransferLifecycle.Command
import TransferLifecycle.Outcome

set_option autoImplicit false

/- Listeners hear of committed changes. Each change is told in two callbacks, the change itself and
the state entered, and a listener may answer a callback with a command of its own or abort. -/
namespace TransferLifecycle

inductive Hook where
  | changed
  | requested
  | started
  | suspended
  | completed
  | terminated
  | failed
  deriving DecidableEq, Repr

namespace Hook

def name : Hook → String
  | changed => "changed"
  | requested => "requested"
  | started => "started"
  | suspended => "suspended"
  | completed => "completed"
  | terminated => "terminated"
  | failed => "failed"

def all : List Hook := [changed, requested, started, suspended, completed, terminated, failed]

def ofName? (text : String) : Option Hook := all.find? (·.name == text)

/-- The hooks called for a change to a state, in order. Nothing ever enters the first state. -/
def ofState : State → List Hook
  | .initial => [changed]
  | .requested => [changed, requested]
  | .started => [changed, started]
  | .suspended => [changed, suspended]
  | .completed => [changed, completed]
  | .terminated => [changed, terminated]
  | .error => [changed, failed]

end Hook

structure Callback where
  hook : Hook
  process : TransferProcess
  previous : State
  deriving DecidableEq, Repr

/-- A callback as received by the listener at a place of the list, counted from zero. -/
structure Delivery where
  listener : Nat
  callback : Callback
  deriving DecidableEq, Repr

def Delivery.text (d : Delivery) : String :=
  let head := s!"{d.listener}:{d.callback.hook.name}:{d.callback.process.id.text}"
  match d.callback.hook with
  | .changed => s!"{head}:{d.callback.previous.name}->{d.callback.process.state.name}"
  | _ => head

inductive Reaction where
  | none
  | submit (command : Command)
  | abort (reason : Abort)
  deriving DecidableEq, Repr

/-- A listener sees the callback and everything delivered before it, the newest first. -/
structure Listener where
  react : List Delivery → Callback → Reaction

namespace Listener

def silent : Listener := ⟨fun _ _ => .none⟩

/-- Aborts in one hook. The text names the listener by its place. -/
def exploding (place : Nat) (hook : Hook) : Listener where
  react _ cb :=
    if cb.hook = hook then .abort ⟨s!"listener {place} blew up in {hook.name}"⟩ else .none

/-- Submits a command in one hook, for the process with the given text after its id. -/
def cascading (hook : Hook) (suffix : String) (action : Action) : Listener where
  react _ cb :=
    if cb.hook = hook then .submit ⟨⟨cb.process.id.text ++ suffix⟩, action⟩ else .none

end Listener

end TransferLifecycle
