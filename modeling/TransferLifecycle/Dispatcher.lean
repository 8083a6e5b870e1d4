import TransferLifecycle.Announcement

set_option autoImplicit false

/- The dispatcher applies one command to one stored process: it checks the command, commits it under
the guard of the process and announces a change of state before the guard is released. -/
namespace TransferLifecycle

structure Dispatcher where
  registry : Registry
  listeners : List Listener

namespace Dispatcher

/-- One command under the guard of its process, where listeners submit through `submit`. -/
def applyWith (d : Dispatcher) (submit : Session → Command → Attempt × Session) (s : Session)
    (c : Command) : Attempt × Session :=
  match d.registry.resolve c.kind with
  | none => (.error (.error (.unresolvedHandler c.kind)), s)
  | some h =>
    match c.invalid? with
    | some f => (.ok (.failure f), s)
    | none =>
      match (s.guard c.processId).commit h c with
      | (.error i, after) => (.error i, after)
      | (.ok (.changed p previous), after) =>
        match after.announce submit p previous 0 d.listeners with
        | (some reason, told) => (.error (.abort reason), told)
        | (none, told) => (.ok (.success p), told)
      | (.ok committed, after) => (.ok committed.outcome, after)

/-- Commands submitted by listeners, and by listeners to those, down to a depth. -/
def applyWithin (d : Dispatcher) : Nat → Session → Command → Attempt × Session
  | 0 => d.applyWith fun s c => (.ok (.failure (notFoundFailure c.processId)), s)
  | depth + 1 => d.applyWith (d.applyWithin depth)

/-- A command of a listener is applied under all guards of the commands it answers, and a guard is
not given twice; so a chain of them is no longer than the roster. -/
def apply (d : Dispatcher) (s : Session) (c : Command) : Attempt × Session :=
  d.applyWithin s.store.roster.size s c

def audience (listeners : List Listener) : String :=
  s!"TransferProcessObservable \x7b listeners: {listeners.length} \x7d"

def description (d : Dispatcher) (s : Session) : String :=
  s!"CommandDispatcher \x7b registry: {d.registry.description}, observable: " ++
    s!"{audience d.listeners}, guards: {s.guards.length} \x7d"

end Dispatcher

end TransferLifecycle
