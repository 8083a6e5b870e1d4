import TransferLifecycle.Engine
import TransferLifecycle.Proofs.Links

set_option autoImplicit false

/- The journal of a run holds the transitions that it commits, in their order, whether a record
asked for them or a listener in between. It is kept beside the run: what is entered is what the
commit of the command answered, with the command and the row that was there, and the run takes no
notice. -/
namespace TransferLifecycle

namespace Link

/-- The transitions of one process, in their order. -/
def about (x : ProcessId) (links : List Link) : List Link :=
  links.filter (·.command.processId = x)

theorem about_append (x : ProcessId) (first second : List Link) :
    about x (first ++ second) = about x first ++ about x second := List.filter_append ..

theorem about_singleton (x : ProcessId) (l : Link) :
    about x [l] = if l.command.processId = x then [l] else [] := by
  by_cases own : l.command.processId = x <;> simp [about, own]

end Link

namespace Session

/-- What is committed while callbacks are delivered: `journal` is that of a submitted command. -/
def callJournal (submit : Session → Command → Attempt × Session)
    (journal : Session → Command → List Link) (place : Nat) (l : Listener) :
    Session → List Callback → List Link
  | _, [] => []
  | s, cb :: rest =>
    let heard := s.deliver ⟨place, cb⟩
    match l.react s.deliveries cb with
    | .none => callJournal submit journal place l heard rest
    | .abort _ => []
    | .submit c =>
      journal heard c ++
        match submit heard c with
        | (.error (.abort _), _) => []
        | (_, after) => callJournal submit journal place l after rest

def announceJournal (submit : Session → Command → Attempt × Session)
    (journal : Session → Command → List Link) (process : TransferProcess) (previous : State) :
    Nat → List Listener → Session → List Link
  | _, [], _ => []
  | place, l :: rest, s =>
    let callbacks := (Hook.ofState process.state).map (⟨·, process, previous⟩)
    callJournal submit journal place l s callbacks ++
      match s.call submit place l callbacks with
      | (some _, _) => []
      | (none, after) => announceJournal submit journal process previous (place + 1) rest after

end Session

namespace Dispatcher

/-- The transition that a command commits, and behind it those of the commands that listeners submit
when they hear of it. -/
def journalWith (d : Dispatcher) (submit : Session → Command → Attempt × Session)
    (journal : Session → Command → List Link) (s : Session) (c : Command) : List Link :=
  match d.registry.resolve c.kind, c.invalid? with
  | some h, none =>
    match (s.guard c.processId).commit h c with
    | (.ok (.changed p previous), after) =>
      (s.store.get? c.processId).toList.map (⟨c, ·, p⟩) ++
        after.announceJournal submit journal p previous 0 d.listeners
    | _ => []
  | _, _ => []

/-- Follows `applyWithin`. -/
def journalWithin (d : Dispatcher) : Nat → Session → Command → List Link
  | 0 => d.journalWith (fun s c => (.ok (.failure (notFoundFailure c.processId)), s)) fun _ _ => []
  | depth + 1 => d.journalWith (d.applyWithin depth) (d.journalWithin depth)

def journal (d : Dispatcher) (s : Session) (c : Command) : List Link :=
  d.journalWithin s.store.roster.size s c

/-- Applies a command and carries the journal on. -/
def journaled (d : Dispatcher) (t : Session × List Link) (c : Command) :
    Attempt × Session × List Link :=
  ((d.apply t.1 c).1, (d.apply t.1 c).2, t.2 ++ d.journal t.1 c)

end Dispatcher

namespace Engine

def recordJournal (e : Engine) (s : Session) : Record → List Link
  | .initiate _ => []
  | .command c => ((Queue.push [] c).drain e.policy e.dispatcher.journaled (s, [])).2.2.2

/-- The journal of all records of a log, whatever each of them comes to. -/
def journal (e : Engine) (s : Session) : List Record → List Link
  | [] => []
  | r :: rest => e.recordJournal s r ++ e.journal (e.apply s r).2 rest

end Engine

end TransferLifecycle
