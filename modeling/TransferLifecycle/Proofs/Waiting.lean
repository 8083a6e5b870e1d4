import TransferLifecycle.Proofs.Hearing
import TransferLifecycle.Scenario

set_option autoImplicit false

/- A listener is called under the guard of the process it hears of. A command that it submits for a
process under guard waits for that guard, and so for ever. The functions here follow a run and say
whether it gets by without such a wait. -/
namespace TransferLifecycle

/-- A listener that never aborts. It may submit commands. -/
def Listener.Unfailing (l : Listener) : Prop := ∀ heard cb reason, l.react heard cb ≠ .abort reason

theorem Listener.Unfailing.calm {l : Listener} (unfailing : l.Unfailing) (quiet : l.Quiet) :
    l.Calm := by
  intro heard cb
  cases reacted : l.react heard cb with
  | none => rfl
  | submit c => exact absurd reacted (quiet heard cb c)
  | abort reason => exact absurd reacted (unfailing heard cb reason)

namespace Session

/-- No command that the listener submits in these callbacks waits, where `free` says so of one. -/
def callFree (submit : Session → Command → Attempt × Session) (free : Session → Command → Bool)
    (place : Nat) (l : Listener) : Session → List Callback → Bool
  | _, [] => true
  | s, cb :: rest =>
    let heard := s.deliver ⟨place, cb⟩
    match l.react s.deliveries cb with
    | .none => callFree submit free place l heard rest
    | .abort _ => true
    | .submit c =>
      free heard c &&
        match submit heard c with
        | (.error (.abort _), _) => true
        | (_, after) => callFree submit free place l after rest

def announceFree (submit : Session → Command → Attempt × Session)
    (free : Session → Command → Bool) (process : TransferProcess) (previous : State) :
    Nat → List Listener → Session → Bool
  | _, [], _ => true
  | place, l :: rest, s =>
    let callbacks := (Hook.ofState process.state).map (⟨·, process, previous⟩)
    callFree submit free place l s callbacks &&
      match s.call submit place l callbacks with
      | (some _, _) => true
      | (none, after) => announceFree submit free process previous (place + 1) rest after

end Session

namespace Dispatcher

/-- The command does not wait, and neither does what is submitted because of it: only a valid
command takes a guard, and `held` are the guards that are taken already. -/
def freeWith (d : Dispatcher) (submit : Session → Command → Attempt × Session)
    (free : List ProcessId → Session → Command → Bool) (held : List ProcessId) (s : Session)
    (c : Command) : Bool :=
  match d.registry.resolve c.kind, c.invalid? with
  | some h, none =>
    !held.contains c.processId &&
      match (s.guard c.processId).commit h c with
      | (.ok (.changed p previous), after) =>
        after.announceFree submit (free (c.processId :: held)) p previous 0 d.listeners
      | _ => true
  | _, _ => true

/-- Follows `applyWithin`. -/
def freeWithin (d : Dispatcher) : Nat → List ProcessId → Session → Command → Bool
  | 0 => d.freeWith (fun s c => (.ok (.failure (notFoundFailure c.processId)), s)) fun _ _ _ => true
  | depth + 1 => d.freeWith (d.applyWithin depth) (d.freeWithin depth)

/-- Neither the command nor anything submitted because of it waits for ever. -/
def neverWaits (d : Dispatcher) (s : Session) (c : Command) : Bool :=
  d.freeWithin s.store.roster.size [] s c

def neverWaitsAll (d : Dispatcher) : Session → List Command → Bool
  | _, [] => true
  | s, c :: rest => d.neverWaits s c && d.neverWaitsAll (d.apply s c).2 rest

end Dispatcher

/- Where listeners submit nothing, nothing waits. -/

namespace Session

variable {submit : Session → Command → Attempt × Session} {free : Session → Command → Bool}

theorem callFree_of_quiet {l : Listener} (quiet : l.Quiet) (place : Nat) (s : Session)
    (cbs : List Callback) : s.callFree submit free place l cbs = true := by
  induction cbs generalizing s with
  | nil => rfl
  | cons cb rest ih =>
    rw [callFree]
    split
    next => exact ih _
    next => rfl
    next c reacted => exact absurd reacted (quiet _ _ c)

theorem announceFree_of_quiet {listeners : List Listener} (quiet : ∀ l ∈ listeners, l.Quiet)
    (process : TransferProcess) (previous : State) (place : Nat) (s : Session) :
    s.announceFree submit free process previous place listeners = true := by
  induction listeners generalizing place s with
  | nil => rfl
  | cons l rest ih =>
    rw [announceFree]
    simp only [callFree_of_quiet (quiet l List.mem_cons_self), Bool.true_and]
    split
    next => rfl
    next => exact ih (fun l member => quiet l (List.mem_cons_of_mem _ member)) _ _

end Session

namespace Dispatcher

variable {d : Dispatcher}

theorem freeWith_of_quiet (quiet : ∀ l ∈ d.listeners, l.Quiet)
    (submit : Session → Command → Attempt × Session)
    (free : List ProcessId → Session → Command → Bool) (s : Session) (c : Command) :
    d.freeWith submit free [] s c = true := by
  unfold freeWith
  split
  next =>
    simp only [List.contains_nil, Bool.not_false, Bool.true_and]
    split
    next => exact Session.announceFree_of_quiet quiet _ _ _ _
    next => rfl
  next => rfl

/-- A dispatcher whose listeners submit nothing never waits. -/
theorem neverWaitsAll_of_quiet (quiet : ∀ l ∈ d.listeners, l.Quiet) (s : Session)
    (commands : List Command) : d.neverWaitsAll s commands = true := by
  induction commands generalizing s with
  | nil => rfl
  | cons c rest ih =>
    rw [neverWaitsAll, ih, Bool.and_true, neverWaits]
    cases s.store.roster.size with
    | zero => exact freeWith_of_quiet quiet _ _ s c
    | succ depth => exact freeWith_of_quiet quiet _ _ s c

end Dispatcher

end TransferLifecycle
