import TransferLifecycle.Engine

set_option autoImplicit false

/- What the engine does, cut into the single actions on the session that other tasks may come
between: a call of the store, a reading of the clock, a guard, a callback. Done with nothing in
between, the steps are what the engine does. -/
namespace TransferLifecycle

/-- A computation in steps. Each action has an effect on the session, and what comes next may depend
on the session that it met. -/
inductive Steps (α : Type) : Type where
  | done (answer : α)
  | act (effect : Session → Session) (next : Session → Steps α)

namespace Steps

variable {α β : Type}

def bind : Steps α → (α → Steps β) → Steps β
  | done a, f => f a
  | act effect next, f => act effect fun s => (next s).bind f

instance : Monad Steps where
  pure := done
  bind := bind

/-- All steps, with nothing in between. -/
def solo : Steps α → Session → α × Session
  | done a, s => (a, s)
  | act effect next, s => (next s).solo (effect s)

/-- A single action. -/
def once (action : Session → α × Session) : Steps α :=
  act (fun s => (action s).2) fun s => done (action s).1

@[simp] theorem solo_pure (a : α) (s : Session) : (pure a : Steps α).solo s = (a, s) := rfl

@[simp] theorem solo_once (action : Session → α × Session) (s : Session) :
    (once action).solo s = action s := rfl

@[simp] theorem solo_bind (t : Steps α) (f : α → Steps β) (s : Session) :
    (t >>= f).solo s = (f (t.solo s).1).solo (t.solo s).2 := by
  induction t generalizing s with
  | done a => rfl
  | act effect next ih => exact ih s (effect s)

def guard (id : ProcessId) : Steps Unit := once fun s => ((), s.guard id)

def load (id : ProcessId) : Steps (Except StoreError (Option TransferProcess)) :=
  once fun s => ((s.store.load id).1, { s with store := (s.store.load id).2 })

def save (p : TransferProcess) : Steps (Except StoreError Unit) :=
  once fun s => ((s.store.save p).1, { s with store := (s.store.save p).2 })

def create (p : TransferProcess) : Steps (Except StoreError Unit) :=
  once fun s => ((s.store.create p).1, { s with store := (s.store.create p).2 })

def now : Steps Instant := once fun s => (s.clock.now, { s with clock := s.clock.advance })

def hear (place : Nat) (l : Listener) (cb : Callback) : Steps Reaction :=
  once fun s => (l.react s.deliveries cb, s.deliver ⟨place, cb⟩)

def commit (h : Handler) (c : Command) : Steps (Except Interruption Commit) := do
  match ← load c.processId with
  | .error e => return .ok (.rejected (storageFailure e))
  | .ok none => return .ok (.rejected (notFoundFailure c.processId))
  | .ok (some current) =>
    match h.decide current c (← now) with
    | .error i => return .error i
    | .ok (.reject f) => return .ok (.rejected f)
    | .ok (.keep p) => return .ok (.unchanged p)
    | .ok (.write next) =>
      match ← save next with
      | .error e => return .ok (.rejected (storageFailure e))
      | .ok () =>
        return .ok (if next.state = current.state then .unchanged next
          else .changed next current.state)

def call (submit : Command → Steps Attempt) (place : Nat) (l : Listener) :
    List Callback → Steps (Option Abort)
  | [] => return none
  | cb :: rest => do
    match ← hear place l cb with
    | .none => call submit place l rest
    | .abort reason => return some reason
    | .submit c =>
      match ← submit c with
      | .error (.abort reason) => return some reason
      | _ => call submit place l rest

def announce (submit : Command → Steps Attempt) (process : TransferProcess) (previous : State) :
    Nat → List Listener → Steps (Option Abort)
  | _, [] => return none
  | place, l :: rest => do
    match ← call submit place l ((Hook.ofState process.state).map (⟨·, process, previous⟩)) with
    | some reason => return some reason
    | none => announce submit process previous (place + 1) rest

theorem solo_commit (h : Handler) (c : Command) (s : Session) :
    (commit h c).solo s = s.commit h c := by
  simp only [commit, Session.commit, solo_bind, load, solo_once]
  rcases s.store.load c.processId with ⟨_ | _ | current, store⟩
  · rfl
  · rfl
  · simp only [solo_bind, now, solo_once]
    rcases h.decide current c s.clock.now with i | _ | _ | next
    · rfl
    · rfl
    · rfl
    · simp only [solo_bind, save, solo_once, Session.save]
      rcases store.save next with ⟨_ | _, saved⟩ <;> rfl

section Listening

variable (submit : Command → Steps Attempt)

theorem solo_call (place : Nat) (l : Listener) (cbs : List Callback) (s : Session) :
    (call submit place l cbs).solo s = s.call (fun s c => (submit c).solo s) place l cbs := by
  induction cbs generalizing s with
  | nil => rfl
  | cons cb rest ih =>
    simp only [call, Session.call, solo_bind, hear, solo_once]
    cases l.react s.deliveries cb with
    | none => exact ih _
    | abort reason => rfl
    | submit c =>
      simp only [solo_bind]
      rcases (submit c).solo (s.deliver ⟨place, cb⟩) with ⟨(_ | reason) | outcome, after⟩
      · exact ih after
      · rfl
      · exact ih after

theorem solo_announce (process : TransferProcess) (previous : State) (place : Nat)
    (listeners : List Listener) (s : Session) :
    (announce submit process previous place listeners).solo s =
      s.announce (fun s c => (submit c).solo s) process previous place listeners := by
  induction listeners generalizing place s with
  | nil => rfl
  | cons l rest ih =>
    simp only [announce, Session.announce, solo_bind, solo_call]
    rcases s.call (fun s c => (submit c).solo s) place l
      ((Hook.ofState process.state).map (⟨·, process, previous⟩)) with ⟨_ | reason, after⟩
    · exact ih (place + 1) after
    · rfl

end Listening

end Steps

namespace Dispatcher

def stepsWith (d : Dispatcher) (submit : Command → Steps Attempt) (c : Command) : Steps Attempt :=
  match d.registry.resolve c.kind with
  | none => return .error (.error (.unresolvedHandler c.kind))
  | some h =>
    match c.invalid? with
    | some f => return .ok (.failure f)
    | none => do
      Steps.guard c.processId
      match ← Steps.commit h c with
      | .error i => return .error i
      | .ok (.changed p previous) =>
        match ← Steps.announce submit p previous 0 d.listeners with
        | some reason => return .error (.abort reason)
        | none => return .ok (.success p)
      | .ok committed => return .ok committed.outcome

def stepsWithin (d : Dispatcher) : Nat → Command → Steps Attempt
  | 0 => d.stepsWith fun c => return .ok (.failure (notFoundFailure c.processId))
  | depth + 1 => d.stepsWith (d.stepsWithin depth)

/-- The first step takes no time: it only looks how deep listeners may submit. -/
def steps (d : Dispatcher) (c : Command) : Steps Attempt :=
  .act id fun s => d.stepsWithin s.store.roster.size c

theorem solo_stepsWith (d : Dispatcher) (submit : Command → Steps Attempt) (c : Command)
    (s : Session) :
    (d.stepsWith submit c).solo s = d.applyWith (fun s c => (submit c).solo s) s c := by
  simp only [stepsWith, applyWith]
  cases d.registry.resolve c.kind with
  | none => rfl
  | some h =>
    cases c.invalid? with
    | some f => rfl
    | none =>
      simp only [Steps.solo_bind, Steps.guard, Steps.solo_once, Steps.solo_commit]
      rcases (s.guard c.processId).commit h c with ⟨i | _ | _ | ⟨p, previous⟩, after⟩
      · rfl
      · rfl
      · rfl
      · simp only [Steps.solo_bind, Steps.solo_announce]
        rcases after.announce (fun s c => (submit c).solo s) p previous 0 d.listeners
          with ⟨_ | reason, told⟩ <;> rfl

theorem solo_stepsWithin (d : Dispatcher) (depth : Nat) (c : Command) (s : Session) :
    (d.stepsWithin depth c).solo s = d.applyWithin depth s c := by
  induction depth generalizing c s with
  | zero => exact d.solo_stepsWith _ c s
  | succ depth ih =>
    rw [stepsWithin, solo_stepsWith, applyWithin]
    simp only [ih]

theorem solo_steps (d : Dispatcher) (c : Command) (s : Session) :
    (d.steps c).solo s = d.apply s c := d.solo_stepsWithin _ c s

end Dispatcher

def Queue.drainSteps (policy : RetryPolicy) (submit : Command → Steps Attempt) (q : Queue) :
    Steps (Except Interruption Tally) :=
  match q with
  | [] => return .ok .zero
  | item :: rest => do
    match ← submit item.command with
    | .error i => return .error i
    | .ok outcome =>
      let status := policy.judge (item.attempts + 1) outcome
      return (← drainSteps policy submit (settle rest item.command status)).map status.tally.add
termination_by attemptsLeft policy q
decreasing_by exact attemptsLeft_settle_lt policy item rest outcome

theorem Queue.solo_drainSteps (policy : RetryPolicy)
    {submit : Session → Command → Attempt × Session} {steps : Command → Steps Attempt}
    (same : ∀ c s, (steps c).solo s = submit s c) (q : Queue) (s : Session) :
    (drainSteps policy steps q).solo s =
      ((drain policy submit s q).1, (drain policy submit s q).2.2) := by
  fun_induction drain policy submit s q with
  | case1 s => rw [drainSteps, Steps.solo_pure]
  | case2 s item rest i after attempt =>
    rw [drainSteps]
    simp only [Steps.solo_bind, same, attempt, Steps.solo_pure]
  | case3 s item rest outcome after attempt status result left last drained ih =>
    rw [drained] at ih
    rw [drainSteps]
    simp only [Steps.solo_bind, same, attempt, Steps.solo_pure]
    rw [ih]

namespace Engine

def recordSteps (e : Engine) : Record → Steps (Except Interruption Tally)
  | .initiate id => do
    match ← Steps.create (.initial id (← Steps.now)) with
    | .ok () => return .ok ⟨1, 0, 0, 0⟩
    | .error _ => return .ok ⟨0, 1, 0, 0⟩
  | .command c => Queue.drainSteps e.policy e.dispatcher.steps (Queue.push [] c)

def runSteps (e : Engine) (total : Tally) : List Record → Steps (Except Interruption Tally)
  | [] => return .ok total
  | r :: rest => do
    match ← e.recordSteps r with
    | .error i => return .error i
    | .ok tally => e.runSteps (total.add tally) rest

theorem solo_recordSteps (e : Engine) (r : Record) (s : Session) :
    (e.recordSteps r).solo s = e.apply s r := by
  cases r with
  | initiate id =>
    simp only [recordSteps, apply, initiate, Steps.solo_bind, Steps.now, Steps.create,
      Steps.solo_once]
    rcases s.store.create (.initial id s.clock.now) with ⟨_ | _, store⟩ <;> rfl
  | command c =>
    exact Queue.solo_drainSteps e.policy (fun c s => e.dispatcher.solo_steps c s) _ s

/-- The steps of a run, with nothing in between, are the run. -/
theorem solo_runSteps (e : Engine) (total : Tally) (records : List Record) (s : Session) :
    (e.runSteps total records).solo s = e.runFrom total s records := by
  induction records generalizing total s with
  | nil => rfl
  | cons r rest ih =>
    simp only [runSteps, runFrom, Steps.solo_bind, solo_recordSteps]
    rcases e.apply s r with ⟨i | tally, after⟩
    · rfl
    · exact ih (total.add tally) after

end Engine

end TransferLifecycle
