import Mathlib.Algebra.Order.BigOperators.Group.Finset
import Mathlib.Logic.Relation
import TransferLifecycle.Proofs.ListenerIndependence

set_option autoImplicit false

/- Several callers at one dispatcher. A command goes through its stages under the guard of its
process, one stage at a time, and other callers may come in between; an initiation takes no guard. A
command that nobody comes in between of is applied as the dispatcher applies it, and there is always
a caller that can go on. -/
namespace TransferLifecycle

/-- How far a command has come under the guard of its process. -/
inductive Stage where
  | acquired
  | loaded (current : TransferProcess)
  | handled (current next : TransferProcess)
  | saved (process : TransferProcess) (previous : State)
  | answered (answer : Attempt)

namespace Stage

def ofLoad (id : ProcessId) : Except StoreError (Option TransferProcess) → Stage
  | .ok (some current) => loaded current
  | .ok none => answered (.ok (.failure (notFoundFailure id)))
  | .error e => answered (.ok (.failure (storageFailure e)))

def ofDecision (current : TransferProcess) : Except Interruption Decision → Stage
  | .ok (.write next) => handled current next
  | .ok (.keep p) => answered (.ok (.success p))
  | .ok (.reject f) => answered (.ok (.failure f))
  | .error i => answered (.error i)

def ofSave (current next : TransferProcess) : Except StoreError Unit → Stage
  | .ok () =>
    if next.state = current.state then answered (.ok (.success next))
    else saved next current.state
  | .error e => answered (.ok (.failure (storageFailure e)))

def answer? : Stage → Option Attempt
  | answered a => some a
  | _ => none

theorem eq_of_answer? {st : Stage} {a : Attempt} (given : st.answer? = some a) :
    st = answered a := by
  cases st <;> cases given
  rfl

/-- At most so many stages are still to come. -/
def left : Stage → Nat
  | acquired => 4
  | loaded _ => 3
  | handled _ _ => 2
  | saved _ _ => 1
  | answered _ => 0

theorem left_ofLoad (id : ProcessId) (row : Except StoreError (Option TransferProcess)) :
    (ofLoad id row).left ≤ 3 := by rcases row with _ | _ | _ <;> simp [ofLoad, left]

theorem left_ofDecision (current : TransferProcess) (decision : Except Interruption Decision) :
    (ofDecision current decision).left ≤ 2 := by
  rcases decision with _ | _ | _ | _ <;> simp [ofDecision, left]

theorem left_ofSave (current next : TransferProcess) (saved : Except StoreError Unit) :
    (ofSave current next saved).left ≤ 1 := by
  cases saved with
  | error e => simp [ofSave, left]
  | ok _ =>
    simp only [ofSave]
    split <;> simp [left]

end Stage

namespace Dispatcher

/-- What a command meets before the guard: an answer, or the handler that it goes on with. -/
def gate (d : Dispatcher) (c : Command) : Except Attempt Handler :=
  match d.registry.resolve c.kind with
  | none => .error (.error (.error (.unresolvedHandler c.kind)))
  | some h =>
    match c.invalid? with
    | some f => .error (.ok (.failure f))
    | none => .ok h

section Stages

variable (d : Dispatcher) (submit : Session → Command → Attempt × Session) (h : Handler)
  (c : Command)

/-- The step from one stage to the next: the process is loaded, handled, saved and announced. The
answer ends it. -/
def advance : Stage → Session → Stage × Session
  | .acquired, s =>
    (.ofLoad c.processId (s.store.load c.processId).1,
      { s with store := (s.store.load c.processId).2 })
  | .loaded current, s =>
    (.ofDecision current (h.decide current c s.clock.now), { s with clock := s.clock.advance })
  | .handled current next, s =>
    (.ofSave current next (s.store.save next).1, { s with store := (s.store.save next).2 })
  | .saved p previous, s =>
    (.answered (.ofAnnouncement p (s.announce submit p previous 0 d.listeners).1),
      (s.announce submit p previous 0 d.listeners).2)
  | .answered a, s => (.answered a, s)

theorem left_advance_lt {st : Stage} (pending : st.answer? = none) (s : Session) :
    (d.advance submit h c st s).1.left < st.left := by
  cases st with
  | acquired => exact Nat.lt_succ_of_le (Stage.left_ofLoad _ _)
  | loaded current => exact Nat.lt_succ_of_le (Stage.left_ofDecision _ _)
  | handled current next => exact Nat.lt_succ_of_le (Stage.left_ofSave _ _ _)
  | saved p previous => exact Nat.zero_lt_one
  | answered a => cases pending

/-- The stages that are left, with nothing in between. -/
def finish (st : Stage) (s : Session) : Attempt × Session :=
  match _ : st.answer? with
  | some a => (a, s)
  | none => finish (d.advance submit h c st s).1 (d.advance submit h c st s).2
termination_by st.left
decreasing_by exact d.left_advance_lt submit h c ‹_› s

theorem finish_answered (a : Attempt) (s : Session) :
    d.finish submit h c (.answered a) s = (a, s) := by
  rw [finish]
  rfl

theorem finish_advance (st : Stage) (s : Session) :
    d.finish submit h c (d.advance submit h c st s).1 (d.advance submit h c st s).2 =
      d.finish submit h c st s := by
  cases st with
  | answered a => rfl
  | _ =>
    conv => rhs; rw [finish]
    rfl

end Stages

section Gate

variable {d : Dispatcher} {submit : Session → Command → Attempt × Session} {h : Handler}
  {c : Command}

theorem applyWith_of_refused {a : Attempt} (refused : d.gate c = .error a) (s : Session) :
    d.applyWith submit s c = (a, s) := by
  cases bound : d.registry.resolve c.kind with
  | none =>
    simp only [gate, bound] at refused
    cases refused
    simp only [applyWith, bound]
  | some h =>
    simp only [gate, bound] at refused
    cases valid : c.invalid? with
    | none =>
      rw [valid] at refused
      cases refused
    | some f =>
      rw [valid] at refused
      cases refused
      simp only [applyWith, bound, valid]

/-- The stages of a command, with nothing in between, are how the dispatcher applies it. -/
theorem applyWith_of_admitted (admitted : d.gate c = .ok h) (s : Session) :
    d.applyWith submit s c = d.finish submit h c .acquired (s.guard c.processId) := by
  obtain ⟨bound, valid⟩ : d.registry.resolve c.kind = some h ∧ c.invalid? = none := by
    unfold gate at admitted
    split at admitted
    next => cases admitted
    next found =>
      split at admitted
      next => cases admitted
      next valid =>
        cases admitted
        exact ⟨found, valid⟩
  simp only [applyWith, bound, valid, Session.commit]
  rw [← finish_advance]
  simp only [advance]
  rcases (s.guard c.processId).store.load c.processId with ⟨_ | _ | current, store⟩
  · exact (finish_answered ..).symm
  · exact (finish_answered ..).symm
  · rw [Stage.ofLoad, ← finish_advance]
    simp only [advance]
    rcases h.decide current c (s.guard c.processId).clock.now with i | f | p | next
    · exact (finish_answered ..).symm
    · exact (finish_answered ..).symm
    · exact (finish_answered ..).symm
    · rw [Stage.ofDecision, ← finish_advance]
      simp only [advance, Session.save]
      rcases store.save next with ⟨_ | _, after⟩
      · exact (finish_answered ..).symm
      · simp only [Stage.ofSave]
        by_cases same : next.state = current.state
        · rw [if_pos same, if_pos same, finish_answered]
          rfl
        · rw [if_neg same, if_neg same, ← finish_advance]
          simp only [advance, finish_answered]
          rcases Session.announce submit next current.state 0 d.listeners _ with ⟨_ | _, told⟩ <;>
            rfl

end Gate

end Dispatcher

/-- What a call returns. -/
inductive Reply where
  | applied (answer : Attempt)
  | initiated (tally : Tally)

/-- A command under the guard of its process. -/
structure Held where
  handler : Handler
  command : Command
  stage : Stage

/-- The calls that a caller has still to make, the one that is under way, and what those that are
over returned, the newest last. -/
structure Caller where
  todo : List Record
  held : Option Held
  returned : List Reply

namespace Caller

def Ended (k : Caller) : Prop := k.todo = [] ∧ k.held = none

/-- At most so many steps are still to come. -/
def left (k : Caller) : Nat := 6 * k.todo.length + k.held.elim 0 (·.stage.left + 1)

end Caller

structure System (ι : Type) where
  session : Session
  callers : ι → Caller

namespace System

variable {ι : Type} {d : Dispatcher} {sys after : System ι}

def start (s : Session) (calls : ι → List Record) : System ι := ⟨s, fun i => ⟨calls i, none, []⟩⟩

/-- Nobody is under the guard of the process. -/
def Free (sys : System ι) (x : ProcessId) : Prop :=
  ∀ i held, (sys.callers i).held = some held → held.command.processId ≠ x

def Ended (sys : System ι) : Prop := ∀ i, (sys.callers i).Ended

variable [DecidableEq ι]

/-- One caller has gone on, and the session with it. -/
def set (sys : System ι) (i : ι) (k : Caller) (s : Session) : System ι :=
  ⟨s, Function.update sys.callers i k⟩

@[simp] theorem callers_set_self (sys : System ι) (i : ι) (k : Caller) (s : Session) :
    (sys.set i k s).callers i = k := by simp [set]

theorem callers_set_of_ne (sys : System ι) {i j : ι} (other : j ≠ i) (k : Caller) (s : Session) :
    (sys.set i k s).callers j = sys.callers j := by simp [set, other]

/-- The steps that callers make. A command that is refused before the guard is answered at once; any
other takes the guard, goes through its stages and gives the guard back with its answer. A command
that a listener submits is applied within the announcement. -/
inductive Step (d : Dispatcher) : System ι → System ι → Prop
  | initiate {sys : System ι} {i : ι} {id : ProcessId} {rest : List Record}
      {returned : List Reply} (here : sys.callers i = ⟨.initiate id :: rest, none, returned⟩) :
      Step d sys (sys.set i
        ⟨rest, none, returned ++ [.initiated (Engine.initiate sys.session id).1]⟩
        (Engine.initiate sys.session id).2)
  | refuse {sys : System ι} {i : ι} {c : Command} {a : Attempt} {rest : List Record}
      {returned : List Reply} (here : sys.callers i = ⟨.command c :: rest, none, returned⟩)
      (refused : d.gate c = .error a) :
      Step d sys (sys.set i ⟨rest, none, returned ++ [.applied a]⟩ sys.session)
  | acquire {sys : System ι} {i : ι} {c : Command} {h : Handler} {rest : List Record}
      {returned : List Reply} (here : sys.callers i = ⟨.command c :: rest, none, returned⟩)
      (admitted : d.gate c = .ok h) (free : sys.Free c.processId) :
      Step d sys (sys.set i ⟨rest, some ⟨h, c, .acquired⟩, returned⟩
        (sys.session.guard c.processId))
  | advance {sys : System ι} {i : ι} {c : Command} {h : Handler} {st : Stage} {rest : List Record}
      {returned : List Reply} (here : sys.callers i = ⟨rest, some ⟨h, c, st⟩, returned⟩)
      (pending : st.answer? = none) :
      Step d sys (sys.set i
        ⟨rest, some ⟨h, c, (d.advance d.apply h c st sys.session).1⟩, returned⟩
        (d.advance d.apply h c st sys.session).2)
  | release {sys : System ι} {i : ι} {c : Command} {h : Handler} {a : Attempt} {rest : List Record}
      {returned : List Reply}
      (here : sys.callers i = ⟨rest, some ⟨h, c, .answered a⟩, returned⟩) :
      Step d sys (sys.set i ⟨rest, none, returned ++ [.applied a]⟩ sys.session)

/-- A caller under a guard can always go on. -/
theorem exists_step_of_held {i : ι} {held : Held} (here : (sys.callers i).held = some held) :
    ∃ after, Step d sys after := by
  rcases caller : sys.callers i with ⟨rest, held', returned⟩
  obtain ⟨h, c, st⟩ := held
  rw [caller] at here
  obtain rfl : held' = some ⟨h, c, st⟩ := here
  cases stage : st.answer? with
  | none => exact ⟨_, .advance caller stage⟩
  | some a =>
    obtain rfl := Stage.eq_of_answer? stage
    exact ⟨_, .release caller⟩

/-- The callers never wait for each other in a ring: one whose guard is taken waits for a caller
that waits for nobody. -/
theorem exists_step (left : ¬ sys.Ended) : ∃ after, Step d sys after := by
  by_cases idle : ∀ i, (sys.callers i).held = none
  · obtain ⟨i, more⟩ := not_forall.1 left
    rcases caller : sys.callers i with ⟨todo, held, returned⟩
    obtain rfl : held = none := by simpa [caller] using idle i
    have free : ∀ x, sys.Free x := by
      intro x j held here
      rw [idle j] at here
      cases here
    cases todo with
    | nil => exact absurd ⟨by rw [caller], by rw [caller]⟩ more
    | cons r rest =>
      cases r with
      | initiate id => exact ⟨_, .initiate caller⟩
      | command c =>
        cases met : d.gate c with
        | error a => exact ⟨_, .refuse caller met⟩
        | ok h => exact ⟨_, .acquire caller met (free _)⟩
  · obtain ⟨i, taken⟩ := not_forall.1 idle
    obtain ⟨held, here⟩ := Option.ne_none_iff_exists'.1 taken
    exact exists_step_of_held here

/-- Each step brings one caller closer to its end. -/
theorem Step.left_lt (step : Step d sys after) :
    ∃ i k s, after = sys.set i k s ∧ k.left < (sys.callers i).left := by
  cases step with
  | initiate here =>
    refine ⟨_, _, _, rfl, ?_⟩
    rw [here]
    simp only [Caller.left, List.length_cons, Option.elim]
    omega
  | refuse here _ =>
    refine ⟨_, _, _, rfl, ?_⟩
    rw [here]
    simp only [Caller.left, List.length_cons, Option.elim]
    omega
  | acquire here _ _ =>
    refine ⟨_, _, _, rfl, ?_⟩
    rw [here]
    simp only [Caller.left, List.length_cons, Option.elim, Stage.left]
    omega
  | @advance i c h st rest returned here pending =>
    refine ⟨_, _, _, rfl, ?_⟩
    have lower := d.left_advance_lt d.apply h c pending sys.session
    rw [here]
    simp only [Caller.left, Option.elim]
    omega
  | release here =>
    refine ⟨_, _, _, rfl, ?_⟩
    rw [here]
    simp only [Caller.left, Option.elim]
    omega

section Finite

variable [Fintype ι]

/-- At most so many steps are still to come. -/
def left (sys : System ι) : Nat := ∑ i, (sys.callers i).left

theorem Step.system_left_lt (step : Step d sys after) : after.left < sys.left := by
  obtain ⟨i, k, s, rfl, lower⟩ := step.left_lt
  refine Finset.sum_lt_sum (fun j _ => ?_) ⟨i, Finset.mem_univ i, by simpa using lower⟩
  by_cases same : j = i
  · subst same
    simpa using lower.le
  · rw [sys.callers_set_of_ne same]

/-- Whatever steps were made first, the callers come to their end: all calls return. -/
theorem exists_ended (d : Dispatcher) (sys : System ι) :
    ∃ last, Relation.ReflTransGen (Step d) sys last ∧ last.Ended := by
  induction bound : sys.left using Nat.strongRecOn generalizing sys with
  | ind n ih =>
    by_cases ended : sys.Ended
    · exact ⟨sys, .refl, ended⟩
    · obtain ⟨after, step⟩ := exists_step (d := d) ended
      obtain ⟨last, run, done⟩ := ih after.left (bound ▸ step.system_left_lt) after rfl
      exact ⟨last, .head step run, done⟩

end Finite

end System

end TransferLifecycle
