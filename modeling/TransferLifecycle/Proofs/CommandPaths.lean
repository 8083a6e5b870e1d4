import TransferLifecycle.Dispatcher

set_option autoImplicit false

/- The ways in which a command can go. Everything that a commit or an attempt of the dispatcher can
do is said here once, path by path; no later proof opens these functions again. -/
namespace TransferLifecycle

namespace Store

/-- A call that is reported as failed has done nothing. -/
def Atomic (s : Store) : Prop := ∀ calls e, s.fate calls ≠ .unacknowledged e

/-- No call fails. -/
def Reliable (s : Store) : Prop := ∀ calls, s.fate calls = .granted

theorem Reliable.atomic {s : Store} (reliable : s.Reliable) : s.Atomic := by
  intro calls e lost
  rw [reliable calls] at lost
  cases lost

theorem reliable_reliable (roster : Roster) : (reliable roster).Reliable := fun _ => rfl

theorem load_of_error {s : Store} {id : ProcessId} {e : StoreError}
    (failed : (s.fateOf (.load id)).error? = some e) :
    s.load id = (.error e, s.record (.load id)) := by simp only [load, failed]

theorem load_of_granted {s : Store} {id : ProcessId}
    (granted : (s.fateOf (.load id)).error? = none) :
    s.load id = (.ok (s.get? id), s.record (.load id)) := by simp only [load, granted]

end Store

namespace Handler

/-- What is kept is what was loaded. -/
theorem eq_of_decide_keep {h : Handler} {current p : TransferProcess} {c : Command} {now : Instant}
    (decided : h.decide current c now = .ok (.keep p)) : p = current := by
  unfold decide at decided
  split at decided
  · cases decided
  · cases decided
  · split at decided
    · cases decided
    · split at decided
      · rename_i same
        cases decided
        exact same
      · cases decided

/-- What is written has the id of what was loaded, and differs from it. -/
theorem of_decide_write {h : Handler} {current next : TransferProcess} {c : Command}
    {now : Instant} (decided : h.decide current c now = .ok (.write next)) :
    next.id = current.id ∧ next ≠ current := by
  unfold decide at decided
  split at decided
  · cases decided
  · cases decided
  · split at decided
    · cases decided
    · rename_i sameId
      split at decided
      · cases decided
      · rename_i differs
        cases decided
        exact ⟨Decidable.not_not.1 sameId, differs⟩

end Handler

namespace Session

/-- The session after the load of a process, whatever came of it. -/
def asked (s : Session) (id : ProcessId) : Session := { s with store := s.store.record (.load id) }

/-- The session after a process was loaded and the clock was read for it. -/
def read (s : Session) (id : ProcessId) : Session :=
  { s.asked id with clock := s.clock.advance }

/-- The session after a call to save a process, whatever came of it. -/
def saving (s : Session) (p : TransferProcess) : Session :=
  { s with store := s.store.record (.save p.id) }

def wrote (s : Session) (p : TransferProcess) : Session :=
  { s.saving p with store := (s.saving p).store.put p }

theorem save_of_granted {s : Session} {current next : TransferProcess}
    (fate : s.store.fateOf (.save next.id) = .granted) :
    s.save current next =
      (if next.state = current.state then .unchanged next else .changed next current.state,
        s.wrote next) := by
  simp only [save, Store.save, fate]
  rfl

theorem save_of_refused {s : Session} {current next : TransferProcess} {e : StoreError}
    (fate : s.store.fateOf (.save next.id) = .refused e) :
    s.save current next = (.rejected (storageFailure e), s.saving next) := by
  simp only [save, Store.save, fate]
  rfl

theorem save_of_unacknowledged {s : Session} {current next : TransferProcess} {e : StoreError}
    (fate : s.store.fateOf (.save next.id) = .unacknowledged e) :
    s.save current next = (.rejected (storageFailure e), s.wrote next) := by
  simp only [save, Store.save, fate]
  rfl

/-- Every way of a command at the store, with its answer and the session it leaves. -/
inductive Committed (s : Session) (h : Handler) (c : Command) :
    Except Interruption Commit → Session → Prop
  | loadFailed {e : StoreError} (failed : (s.store.fateOf (.load c.processId)).error? = some e) :
      Committed s h c (.ok (.rejected (storageFailure e))) (s.asked c.processId)
  | absent (missing : s.store.get? c.processId = none) :
      Committed s h c (.ok (.rejected (notFoundFailure c.processId))) (s.asked c.processId)
  | interrupted {current : TransferProcess} {i : Interruption}
      (stored : s.store.get? c.processId = some current)
      (decided : h.decide current c s.clock.now = .error i) :
      Committed s h c (.error i) (s.read c.processId)
  | refused {current : TransferProcess} {f : Failure}
      (stored : s.store.get? c.processId = some current)
      (decided : h.decide current c s.clock.now = .ok (.reject f)) :
      Committed s h c (.ok (.rejected f)) (s.read c.processId)
  | kept {current : TransferProcess} (stored : s.store.get? c.processId = some current)
      (decided : h.decide current c s.clock.now = .ok (.keep current)) :
      Committed s h c (.ok (.unchanged current)) (s.read c.processId)
  | saveRefused {current next : TransferProcess} {e : StoreError}
      (stored : s.store.get? c.processId = some current)
      (decided : h.decide current c s.clock.now = .ok (.write next))
      (fate : (s.read c.processId).store.fateOf (.save next.id) = .refused e) :
      Committed s h c (.ok (.rejected (storageFailure e))) ((s.read c.processId).saving next)
  | saveLost {current next : TransferProcess} {e : StoreError}
      (stored : s.store.get? c.processId = some current)
      (decided : h.decide current c s.clock.now = .ok (.write next))
      (fate : (s.read c.processId).store.fateOf (.save next.id) = .unacknowledged e) :
      Committed s h c (.ok (.rejected (storageFailure e))) ((s.read c.processId).wrote next)
  | amended {current next : TransferProcess}
      (stored : s.store.get? c.processId = some current)
      (decided : h.decide current c s.clock.now = .ok (.write next))
      (fate : (s.read c.processId).store.fateOf (.save next.id) = .granted)
      (sameState : next.state = current.state) :
      Committed s h c (.ok (.unchanged next)) ((s.read c.processId).wrote next)
  | changed {current next : TransferProcess}
      (stored : s.store.get? c.processId = some current)
      (decided : h.decide current c s.clock.now = .ok (.write next))
      (fate : (s.read c.processId).store.fateOf (.save next.id) = .granted)
      (newState : next.state ≠ current.state) :
      Committed s h c (.ok (.changed next current.state)) ((s.read c.processId).wrote next)

theorem commit_committed (s : Session) (h : Handler) (c : Command) :
    Committed s h c (s.commit h c).1 (s.commit h c).2 := by
  cases failed : (s.store.fateOf (.load c.processId)).error? with
  | some e =>
    simp only [commit, Store.load_of_error failed]
    exact .loadFailed failed
  | none =>
    cases stored : s.store.get? c.processId with
    | none =>
      simp only [commit, Store.load_of_granted failed, stored]
      exact .absent stored
    | some current =>
      simp only [commit, Store.load_of_granted failed, stored]
      cases decided : h.decide current c s.clock.now with
      | error i => exact .interrupted stored decided
      | ok decision =>
        cases decision with
        | reject f => exact .refused stored decided
        | keep p =>
          obtain rfl := Handler.eq_of_decide_keep decided
          exact .kept stored decided
        | write next =>
          change Committed s h c (.ok ((s.read c.processId).save current next).1)
            ((s.read c.processId).save current next).2
          cases fate : (s.read c.processId).store.fateOf (.save next.id) with
          | granted =>
            rw [save_of_granted fate]
            dsimp only
            split
            next sameState => exact .amended stored decided fate sameState
            next newState => exact .changed stored decided fate newState
          | refused e =>
            rw [save_of_refused fate]
            exact .saveRefused stored decided fate
          | unacknowledged e =>
            rw [save_of_unacknowledged fate]
            exact .saveLost stored decided fate

theorem Committed.of_commit {s after : Session} {h : Handler} {c : Command}
    {answer : Except Interruption Commit} (commits : s.commit h c = (answer, after)) :
    Committed s h c answer after := by
  have path := s.commit_committed h c
  rw [commits] at path
  exact path

end Session

namespace Dispatcher

/-- Every way of a command under the dispatcher, with its answer and the session it leaves. -/
inductive Applied (d : Dispatcher) (submit : Session → Command → Attempt × Session) (s : Session)
    (c : Command) : Attempt → Session → Prop
  | unresolved (unbound : d.registry.resolve c.kind = none) :
      Applied d submit s c (.error (.error (.unresolvedHandler c.kind))) s
  | invalid {h : Handler} {f : Failure} (bound : d.registry.resolve c.kind = some h)
      (invalid : c.invalid? = some f) : Applied d submit s c (.ok (.failure f)) s
  | interrupted {h : Handler} {i : Interruption} {after : Session}
      (bound : d.registry.resolve c.kind = some h) (valid : c.invalid? = none)
      (commits : (s.guard c.processId).commit h c = (.error i, after)) :
      Applied d submit s c (.error i) after
  | rejected {h : Handler} {f : Failure} {after : Session}
      (bound : d.registry.resolve c.kind = some h) (valid : c.invalid? = none)
      (commits : (s.guard c.processId).commit h c = (.ok (.rejected f), after)) :
      Applied d submit s c (.ok (.failure f)) after
  | unchanged {h : Handler} {p : TransferProcess} {after : Session}
      (bound : d.registry.resolve c.kind = some h) (valid : c.invalid? = none)
      (commits : (s.guard c.processId).commit h c = (.ok (.unchanged p), after)) :
      Applied d submit s c (.ok (.success p)) after
  | announced {h : Handler} {p : TransferProcess} {previous : State} {committed after : Session}
      (bound : d.registry.resolve c.kind = some h) (valid : c.invalid? = none)
      (commits : (s.guard c.processId).commit h c = (.ok (.changed p previous), committed))
      (told : committed.announce submit p previous 0 d.listeners = (none, after)) :
      Applied d submit s c (.ok (.success p)) after
  | aborted {h : Handler} {p : TransferProcess} {previous : State} {reason : Abort}
      {committed after : Session}
      (bound : d.registry.resolve c.kind = some h) (valid : c.invalid? = none)
      (commits : (s.guard c.processId).commit h c = (.ok (.changed p previous), committed))
      (told : committed.announce submit p previous 0 d.listeners = (some reason, after)) :
      Applied d submit s c (.error (.abort reason)) after

theorem applyWith_applied (d : Dispatcher) (submit : Session → Command → Attempt × Session)
    (s : Session) (c : Command) :
    Applied d submit s c (d.applyWith submit s c).1 (d.applyWith submit s c).2 := by
  cases bound : d.registry.resolve c.kind with
  | none =>
    simp only [applyWith, bound]
    exact .unresolved bound
  | some h =>
    cases valid : c.invalid? with
    | some f =>
      simp only [applyWith, bound, valid]
      exact .invalid bound valid
    | none =>
      simp only [applyWith, bound, valid]
      rcases commits : (s.guard c.processId).commit h c with ⟨answer, committed⟩
      cases answer with
      | error i => exact .interrupted bound valid commits
      | ok commit =>
        cases commit with
        | rejected f => exact .rejected bound valid commits
        | unchanged p => exact .unchanged bound valid commits
        | changed p previous =>
          dsimp only
          rcases told : committed.announce submit p previous 0 d.listeners with ⟨_ | reason, after⟩
          · exact .announced bound valid commits told
          · exact .aborted bound valid commits told

end Dispatcher

end TransferLifecycle
