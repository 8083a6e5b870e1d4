import TransferLifecycle.Proofs.Hearing

set_option autoImplicit false

/- What a command owes to the store and to the listeners, whatever the handlers answer. A command
that fails leaves both alone. One that succeeds has written at most the process it is about, has
written only what differs, and is announced only when the state differs. -/
namespace TransferLifecycle

namespace Session

/-- From `before` to `after`, a command about `id` put `p` in the place of `old`. -/
structure Stores (before : Session) (id : ProcessId) (old p : TransferProcess) (after : Session) :
    Prop where
  stored : after.store.get? id = some p
  others : ∀ other, other ≠ id → after.store.get? other = before.store.get? other
  calls : after.store.calls =
    (if p = old then [.load id] else [.save id, .load id]) ++ before.store.calls

variable {s after : Session} {h : Handler} {c : Command}

/-- A process that was read is kept as it is. -/
theorem read_stores {current : TransferProcess} (stored : s.store.get? c.processId = some current) :
    s.Stores c.processId current current (s.read c.processId) where
  stored := stored
  others _ _ := rfl
  calls := by simp [read, asked, Store.record]

theorem wrote_stores {current next : TransferProcess} {now : Instant}
    (stored : s.store.get? c.processId = some current)
    (decided : h.decide current c now = .ok (.write next)) :
    s.Stores c.processId current next ((s.read c.processId).wrote next) := by
  obtain ⟨sameId, differs⟩ := Handler.of_decide_write decided
  have id : next.id = c.processId := sameId.trans (Roster.id_of_get? stored)
  refine ⟨?_, ?_, ?_⟩
  · change (Store.put _ next).get? c.processId = some next
    rw [Store.get?_put, ite_eq_left_iff.2 (fun other => absurd id other)]
  · intro other apart
    change (Store.put _ next).get? other = _
    rw [Store.get?_put, ite_eq_right_iff.2 (fun same => absurd (same.symm.trans id) apart)]
    rfl
  · rw [← id]
    simp [wrote, saving, read, asked, Store.put, Store.record, differs, id]

theorem Committed.stores_of_unchanged {p : TransferProcess}
    (path : s.Committed h c (.ok (.unchanged p)) after) :
    ∃ old, s.store.get? c.processId = some old ∧ p.state = old.state ∧
      s.Stores c.processId old p after := by
  cases path with
  | kept stored decided => exact ⟨p, stored, rfl, read_stores stored⟩
  | @amended current _ stored decided _ sameState =>
    exact ⟨current, stored, sameState, wrote_stores stored decided⟩

theorem Committed.stores_of_changed {p : TransferProcess} {previous : State}
    (path : s.Committed h c (.ok (.changed p previous)) after) :
    ∃ old, s.store.get? c.processId = some old ∧ previous = old.state ∧ p.state ≠ old.state ∧
      s.Stores c.processId old p after := by
  cases path with
  | @changed current _ stored decided _ newState =>
    exact ⟨current, stored, rfl, newState, wrote_stores stored decided⟩

theorem stores_of_guard {id other : ProcessId} {old p : TransferProcess}
    (stores : (s.guard id).Stores other old p after) : s.Stores other old p after := by
  refine ⟨stores.stored, ?_, ?_⟩
  · simpa only [store_guard] using stores.others
  · simpa only [store_guard] using stores.calls

end Session

namespace Dispatcher

/-- The session right behind the commit of a command, before anybody is told. -/
def committed (d : Dispatcher) (s : Session) (c : Command) : Session :=
  match d.registry.resolve c.kind, c.invalid? with
  | some h, none => ((s.guard c.processId).commit h c).2
  | _, _ => s

theorem committed_of_commit {d : Dispatcher} {s after : Session} {c : Command} {h : Handler}
    {answer : Except Interruption Commit} (bound : d.registry.resolve c.kind = some h)
    (valid : c.invalid? = none) (commits : (s.guard c.processId).commit h c = (answer, after)) :
    d.committed s c = after := by
  simp only [committed, bound, valid, commits]

variable {d : Dispatcher} {submit : Session → Command → Attempt × Session} {s after : Session}
  {c : Command}

/-- What is true of a command that succeeded with `p` where `old` was stored. The listeners may
submit commands of their own, so the store is looked at behind the commit, and behind the whole
command only where they do not. -/
structure Succeeded (d : Dispatcher) (before : Session) (c : Command) (old p : TransferProcess)
    (heard : List Delivery) (after : Session) : Prop where
  loaded : before.store.get? c.processId = some old
  stores : before.Stores c.processId old p (d.committed before c)
  hears : before.Hears heard after
  silent : p.state = old.state → heard = [] ∧ after = d.committed before c
  told : p.state ≠ old.state →
    ∀ x ∈ Session.announcement p old.state 0 d.listeners, x ∈ heard
  storesToEnd : (∀ l ∈ d.listeners, l.Quiet) → before.Stores c.processId old p after
  toldOnce : (∀ l ∈ d.listeners, l.Quiet) → p.state ≠ old.state →
    heard = (Session.announcement p old.state 0 d.listeners).reverse

theorem Applied.succeeded {p : TransferProcess} (growing : Session.Growing submit)
    (path : d.Applied submit s c (.ok (.success p)) after) :
    ∃ old heard, d.Succeeded s c old p heard after := by
  cases path with
  | unchanged bound valid commits =>
    have path := Session.Committed.of_commit commits
    obtain ⟨old, loaded, sameState, stores⟩ := path.stores_of_unchanged
    have same := committed_of_commit bound valid commits
    refine ⟨old, [], ?_⟩
    exact {
      loaded := by simpa only [Session.store_guard] using loaded
      stores := by rw [same]; exact Session.stores_of_guard stores
      hears := path.deliveries
      silent := fun _ => ⟨rfl, same.symm⟩
      told := fun other => absurd sameState other
      storesToEnd := fun _ => Session.stores_of_guard stores
      toldOnce := fun _ other => absurd sameState other }
  | @announced h p previous committed after bound valid commits told =>
    have path := Session.Committed.of_commit commits
    obtain ⟨old, loaded, rfl, newState, stores⟩ := path.stores_of_changed
    have same := committed_of_commit bound valid commits
    obtain ⟨heard, hears, all⟩ := Session.announce_hears growing p old.state 0 d.listeners committed
    rw [told] at hears all
    have begun : s.Hears [] committed := path.deliveries
    refine ⟨old, heard, ?_⟩
    exact {
      loaded := by simpa only [Session.store_guard] using loaded
      stores := by rw [same]; exact Session.stores_of_guard stores
      hears := by simpa only [List.append_nil] using begun.trans hears
      silent := fun sameState => absurd sameState newState
      told := fun _ => all rfl
      storesToEnd := by
        intro quiet
        obtain ⟨_, last, -⟩ := Session.announce_of_quiet submit quiet p old.state 0
          committed
        rw [told] at last
        rw [show after = _ from last]
        exact ⟨stores.stored, (Session.stores_of_guard stores).others,
          (Session.stores_of_guard stores).calls⟩
      toldOnce := by
        intro quiet _
        obtain ⟨listened, last, -, full⟩ := Session.announce_of_quiet submit quiet p
          old.state 0 committed
        rw [told] at last full
        have same : heard ++ committed.deliveries = listened ++ committed.deliveries :=
          hears.symm.trans (congrArg Session.deliveries last)
        rw [List.append_cancel_right same]
        exact full rfl }

end Dispatcher

end TransferLifecycle
