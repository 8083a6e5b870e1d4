import TransferLifecycle.Proofs.Links

set_option autoImplicit false

/- The ways in which a command can go under the standard handlers, whatever calls fail and however
they fail. At most one row is written, and only by a transition; a save that is reported as failed
may still have written it. -/
namespace TransferLifecycle

namespace Store

/-- How many saves of the process `x` were granted, among calls with the newest first. -/
def grantedSaves (fate : List Call → Fate) (x : ProcessId) : List Call → Nat
  | [] => 0
  | call :: earlier =>
    (if call = .save x ∧ fate (call :: earlier) = .granted then 1 else 0) +
      grantedSaves fate x earlier

/-- How often the process `x` was saved with success. -/
def saves (s : Store) (x : ProcessId) : Nat := grantedSaves s.fate x s.calls

theorem saves_record_load (s : Store) (id x : ProcessId) :
    (s.record (.load id)).saves x = s.saves x := by
  simp [saves, record, grantedSaves]

theorem saves_record_save_of_failed {s : Store} {id : ProcessId}
    (fate : s.fateOf (.save id) ≠ .granted) (x : ProcessId) :
    (s.record (.save id)).saves x = s.saves x := by
  rw [fateOf] at fate
  simp [saves, record, grantedSaves, fate]

theorem saves_record_save {s : Store} {id : ProcessId} (fate : s.fateOf (.save id) = .granted)
    (x : ProcessId) :
    (s.record (.save id)).saves x = s.saves x + if id = x then 1 else 0 := by
  rw [fateOf] at fate
  simp [saves, record, grantedSaves, fate, Nat.add_comm]

end Store

namespace Session

/-- Between two sessions there are only calls, readings of the clock and guards: nothing is written
and nobody is told anything. -/
structure Still (s after : Session) : Prop where
  world : s.SameWorld after
  forward : s.clock.taken ≤ after.clock.taken
  rows : after.store.roster = s.store.roster
  saves : ∀ x, after.store.saves x = s.store.saves x
  deliveries : after.deliveries = s.deliveries

theorem Still.refl (s : Session) : s.Still s := ⟨⟨rfl, rfl⟩, Nat.le_refl _, rfl, fun _ => rfl, rfl⟩

theorem Still.trans {s mid after : Session} (first : s.Still mid) (second : mid.Still after) :
    s.Still after where
  world := first.world.trans second.world
  forward := Nat.le_trans first.forward second.forward
  rows := second.rows.trans first.rows
  saves x := (second.saves x).trans (first.saves x)
  deliveries := second.deliveries.trans first.deliveries

theorem still_guard (s : Session) (id : ProcessId) : s.Still (s.guard id) where
  world := s.sameWorld_guard id
  forward := Nat.le_of_eq (congrArg Clock.taken (s.clock_guard id)).symm
  rows := by rw [store_guard]
  saves x := by rw [store_guard]
  deliveries := s.deliveries_guard id

theorem still_asked (s : Session) (id : ProcessId) : s.Still (s.asked id) where
  world := ⟨rfl, rfl⟩
  forward := Nat.le_refl _
  rows := rfl
  saves x := s.store.saves_record_load id x
  deliveries := rfl

theorem still_read (s : Session) (id : ProcessId) : s.Still (s.read id) where
  world := ⟨rfl, rfl⟩
  forward := Nat.le_succ _
  rows := rfl
  saves x := s.store.saves_record_load id x
  deliveries := rfl

theorem still_saving {s : Session} {p : TransferProcess}
    (fate : s.store.fateOf (.save p.id) ≠ .granted) : s.Still (s.saving p) where
  world := ⟨rfl, rfl⟩
  forward := Nat.le_refl _
  rows := rfl
  saves x := Store.saves_record_save_of_failed fate x
  deliveries := rfl

/-- The session after a command moved the process `old`. -/
def moving (s : Session) (c : Command) (old : TransferProcess) : Session :=
  (s.read c.processId).wrote (c.moved old s.clock.now)

/-- Every way of a valid command at the store under the standard handlers. -/
inductive Ruled (s : Session) (c : Command) : Except Interruption Commit → Session → Prop
  | failed {e : StoreError} {after : Session} (still : s.Still after) :
      Ruled s c (.ok (.rejected (storageFailure e))) after
  | refused {f : Failure} {after : Session} (final : f.isRetryable = false)
      (still : s.Still after) : Ruled s c (.ok (.rejected f)) after
  | kept {old : TransferProcess} {after : Session}
      (stored : s.store.get? c.processId = some old) (there : old.state = c.kind.target)
      (still : s.Still after) : Ruled s c (.ok (.unchanged old)) after
  | lost {old : TransferProcess} {e : StoreError}
      (stored : s.store.get? c.processId = some old) (source : old.state ∈ c.kind.sources)
      (fate : (s.read c.processId).store.fateOf (.save c.processId) = .unacknowledged e) :
      Ruled s c (.ok (.rejected (storageFailure e))) (s.moving c old)
  | moved {old : TransferProcess} (stored : s.store.get? c.processId = some old)
      (source : old.state ∈ c.kind.sources)
      (fate : (s.read c.processId).store.fateOf (.save c.processId) = .granted) :
      Ruled s c (.ok (.changed (c.moved old s.clock.now) old.state)) (s.moving c old)

end Session

/-- A standard handler writes what the command makes of the process, where it moves it. -/
theorem Handler.of_standard_write {c : Command} {p q : TransferProcess} {now : Instant}
    (decided : (standard c.kind).decide p c now = .ok (.write q)) :
    p.state ∈ c.kind.sources ∧ q = c.moved p now := by
  have applied := applyTo_of_write decided
  rcases c.applyTo_cases p now with ⟨-, eq⟩ | ⟨source, eq⟩ | eq <;> rw [eq] at applied <;>
    cases applied
  · exact absurd rfl (of_decide_write decided).2
  · exact ⟨source, rfl⟩

/-- It keeps a process only where the command has nothing to do. -/
theorem Handler.of_standard_keep {c : Command} {p : TransferProcess} {now : Instant}
    (decided : (standard c.kind).decide p c now = .ok (.keep p)) : p.state = c.kind.target := by
  have applied := applyTo_of_keep decided
  rcases c.applyTo_cases p now with ⟨there, -⟩ | ⟨-, eq⟩ | eq
  · exact there
  · rw [eq] at applied
    have same := Outcome.success.inj applied
    rw [← same, Command.moved_state]
  · rw [eq] at applied
    cases applied

namespace Session

variable {s after : Session} {c : Command} {answer : Except Interruption Commit}

theorem Committed.ruled (path : s.Committed (Handler.standard c.kind) c answer after)
    (valid : c.invalid? = none) : s.Ruled c answer after := by
  cases path with
  | loadFailed _ => exact .failed (s.still_asked _)
  | absent _ => exact .refused rfl (s.still_asked _)
  | interrupted _ decided =>
    rw [Handler.standard_decide] at decided
    cases decided
  | @refused current f stored decided =>
    have applied := Handler.applyTo_of_reject decided
    have verdict : c.verdict s.clock.now (s.store.get? c.processId) = .failure f := by
      simp only [Command.verdict, valid, stored, applied]
    exact .refused (Command.not_retryable_of_verdict verdict) (s.still_read _)
  | kept stored decided =>
    exact .kept stored (Handler.of_standard_keep decided) (s.still_read _)
  | @saveRefused _ next _ stored decided fate =>
    have failed : (s.read c.processId).store.fateOf (.save next.id) ≠ .granted := by
      rw [fate]
      exact Fate.noConfusion
    exact .failed ((s.still_read _).trans (still_saving failed))
  | saveLost stored decided fate =>
    obtain ⟨source, rfl⟩ := Handler.of_standard_write decided
    rw [Command.moved_id, Roster.id_of_get? stored] at fate
    exact .lost stored source fate
  | amended stored decided _ sameState =>
    obtain ⟨source, rfl⟩ := Handler.of_standard_write decided
    rw [← sameState] at source
    exact absurd source c.kind.target_not_mem_sources
  | changed stored decided fate _ =>
    obtain ⟨source, rfl⟩ := Handler.of_standard_write decided
    rw [Command.moved_id, Roster.id_of_get? stored] at fate
    exact .moved stored source fate

/-- The session after a command moved the process `old` under its guard. -/
def acted (s : Session) (c : Command) (old : TransferProcess) : Session :=
  (s.guard c.processId).moving c old

variable {old : TransferProcess}

/-- The process that is written is the one that the command is for. -/
theorem id_moved (stored : s.store.get? c.processId = some old) :
    (c.moved old s.clock.now).id = c.processId :=
  (c.moved_id old s.clock.now).trans (Roster.id_of_get? stored)

variable (s) (c)

theorem sameWorld_acted : s.SameWorld (s.acted c old) :=
  (s.sameWorld_guard c.processId).trans ⟨rfl, rfl⟩

theorem taken_acted : (s.acted c old).clock.taken = s.clock.taken + 1 := by
  change (s.guard c.processId).clock.taken + 1 = _
  rw [clock_guard]

theorem deliveries_acted : (s.acted c old).deliveries = s.deliveries :=
  s.deliveries_guard c.processId

/-- Moving a process writes its row and no other. -/
theorem get?_acted (stored : s.store.get? c.processId = some old) (x : ProcessId) :
    (s.acted c old).store.get? x =
      if c.processId = x then some (c.moved old s.clock.now) else s.store.get? x := by
  have own := id_moved stored
  change (Store.put _ (c.moved old (s.guard c.processId).clock.now)).get? x = _
  rw [clock_guard, Store.get?_put, own]
  change (if _ then _ else (s.guard c.processId).store.get? x) = _
  rw [store_guard]

theorem saves_acted (stored : s.store.get? c.processId = some old)
    (fate : (s.read c.processId).store.fateOf (.save c.processId) = .granted) (x : ProcessId) :
    (s.acted c old).store.saves x = s.store.saves x + if c.processId = x then 1 else 0 := by
  have own := id_moved stored
  have same : (s.acted c old).store.saves x =
      (((s.guard c.processId).store.record (.load c.processId)).record
        (.save (c.moved old (s.guard c.processId).clock.now).id)).saves x := rfl
  have granted : (s.store.record (.load c.processId)).fateOf (.save c.processId) = .granted := fate
  rw [same, store_guard, clock_guard, own, Store.saves_record_save granted, Store.saves_record_load]

end Session

namespace Dispatcher

/-- Every way of a command under a dispatcher with the standard handlers. -/
inductive Handled (d : Dispatcher) (submit : Session → Command → Attempt × Session) (s : Session)
    (c : Command) : Attempt → Session → Prop
  | invalid {f : Failure} (invalid : c.invalid? = some f) :
      Handled d submit s c (.ok (.failure f)) s
  | failed {e : StoreError} {after : Session} (still : s.Still after) :
      Handled d submit s c (.ok (.failure (storageFailure e))) after
  | refused {f : Failure} {after : Session} (final : f.isRetryable = false)
      (still : s.Still after) : Handled d submit s c (.ok (.failure f)) after
  | kept {old : TransferProcess} {after : Session} (stored : s.store.get? c.processId = some old)
      (there : old.state = c.kind.target) (still : s.Still after) :
      Handled d submit s c (.ok (.success old)) after
  | lost {old : TransferProcess} {e : StoreError} (valid : c.invalid? = none)
      (stored : s.store.get? c.processId = some old) (source : old.state ∈ c.kind.sources)
      (fate : (s.read c.processId).store.fateOf (.save c.processId) = .unacknowledged e) :
      Handled d submit s c (.ok (.failure (storageFailure e))) (s.acted c old)
  | announced {old : TransferProcess} {after : Session} (valid : c.invalid? = none)
      (stored : s.store.get? c.processId = some old) (source : old.state ∈ c.kind.sources)
      (fate : (s.read c.processId).store.fateOf (.save c.processId) = .granted)
      (commits : (s.guard c.processId).commit (Handler.standard c.kind) c =
        (.ok (.changed (c.moved old s.clock.now) old.state), s.acted c old))
      (told : (s.acted c old).announce submit (c.moved old s.clock.now) old.state 0 d.listeners =
        (none, after)) :
      Handled d submit s c (.ok (.success (c.moved old s.clock.now))) after
  | aborted {old : TransferProcess} {reason : Abort} {after : Session} (valid : c.invalid? = none)
      (stored : s.store.get? c.processId = some old) (source : old.state ∈ c.kind.sources)
      (fate : (s.read c.processId).store.fateOf (.save c.processId) = .granted)
      (commits : (s.guard c.processId).commit (Handler.standard c.kind) c =
        (.ok (.changed (c.moved old s.clock.now) old.state), s.acted c old))
      (told : (s.acted c old).announce submit (c.moved old s.clock.now) old.state 0 d.listeners =
        (some reason, after)) :
      Handled d submit s c (.error (.abort reason)) after

variable {d : Dispatcher} {submit : Session → Command → Attempt × Session} {s after : Session}
  {c : Command} {answer : Attempt}

theorem Applied.handled (standard : d.registry = Registry.standard)
    (path : d.Applied submit s c answer after) : d.Handled submit s c answer after := by
  have guarded := s.still_guard c.processId
  have ruled : ∀ {committed : Except Interruption Commit} {mid : Session}, c.invalid? = none →
      (s.guard c.processId).commit (Handler.standard c.kind) c = (committed, mid) →
      (s.guard c.processId).Ruled c committed mid :=
    fun valid commits => (Session.Committed.of_commit commits).ruled valid
  have readAlike : ((s.guard c.processId).read c.processId).store = (s.read c.processId).store := by
    simp only [Session.read, Session.asked, Session.store_guard]
  have nowAlike : (s.guard c.processId).clock.now = s.clock.now := by rw [Session.clock_guard]
  cases path with
  | unresolved unbound =>
    rw [standard, Registry.standard_resolve] at unbound
    cases unbound
  | invalid _ invalid => exact .invalid invalid
  | interrupted bound valid commits =>
    obtain rfl := eq_standard_of_resolve standard bound
    cases ruled valid commits
  | rejected bound valid commits =>
    obtain rfl := eq_standard_of_resolve standard bound
    cases ruled valid commits with
    | failed still => exact .failed (guarded.trans still)
    | refused final still => exact .refused final (guarded.trans still)
    | lost stored source fate =>
      rw [Session.store_guard] at stored
      rw [readAlike] at fate
      exact .lost valid stored source fate
  | unchanged bound valid commits =>
    obtain rfl := eq_standard_of_resolve standard bound
    cases ruled valid commits with
    | kept stored there still =>
      rw [Session.store_guard] at stored
      exact .kept stored there (guarded.trans still)
  | announced bound valid commits told =>
    obtain rfl := eq_standard_of_resolve standard bound
    cases ruled valid commits with
    | moved stored source fate =>
      rw [Session.store_guard] at stored
      rw [readAlike] at fate
      rw [nowAlike] at commits told ⊢
      exact .announced valid stored source fate commits told
  | aborted bound valid commits told =>
    obtain rfl := eq_standard_of_resolve standard bound
    cases ruled valid commits with
    | moved stored source fate =>
      rw [Session.store_guard] at stored
      rw [readAlike] at fate
      rw [nowAlike] at commits told
      exact .aborted valid stored source fate commits told

theorem applyWith_handled (standard : d.registry = Registry.standard)
    (submit : Session → Command → Attempt × Session) (s : Session) (c : Command) :
    d.Handled submit s c (d.applyWith submit s c).1 (d.applyWith submit s c).2 :=
  (d.applyWith_applied submit s c).handled standard

end Dispatcher

end TransferLifecycle
