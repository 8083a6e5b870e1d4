import TransferLifecycle.Proofs.RecordSteps
import TransferLifecycle.Proofs.StandardPaths

set_option autoImplicit false

/- What a command does where no call fails and the listeners submit nothing. They may still abort:
that ends the announcement, and it takes nothing back. -/
namespace TransferLifecycle

/-- The outcome is a failure, or the process as it is stored. -/
def Outcome.Leaves (stored : Option TransferProcess) (outcome : Outcome TransferProcess) : Prop :=
  ∀ p, outcome = .success p → stored = some p

theorem Roster.settle_of_leaves {r : Roster} {id : ProcessId} {outcome : Outcome TransferProcess}
    (leaves : outcome.Leaves (r.get? id)) : r.settle outcome = r := by
  cases outcome with
  | success p => exact insert_of_get? (leaves p rfl)
  | failure f => rfl

theorem Command.verdict_of_source {c : Command} {old : TransferProcess} (now : Instant)
    (valid : c.invalid? = none) (source : old.state ∈ c.kind.sources) :
    c.verdict now (some old) = .success (c.moved old now) := by
  simp only [verdict, valid, applyTo_of_source source]

/-- A command that moves a process does not leave it as it is. -/
theorem Command.not_leaves_of_source {c : Command} {old : TransferProcess} {now : Instant}
    (valid : c.invalid? = none) (source : old.state ∈ c.kind.sources) :
    ¬ (c.verdict now (some old)).Leaves (some old) := by
  intro leaves
  have same := Option.some.inj (leaves _ (c.verdict_of_source now valid source))
  apply CommandKind.ne_target_of_mem_sources source
  rw [same, moved_state]

/-- The answer to a command that was announced to its end, or up to an abort. -/
def Attempt.ofAnnouncement (p : TransferProcess) : Option Abort → Attempt
  | none => .ok (.success p)
  | some reason => .error (.abort reason)

namespace Dispatcher

/-- Every way of a command under the standard handlers where no call fails: there is nothing to
tell, or the process was moved and the listeners are told. -/
inductive Judged (d : Dispatcher) (submit : Session → Command → Attempt × Session) (s : Session)
    (c : Command) : Attempt → Session → Prop
  | untold {after : Session} {outcome : Outcome TransferProcess}
      (verdict : outcome = c.verdict s.clock.now (s.store.get? c.processId))
      (leaves : outcome.Leaves (s.store.get? c.processId)) (world : s.SameWorld after)
      (rows : after.store.roster = s.store.roster) (deliveries : after.deliveries = s.deliveries) :
      Judged d submit s c (.ok outcome) after
  | told {old : TransferProcess} {stopped : Option Abort} {after : Session}
      (valid : c.invalid? = none) (stored : s.store.get? c.processId = some old)
      (source : old.state ∈ c.kind.sources)
      (told : (s.acted c old).announce submit (c.moved old s.clock.now) old.state 0 d.listeners =
        (stopped, after)) :
      Judged d submit s c (.ofAnnouncement (c.moved old s.clock.now) stopped) after

variable {d : Dispatcher} {submit : Session → Command → Attempt × Session} {s after : Session}
  {c : Command} {answer : Attempt}

/-- A commit that is not announced gives the verdict, and it leaves the rows alone. -/
theorem judged_of_committed {commit : Commit} (reliable : s.store.Reliable)
    (valid : c.invalid? = none)
    (path : (s.guard c.processId).Committed (Handler.standard c.kind) c (.ok commit) after)
    (leaves : commit.outcome.Leaves (s.store.get? c.processId)) :
    d.Judged submit s c (.ok commit.outcome) after := by
  have atomic : (s.guard c.processId).store.Atomic := by
    rw [Session.store_guard]
    exact reliable.atomic
  obtain ⟨answered, rows⟩ := (path.attempted atomic valid).of_guard.verdict reliable
  have given := Except.ok.inj answered
  rw [← given, Roster.settle_of_leaves leaves] at rows
  exact .untold given leaves ((s.sameWorld_guard _).trans path.sameWorld) rows path.deliveries

theorem Applied.judged (standard : d.registry = Registry.standard) (reliable : s.store.Reliable)
    (path : d.Applied submit s c answer after) : d.Judged submit s c answer after := by
  have now : (s.guard c.processId).clock.now = s.clock.now := by rw [Session.clock_guard]
  cases path with
  | unresolved unbound =>
    rw [standard, Registry.standard_resolve] at unbound
    cases unbound
  | @invalid h f _ invalid =>
    have verdict : Outcome.failure f = c.verdict s.clock.now (s.store.get? c.processId) := by
      simp only [Command.verdict, invalid]
    exact .untold verdict (by simp [Outcome.Leaves]) ⟨rfl, rfl⟩ rfl rfl
  | interrupted bound _ commits =>
    obtain rfl := eq_standard_of_resolve standard bound
    exact (Session.Committed.of_commit commits).not_error.elim
  | rejected bound valid commits =>
    obtain rfl := eq_standard_of_resolve standard bound
    refine judged_of_committed reliable valid (Session.Committed.of_commit commits) ?_
    simp [Outcome.Leaves, Commit.outcome]
  | @unchanged h p _ bound valid commits =>
    obtain rfl := eq_standard_of_resolve standard bound
    have path := Session.Committed.of_commit commits
    refine judged_of_committed reliable valid path fun q success => ?_
    cases success
    cases path.ruled valid with
    | kept stored _ _ => rwa [Session.store_guard] at stored
  | announced bound valid commits told =>
    obtain rfl := eq_standard_of_resolve standard bound
    cases (Session.Committed.of_commit commits).ruled valid with
    | moved stored source _ =>
      rw [Session.store_guard] at stored
      rw [now] at told ⊢
      exact .told valid stored source told
  | aborted bound valid commits told =>
    obtain rfl := eq_standard_of_resolve standard bound
    cases (Session.Committed.of_commit commits).ruled valid with
    | moved stored source _ =>
      rw [Session.store_guard] at stored
      rw [now] at told
      exact .told valid stored source told

theorem applyWith_judged (standard : d.registry = Registry.standard)
    (submit : Session → Command → Attempt × Session) (reliable : s.store.Reliable) (c : Command) :
    d.Judged submit s c (d.applyWith submit s c).1 (d.applyWith submit s c).2 :=
  (d.applyWith_applied submit s c).judged standard reliable

/-- The roster after a process was moved. -/
theorem roster_acted {old : TransferProcess} (valid : c.invalid? = none)
    (stored : s.store.get? c.processId = some old) (source : old.state ∈ c.kind.sources) :
    (s.acted c old).store.roster =
      s.store.roster.settle (c.verdict s.clock.now (s.store.get? c.processId)) := by
  rw [stored, c.verdict_of_source _ valid source]
  change (s.guard c.processId).store.roster.insert (c.moved old (s.guard c.processId).clock.now) = _
  rw [Session.store_guard, Session.clock_guard]
  rfl

/-- The rows follow the verdict, also where a listener aborts, and only an abort keeps it from being
the answer. A command that leaves its process as it is tells nobody. -/
structure Settles (s : Session) (c : Command) (answer : Attempt) (after : Session) : Prop where
  world : s.SameWorld after
  rows : after.store.roster = s.store.roster.step s.clock.now (.command c)
  answered : answer = .ok (c.verdict s.clock.now (s.store.get? c.processId)) ∨
    ∃ reason, answer = .error (.abort reason)
  untold : (c.verdict s.clock.now (s.store.get? c.processId)).Leaves (s.store.get? c.processId) →
    answer = .ok (c.verdict s.clock.now (s.store.get? c.processId)) ∧
      after.deliveries = s.deliveries

theorem Judged.settles (quiet : ∀ l ∈ d.listeners, l.Quiet)
    (path : d.Judged submit s c answer after) : Settles s c answer after := by
  cases path with
  | @untold after outcome verdict leaves world rows deliveries =>
    refine ⟨world, ?_, .inl (congrArg _ verdict), fun _ => ⟨congrArg _ verdict, deliveries⟩⟩
    rw [rows, ← Roster.settle_verdict, ← Store.get?, ← verdict, Roster.settle_of_leaves leaves]
  | @told old stopped after valid stored source told =>
    obtain ⟨heard, last, -⟩ := Session.announce_of_quiet submit quiet (c.moved old s.clock.now)
      old.state 0 (s.acted c old)
    rw [told] at last
    change after = _ at last
    have rows := (roster_acted valid stored source).trans (s.store.roster.settle_verdict c _)
    have verdict := c.verdict_of_source s.clock.now valid source
    rw [← stored] at verdict
    rw [last]
    refine ⟨s.sameWorld_acted c, rows, ?_, fun leaves => ?_⟩
    · cases stopped with
      | none => exact .inl (congrArg _ verdict.symm)
      | some reason => exact .inr ⟨reason, rfl⟩
    · rw [stored] at leaves
      exact absurd leaves (Command.not_leaves_of_source valid source)

theorem apply_settles (standard : d.registry = Registry.standard)
    (quiet : ∀ l ∈ d.listeners, l.Quiet) (reliable : s.store.Reliable) (c : Command) :
    Settles s c (d.apply s c).1 (d.apply s c).2 := by
  obtain ⟨submit, -, eq⟩ := d.apply_eq_applyWith s c
  rw [eq]
  exact (d.applyWith_judged standard submit reliable c).settles quiet

/-- No answer is a failure of the storage. -/
theorem Settles.settled (settles : Settles s c answer after) :
    Attempt.isStorageFailure answer = false := by
  rcases settles.answered with given | ⟨reason, aborted⟩
  · rw [given, c.settled_verdict]
  · rw [aborted]
    rfl

end Dispatcher

/-- A command leaves its process as it is exactly where the row stays. -/
theorem Record.next_command_iff (c : Command) (now : Instant) (stored : Option TransferProcess) :
    (Record.command c).next now stored = stored ↔ (c.verdict now stored).Leaves stored := by
  simp only [next, result?, Outcome.Leaves]
  cases c.verdict now stored with
  | success p => simp [eq_comm]
  | failure f => simp

namespace Engine

variable {e : Engine} {s : Session}

/-- An attempt that the storage does not fail is the only one. -/
theorem apply_command_of_settled {c : Command}
    (settled : Attempt.isStorageFailure (e.dispatcher.apply s c).1 = false) :
    e.apply s (.command c) =
      ((e.dispatcher.apply s c).1.map (·.status.tally), (e.dispatcher.apply s c).2) := by
  rw [apply, Queue.push, Queue.requeue, List.nil_append]
  rcases attempt : e.dispatcher.apply s c with ⟨i | outcome, after⟩
  · rw [Queue.drain_cons_of_error attempt]
    rfl
  · rw [attempt] at settled
    rw [Queue.drain_of_settled e.policy 0 attempt settled]
    rfl

theorem deliveries_initiate (s : Session) (id : ProcessId) :
    (initiate s id).2.deliveries = s.deliveries := by
  unfold initiate
  split <;> rfl

/-- A record makes its step of the rows, also where a listener aborts. One that leaves its row as it
is tells nobody. -/
structure RecordSettles (s : Session) (r : Record) (answer : Except Interruption Tally)
    (after : Session) : Prop where
  world : s.SameWorld after
  rows : after.store.roster = s.store.roster.step s.clock.now r
  answered : answer = .ok (.ofResult (r.result? s.clock.now (s.store.get? r.processId))) ∨
    ∃ reason, answer = .error (.abort reason)
  untold : r.next s.clock.now (s.store.get? r.processId) = s.store.get? r.processId →
    answer = .ok (.ofResult (r.result? s.clock.now (s.store.get? r.processId))) ∧
      after.deliveries = s.deliveries

theorem apply_settles (standard : e.dispatcher.registry = Registry.standard)
    (quiet : ∀ l ∈ e.dispatcher.listeners, l.Quiet) (reliable : s.store.Reliable) (r : Record) :
    RecordSettles s r (e.apply s r).1 (e.apply s r).2 := by
  cases r with
  | initiate id =>
    have world := initiate_sameWorld reliable.atomic id
    cases initiate_initiated reliable.atomic id with
    | refused fate _ _ _ =>
      rw [Store.fateOf, reliable] at fate
      cases fate
    | stepped _ counted rows =>
      exact ⟨world, rows, .inl (congrArg _ counted),
        fun _ => ⟨congrArg _ counted, deliveries_initiate s id⟩⟩
  | command c =>
    have settles := Dispatcher.apply_settles standard quiet reliable c
    rw [apply_command_of_settled settles.settled]
    refine ⟨settles.world, settles.rows, ?_, fun stays => ?_⟩
    · rcases settles.answered with given | ⟨reason, aborted⟩
      · rw [given]
        exact .inl (congrArg _ (Outcome.tally_status c _ _))
      · rw [aborted]
        exact .inr ⟨reason, rfl⟩
    · obtain ⟨given, untold⟩ := settles.untold ((Record.next_command_iff c _ _).1 stays)
      rw [given]
      exact ⟨congrArg _ (Outcome.tally_status c _ _), untold⟩

end Engine

end TransferLifecycle
