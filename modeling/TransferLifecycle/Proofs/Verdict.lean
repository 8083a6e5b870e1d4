import TransferLifecycle.Proofs.Hearing

set_option autoImplicit false

/- The verdict on a command is what the standard handlers answer for the stored process. An attempt
either fails at the storage and leaves the rows alone, or it gives the verdict and the rows follow
it; a reliable store knows only the second case. -/
namespace TransferLifecycle

/-- The process as the command moves it, where it has to be moved. -/
def Command.moved (c : Command) (p : TransferProcess) (now : Instant) : TransferProcess :=
  (p.enter c.kind.target now).withDetail (c.action.detail p.errorDetail)

namespace Command

theorem applyTo_of_target {c : Command} {p : TransferProcess} {now : Instant}
    (there : p.state = c.kind.target) : c.applyTo p now = .success p := by
  have found := (Transition.find_ok_iff p.state c.kind _).2 ⟨rfl, .inl there⟩
  simp only [applyTo, found, Transition.isNoop]
  simp [there]

theorem applyTo_of_source {c : Command} {p : TransferProcess} {now : Instant}
    (source : p.state ∈ c.kind.sources) : c.applyTo p now = .success (c.moved p now) := by
  have found := (Transition.find_ok_iff p.state c.kind _).2 ⟨rfl, .inr source⟩
  have moves := CommandKind.ne_target_of_mem_sources source
  simp [applyTo, found, Transition.isNoop, moves, moved]

theorem applyTo_of_refused {c : Command} {p : TransferProcess} {now : Instant}
    (elsewhere : p.state ≠ c.kind.target) (outside : p.state ∉ c.kind.sources) :
    c.applyTo p now = .failure (Transition.refusal p.state c.kind) := by
  have refused := (Transition.find_error_iff p.state c.kind _).2 ⟨rfl, elsewhere, outside⟩
  simp [applyTo, refused]

/-- Nothing to do, a transition, or a refusal. -/
theorem applyTo_cases (c : Command) (p : TransferProcess) (now : Instant) :
    (p.state = c.kind.target ∧ c.applyTo p now = .success p) ∨
    (p.state ∈ c.kind.sources ∧ c.applyTo p now = .success (c.moved p now)) ∨
    (c.applyTo p now = .failure (Transition.refusal p.state c.kind)) := by
  by_cases there : p.state = c.kind.target
  · exact .inl ⟨there, applyTo_of_target there⟩
  · by_cases source : p.state ∈ c.kind.sources
    · exact .inr (.inl ⟨source, applyTo_of_source source⟩)
    · exact .inr (.inr (applyTo_of_refused there source))

theorem id_of_applyTo {c : Command} {p q : TransferProcess} {now : Instant}
    (applied : c.applyTo p now = .success q) : q.id = p.id := by
  rcases c.applyTo_cases p now with ⟨-, eq⟩ | ⟨-, eq⟩ | eq <;> rw [eq] at applied <;> cases applied
  · rfl
  · rfl

/-- The answer to a command where `stored` is what its id stands for and no call fails. -/
def verdict (c : Command) (now : Instant) (stored : Option TransferProcess) :
    Outcome TransferProcess :=
  match c.invalid?, stored with
  | some f, _ => .failure f
  | none, none => .failure (notFoundFailure c.processId)
  | none, some p => c.applyTo p now

theorem not_retryable_of_verdict {c : Command} {now : Instant} {stored : Option TransferProcess}
    {f : Failure} (failed : c.verdict now stored = .failure f) : f.isRetryable = false := by
  unfold verdict at failed
  split at failed
  next g stored invalid =>
    cases failed
    simp [Failure.isRetryable, invalid?_kind invalid, FailureKind.isRetryable]
  next =>
    cases failed
    rfl
  next p valid =>
    rcases c.applyTo_cases p now with ⟨-, eq⟩ | ⟨-, eq⟩ | eq <;> rw [eq] at failed <;> cases failed
    rfl

end Command

/-- What an outcome leaves of the rows: a success is stored. -/
def Roster.settle (r : Roster) : Outcome TransferProcess → Roster
  | .success p => r.insert p
  | .failure _ => r

theorem Roster.insert_of_get? {r : Roster} {id : ProcessId} {p : TransferProcess}
    (stored : r.get? id = some p) : r.insert p = r := by
  refine ext_get? fun other => ?_
  rw [get?_insert]
  split
  next same => rw [← same, id_of_get? stored, stored]
  next => rfl

namespace Handler

/-- The decision of a standard handler is its verdict on the process that was loaded. -/
theorem standard_decide (c : Command) (p : TransferProcess) (now : Instant) :
    (standard c.kind).decide p c now = .ok
      (match c.applyTo p now with
      | .failure f => .reject f
      | .success next => if next = p then .keep next else .write next) := by
  unfold decide
  rw [standard_handle_of_kind]
  cases applied : c.applyTo p now with
  | failure f => rfl
  | success next =>
    have sameId := Command.id_of_applyTo applied
    dsimp only
    rw [ite_eq_right_iff.2 (fun other => absurd sameId other)]
    split <;> rfl

theorem applyTo_of_reject {c : Command} {p : TransferProcess} {now : Instant} {f : Failure}
    (decided : (standard c.kind).decide p c now = .ok (.reject f)) :
    c.applyTo p now = .failure f := by
  rw [standard_decide] at decided
  split at decided
  next applied => cases decided; exact applied
  next => split at decided <;> cases decided

theorem applyTo_of_keep {c : Command} {p q : TransferProcess} {now : Instant}
    (decided : (standard c.kind).decide p c now = .ok (.keep q)) :
    c.applyTo p now = .success q := by
  rw [standard_decide] at decided
  split at decided
  next => cases decided
  next applied =>
    split at decided
    next => cases decided; exact applied
    next => cases decided

theorem applyTo_of_write {c : Command} {p q : TransferProcess} {now : Instant}
    (decided : (standard c.kind).decide p c now = .ok (.write q)) :
    c.applyTo p now = .success q := by
  rw [standard_decide] at decided
  split at decided
  next => cases decided
  next applied =>
    split at decided
    next => cases decided
    next => cases decided; exact applied

end Handler

/-- The standard handlers, with listeners that only listen. -/
structure Dispatcher.Standard (d : Dispatcher) : Prop where
  registry : d.registry = Registry.standard
  calm : ∀ l ∈ d.listeners, l.Calm

namespace Session

/-- An attempt at a command came to `answer` and left the session `after`: a call of the storage
failed, or the verdict was given. -/
inductive Attempted (s : Session) (c : Command) (answer : Attempt) (after : Session) : Prop
  | failed {e : StoreError} (answered : answer = .ok (.failure (storageFailure e)))
      (called : ∃ calls, (s.store.fate calls).error? = some e)
      (rows : after.store.roster = s.store.roster)
  | judged (answered : answer = .ok (c.verdict s.clock.now (s.store.get? c.processId)))
      (rows : after.store.roster =
        s.store.roster.settle (c.verdict s.clock.now (s.store.get? c.processId)))

/-- The script of the store and the readings of the clock stay. -/
def SameWorld (s after : Session) : Prop :=
  after.store.fate = s.store.fate ∧ after.clock.reading = s.clock.reading

theorem SameWorld.trans {s mid after : Session} (first : s.SameWorld mid)
    (second : mid.SameWorld after) : s.SameWorld after :=
  ⟨second.1.trans first.1, second.2.trans first.2⟩

theorem SameWorld.reliable {s after : Session} (world : s.SameWorld after)
    (reliable : s.store.Reliable) : after.store.Reliable := by
  intro calls
  rw [world.1]
  exact reliable calls

theorem SameWorld.atomic {s after : Session} (world : s.SameWorld after)
    (atomic : s.store.Atomic) : after.store.Atomic := by
  intro calls
  rw [world.1]
  exact atomic calls

theorem Committed.sameWorld {s after : Session} {h : Handler} {c : Command}
    {answer : Except Interruption Commit} (path : s.Committed h c answer after) :
    s.SameWorld after := by cases path <;> exact ⟨rfl, rfl⟩

theorem sameWorld_guard (s : Session) (id : ProcessId) : s.SameWorld (s.guard id) :=
  ⟨by rw [store_guard], by rw [clock_guard]⟩

theorem Attempted.of_guard {s after : Session} {c : Command} {answer : Attempt} {id : ProcessId}
    (attempt : (s.guard id).Attempted c answer after) : s.Attempted c answer after := by
  cases attempt with
  | failed answered called rows =>
    simp only [store_guard] at called rows
    exact .failed answered called rows
  | judged answered rows =>
    simp only [store_guard, clock_guard] at answered rows
    exact .judged answered rows

theorem Attempted.of_store {s mid after : Session} {c : Command} {answer : Attempt}
    (attempt : s.Attempted c answer mid) (same : after.store = mid.store) :
    s.Attempted c answer after := by
  cases attempt with
  | failed answered called rows => exact .failed answered called (by rw [same, rows])
  | judged answered rows => exact .judged answered (by rw [same, rows])

/-- The answer that a commit with a standard handler leads to is that of an attempt. -/
theorem Committed.attempted {s after : Session} {c : Command} {commit : Commit}
    (atomic : s.store.Atomic) (valid : c.invalid? = none)
    (path : s.Committed (Handler.standard c.kind) c (.ok commit) after) :
    s.Attempted c (.ok commit.outcome) after := by
  have judged : ∀ {stored : Option TransferProcess}, s.store.get? c.processId = stored →
      commit.outcome = c.verdict s.clock.now stored →
      after.store.roster = s.store.roster.settle commit.outcome →
      s.Attempted c (.ok commit.outcome) after := by
    intro stored found answer rows
    rw [← found] at answer
    rw [answer] at rows ⊢
    exact .judged rfl rows
  cases path with
  | loadFailed failed => exact .failed rfl ⟨_, failed⟩ rfl
  | absent missing =>
    apply judged missing
    · simp [Command.verdict, valid, Commit.outcome]
    · rfl
  | refused stored decided =>
    apply judged stored
    · simp [Command.verdict, valid, Commit.outcome, Handler.applyTo_of_reject decided]
    · rfl
  | kept stored decided =>
    apply judged stored
    · simp [Command.verdict, valid, Commit.outcome, Handler.applyTo_of_keep decided]
    · exact (Roster.insert_of_get? stored).symm
  | @saveRefused _ next _ _ _ fate =>
    exact .failed rfl
      ⟨.save next.id :: (s.read c.processId).store.calls, congrArg Fate.error? fate⟩ rfl
  | saveLost _ _ lost => exact absurd lost (atomic _ _)
  | amended stored decided _ _ =>
    apply judged stored
    · simp [Command.verdict, valid, Commit.outcome, Handler.applyTo_of_write decided]
    · rfl
  | changed stored decided _ _ =>
    apply judged stored
    · simp [Command.verdict, valid, Commit.outcome, Handler.applyTo_of_write decided]
    · rfl

/-- A standard handler is never the cause of an interruption. -/
theorem Committed.not_error {s after : Session} {c : Command} {i : Interruption}
    (path : s.Committed (Handler.standard c.kind) c (.error i) after) : False := by
  cases path with
  | interrupted _ decided =>
    rw [Handler.standard_decide] at decided
    cases decided

end Session

namespace Dispatcher

variable {d : Dispatcher} {submit : Session → Command → Attempt × Session} {s after : Session}
  {c : Command} {answer : Attempt}

theorem eq_standard_of_resolve (standard : d.registry = Registry.standard) {h : Handler}
    (bound : d.registry.resolve c.kind = some h) : h = Handler.standard c.kind := by
  rw [standard, Registry.standard_resolve] at bound
  exact (Option.some.inj bound).symm

theorem Standard.told (standard : d.Standard) {committed : Session} {p : TransferProcess}
    {previous : State} {stopped : Option Abort}
    (told : committed.announce submit p previous 0 d.listeners = (stopped, after)) :
    stopped = none ∧ after.store = committed.store ∧ after.clock = committed.clock := by
  have ended := Session.announce_of_calm submit standard.calm p previous 0 committed
  obtain ⟨heard, last, -⟩ := Session.announce_of_quiet submit
    (fun l member => (standard.calm l member).quiet) p previous 0 committed
  rw [told] at ended last
  change after = _ at last
  rw [last]
  exact ⟨ended, rfl, rfl⟩

theorem Applied.attempted (standard : d.Standard) (atomic : s.store.Atomic)
    (path : d.Applied submit s c answer after) :
    s.Attempted c answer after ∧ s.SameWorld after := by
  have guarded : (s.guard c.processId).store.Atomic := by rwa [Session.store_guard]
  cases path with
  | unresolved unbound =>
    rw [standard.registry, Registry.standard_resolve] at unbound
    cases unbound
  | @invalid h f bound invalid =>
    have verdict : c.verdict s.clock.now (s.store.get? c.processId) = .failure f := by
      simp [Command.verdict, invalid]
    exact ⟨.judged (by rw [verdict]) (by rw [verdict]; rfl), rfl, rfl⟩
  | interrupted bound _ commits =>
    obtain rfl := eq_standard_of_resolve standard.registry bound
    exact (Session.Committed.of_commit commits).not_error.elim
  | rejected bound valid commits =>
    obtain rfl := eq_standard_of_resolve standard.registry bound
    have path := Session.Committed.of_commit commits
    exact ⟨(path.attempted guarded valid).of_guard, (s.sameWorld_guard _).trans path.sameWorld⟩
  | unchanged bound valid commits =>
    obtain rfl := eq_standard_of_resolve standard.registry bound
    have path := Session.Committed.of_commit commits
    exact ⟨(path.attempted guarded valid).of_guard, (s.sameWorld_guard _).trans path.sameWorld⟩
  | announced bound valid commits told =>
    obtain rfl := eq_standard_of_resolve standard.registry bound
    have path := Session.Committed.of_commit commits
    obtain ⟨-, sameStore, sameClock⟩ := standard.told told
    have world := (s.sameWorld_guard c.processId).trans path.sameWorld
    refine ⟨?_, by rw [sameStore]; exact world.1, by rw [sameClock]; exact world.2⟩
    have attempt := (path.attempted guarded valid).of_guard
    exact attempt.of_store sameStore
  | aborted _ _ _ told =>
    obtain ⟨ended, -⟩ := standard.told told
    cases ended

theorem Standard.apply_attempted (standard : d.Standard) (atomic : s.store.Atomic) (c : Command) :
    s.Attempted c (d.apply s c).1 (d.apply s c).2 ∧ s.SameWorld (d.apply s c).2 := by
  obtain ⟨submit, -, eq⟩ := d.apply_eq_applyWith s c
  rw [eq]
  exact (d.applyWith_applied submit s c).attempted standard atomic

end Dispatcher

end TransferLifecycle
