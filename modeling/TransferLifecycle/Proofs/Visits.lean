import TransferLifecycle.Proofs.RecordSteps

set_option autoImplicit false

/- A run looked at record by record: each record is visited once, and a visit keeps the session it
found, the attempts that were made and the session it left. Over a store whose calls may be refused,
a visit either is given up and changes no row, or it does what it would do over a reliable store. -/
namespace TransferLifecycle

/-- How many records count as processed and how many as rejected. -/
def Tally.counts (t : Tally) : Nat × Nat := (t.processed, t.rejected)

/-- One record of a run. An initiation is made without attempts. -/
structure Visit where
  before : Session
  record : Record
  attempts : List Attempt
  result : Except Interruption Tally
  after : Session

namespace Visit

/-- What the visit is counted as; one that is interrupted is not counted. -/
def tally (v : Visit) : Tally :=
  match v.result with
  | .ok tally => tally
  | .error _ => .zero

def retries (v : Visit) : Nat := v.attempts.length - 1

/-- A command is given up when its attempts are exhausted, and an initiation when the storage is not
available to it. -/
def givenUp (v : Visit) : Bool :=
  match v.record with
  | .command _ => 0 < v.tally.exhausted
  | .initiate id =>
    match (v.before.store.create (.initial id v.before.clock.now)).1 with
    | .error e => e.isUnavailable
    | .ok () => false

/-- Visits that lead from one session to another, with nothing in between. -/
def Chain : Session → List Visit → Session → Prop
  | s, [], last => last = s
  | s, v :: rest, last => v.before = s ∧ Chain v.after rest last

end Visit

namespace Queue

variable {σ : Type} {policy : RetryPolicy} {submit : σ → Command → Attempt × σ} {c : Command}

/-- A number of attempts at one command, one right after the other. -/
def repeated (submit : σ → Command → Attempt × σ) (c : Command) : Nat → σ → List Attempt × σ
  | 0, s => ([], s)
  | n + 1, s =>
    let (attempt, mid) := submit s c
    let (rest, last) := repeated submit c n mid
    (attempt :: rest, last)

theorem Tried.repeated_eq {made : Nat} {s after : σ} {attempts : List Attempt} {status : Status}
    (tried : Tried policy submit c made s attempts status after) :
    repeated submit c attempts.length s = (attempts, after) := by
  induction tried with
  | settled attempt _ => simp only [List.length_singleton, repeated, attempt]
  | exhausted attempt _ _ => simp only [List.length_singleton, repeated, attempt]
  | again attempt _ _ _ ih => simp only [List.length_cons, repeated, attempt, ih]

end Queue

namespace Engine

/-- The attempts that the engine makes at a record. -/
def attempts (e : Engine) (s : Session) : Record → List Attempt
  | .initiate _ => []
  | .command c =>
    (Queue.drain e.policy (Queue.logged e.dispatcher.apply) (s, []) (Queue.push [] c)).2.2.2

def visit (e : Engine) (s : Session) (r : Record) : Visit :=
  ⟨s, r, e.attempts s r, (e.apply s r).1, (e.apply s r).2⟩

def visits (e : Engine) : Session → List Record → List Visit
  | _, [] => []
  | s, r :: rest => e.visit s r :: e.visits (e.visit s r).after rest

theorem visits_records (e : Engine) (s : Session) (log : List Record) :
    (e.visits s log).map Visit.record = log := by
  induction log generalizing s with
  | nil => rfl
  | cons r rest ih => rw [visits, List.map_cons, ih, visit]

end Engine

/-- A store whose calls may be refused for not being available, with nothing done. -/
def Store.Flaky (s : Store) : Prop :=
  ∀ calls, s.fate calls = .granted ∨
    ∃ operation message, s.fate calls = .refused (.unavailable operation message)

theorem Store.Flaky.atomic {s : Store} (flaky : s.Flaky) : s.Atomic := by
  intro calls e lost
  rcases flaky calls with granted | ⟨operation, message, refused⟩
  · rw [granted] at lost
    cases lost
  · rw [refused] at lost
    cases lost

theorem Store.Flaky.unavailable_of_refused {s : Store} (flaky : s.Flaky) {calls : List Call}
    {e : StoreError} (fate : s.fate calls = .refused e) :
    ∃ operation message, e = .unavailable operation message := by
  rcases flaky calls with granted | ⟨operation, message, refused⟩
  · rw [granted] at fate
    cases fate
  · rw [refused] at fate
    cases fate
    exact ⟨operation, message, rfl⟩

theorem Store.Reliable.flaky {s : Store} (reliable : s.Reliable) : s.Flaky :=
  fun calls => .inl (reliable calls)

/-- A clock that stands still. -/
def Clock.Steady (clock : Clock) (now : Instant) : Prop := ∀ k, clock.reading k = now

namespace Session

variable {s after : Session} {now : Instant}

theorem SameWorld.flaky (world : s.SameWorld after) (flaky : s.store.Flaky) :
    after.store.Flaky := by
  intro calls
  rw [world.1]
  exact flaky calls

theorem SameWorld.steady (world : s.SameWorld after) (steady : s.clock.Steady now) :
    after.clock.Steady now := by
  intro k
  rw [world.2]
  exact steady k

end Session

/-- A command that was tried is given up with the rows as they were, or it comes to its verdict. -/
theorem Queue.Tried.verdict_or_exhausted {policy : RetryPolicy} {d : Dispatcher} {c : Command}
    {made : Nat} {s after : Session} {attempts : List Attempt} {status : Status} {now : Instant}
    (tried : Tried policy d.apply c made s attempts status after) (standard : d.Standard)
    (atomic : s.store.Atomic) (steady : s.clock.Steady now) :
    s.SameWorld after ∧
      (status.isExhausted = true ∧ after.store.roster = s.store.roster ∨
        status = (c.verdict now (s.store.get? c.processId)).status ∧
          after.store.roster = s.store.roster.step now (.command c)) := by
  induction tried with
  | @settled made s after outcome attempt settled =>
    obtain ⟨rfl, rows⟩ := standard.verdict_of_settled atomic attempt settled
    have reading : s.clock.now = now := steady _
    refine ⟨standard.sameWorld atomic attempt, .inr ?_⟩
    rw [reading] at rows ⊢
    exact ⟨rfl, rows⟩
  | exhausted attempt retryable _ =>
    exact ⟨standard.sameWorld atomic attempt,
      .inl ⟨rfl, standard.rows_of_storageFailure atomic attempt retryable⟩⟩
  | @again made s mid after f attempts status attempt retryable _ _ ih =>
    have world := standard.sameWorld atomic attempt
    have rows := standard.rows_of_storageFailure atomic attempt retryable
    have later := ih (world.atomic atomic) (world.steady steady)
    rw [Store.get?, rows] at later
    exact ⟨world.trans later.1, later.2⟩

/-- A visit that was not interrupted, with what it comes to: it is given up and changes no row, or
it does what the record does at `now` where no call fails. -/
structure Visit.Sound (now : Instant) (v : Visit) : Prop where
  result : v.result = .ok v.tally
  world : v.before.SameWorld v.after
  counted : v.tally.processed + v.tally.rejected + v.tally.exhausted = 1
  retried : v.tally.retried = v.retries
  came : v.givenUp = true ∧ v.after.store.roster = v.before.store.roster ∨
    v.givenUp = false ∧
      v.tally.counts = (Tally.ofResult (v.record.result? now
        (v.before.store.get? v.record.processId))).counts ∧
      v.after.store.roster = v.before.store.roster.step now v.record

namespace Engine

variable {e : Engine} {s : Session} {now : Instant}

/-- The visit of a command is a number of attempts at it. -/
theorem visit_command (standard : e.dispatcher.Standard) (atomic : s.store.Atomic) (c : Command) :
    ∃ attempts status after,
      Queue.Tried e.policy e.dispatcher.apply c 0 s attempts status after ∧
        e.visit s (.command c) =
          ⟨s, .command c, attempts, .ok (Queue.triedTally attempts status), after⟩ := by
  have step : ∀ s : Session, s.store.Atomic →
      ∃ outcome after, e.dispatcher.apply s c = (.ok outcome, after) ∧ after.store.Atomic := by
    intro s atomic
    obtain ⟨outcome, after, attempt⟩ := standard.exists_outcome atomic c
    exact ⟨outcome, after, attempt, (standard.sameWorld atomic attempt).atomic atomic⟩
  obtain ⟨attempts, status, after, tried, drained⟩ :=
    Queue.exists_tried e.policy step 0 s [] atomic
  refine ⟨attempts, status, after, tried, ?_⟩
  have plain := Queue.drain_logged e.policy e.dispatcher.apply s [⟨c, 0⟩] []
  rw [drained] at plain
  simp only [visit, apply, Engine.attempts, Queue.push, Queue.requeue, List.nil_append, drained,
    plain]

theorem visit_initiate_sound (flaky : s.store.Flaky) (steady : s.clock.Steady now)
    (id : ProcessId) : (e.visit s (.initiate id)).Sound now := by
  have reading : s.clock.now = now := steady _
  have world := initiate_sameWorld flaky.atomic id
  cases initiate_initiated flaky.atomic id with
  | refused fate answered counted rows =>
    obtain ⟨operation, message, rfl⟩ := flaky.unavailable_of_refused fate
    have tally : (e.visit s (.initiate id)).tally = .ofResult none := counted
    have given : (e.visit s (.initiate id)).givenUp = true := by
      simp only [Visit.givenUp, visit, answered]
      rfl
    have counted := Tally.ofResult_counted none
    rw [← tally] at counted
    exact ⟨rfl, world, counted, congrArg Tally.retried tally, .inl ⟨given, rows⟩⟩
  | stepped available counted rows =>
    have tally : (e.visit s (.initiate id)).tally = .ofResult _ := counted
    have kept : (e.visit s (.initiate id)).givenUp = false := by
      simp only [Visit.givenUp, visit]
      cases answered : (s.store.create (.initial id s.clock.now)).1 with
      | ok _ => rfl
      | error error => exact available error answered
    rw [reading] at rows tally
    have counted := Tally.ofResult_counted ((Record.initiate id).result? now (s.store.get? id))
    have retried := Tally.ofResult_retried ((Record.initiate id).result? now (s.store.get? id))
    rw [← tally] at counted retried
    exact ⟨rfl, world, counted, retried, .inr ⟨kept, congrArg Tally.counts tally, rows⟩⟩

theorem visit_command_sound (standard : e.dispatcher.Standard) (flaky : s.store.Flaky)
    (steady : s.clock.Steady now) (c : Command) : (e.visit s (.command c)).Sound now := by
  obtain ⟨attempts, status, after, tried, visited⟩ := visit_command standard flaky.atomic c
  obtain ⟨world, ⟨used, rows⟩ | ⟨given, rows⟩⟩ :=
    tried.verdict_or_exhausted standard flaky.atomic steady
  · cases status with
    | exhausted f =>
      rw [visited]
      exact ⟨rfl, world, rfl, rfl, .inl ⟨rfl, rows⟩⟩
    | processed p => cases used
    | rejected f => cases used
    | requeued made => cases used
  · have counts : (Queue.triedTally attempts status).counts = (Tally.ofResult
        ((Record.command c).result? now (s.store.get? c.processId))).counts := by
      rw [← Outcome.tally_status, given]
      rfl
    rw [visited]
    cases answer : c.verdict now (s.store.get? c.processId) with
    | success p =>
      rw [answer] at given
      subst given
      exact ⟨rfl, world, rfl, rfl, .inr ⟨rfl, counts, rows⟩⟩
    | failure f =>
      rw [answer] at given
      subst given
      exact ⟨rfl, world, rfl, rfl, .inr ⟨rfl, counts, rows⟩⟩

theorem visit_sound (standard : e.dispatcher.Standard) (flaky : s.store.Flaky)
    (steady : s.clock.Steady now) (r : Record) : (e.visit s r).Sound now := by
  cases r with
  | initiate id => exact visit_initiate_sound flaky steady id
  | command c => exact visit_command_sound standard flaky steady c

/-- A visit to a reliable store does its step. -/
theorem visit_of_reliable (standard : e.dispatcher.Standard) (reliable : s.store.Reliable)
    (steady : s.clock.Steady now) (r : Record) :
    (e.visit s r).result = .ok (e.visit s r).tally ∧
      (e.visit s r).tally = .ofResult (r.result? now (s.store.get? r.processId)) ∧
      (e.visit s r).after.store.roster = s.store.roster.step now r := by
  have reading : s.clock.now = now := steady _
  obtain ⟨counted, rows, -⟩ := apply_of_reliable standard reliable r
  rw [reading] at counted rows
  have tally : (e.visit s r).tally = .ofResult (r.result? now (s.store.get? r.processId)) := by
    simp only [Visit.tally, visit, counted]
  refine ⟨?_, tally, rows⟩
  rw [tally]
  exact counted

/-- A command is attempted as often as allowed at most, and is given up exactly when it was
attempted that often and the storage failed each time. -/
theorem visit_attempts (standard : e.dispatcher.Standard) (flaky : s.store.Flaky) (c : Command) :
    0 < (e.visit s (.command c)).attempts.length ∧
      (e.visit s (.command c)).attempts.length ≤ e.policy.maxAttempts ∧
      Queue.repeated e.dispatcher.apply c (e.visit s (.command c)).attempts.length s =
        ((e.visit s (.command c)).attempts, (e.visit s (.command c)).after) ∧
      ((e.visit s (.command c)).givenUp = true ↔
        (e.visit s (.command c)).attempts.length = e.policy.maxAttempts ∧
          ∀ a ∈ (e.visit s (.command c)).attempts, Attempt.isStorageFailure a = true) := by
  obtain ⟨attempts, status, after, tried, visited⟩ := visit_command standard flaky.atomic c
  have exhausted := tried.isExhausted_iff e.policy.positive
  have bound := tried.length_le e.policy.positive
  rw [Nat.zero_add] at exhausted bound
  rw [visited]
  refine ⟨tried.length_pos, bound, tried.repeated_eq, ?_⟩
  rw [← exhausted]
  cases status <;> simp [Visit.givenUp, Visit.tally, Queue.triedTally, Status.tally,
    Status.isExhausted]

end Engine

end TransferLifecycle
