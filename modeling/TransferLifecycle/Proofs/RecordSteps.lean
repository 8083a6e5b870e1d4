import TransferLifecycle.Engine
import TransferLifecycle.Proofs.Attempts
import TransferLifecycle.Proofs.Verdict

set_option autoImplicit false

/- What a record does where no call fails. It looks at the row of its own process only, and it
either puts a new row in its place or leaves all rows alone. -/
namespace TransferLifecycle

/-- The new row of the record's process, where `stored` is the present one. -/
def Record.result? (r : Record) (now : Instant) (stored : Option TransferProcess) :
    Option TransferProcess :=
  match r with
  | initiate id => if stored.isNone then some (.initial id now) else none
  | command c =>
    match c.verdict now stored with
    | .success p => some p
    | .failure _ => none

/-- The row of the record's process afterwards. -/
def Record.next (r : Record) (now : Instant) (stored : Option TransferProcess) :
    Option TransferProcess := (r.result? now stored).or stored

/-- A record counts as processed where it gives a row, and as rejected otherwise. -/
def Tally.ofResult : Option TransferProcess → Tally
  | some _ => ⟨1, 0, 0, 0⟩
  | none => ⟨0, 1, 0, 0⟩

theorem Tally.ofResult_counted (result : Option TransferProcess) :
    (ofResult result).processed + (ofResult result).rejected + (ofResult result).exhausted = 1 := by
  cases result <;> rfl

theorem Tally.ofResult_retried (result : Option TransferProcess) :
    (ofResult result).retried = 0 := by cases result <;> rfl

def Roster.step (rows : Roster) (now : Instant) (r : Record) : Roster :=
  match r.result? now (rows.get? r.processId) with
  | some p => rows.insert p
  | none => rows

namespace Record

variable {r : Record} {now : Instant} {stored : Option TransferProcess} {p : TransferProcess}

theorem id_of_result? (own : ∀ q ∈ stored, q.id = r.processId)
    (result : r.result? now stored = some p) : p.id = r.processId := by
  cases r with
  | initiate id =>
    simp only [result?] at result
    split at result
    · cases result
      rfl
    · cases result
  | command c =>
    simp only [result?] at result
    split at result
    next q applied =>
      cases result
      unfold Command.verdict at applied
      split at applied
      · cases applied
      · cases applied
      · rw [Command.id_of_applyTo applied]
        exact own _ rfl
    next => cases result

/-- Only an initiation brings a row where there is none. -/
theorem next_none (r : Record) (now : Instant) :
    (r.next now none).isSome = true ↔ r = .initiate r.processId := by
  cases r with
  | initiate id => simp [next, result?, processId]
  | command c => cases valid : c.invalid? <;> simp [next, result?, Command.verdict, valid]

/-- No record takes a row away. -/
theorem isSome_next (r : Record) (now : Instant) (p : TransferProcess) :
    (r.next now (some p)).isSome = true := by simp [next]

end Record

theorem Roster.get?_step (rows : Roster) (now : Instant) (r : Record) (id : ProcessId) :
    (rows.step now r).get? id =
      if r.processId = id then r.next now (rows.get? id) else rows.get? id := by
  unfold step
  split
  next p result =>
    have own := Record.id_of_result? (fun q stored => id_of_get? stored) result
    rw [get?_insert, own]
    split
    next same =>
      subst same
      rw [Record.next, result, Option.some_or]
    next => rfl
  next result =>
    split
    next same =>
      subst same
      rw [Record.next, result, Option.none_or]
    next => rfl

/-- The call was not served at all. -/
def StoreError.isUnavailable : StoreError → Bool
  | unavailable _ _ => true
  | _ => false

namespace Store

/-- Every way of a creation at a store whose failed calls have done nothing. -/
inductive Created (s : Store) (p : TransferProcess) : Except StoreError Unit → Store → Prop
  | refused {e : StoreError} (fate : s.fateOf (.create p.id) = .refused e) :
      Created s p (.error e) (s.record (.create p.id))
  | stored (missing : s.get? p.id = none) :
      Created s p (.ok ()) ((s.record (.create p.id)).put p)
  | taken {q : TransferProcess} (stored : s.get? p.id = some q) :
      Created s p (.error (.alreadyExists p.id)) (s.record (.create p.id))

theorem create_created {s : Store} (atomic : s.Atomic) (p : TransferProcess) :
    s.Created p (s.create p).1 (s.create p).2 := by
  cases fate : s.fateOf (.create p.id) with
  | refused e =>
    simp only [create, fate]
    exact .refused fate
  | unacknowledged e => exact absurd fate (atomic _ e)
  | granted =>
    cases stored : s.get? p.id with
    | none =>
      simp only [create, fate, stored]
      exact .stored stored
    | some q =>
      simp only [create, fate, stored]
      exact .taken stored

end Store

namespace Session

/-- Where calls cannot fail, an attempt gives the verdict. -/
theorem Attempted.verdict {s after : Session} {c : Command} {answer : Attempt}
    (reliable : s.store.Reliable) (attempt : s.Attempted c answer after) :
    answer = .ok (c.verdict s.clock.now (s.store.get? c.processId)) ∧
      after.store.roster =
        s.store.roster.settle (c.verdict s.clock.now (s.store.get? c.processId)) := by
  cases attempt with
  | judged answered rows => exact ⟨answered, rows⟩
  | failed _ called _ =>
    obtain ⟨calls, failed⟩ := called
    rw [reliable calls] at failed
    cases failed

end Session

/-- A verdict is no failure of the storage, so that it is never asked for again. -/
theorem Command.settled_verdict (c : Command) (now : Instant) (stored : Option TransferProcess) :
    Attempt.isStorageFailure (.ok (c.verdict now stored)) = false := by
  cases verdict : c.verdict now stored with
  | success p => rfl
  | failure f => exact Command.not_retryable_of_verdict verdict

theorem Outcome.tally_status (c : Command) (now : Instant) (stored : Option TransferProcess) :
    (c.verdict now stored).status.tally = .ofResult ((Record.command c).result? now stored) := by
  simp only [Record.result?]
  cases c.verdict now stored <;> rfl

theorem Roster.settle_verdict (rows : Roster) (c : Command) (now : Instant) :
    rows.settle (c.verdict now (rows.get? c.processId)) = rows.step now (.command c) := by
  simp only [step, Record.result?, Record.processId]
  cases c.verdict now (rows.get? c.processId) <;> rfl

namespace Dispatcher

variable {d : Dispatcher} {s after : Session} {c : Command} {outcome : Outcome TransferProcess}

theorem Standard.sameWorld (standard : d.Standard) (atomic : s.store.Atomic) {answer : Attempt}
    (attempt : d.apply s c = (answer, after)) : s.SameWorld after := by
  have world := (standard.apply_attempted atomic c).2
  rw [attempt] at world
  exact world

/-- No attempt is interrupted. -/
theorem Standard.exists_outcome (standard : d.Standard) (atomic : s.store.Atomic) (c : Command) :
    ∃ outcome after, d.apply s c = (.ok outcome, after) := by
  cases (standard.apply_attempted atomic c).1 with
  | failed answered _ _ => exact ⟨_, _, Prod.ext answered rfl⟩
  | judged answered _ => exact ⟨_, _, Prod.ext answered rfl⟩

/-- An attempt that the storage fails changes no row. -/
theorem Standard.rows_of_storageFailure (standard : d.Standard) (atomic : s.store.Atomic)
    (attempt : d.apply s c = (.ok outcome, after))
    (failed : Attempt.isStorageFailure (.ok outcome) = true) :
    after.store.roster = s.store.roster := by
  have path := (standard.apply_attempted atomic c).1
  rw [attempt] at path
  cases path with
  | failed _ _ rows => exact rows
  | judged answered _ =>
    rw [Except.ok.inj answered, c.settled_verdict] at failed
    cases failed

/-- Any other attempt gives the verdict. -/
theorem Standard.verdict_of_settled (standard : d.Standard) (atomic : s.store.Atomic)
    (attempt : d.apply s c = (.ok outcome, after))
    (settled : Attempt.isStorageFailure (.ok outcome) = false) :
    outcome = c.verdict s.clock.now (s.store.get? c.processId) ∧
      after.store.roster = s.store.roster.step s.clock.now (.command c) := by
  have path := (standard.apply_attempted atomic c).1
  rw [attempt] at path
  cases path with
  | failed answered _ _ =>
    rw [Except.ok.inj answered] at settled
    cases settled
  | judged answered rows =>
    have given := Except.ok.inj answered
    exact ⟨given, rows.trans (s.store.roster.settle_verdict c _)⟩

end Dispatcher

namespace Engine

variable {e : Engine} {s : Session}

theorem standard_dispatcher (policy : RetryPolicy) : (standard policy).dispatcher.Standard :=
  ⟨rfl, fun _ member => List.mem_singleton.1 member ▸ Listener.silent_calm⟩

/-- An initiation, to which the storage answered `answer`, came to a tally and left the session
`after`: it was refused, or it did its step. -/
inductive Initiated (s : Session) (id : ProcessId) (answer : Except StoreError Unit)
    (tally : Tally) (after : Session) : Prop
  | refused {e : StoreError} (fate : s.store.fateOf (.create id) = .refused e)
      (answered : answer = .error e) (counted : tally = .ofResult none)
      (rows : after.store.roster = s.store.roster)
  | stepped (available : ∀ e, answer = .error e → e.isUnavailable = false)
      (counted : tally = .ofResult ((Record.initiate id).result? s.clock.now (s.store.get? id)))
      (rows : after.store.roster = s.store.roster.step s.clock.now (.initiate id))

theorem initiate_initiated (atomic : s.store.Atomic) (id : ProcessId) :
    Initiated s id (s.store.create (.initial id s.clock.now)).1 (initiate s id).1
      (initiate s id).2 := by
  have path := Store.create_created atomic (.initial id s.clock.now)
  unfold initiate
  rcases created : s.store.create (.initial id s.clock.now) with ⟨answer, store⟩
  rw [created] at path
  cases path with
  | refused fate => exact .refused fate rfl rfl rfl
  | stored missing =>
    change s.store.roster.get? id = none at missing
    refine .stepped (fun e failed => by cases failed) ?_ ?_
    · simp [Store.get?, Record.result?, missing, Tally.ofResult]
    · simp [Roster.step, Record.result?, Record.processId, missing]
  | taken stored =>
    change s.store.roster.get? id = some _ at stored
    refine .stepped (fun e failed => by cases failed; rfl) ?_ ?_
    · simp [Store.get?, Record.result?, stored, Tally.ofResult]
    · simp [Roster.step, Record.result?, Record.processId, stored]

theorem initiate_sameWorld (atomic : s.store.Atomic) (id : ProcessId) :
    s.SameWorld (initiate s id).2 := by
  have path := Store.create_created atomic (.initial id s.clock.now)
  unfold initiate
  rcases created : s.store.create (.initial id s.clock.now) with ⟨answer, store⟩
  rw [created] at path
  cases path <;> exact ⟨rfl, rfl⟩

/-- At a reliable store, one record is one step of the rows. -/
theorem apply_of_reliable (standard : e.dispatcher.Standard) (reliable : s.store.Reliable)
    (r : Record) :
    (e.apply s r).1 = .ok (.ofResult (r.result? s.clock.now (s.store.get? r.processId))) ∧
      (e.apply s r).2.store.roster = s.store.roster.step s.clock.now r ∧
      s.SameWorld (e.apply s r).2 := by
  cases r with
  | initiate id =>
    have world := initiate_sameWorld reliable.atomic id
    cases initiate_initiated reliable.atomic id with
    | refused fate _ _ _ =>
      rw [Store.fateOf, reliable] at fate
      cases fate
    | stepped _ counted rows => exact ⟨congrArg Except.ok counted, rows, world⟩
  | command c =>
    obtain ⟨attempt, world⟩ := standard.apply_attempted reliable.atomic c
    obtain ⟨answered, rows⟩ := attempt.verdict reliable
    have submitted : e.dispatcher.apply s c = (_, (e.dispatcher.apply s c).2) :=
      Prod.ext answered rfl
    have settled := c.settled_verdict s.clock.now (s.store.get? c.processId)
    have drained := Queue.drain_of_settled e.policy 0 submitted settled
    rw [Outcome.tally_status] at drained
    rw [apply, Queue.push, Queue.requeue, List.nil_append, drained]
    exact ⟨rfl, rows.trans (s.store.roster.settle_verdict c _), world⟩

end Engine

end TransferLifecycle
