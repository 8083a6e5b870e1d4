import Mathlib.Algebra.GroupWithZero.Nat
import TransferLifecycle.Proofs.Visits

set_option autoImplicit false

/- A run over a store whose calls may be refused is a run over a reliable store without the records
that were given up. The two runs differ in length, in calls and in attempts; what carries the proof
is that both have the same rows before each record that is not given up. -/
namespace TransferLifecycle

namespace Engine

variable {e : Engine} {s : Session} {now : Instant}

/-- The visits that were not given up. -/
def kept (e : Engine) (s : Session) (log : List Record) : List Visit :=
  (e.visits s log).filter fun v => !v.givenUp

theorem kept_cons (e : Engine) (s : Session) (r : Record) (rest : List Record) :
    e.kept s (r :: rest) =
      if (e.visit s r).givenUp = true then e.kept (e.visit s r).after rest
      else e.visit s r :: e.kept (e.visit s r).after rest := by
  rw [kept, visits, List.filter_cons]
  cases (e.visit s r).givenUp <;> rfl

theorem runFrom_cons (e : Engine) {s : Session} {r : Record}
    (counted : (e.visit s r).result = .ok (e.visit s r).tally) (total : Tally)
    (rest : List Record) :
    e.runFrom total s (r :: rest) =
      e.runFrom (total.add (e.visit s r).tally) (e.visit s r).after rest := by
  have applied : e.apply s r = (.ok (e.visit s r).tally, (e.visit s r).after) :=
    Prod.ext counted rfl
  rw [runFrom, applied]

/-- Each visit is one of the engine's to a session with the same store and clock. -/
theorem mem_visits (standard : e.dispatcher.Standard) (flaky : s.store.Flaky)
    (steady : s.clock.Steady now) {log : List Record} {v : Visit} (member : v ∈ e.visits s log) :
    ∃ found, s.SameWorld found ∧ v = e.visit found v.record := by
  induction log generalizing s with
  | nil => cases member
  | cons r rest ih =>
    have world := (visit_sound standard flaky steady r).world
    rcases List.mem_cons.1 member with rfl | later
    · exact ⟨s, ⟨rfl, rfl⟩, rfl⟩
    · obtain ⟨found, same, eq⟩ := ih (world.flaky flaky) (world.steady steady) later
      exact ⟨found, world.trans same, eq⟩

/-- A run goes through its visits, and its report is the sum of theirs. -/
theorem runFrom_visits (standard : e.dispatcher.Standard) (flaky : s.store.Flaky)
    (steady : s.clock.Steady now) (total : Tally) (log : List Record) :
    (e.runFrom total s log).1 = .ok (((e.visits s log).map Visit.tally).foldl Tally.add total) ∧
      Visit.Chain s (e.visits s log) (e.runFrom total s log).2 := by
  induction log generalizing total s with
  | nil => exact ⟨rfl, rfl⟩
  | cons r rest ih =>
    have sound := visit_sound standard flaky steady r
    obtain ⟨counted, chained⟩ := ih (sound.world.flaky flaky) (sound.world.steady steady)
      (total.add (e.visit s r).tally)
    rw [e.runFrom_cons sound.result]
    exact ⟨counted, rfl, chained⟩

theorem foldl_counted (standard : e.dispatcher.Standard) (flaky : s.store.Flaky)
    (steady : s.clock.Steady now) (total : Tally) (log : List Record) :
    let last := ((e.visits s log).map Visit.tally).foldl Tally.add total
    last.processed + last.rejected + last.exhausted =
        total.processed + total.rejected + total.exhausted + log.length ∧
      last.retried = total.retried + ((e.visits s log).map Visit.retries).sum := by
  induction log generalizing total s with
  | nil => exact ⟨rfl, rfl⟩
  | cons r rest ih =>
    have sound := visit_sound standard flaky steady r
    have one := sound.counted
    have retries := sound.retried
    obtain ⟨counted, retried⟩ := ih (sound.world.flaky flaky) (sound.world.steady steady)
      (total.add (e.visit s r).tally)
    simp only [visits, List.map_cons, List.foldl_cons, List.sum_cons, List.length_cons]
    rw [counted, retried]
    simp only [Tally.add]
    omega

/-- Two sessions with the same rows: the records that the first does not give up come out as the
second, whose calls do not fail, has them come out. -/
theorem kept_simulates (standard : e.dispatcher.Standard) {t : Session} (flaky : s.store.Flaky)
    (steady : s.clock.Steady now) (reliable : t.store.Reliable) (still : t.clock.Steady now)
    (rows : s.store.roster = t.store.roster) (total total' : Tally) (log : List Record) :
    (e.runFrom total s log).2.store.roster =
        (e.runFrom total' t ((e.kept s log).map Visit.record)).2.store.roster ∧
      (e.kept s log).map (·.tally.counts) =
        (e.visits t ((e.kept s log).map Visit.record)).map (·.tally.counts) := by
  -- Only the rows tie the two sessions together: calls, attempts and readings drift apart.
  induction log generalizing total total' s t with
  | nil => exact ⟨rows, rfl⟩
  | cons r rest ih =>
    have sound := visit_sound standard flaky steady r
    rw [e.runFrom_cons sound.result, kept_cons]
    rcases sound.came with ⟨given, same⟩ | ⟨stays, counts, moved⟩
    · rw [if_pos given]
      exact ih (sound.world.flaky flaky) (sound.world.steady steady) reliable still
        (same.trans rows) _ _
    · have world := (visit_sound standard reliable.flaky still r).world
      obtain ⟨result, answered, stepped⟩ := visit_of_reliable standard reliable still r
      have together : (e.visit s r).after.store.roster = (e.visit t r).after.store.roster := by
        refine moved.trans ?_
        rw [stepped, ← rows]
        rfl
      have found : s.store.get? r.processId = t.store.get? r.processId := by
        rw [Store.get?, rows, Store.get?]
      have alike : (e.visit s r).tally.counts = (e.visit t r).tally.counts := by
        rw [counts, answered, ← found]
        rfl
      obtain ⟨final, later⟩ := ih (sound.world.flaky flaky) (sound.world.steady steady)
        (world.reliable reliable) (world.steady still) together
        (total.add (e.visit s r).tally) (total'.add (e.visit t r).tally)
      rw [if_neg (by rw [stays]; exact Bool.false_ne_true)]
      simp only [List.map_cons]
      change _ = (e.runFrom total' t (r :: _)).2.store.roster ∧ _ :: _ = (e.visits t (r :: _)).map _
      rw [e.runFrom_cons result, visits, List.map_cons, ← alike, later]
      exact ⟨final, rfl⟩

/-- A run from `s` comes out as one from `reference` that never sees the records given up. -/
structure Withstands (e : Engine) (s reference : Session) (log : List Record) : Prop where
  records : (e.visits s log).map Visit.record = log
  chained : Visit.Chain s (e.visits s log) (e.run s log).2
  reported : ∃ total, (e.run s log).1 = .ok total ∧
    total = ((e.visits s log).map Visit.tally).foldl Tally.add .zero ∧
    total.processed + total.rejected + total.exhausted = log.length ∧
    total.retried = ((e.visits s log).map Visit.retries).sum
  attempted : ∀ v ∈ e.visits s log, ∀ c, v.record = .command c →
    0 < v.attempts.length ∧ v.attempts.length ≤ e.policy.maxAttempts ∧
      Queue.repeated e.dispatcher.apply c v.attempts.length v.before = (v.attempts, v.after) ∧
      (v.givenUp = true ↔ v.attempts.length = e.policy.maxAttempts ∧
        ∀ a ∈ v.attempts, Attempt.isStorageFailure a = true)
  finished : ∃ total, (e.run reference ((e.kept s log).map Visit.record)).1 = .ok total
  rows : (e.run s log).2.store.roster =
    (e.run reference ((e.kept s log).map Visit.record)).2.store.roster
  judged : (e.kept s log).map (·.tally.counts) =
    (e.visits reference ((e.kept s log).map Visit.record)).map (·.tally.counts)

/-- Whatever calls the storage refuses, a replay is the replay over a reliable store of the records
that were not given up. -/
theorem standard_withstands (policy : RetryPolicy) (now : Instant) (roster : Roster)
    (script : List Call → Fate) (flaky : (Store.mk roster [] script).Flaky) (log : List Record) :
    (standard policy).Withstands (.start ⟨roster, [], script⟩ (.fixed now))
      (.start (.reliable roster) (.fixed now)) log := by
  have standard := standard_dispatcher policy
  have steady : (Clock.fixed now).Steady now := fun _ => rfl
  have reliable := Store.reliable_reliable roster
  obtain ⟨reported, chained⟩ :=
    runFrom_visits (s := .start ⟨roster, [], script⟩ (.fixed now)) standard flaky steady .zero log
  obtain ⟨counted, retried⟩ :=
    foldl_counted (s := .start ⟨roster, [], script⟩ (.fixed now)) standard flaky steady .zero log
  obtain ⟨rows, judged⟩ := kept_simulates (s := .start ⟨roster, [], script⟩ (.fixed now))
    (t := .start (.reliable roster) (.fixed now)) standard flaky steady reliable steady rfl
    .zero .zero log
  exact {
    records := visits_records _ _ log
    chained := chained
    reported := ⟨_, reported, rfl, by simpa [Tally.zero] using counted,
      by simpa [Tally.zero] using retried⟩
    attempted := by
      intro v member c own
      obtain ⟨found, world, visited⟩ := mem_visits standard flaky steady member
      rw [own] at visited
      subst visited
      exact visit_attempts standard (world.flaky flaky) c
    finished := ⟨_, (runFrom_visits (s := .start (.reliable roster) (.fixed now)) standard
      reliable.flaky steady .zero _).1⟩
    rows := rows
    judged := judged }

/-- Every other call is refused. -/
def refuseOdd (calls : List Call) : Fate :=
  if calls.length % 2 = 0 then .granted else .refused (.unavailable "call" "offline")

theorem flaky_refuseOdd : (Store.mk .empty [] refuseOdd).Flaky := by
  intro calls
  simp only [refuseOdd]
  split
  · exact .inl rfl
  · exact .inr ⟨_, _, rfl⟩

/-- The second initiation goes through, the request is given up and the start is refused. -/
def oddLog : List Record :=
  [.initiate ⟨"a"⟩, .initiate ⟨"a"⟩, .command ⟨⟨"a"⟩, .request⟩, .command ⟨⟨"b"⟩, .start⟩]

theorem standard_withstands_refuseOdd :
    (Store.mk .empty [] refuseOdd).Flaky ∧
    ((standard .default).run (.start ⟨.empty, [], refuseOdd⟩ (.fixed (.ofSeconds 7)))
      oddLog).1.toOption = some ⟨1, 2, 2, 1⟩ ∧
    ((standard .default).kept (.start ⟨.empty, [], refuseOdd⟩ (.fixed (.ofSeconds 7)))
      oddLog).map Visit.record =
        [.initiate ⟨"a"⟩, .command ⟨⟨"b"⟩, .start⟩] ∧
    (standard .default).Withstands (.start ⟨.empty, [], refuseOdd⟩ (.fixed (.ofSeconds 7)))
      (.start (.reliable .empty) (.fixed (.ofSeconds 7))) oddLog :=
  ⟨flaky_refuseOdd, by decide +kernel, by decide +kernel,
    standard_withstands .default _ .empty refuseOdd flaky_refuseOdd _⟩

end Engine

end TransferLifecycle
