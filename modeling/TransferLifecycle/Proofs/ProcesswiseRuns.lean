import TransferLifecycle.Proofs.Locality
import TransferLifecycle.Proofs.ProductOfRuns
import TransferLifecycle.Proofs.ReachableProcesses

set_option autoImplicit false

/- A run looked at process by process, for handlers of any make. Up to the first interruption each
process goes through its own records as if there were no others; so a run that no process interrupts
comes to what its processes come to. -/
namespace TransferLifecycle

open Record (about)

namespace Engine

section Runs

variable (e : Engine)

/-- A run on top of a tally is the run, on top of that tally. -/
theorem runFrom_eq (total : Tally) (s : Session) (log : List Record) :
    e.runFrom total s log = ((e.run s log).1.map total.add, (e.run s log).2) := by
  induction log generalizing total s with
  | nil => simp [runFrom, run, Except.map]
  | cons r rest ih =>
    rw [run, runFrom, runFrom]
    rcases e.apply s r with ⟨i | tally, after⟩
    · rfl
    · simp only [Tally.zero_add]
      rw [ih (total.add tally), ih tally, Tally.map_add_map_add]

theorem run_cons (s : Session) (r : Record) (rest : List Record) :
    e.run s (r :: rest) =
      match e.apply s r with
      | (.error i, after) => (.error i, after)
      | (.ok tally, after) => ((e.run after rest).1.map tally.add, (e.run after rest).2) := by
  rw [run, runFrom]
  rcases e.apply s r with ⟨i | tally, after⟩
  · rfl
  · simp only [Tally.zero_add]
    exact e.runFrom_eq tally after rest

/-- Of a log, the records `applied` are applied with the given result: all of them, or those up to
and including the first that is interrupted. -/
inductive Applies (e : Engine) (s : Session) (log : List Record) :
    List Record → Except Interruption Tally → Prop
  | all {tally : Tally} (ran : (e.run s log).1 = .ok tally) : Applies e s log log (.ok tally)
  | upTo {earlier rest : List Record} {r : Record} {tally : Tally} {i : Interruption}
      (order : log = earlier ++ r :: rest) (ran : (e.run s earlier).1 = .ok tally)
      (stopped : (e.apply (e.applyAll s earlier) r).1 = .error i) :
      Applies e s log (earlier ++ [r]) (.error i)

theorem run_applies (s : Session) (log : List Record) :
    ∃ applied, e.Applies s log applied (e.run s log).1 ∧
      (e.run s log).2 = e.applyAll s applied := by
  induction log generalizing s with
  | nil => exact ⟨[], .all rfl, rfl⟩
  | cons r more ih =>
    rcases attempt : e.apply s r with ⟨i | first, after⟩
    · rw [run_cons, attempt]
      have order : r :: more = [] ++ r :: more := rfl
      have none : (e.run s []).1 = .ok .zero := rfl
      have stopped : (e.apply (e.applyAll s []) r).1 = .error i := congrArg Prod.fst attempt
      exact ⟨[] ++ [r], .upTo order none stopped, congrArg Prod.snd attempt.symm⟩
    · have begun : ∀ log, e.applyAll s (r :: log) = e.applyAll after log := by
        intro log
        rw [applyAll, List.foldl_cons, attempt, applyAll]
      have result : ∀ log, e.run s (r :: log) =
          ((e.run after log).1.map first.add, (e.run after log).2) := by
        intro log
        rw [run_cons, attempt]
      obtain ⟨applied, applies, last⟩ := ih after
      refine ⟨r :: applied, ?_, by rw [result, begun]; exact last⟩
      cases ended : (e.run after more).1 with
      | error i =>
        rw [ended] at applies
        cases applies with
        | @upTo earlier rest q sum _ order ran stopped =>
          have counted : (e.run s (r :: earlier)).1 = .ok (first.add sum) := by
            rw [result, ran]
            rfl
          have first : r :: more = (r :: earlier) ++ q :: rest := congrArg (List.cons r) order
          rw [← begun] at stopped
          rw [result, ended]
          exact .upTo first counted stopped
      | ok sum =>
        rw [ended] at applies
        cases applies with
        | all ran =>
          have counted : (e.run s (r :: more)).1 = .ok (first.add sum) := by
            rw [result, ran]
            rfl
          rw [counted]
          exact .all counted

end Runs

section Bystanders

variable {e : Engine} {now : Instant} {s s' : Session}

/-- A record leaves everything about other processes as it is. -/
theorem apply_apart (bystanders : Bystanders e.dispatcher.listeners) (stable : s.Stable now)
    (r : Record) : (e.apply s r).2.Stable now ∧
      ∀ y, y ≠ r.processId → s.Agrees y (e.apply s r).2 := by
  have alike : Steps.Alike now r.processId (fun _ => True) (e.recordSteps r) (e.recordSteps r) :=
    alike_recordSteps bystanders rfl
  have alone := alike.apart stable
  rw [solo_recordSteps] at alone
  exact alone

/-- Records about one process see nothing of the others. -/
theorem run_agrees (bystanders : Bystanders e.dispatcher.listeners) (stable : s.Stable now)
    (stable' : s'.Stable now) {x : ProcessId} (same : s.Agrees x s') (log : List Record) :
    (e.run s' (about x log)).1 = (e.run s (about x log)).1 ∧
      (e.run s (about x log)).2.Agrees x (e.run s' (about x log)).2 := by
  have own : ∀ r ∈ about x log, r.processId = x := by
    intro r member
    exact beq_iff_eq.1 (List.mem_filter.1 member).2
  obtain ⟨answer, -, agrees⟩ :=
    (alike_runSteps (e := e) bystanders own .zero).solo stable stable' same
  rw [solo_runSteps, solo_runSteps] at answer agrees
  exact ⟨answer, agrees⟩

/-- After a record that was not interrupted, its process has the rest of its records to go through,
and the others all of theirs. -/
theorem run_about_cons (bystanders : Bystanders e.dispatcher.listeners) (stable : s.Stable now)
    {r : Record} {tally : Tally} {mid : Session} (attempt : e.apply s r = (.ok tally, mid))
    (rest : List Record) :
    mid.Stable now ∧
      e.run s (about r.processId (r :: rest)) =
        ((e.run mid (about r.processId rest)).1.map tally.add,
          (e.run mid (about r.processId rest)).2) ∧
      ∀ x, x ≠ r.processId →
        (e.run mid (about x rest)).1 = (e.run s (about x (r :: rest))).1 ∧
          (e.run s (about x (r :: rest))).2.Agrees x (e.run mid (about x rest)).2 := by
  obtain ⟨still, others⟩ := apply_apart bystanders stable r
  rw [attempt] at still others
  refine ⟨still, ?_, fun x other => ?_⟩
  · rw [Record.about_cons_self rfl, run_cons, attempt]
  · rw [Record.about_cons_of_ne (Ne.symm other)]
    exact run_agrees bystanders stable still (others x other) rest

/-- A run that is not interrupted is not interrupted by any of its processes. -/
theorem run_about_of_ok (bystanders : Bystanders e.dispatcher.listeners) (stable : s.Stable now)
    {log : List Record} {tally : Tally} (ran : (e.run s log).1 = .ok tally) (x : ProcessId) :
    ∃ part, (e.run s (about x log)).1 = .ok part := by
  induction log generalizing s tally with
  | nil => exact ⟨.zero, rfl⟩
  | cons r rest ih =>
    rw [run_cons] at ran
    rcases attempt : e.apply s r with ⟨i | first, mid⟩
    · rw [attempt] at ran
      cases ran
    · obtain ⟨still, own, others⟩ := run_about_cons bystanders stable attempt rest
      obtain ⟨sum, later⟩ : ∃ sum, (e.run mid rest).1 = .ok sum := by
        rw [attempt] at ran
        cases result : (e.run mid rest).1 with
        | error i => simp [result, Except.map] at ran
        | ok sum => exact ⟨sum, rfl⟩
      obtain ⟨part, counted⟩ := ih still later
      by_cases same : x = r.processId
      · subst same
        exact ⟨first.add part, by rw [own, counted]; rfl⟩
      · exact ⟨part, by rw [← (others x same).1, counted]⟩

/-- Where no process interrupts the run, it comes to the sum of what they come to, and leaves each
of them as its own records leave it. -/
theorem run_of_about (bystanders : Bystanders e.dispatcher.listeners) (stable : s.Stable now)
    {log : List Record} {ids : Finset ProcessId} (covers : ∀ r ∈ log, r.processId ∈ ids)
    {report : ProcessId → Tally} (ran : ∀ x ∈ ids, (e.run s (about x log)).1 = .ok (report x)) :
    (e.run s log).1 = .ok (∑ x ∈ ids, report x) ∧
      ∀ x, (e.run s (about x log)).2.Agrees x (e.run s log).2 := by
  induction log generalizing s report with
  | nil =>
    have none : ∀ x ∈ ids, report x = 0 := fun x member => (Except.ok.inj (ran x member)).symm
    refine ⟨?_, fun x => .refl x s⟩
    rw [Finset.sum_eq_zero none]
    rfl
  | cons r rest ih =>
    have own := ran r.processId (covers r List.mem_cons_self)
    rcases attempt : e.apply s r with ⟨i | first, mid⟩
    · rw [Record.about_cons_self rfl, run_cons, attempt] at own
      cases own
    · obtain ⟨still, mine, others⟩ := run_about_cons bystanders stable attempt rest
      obtain ⟨part, later, sum⟩ : ∃ part, (e.run mid (about r.processId rest)).1 = .ok part ∧
          first + part = report r.processId := by
        rw [mine] at own
        cases result : (e.run mid (about r.processId rest)).1 with
        | error i => simp [result, Except.map] at own
        | ok part =>
          rw [result] at own
          exact ⟨part, rfl, Except.ok.inj own⟩
      have left : ∀ x ∈ ids, (e.run mid (about x rest)).1 =
          .ok (if x = r.processId then part else report x) := by
        intro x member
        by_cases same : x = r.processId
        · rw [if_pos same, same]
          exact later
        · rw [if_neg same, (others x same).1]
          exact ran x member
      obtain ⟨counted, agree⟩ := ih still (fun q member => covers q (List.mem_cons_of_mem _ member))
        left
      have total : first + ∑ x ∈ ids, (if x = r.processId then part else report x) =
          ∑ x ∈ ids, report x := by
        have covered := covers r List.mem_cons_self
        have rest : ∀ x ∈ ids.erase r.processId,
            (if x = r.processId then part else report x) = report x :=
          fun x member => if_neg (Finset.ne_of_mem_erase member)
        rw [← Finset.add_sum_erase ids _ covered, Finset.sum_congr rfl rest, if_pos rfl,
          ← add_assoc, sum, Finset.add_sum_erase ids report covered]
      rw [run_cons, attempt]
      refine ⟨?_, fun x => ?_⟩
      · simp only [counted, ← total]
        rfl
      · by_cases same : x = r.processId
        · subst same
          rw [mine]
          exact agree r.processId
        · exact (others x same).2.trans (agree x)

/-- A run that is not interrupted leaves each process as its own records leave it. -/
theorem run_agrees_of_ok (bystanders : Bystanders e.dispatcher.listeners) (stable : s.Stable now)
    {log : List Record} {tally : Tally} (ran : (e.run s log).1 = .ok tally) (x : ProcessId) :
    (e.run s (about x log)).2.Agrees x (e.run s log).2 := by
  choose report counted using run_about_of_ok bystanders stable ran
  have covers : ∀ r ∈ log, r.processId ∈ Record.ids log := fun r => Record.mem_ids
  exact (run_of_about bystanders stable covers fun x _ => counted x).2 x

end Bystanders

end Engine

end TransferLifecycle
