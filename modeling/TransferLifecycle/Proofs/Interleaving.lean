import TransferLifecycle.Batch
import TransferLifecycle.Proofs.Locality

set_option autoImplicit false

/- The tasks of a batch, with their steps interleaved in any way. Tasks for different processes do
not disturb each other: each comes to what it comes to alone. -/
namespace TransferLifecycle

/-- The steps still to come for one process. -/
structure Task (α : Type) where
  id : ProcessId
  steps : Steps α

/-- From a session, the tasks can come to the given answers and leave the session `last`. At each
step it is open which task goes on. -/
inductive Interleaved {α : Type} : Session → List (Task α) → List α → Session → Prop
  | finished {s : Session} {tasks : List (Task α)} {answers : List α}
      (ended : tasks.map Task.steps = answers.map Steps.done) : Interleaved s tasks answers s
  | step {s last : Session} {left right : List (Task α)} {id : ProcessId}
      {effect : Session → Session} {next : Session → Steps α} {answers : List α}
      (later : Interleaved (effect s) (left ++ ⟨id, next s⟩ :: right) answers last) :
      Interleaved s (left ++ ⟨id, .act effect next⟩ :: right) answers last

namespace Interleaved

variable {α : Type} {s last : Session} {left right tasks : List (Task α)} {answers : List α}

/-- One task may go on to its end before the others do. -/
theorem of_solo {id : ProcessId} {steps : Steps α}
    (later : Interleaved (steps.solo s).2 (left ++ ⟨id, .done (steps.solo s).1⟩ :: right) answers
      last) :
    Interleaved s (left ++ ⟨id, steps⟩ :: right) answers last := by
  induction steps generalizing s with
  | done a => exact later
  | act effect next ih => exact .step (ih s later)

/-- Each task comes to the answer that it comes to alone, and leaves its process as it does alone;
processes without a task stay as they are. -/
theorem solo {now : Instant} {P : α → Prop} (run : Interleaved s tasks answers last)
    (stable : s.Stable now) (distinct : tasks.Pairwise fun t t' => t.id ≠ t'.id)
    (confined : ∀ t ∈ tasks, Steps.Alike now t.id P t.steps t.steps) :
    answers = tasks.map (fun t => (t.steps.solo s).1) ∧
      (∀ t ∈ tasks, (t.steps.solo s).2.Agrees t.id last) ∧
      ∀ y, (∀ t ∈ tasks, t.id ≠ y) → s.Agrees y last := by
  induction run with
  | @finished s tasks answers ended =>
    have alone : ∀ t ∈ tasks, ∃ a, t.steps = .done a := by
      intro t member
      have known : t.steps ∈ answers.map Steps.done := ended ▸ List.mem_map_of_mem member
      obtain ⟨a, -, same⟩ := List.mem_map.1 known
      exact ⟨a, same.symm⟩
    refine ⟨?_, ?_, fun y _ => .refl y s⟩
    · have given := congrArg (List.map fun steps => (Steps.solo steps s).1) ended
      simp only [List.map_map, Function.comp_def, Steps.solo, List.map_id'] at given
      exact given.symm
    · intro t member
      obtain ⟨a, same⟩ := alone t member
      rw [same]
      exact .refl t.id s
  | @step s last left right id effect next answers _ ih =>
    have middle : ∀ (p : Task α → Prop) (steps : Steps α),
        (∀ t ∈ left ++ ⟨id, steps⟩ :: right, p t) ↔ p ⟨id, steps⟩ ∧ ∀ t ∈ left ++ right, p t := by
      intro p steps
      simp only [List.perm_middle.mem_iff, List.forall_mem_cons]
    have order : ∀ steps : Steps α,
        (left ++ ⟨id, steps⟩ :: right).Pairwise (fun t t' => t.id ≠ t'.id) ↔
          (∀ t ∈ left ++ right, id ≠ t.id) ∧ (left ++ right).Pairwise fun t t' => t.id ≠ t'.id := by
      intro steps
      rw [List.perm_middle.pairwise_iff fun apart => apart.symm, List.pairwise_cons]
    obtain ⟨others, rest⟩ := (order _).1 distinct
    obtain ⟨own, alike⟩ := (middle _ _).1 confined
    obtain ⟨this, more⟩ : Steps.Confined now id effect ∧
        Steps.Alike now id P (next s) (next s) := by
      cases own with
      | act this later => exact ⟨this, later s s stable stable (.refl id s)⟩
    have still := this.stable s stable
    -- Another task sees nothing of the step.
    have unseen : ∀ t ∈ left ++ right, (t.steps.solo (effect s)).1 = (t.steps.solo s).1 ∧
        (t.steps.solo s).2.Agrees t.id (t.steps.solo (effect s)).2 := by
      intro t member
      have same := this.apart s stable t.id (others t member).symm
      obtain ⟨answer, -, agrees⟩ := (alike t member).solo stable still same
      exact ⟨answer, agrees⟩
    obtain ⟨given, agree, apart⟩ :=
      ih still ((order _).2 ⟨others, rest⟩) ((middle _ _).2 ⟨more, alike⟩)
    obtain ⟨mine, theirs⟩ := (middle _ _).1 agree
    refine ⟨?_, (middle _ _).2 ⟨mine, fun t member => (unseen t member).2.trans (theirs t member)⟩,
      fun y absent => ?_⟩
    · have first := List.map_congr_left fun t member =>
        (unseen t (List.mem_append_left right member)).1
      have second := List.map_congr_left fun t member =>
        (unseen t (List.mem_append_right left member)).1
      simp only [given, List.map_append, List.map_cons, first, second, Steps.solo]
    · obtain ⟨other, none⟩ := (middle _ _).1 absent
      exact (this.apart s stable y (Ne.symm other)).trans (apart y ((middle _ _).2 ⟨other, none⟩))

end Interleaved

namespace Engine

variable {e : Engine}

def task (e : Engine) (part : Partition) : Task (Except Interruption Tally) :=
  ⟨part.id, e.runSteps .zero part.records⟩

/-- A batch can come to `answer`: there is one task for each part, their steps are interleaved in
some way, and their results are taken in one after the other, in the order of the tasks. -/
def BatchInterleaves (e : Engine) (s : Session) (batch : List Record)
    (answer : Except Interruption Tally) (last : Session) : Prop :=
  ∃ (parts : List Partition) (results : List (Except Interruption Tally)),
    parts.Perm (Partition.ofBatch batch) ∧ Interleaved s (parts.map e.task) results last ∧
    answer = (results.foldl BatchResult.absorb .empty).conclude

/-- The parts may run one after the other. -/
theorem interleaved_runParts (b : BatchResult) (s : Session)
    (left : List (Task (Except Interruption Tally))) (given : List (Except Interruption Tally))
    (ended : left.map Task.steps = given.map Steps.done) (parts : List Partition) :
    ∃ results, (e.runParts b s parts).1 = results.foldl BatchResult.absorb b ∧
      Interleaved s (left ++ parts.map e.task) (given ++ results) (e.runParts b s parts).2 := by
  induction parts generalizing b s left given with
  | nil =>
    refine ⟨[], rfl, ?_⟩
    rw [List.map_nil, List.append_nil, List.append_nil]
    exact .finished ended
  | cons part rest ih =>
    have alone : (e.runSteps .zero part.records).solo s = e.run s part.records :=
      e.solo_runSteps .zero part.records s
    obtain ⟨results, counted, later⟩ := ih (b.absorb (e.run s part.records).1)
      (e.run s part.records).2 (left ++ [⟨part.id, .done (e.run s part.records).1⟩])
      (given ++ [(e.run s part.records).1]) (by simp [ended])
    refine ⟨(e.run s part.records).1 :: results, counted, ?_⟩
    rw [List.append_assoc, List.append_assoc] at later
    refine .of_solo ?_
    rw [alone]
    exact later

/-- The program's own order is one of the interleavings. -/
theorem BatchInterleaves.of_runBatch (e : Engine) (s : Session) (batch : List Record) :
    e.BatchInterleaves s batch (e.runBatch s batch).1 (e.runBatch s batch).2 := by
  obtain ⟨results, counted, run⟩ :=
    e.interleaved_runParts .empty s [] [] rfl (Partition.ofBatch batch)
  exact ⟨_, results, .refl _, run, congrArg BatchResult.conclude counted⟩

end Engine

end TransferLifecycle
