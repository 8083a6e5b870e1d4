import TransferLifecycle.Replay

set_option autoImplicit false

/- The parts of a batch run at the same time. Which part applies its next record is left open at
each step; a record is applied in full before the next step. A part that is interrupted is over, and
the batch is over when all parts are. -/
namespace TransferLifecycle

/-- A part on its way: the records still to come, and its tally so far or what interrupted it. -/
structure Strand where
  pending : List Record
  result : Except Interruption Tally

namespace Strand

def start (part : Partition) : Strand := ⟨part.records, .ok .zero⟩

/-- The strand after a record, where `rest` is to come and `tally` was reached before. -/
def advance (tally : Tally) (rest : List Record) : Except Interruption Tally → Strand
  | .ok more => ⟨rest, .ok (tally.add more)⟩
  | .error i => ⟨[], .error i⟩

end Strand

namespace Engine

/-- From a session, the strands can come to the given results and leave the session `last`. -/
inductive Scheduled (e : Engine) :
    Session → List Strand → List (Except Interruption Tally) → Session → Prop
  | finished {s : Session} {strands : List Strand} (ended : ∀ t ∈ strands, t.pending = []) :
      Scheduled e s strands (strands.map Strand.result) s
  | step {s mid last : Session} {left right : List Strand} {r : Record} {rest : List Record}
      {tally : Tally} {answer : Except Interruption Tally}
      {results : List (Except Interruption Tally)} (applied : e.apply s r = (answer, mid))
      (later : Scheduled e mid (left ++ Strand.advance tally rest answer :: right) results last) :
      Scheduled e s (left ++ ⟨r :: rest, .ok tally⟩ :: right) results last

/-- A batch can come to `answer`: its parts are started in some order, they run under some schedule,
and their results are taken in one after the other. -/
def BatchRuns (e : Engine) (s : Session) (batch : List Record)
    (answer : Except Interruption Tally) (last : Session) : Prop :=
  ∃ (parts : List Partition) (results : List (Except Interruption Tally)),
    parts.Perm (Partition.ofBatch batch) ∧
    e.Scheduled s (parts.map Strand.start) results last ∧
    answer = (results.foldl BatchResult.absorb .empty).conclude

/-- Batch after batch can be read and applied, each in full before the next, up to `answer`. -/
inductive BatchesRun (e : Engine) (machine : Machine) (size : Nat) : Session →
    List (Except CommandLog.ReadError Record) → Except ReplayStop Unit → Session → Prop
  | shortage {s : Session} {items : List (Except CommandLog.ReadError Record)}
      {shortage : Shortage} (read : CommandLog.readBatch machine size items = .error shortage) :
      BatchesRun e machine size s items (.error shortage.stop) s
  | finished {s : Session} {items rest : List (Except CommandLog.ReadError Record)}
      (read : CommandLog.readBatch machine size items = .ok ([], rest)) :
      BatchesRun e machine size s items (.ok ()) s
  | interrupted {s after : Session} {items rest : List (Except CommandLog.ReadError Record)}
      {record : Record} {batch : List Record} {i : Interruption}
      (read : CommandLog.readBatch machine size items = .ok (record :: batch, rest))
      (ran : e.BatchRuns s (record :: batch) (.error i) after) :
      BatchesRun e machine size s items (.error i.stop) after
  | next {s mid after : Session} {items rest : List (Except CommandLog.ReadError Record)}
      {record : Record} {batch : List Record} {tally : Tally} {answer : Except ReplayStop Unit}
      (read : CommandLog.readBatch machine size items = .ok (record :: batch, rest))
      (ran : e.BatchRuns s (record :: batch) (.ok tally) mid)
      (later : BatchesRun e machine size mid rest answer after) :
      BatchesRun e machine size s items answer after

end Engine

/-- A finished replay can write its processes in any order that a listing gives them. -/
inductive WritesOut (sink : Sink) :
    Except ReplayStop Unit → Session → Except ReplayStop Unit × Sink → Prop
  | stopped {stop : ReplayStop} {after : Session} :
      WritesOut sink (.error stop) after (.error stop, sink)
  | unlisted {after : Session} {e : StoreError} (failed : after.store.all.1 = .error e) :
      WritesOut sink (.ok ()) after (.error (.error (.store e)), sink)
  | listed {after : Session} {processes order : List TransferProcess}
      (all : after.store.all.1 = .ok processes) (same : order.Perm processes) :
      WritesOut sink (.ok ()) after (writeListed sink order)

/-- A replay by batches can have the given outcome. -/
def ConcurrentReplay (machine : Machine) (config : BatchConfig) (policy : RetryPolicy)
    (clock : Clock) (path : String) (source : Source) (sink : Sink)
    (outcome : Except ReplayStop Unit × Sink) : Prop :=
  match config.prepare machine with
  | .error stop => outcome = (.error stop, sink)
  | .ok () =>
    match source.open? path with
    | .error e => outcome = (.error (.error e), sink)
    | .ok bytes =>
      ∃ answer after, (Engine.standard policy).BatchesRun machine config.batchSize
        (.start (.reliable .empty) clock) (CommandLog.items bytes) answer after ∧
        WritesOut sink answer after outcome

namespace Engine

variable {e : Engine}

/-- One part may run to its end before the others go on. -/
theorem Scheduled.of_runFrom {s mid last : Session} {records : List Record} {tally : Tally}
    {result : Except Interruption Tally} {left right : List Strand}
    {results : List (Except Interruption Tally)}
    (ran : e.runFrom tally s records = (result, mid))
    (later : e.Scheduled mid (left ++ ⟨[], result⟩ :: right) results last) :
    e.Scheduled s (left ++ ⟨records, .ok tally⟩ :: right) results last := by
  induction records generalizing tally s with
  | nil =>
    cases ran
    exact later
  | cons r rest ih =>
    rw [runFrom] at ran
    split at ran
    next i stopped applied =>
      cases ran
      exact .step applied later
    next more after applied => exact .step applied (ih ran)

/-- All parts may run one after the other. -/
theorem scheduled_runParts (b : BatchResult) (s : Session) (left : List Strand)
    (parts : List Partition) (ended : ∀ t ∈ left, t.pending = []) :
    ∃ results, (e.runParts b s parts).1 = results.foldl BatchResult.absorb b ∧
      e.Scheduled s (left ++ parts.map Strand.start) (left.map Strand.result ++ results)
        (e.runParts b s parts).2 := by
  induction parts generalizing b s left with
  | nil =>
    refine ⟨[], rfl, ?_⟩
    rw [List.map_nil, List.append_nil, List.append_nil]
    exact .finished ended
  | cons part rest ih =>
    rcases ran : e.run s part.records with ⟨result, mid⟩
    have idle : ∀ t ∈ left ++ [⟨[], result⟩], t.pending = [] := by
      intro t member
      rcases List.mem_append.1 member with known | new
      · exact ended t known
      · rw [List.mem_singleton.1 new]
    obtain ⟨results, counted, later⟩ := ih (b.absorb result) mid (left ++ [⟨[], result⟩]) idle
    refine ⟨result :: results, ?_, ?_⟩
    · simp only [runParts, ran, counted, List.foldl_cons]
    · simp only [runParts, ran]
      simp only [List.map_append, List.map_cons, List.map_nil, List.append_assoc,
        List.singleton_append] at later
      exact .of_runFrom ran later

theorem BatchRuns.of_runBatch {s after : Session} {batch : List Record}
    {answer : Except Interruption Tally} (ran : e.runBatch s batch = (answer, after)) :
    e.BatchRuns s batch answer after := by
  obtain ⟨results, counted, run⟩ :=
    e.scheduled_runParts .empty s [] (Partition.ofBatch batch) (by simp)
  cases ran
  exact ⟨_, results, .refl _, run, congrArg BatchResult.conclude counted⟩

theorem runBatches_run (machine : Machine) (size : Nat) (s : Session)
    (items : List (Except CommandLog.ReadError Record)) :
    e.BatchesRun machine size s items (e.runBatches machine size s items).1
      (e.runBatches machine size s items).2 := by
  fun_induction e.runBatches machine size s items with
  | case1 s items shortage read => exact .shortage read
  | case2 s items rest read => exact .finished read
  | case3 s items record batch rest read i after ran => exact .interrupted read (.of_runBatch ran)
  | case4 s items record batch rest read tally after ran ih =>
    exact .next read (.of_runBatch ran) ih

end Engine

theorem writeOut_writes (sink : Sink) (answer : Except ReplayStop Unit) (after : Session) :
    WritesOut sink answer after (writeOut sink (answer, after)) := by
  cases answer with
  | error stop => exact .stopped
  | ok _ =>
    rw [writeOut]
    split
    next e failed => exact .unlisted failed
    next processes all => exact .listed all (.refl _)

/-- The program's own order is one of the orders that are left open. -/
theorem concurrentReplay_replay (machine : Machine) (config : BatchConfig) (policy : RetryPolicy)
    (clock : Clock) (path : String) (source : Source) (sink : Sink) :
    ConcurrentReplay machine config policy clock path source sink
      (replay machine (.async config) policy clock path source sink) := by
  cases prepared : config.prepare machine with
  | error stop => simp only [ConcurrentReplay, replay, Strategy.prepare, prepared]
  | ok _ =>
    cases opened : source.open? path with
    | error e => simp only [ConcurrentReplay, replay, Strategy.prepare, prepared, opened]
    | ok bytes =>
      simp only [ConcurrentReplay, replay, Strategy.prepare, prepared, opened]
      exact ⟨_, _, Engine.runBatches_run _ _ _ _, writeOut_writes _ _ _⟩

end TransferLifecycle
