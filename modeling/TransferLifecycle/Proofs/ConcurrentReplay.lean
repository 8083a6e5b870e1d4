import TransferLifecycle.Machine.Host
import TransferLifecycle.Proofs.BatchParts
import TransferLifecycle.Proofs.Schedule
import TransferLifecycle.Proofs.SnapshotText

set_option autoImplicit false

/- A replay by batches writes what a replay record by record writes, whatever the schedule. Records
of one process keep their order, records of different processes do not touch each other, and the
snapshot shows neither the times nor the order in which the processes are listed. -/
namespace TransferLifecycle

open Record (about Apart)

/-- The state alone decides about a command; the time is only stamped. -/
theorem Command.applyTo_stamped (c : Command) (p : TransferProcess) (now time : Instant) :
    c.applyTo (p.stamped time) time = (c.applyTo p now).map (·.stamped time) := by
  by_cases there : p.state = c.kind.target
  · have still : (p.stamped time).state = c.kind.target := there
    rw [applyTo_of_target there, applyTo_of_target still]
    rfl
  · by_cases source : p.state ∈ c.kind.sources
    · have still : (p.stamped time).state ∈ c.kind.sources := source
      rw [applyTo_of_source source, applyTo_of_source still]
      rfl
    · have elsewhere : (p.stamped time).state ≠ c.kind.target := there
      have still : (p.stamped time).state ∉ c.kind.sources := source
      rw [applyTo_of_refused there source, applyTo_of_refused elsewhere still]
      rfl

/-- But for the times, every clock reads the same. -/
theorem Clock.readsAs_stamped (clock : Clock) (time : Instant) :
    clock.ReadsAs (·.stamped time) time := by
  intro k r stored
  cases r with
  | initiate id => cases stored <;> rfl
  | command c =>
    simp only [Record.result?, Command.verdict]
    cases c.invalid? with
    | some f => rfl
    | none =>
      cases stored with
      | none => rfl
      | some p =>
        simp only [Option.map_some, c.applyTo_stamped p (clock.reading k)]
        cases c.applyTo p (clock.reading k) <;> rfl

namespace BatchResult

/-- Parts that came to a tally let the batch come to one. -/
theorem conclude_of_ok {results : List (Except Interruption Tally)}
    (fine : ∀ result ∈ results, ∃ tally, result = .ok tally) {b : BatchResult}
    (noFault : b.fault = none) (noAbort : b.abort = none) :
    ∃ tally, (results.foldl absorb b).conclude = .ok tally := by
  induction results generalizing b with
  | nil => exact ⟨b.tally, by simp only [List.foldl_nil, conclude, noAbort, noFault]⟩
  | cons result rest ih =>
    obtain ⟨tally, rfl⟩ := fine _ List.mem_cons_self
    exact ih (fun q member => fine q (List.mem_cons_of_mem _ member)) noFault noAbort

end BatchResult

namespace Engine

variable {e : Engine} {s last : Session} {f : TransferProcess → TransferProcess} {now : Instant}

/-- Under any schedule, the rows follow the records that are still to come, strand after strand. -/
theorem Scheduled.followed {strands : List Strand} {results : List (Except Interruption Tally)}
    (run : e.Scheduled s strands results last) (standard : e.dispatcher.Standard)
    (reliable : s.store.Reliable) (reads : s.clock.ReadsAs f now)
    (apart : (strands.map Strand.pending).Pairwise Apart)
    (fine : ∀ t ∈ strands, ∃ tally, t.result = .ok tally) :
    (∀ result ∈ results, ∃ tally, result = .ok tally) ∧
      s.Followed f now (strands.map Strand.pending).flatten last := by
  induction run with
  | @finished s strands ended =>
    have nothing : (strands.map Strand.pending).flatten = [] := by
      rw [List.flatten_eq_nil_iff]
      intro pending member
      obtain ⟨t, present, rfl⟩ := List.mem_map.1 member
      exact ended t present
    rw [nothing]
    refine ⟨?_, .refl s⟩
    intro result member
    obtain ⟨t, present, rfl⟩ := List.mem_map.1 member
    exact fine t present
  | @step s mid last left right r rest tally answer results applied _ ih =>
    have first := apply_followed standard reliable reads r
    obtain ⟨more, counted⟩ : ∃ more, answer = .ok more :=
      ⟨_, (congrArg Prod.fst applied).symm.trans (apply_of_reliable standard reliable r).1⟩
    rw [applied] at first
    subst counted
    simp only [List.map_append, List.map_cons, Strand.advance, List.forall_mem_append,
      List.forall_mem_cons] at apart fine ih ⊢
    obtain ⟨ended, later⟩ := ih (first.world.reliable reliable) (first.world.readsAs reads)
      (Record.apart_tail apart) ⟨fine.1, ⟨_, rfl⟩, fine.2.2⟩
    -- The record was applied first, but it is pending behind the strands on its left.
    refine ⟨ended, (first.trans later).congr fun x => ?_⟩
    rw [List.flatten_append, List.flatten_cons, List.cons_append,
      Record.about_pull (Record.others_of_apart apart), List.flatten_append, List.flatten_cons]
    rfl

theorem BatchRuns.followed {batch : List Record} {answer : Except Interruption Tally}
    (run : e.BatchRuns s batch answer last) (standard : e.dispatcher.Standard)
    (reliable : s.store.Reliable) (reads : s.clock.ReadsAs f now) :
    (∃ tally, answer = .ok tally) ∧ s.Followed f now batch last := by
  obtain ⟨parts, results, order, scheduled, rfl⟩ := run
  have pending : (parts.map Strand.start).map Strand.pending = parts.map Partition.records := by
    rw [List.map_map]
    rfl
  have sorted := Partition.sorted_ofBatch batch
  -- The order in which the parts are started does not matter to this, as it is symmetric.
  have apart := (order.symm.map Partition.records).pairwise sorted.apart fun ab => ab.symm
  have fresh : ∀ t ∈ parts.map Strand.start, ∃ tally, t.result = .ok tally := by
    intro t member
    obtain ⟨part, -, rfl⟩ := List.mem_map.1 member
    exact ⟨.zero, rfl⟩
  obtain ⟨fine, followed⟩ :=
    scheduled.followed standard reliable reads (by rw [pending]; exact apart) fresh
  refine ⟨BatchResult.conclude_of_ok fine rfl rfl, followed.congr fun x => ?_⟩
  rw [pending, Record.about_flatten_perm (order.map Partition.records) apart,
    Partition.about_ofBatch]

theorem BatchesRun.followed {machine : Machine} {size : Nat}
    {items : List (Except CommandLog.ReadError Record)} {answer : Except ReplayStop Unit}
    (run : e.BatchesRun machine size s items answer last)
    (positive : 0 < size) (room : machine.reserve size CommandLog.recordSize = .ok ())
    (standard : e.dispatcher.Standard) (reliable : s.store.Reliable)
    (reads : s.clock.ReadsAs f now) :
    answer = .ok () ∧ s.Followed f now (CommandLog.recordsOf items) last := by
  have taken : ∀ items,
      CommandLog.readBatch machine size items = .ok (CommandLog.takeBatch [] size items) := by
    intro items
    simp only [CommandLog.readBatch, room]
  induction run with
  | shortage read =>
    rw [taken] at read
    cases read
  | finished read =>
    rw [taken] at read
    rw [CommandLog.recordsOf_of_empty positive (Except.ok.inj read)]
    exact ⟨rfl, .refl _⟩
  | interrupted read ran =>
    obtain ⟨⟨tally, never⟩, -⟩ := ran.followed standard reliable reads
    cases never
  | @next s mid after items rest record batch tally answer read ran _ ih =>
    have first := (ran.followed standard reliable reads).2
    obtain ⟨ended, later⟩ := ih (first.world.reliable reliable) (first.world.readsAs reads)
    have all := CommandLog.takeBatch_records [] size items
    rw [taken] at read
    rw [Except.ok.inj read] at all
    refine ⟨ended, ?_⟩
    change s.Followed f now ([].reverse ++ CommandLog.recordsOf items) after
    rw [← all]
    exact first.trans later

end Engine

theorem writeListed_of_unlimited {sink : Sink} (unlimited : sink.limit = none)
    (listed : List TransferProcess) :
    writeListed sink listed =
      (.ok (), { sink with received := sink.received ++ Snapshot.contents listed }) := by
  simp only [writeListed, writeSnapshot, Snapshot.write_of_unlimited unlimited]

theorem WritesOut.eq {sink : Sink} {after : Session} {outcome : Except ReplayStop Unit × Sink}
    (written : WritesOut sink (.ok ()) after outcome) (unlimited : sink.limit = none)
    (reliable : after.store.Reliable) :
    outcome = (.ok (), { sink with
      received := sink.received ++ Snapshot.contents after.store.roster.rows }) := by
  have all : after.store.all.1 = .ok after.store.roster.rows := by
    simp only [Store.all, Store.fateOf, reliable (.all :: after.store.calls), Fate.error?]
  cases written with
  | unlisted failed =>
    rw [all] at failed
    cases failed
  | listed given order =>
    rw [all] at given
    rw [writeListed_of_unlimited unlimited,
      Snapshot.contents_of_perm ((Except.ok.inj given) ▸ order)]

/-- The sink has taken in the snapshot of a session. -/
def Sink.Holds (sink : Sink) (after : Session) (outcome : Except ReplayStop Unit × Sink) : Prop :=
  outcome = (.ok (), { sink with
    received := sink.received ++ Snapshot.contents after.store.roster.rows })

section Replay

variable {machine : Machine} {policy : RetryPolicy} {clock clock' : Clock} {sink : Sink}

/-- From an empty store, a log leads to the same rows but for their times. -/
theorem Session.Followed.stamped_eq {log : List Record} {time : Instant} {first second : Session}
    (one : (start (.reliable .empty) clock).Followed (·.stamped time) time log first)
    (two : (start (.reliable .empty) clock').Followed (·.stamped time) time log second) :
    first.store.roster.stamped time = second.store.roster.stamped time := by
  apply Roster.ext_get?
  intro x
  rw [Roster.get?_stamped, Roster.get?_stamped]
  exact (one.rows x).trans (two.rows x).symm

/-- The session that a replay record by record ends with. -/
def replayedSession (policy : RetryPolicy) (clock : Clock) (content : List UInt8) : Session :=
  ((Engine.standard policy).run (.start (.reliable .empty) clock) (CommandLog.records content)).2

theorem replay_sync_holds (machine : Machine) (policy : RetryPolicy) (clock : Clock)
    (path : String) (content : List UInt8) (unlimited : sink.limit = none) (time : Instant) :
    (Session.start (.reliable .empty) clock).Followed (·.stamped time) time
        (CommandLog.records content) (replayedSession policy clock content) ∧
      sink.Holds (replayedSession policy clock content)
        (replay machine .sync policy clock path (.bytes content) sink) := by
  unfold replayedSession
  obtain ⟨⟨tally, ended⟩, followed⟩ := Engine.runFrom_followed (Engine.standard_dispatcher policy)
    (Store.reliable_reliable .empty) (clock.readsAs_stamped time) .zero
    (CommandLog.records content) (s := .start (.reliable .empty) clock)
  rcases ran : (Engine.standard policy).run (.start (.reliable .empty) clock)
    (CommandLog.records content) with ⟨answer, after⟩
  rw [← Engine.run, ran] at ended followed
  cases ended
  refine ⟨followed, ?_⟩
  have reliable := followed.world.reliable (Store.reliable_reliable .empty)
  have written := writeOut_writes sink (.ok ()) after
  have same : replay machine .sync policy clock path (.bytes content) sink =
      writeOut sink (.ok (), after) := by
    simp only [replay, Strategy.prepare, Source.open?, replayBytes, Engine.runLog, ran]
  rw [same]
  exact written.eq unlimited reliable

theorem ConcurrentReplay.holds {config : BatchConfig} {path : String} {content : List UInt8}
    {outcome : Except ReplayStop Unit × Sink}
    (run : ConcurrentReplay machine config policy clock path (.bytes content) sink outcome)
    (unlimited : sink.limit = none) (runtime : config.prepare machine = .ok ())
    (positive : 0 < config.batchSize)
    (room : machine.reserve config.batchSize CommandLog.recordSize = .ok ()) (time : Instant) :
    ∃ after, (Session.start (.reliable .empty) clock).Followed (·.stamped time) time
        (CommandLog.records content) after ∧ sink.Holds after outcome := by
  simp only [ConcurrentReplay, runtime, Source.open?] at run
  obtain ⟨answer, after, ran, written⟩ := run
  have reliable := Store.reliable_reliable .empty
  obtain ⟨rfl, followed⟩ := ran.followed positive room (Engine.standard_dispatcher policy) reliable
    (clock.readsAs_stamped time)
  exact ⟨after, followed, written.eq unlimited (followed.world.reliable reliable)⟩

end Replay

theorem BatchConfig.batchSize_pos (size : Nat) (workers : Option Nat) :
    0 < (ofOptions (some size) workers).batchSize := by
  cases size with
  | zero => exact Nat.succ_pos 999
  | succ n => simp [ofOptions, Option.filter]

/-- Every outcome that a replay by batches can have is that of the replay record by record, which
succeeds; and the program's own schedule has it, too. -/
theorem concurrentReplay_iff_sequential (machine : Machine) (policy : RetryPolicy)
    (clock clock' : Clock) (path : String) (content : List UInt8) {sink : Sink}
    (unlimited : sink.limit = none) {size workers : Nat}
    (runtime : (BatchConfig.ofOptions (some size) (some workers)).prepare machine = .ok ())
    (room : machine.reserve (BatchConfig.ofOptions (some size) (some workers)).batchSize
      CommandLog.recordSize = .ok ()) :
    (replay machine .sync policy clock' path (.bytes content) sink).1 = .ok () ∧
    (∀ outcome, ConcurrentReplay machine (BatchConfig.ofOptions (some size) (some workers)) policy
        clock path (.bytes content) sink outcome ↔
      outcome = replay machine .sync policy clock' path (.bytes content) sink) ∧
    replay machine (.async (BatchConfig.ofOptions (some size) (some workers))) policy clock path
        (.bytes content) sink =
      replay machine .sync policy clock' path (.bytes content) sink := by
  have positive := BatchConfig.batchSize_pos size (some workers)
  obtain ⟨sequential, result⟩ :=
    replay_sync_holds machine policy clock' path content unlimited (.ofSeconds 0)
  have same : ∀ outcome, ConcurrentReplay machine (.ofOptions (some size) (some workers)) policy
      clock path (.bytes content) sink outcome →
      outcome = replay machine .sync policy clock' path (.bytes content) sink := by
    intro outcome run
    obtain ⟨after, followed, written⟩ :=
      run.holds unlimited runtime positive room (.ofSeconds 0)
    rw [written, result, Snapshot.contents_of_stamped (followed.stamped_eq sequential)]
  have own := same _ (concurrentReplay_replay machine (.ofOptions (some size) (some workers)) policy
    clock path (.bytes content) sink)
  refine ⟨by rw [result], fun outcome => ⟨same outcome, ?_⟩, own⟩
  rintro rfl
  rw [← own]
  exact concurrentReplay_replay machine _ policy clock path (.bytes content) sink

/-- Two processes whose records alternate, with a row between them that is no record. -/
def alternatingLog : List UInt8 :=
  Text.encode <| "process,command,detail\na,initiate,\nb,initiate,\n" ++
    "a,request,\nb,pause,\nb,request,\na,start,\n"

/-- What comes of it. -/
def alternatingText : List UInt8 :=
  Text.encode "process,state,state_count,error_detail\na,STARTED,2,\nb,REQUESTED,1,\n"

theorem concurrentReplay_iff_sequential_alternating :
    (BatchConfig.ofOptions (some 2) (some 4)).prepare .host = .ok () ∧
    Machine.host.reserve (BatchConfig.ofOptions (some 2) (some 4)).batchSize
      CommandLog.recordSize = .ok () ∧
    ∀ outcome, ConcurrentReplay .host (.ofOptions (some 2) (some 4)) .default
        (.fixed (.ofSeconds 5)) "log.csv" (.bytes alternatingLog) .unlimited outcome ↔
      outcome = (.ok (), ⟨none, alternatingText⟩) := by
  have rows : (replayedSession .default (.fixed (.ofSeconds 9)) alternatingLog).store.roster.rows =
      [⟨⟨"a"⟩, .started, 2, .ofSeconds 9, none⟩, ⟨⟨"b"⟩, .requested, 1, .ofSeconds 9, none⟩] := by
    decide +kernel
  have text : Snapshot.text [⟨⟨"a"⟩, .started, 2, .ofSeconds 9, none⟩,
      ⟨⟨"b"⟩, .requested, 1, .ofSeconds 9, none⟩] =
      "process,state,state_count,error_detail\na,STARTED,2,\nb,REQUESTED,1,\n" := by
    decide +kernel
  have result : Sink.unlimited.Holds _ (replay .host .sync .default (.fixed (.ofSeconds 9))
      "log.csv" (.bytes alternatingLog) .unlimited) :=
    (replay_sync_holds .host .default (.fixed (.ofSeconds 9)) "log.csv" alternatingLog rfl
      (.ofSeconds 0)).2
  rw [Sink.Holds, Snapshot.contents_eq_encode, Snapshot.sorted_rows, rows, text] at result
  refine ⟨rfl, rfl, ?_⟩
  have same : ∀ outcome, ConcurrentReplay .host (.ofOptions (some 2) (some 4)) .default
      (.fixed (.ofSeconds 5)) "log.csv" (.bytes alternatingLog) .unlimited outcome ↔
      outcome = replay .host .sync .default (.fixed (.ofSeconds 9)) "log.csv"
        (.bytes alternatingLog) .unlimited :=
    (concurrentReplay_iff_sequential .host .default (.fixed (.ofSeconds 5)) (.fixed (.ofSeconds 9))
      "log.csv" alternatingLog rfl rfl rfl).2.1
  rw [result] at same
  exact same

end TransferLifecycle
