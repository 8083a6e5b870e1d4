import TransferLifecycle.Proofs.BatchReading
import TransferLifecycle.Proofs.ConcurrentReplay

set_option autoImplicit false

/- Which batch sizes can be read with. Room for a whole batch is reserved before its first record is
read, so a size is of use only if the machine has the room, however few records there are. A size
beyond all addresses passes as an option and then stops the replay by batches on every machine,
where a replay record by record goes through. -/
namespace TransferLifecycle

theorem BatchConfig.batchSize_ofOptions (n : Nat) (workers : Option Nat) :
    (ofOptions (some n) workers).batchSize = if n = 0 then 1000 else n := by
  cases n with
  | zero => rfl
  | succ n => simp [ofOptions, Option.filter]

variable {machine : Machine}

namespace CommandLog

variable {size : Nat} {items : List (Except ReadError Record)}

theorem readBatch_eq_unaddressable_iff :
    readBatch machine size items = .error .unaddressable ↔
      Machine.addressable < size * recordSize := by
  rw [← machine.reserve_eq_unaddressable_iff, readBatch]
  cases machine.reserve size recordSize <;> simp

theorem readBatch_isOk_iff :
    (∃ read, readBatch machine size items = .ok read) ↔
      size * recordSize ≤ Machine.addressable ∧ size * recordSize ≤ machine.available := by
  rw [← machine.reserve_ok_iff, readBatch]
  cases machine.reserve size recordSize with
  | error s => simp
  | ok u => simp

end CommandLog

/-- The first batch of a size that no address reaches stops the replay, before anything is read. -/
theorem Engine.runBatches_of_unaddressable (e : Engine) {size : Nat} (s : Session)
    (items : List (Except CommandLog.ReadError Record))
    (beyond : Machine.addressable < size * CommandLog.recordSize) :
    e.runBatches machine size s items = (.error (.abort .capacityOverflow), s) := by
  have failed : CommandLog.readBatch machine size items = .error .unaddressable :=
    CommandLog.readBatch_eq_unaddressable_iff.2 beyond
  rw [runBatches]
  split
  next shortage read =>
    rw [failed] at read
    cases read
    rfl
  next read => simp [failed] at read
  next read => simp [failed] at read

theorem replay_of_unaddressable {config : BatchConfig} (prepared : config.prepare machine = .ok ())
    (beyond : Machine.addressable < config.batchSize * CommandLog.recordSize)
    (policy : RetryPolicy) (clock : Clock) (path : String) (content : List UInt8) (sink : Sink) :
    replay machine (.async config) policy clock path (.bytes content) sink =
      (.error (.abort .capacityOverflow), sink) := by
  simp only [replay, Strategy.prepare, prepared, Source.open?, replayBytes, Engine.runLog,
    Engine.runBatches_of_unaddressable _ _ _ beyond, writeOut]

theorem replay_sync_ok (machine : Machine) (policy : RetryPolicy) (clock : Clock) (path : String)
    (content : List UInt8) {sink : Sink} (unlimited : sink.limit = none) :
    (replay machine .sync policy clock path (.bytes content) sink).1 = .ok () := by
  obtain ⟨-, result⟩ :=
    replay_sync_holds machine policy clock path content unlimited (.ofSeconds 0)
  rw [result]

/-- With the batch size of an option, wherever the reading of a log has come to: if the machine has
room for the batch, it holds the next records, as many as there are up to its size; if it has none,
nothing is read. However much a machine has, it is of no use beyond 164703072086692425 records: what
no address reaches stops a replay by batches of any log, which record by record comes to its end. -/
theorem batch_size_limits (machine : Machine) {config : BatchConfig} {n : Nat}
    {workers : Option Nat} (given : config = .ofOptions (some n) workers) :
    config.batchSize = (if n = 0 then 1000 else n) ∧
    (∀ items, config.batchSize * CommandLog.recordSize ≤ Machine.addressable →
      config.batchSize * CommandLog.recordSize ≤ machine.available →
      ∃ batch rest, CommandLog.readBatch machine config.batchSize items = .ok (batch, rest) ∧
        batch = (CommandLog.recordsOf items).take config.batchSize ∧
        batch.length = min config.batchSize (CommandLog.recordsOf items).length ∧
        CommandLog.recordsOf rest = (CommandLog.recordsOf items).drop config.batchSize) ∧
    (∀ items, (∃ read, CommandLog.readBatch machine config.batchSize items = .ok read) ↔
      config.batchSize * CommandLog.recordSize ≤ Machine.addressable ∧
        config.batchSize * CommandLog.recordSize ≤ machine.available) ∧
    (Machine.addressable ≤ machine.available →
      ∀ items, (∃ read, CommandLog.readBatch machine config.batchSize items = .ok read) ↔
        config.batchSize ≤ 164703072086692425) ∧
    (∀ items, CommandLog.readBatch machine config.batchSize items = .error .unaddressable ↔
      164703072086692425 < config.batchSize) ∧
    (164703072086692425 < config.batchSize → config.prepare machine = .ok () →
      ∀ policy clock path content sink, sink.limit = none →
        replay machine (.async config) policy clock path (.bytes content) sink =
          (.error (.abort .capacityOverflow), sink) ∧
        (replay machine .sync policy clock path (.bytes content) sink).1 = .ok ()) := by
  subst given
  generalize made : BatchConfig.ofOptions (some n) workers = config
  have positive : 0 < config.batchSize := made ▸ BatchConfig.batchSize_pos n workers
  have beyond : Machine.addressable < config.batchSize * CommandLog.recordSize ↔
      164703072086692425 < config.batchSize := by
    simp only [Machine.addressable, CommandLog.recordSize]
    omega
  refine ⟨made ▸ BatchConfig.batchSize_ofOptions n workers, fun items within room => ?_,
    fun items => CommandLog.readBatch_isOk_iff, fun ample items => ?_,
    fun items => CommandLog.readBatch_eq_unaddressable_iff.trans beyond, ?_⟩
  · obtain ⟨rest, read, behind⟩ :=
      CommandLog.readBatch_of_fits ⟨positive, (machine.reserve_ok_iff _ _).2 ⟨within, room⟩⟩ items
    exact ⟨_, rest, read, rfl, List.length_take, behind⟩
  · rw [CommandLog.readBatch_isOk_iff]
    omega
  · intro more prepared policy clock path content sink unlimited
    exact ⟨replay_of_unaddressable prepared (beyond.2 more) policy clock path content sink,
      replay_sync_ok machine policy clock path content unlimited⟩

/-- The greatest batch size that can be given. -/
def greatestBatches : BatchConfig := .ofOptions (some 18446744073709551615) none

def singleRecordLog : List UInt8 := Text.encode "process,command,detail\ntp-1,initiate,\n"

theorem batch_size_limits_greatest :
    164703072086692425 < greatestBatches.batchSize ∧
    greatestBatches.prepare .host = .ok () ∧
    replay .host (.async greatestBatches) .default (.fixed (.ofSeconds 0)) "log.csv"
        (.bytes singleRecordLog) .unlimited =
      (.error (.abort .capacityOverflow), .unlimited) ∧
    (replay .host .sync .default (.fixed (.ofSeconds 0)) "log.csv" (.bytes singleRecordLog)
      .unlimited).1 = .ok () ∧
    (replay .host .sync .default (.fixed (.ofSeconds 0)) "log.csv" (.bytes singleRecordLog)
      .unlimited).2.received =
      Text.encode "process,state,state_count,error_detail\ntp-1,INITIAL,0,\n" := by
  have given : greatestBatches = .ofOptions (some 18446744073709551615) none := rfl
  have beyond : 164703072086692425 < greatestBatches.batchSize := by decide
  obtain ⟨stopped, finished⟩ := (batch_size_limits .host given).2.2.2.2.2 beyond rfl .default
    (.fixed (.ofSeconds 0)) "log.csv" singleRecordLog .unlimited rfl
  exact ⟨beyond, rfl, stopped, finished, by decide +kernel⟩

/-- It is taken as an option, but with it not even one record is read, on whatever machine. -/
theorem readBatch_greatest_size :
    greatestBatches.batchSize = 18446744073709551615 ∧
    CommandLog.records singleRecordLog = [.initiate ⟨"tp-1"⟩] ∧
    ∀ machine : Machine, CommandLog.readBatch machine greatestBatches.batchSize
      (CommandLog.items singleRecordLog) = .error .unaddressable :=
  ⟨rfl, by decide +kernel, fun _ => rfl⟩

end TransferLifecycle
