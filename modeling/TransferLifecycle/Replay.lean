import TransferLifecycle.Batch
import TransferLifecycle.CommandLog
import TransferLifecycle.Source

set_option autoImplicit false

/- A replay reads a command log, applies its records to an empty store and writes the processes that
come of it. It goes record by record, or by batches whose parts are applied process by process. -/
namespace TransferLifecycle

/-- How many records a batch takes, and how many workers share its parts: a given number, or as many
as the machine has processors. -/
structure BatchConfig where
  batchSize : Nat
  workers : Option Nat
  deriving DecidableEq, Repr

namespace BatchConfig

def default : BatchConfig := ⟨1000, none⟩

/-- A number that is not given or is zero stands for the default. -/
def ofOptions (batchSize workers : Option Nat) : BatchConfig :=
  ⟨(batchSize.filter (0 < ·)).getD default.batchSize, workers.filter (0 < ·)⟩

end BatchConfig

inductive Strategy where
  | sync
  | async (config : BatchConfig)
  deriving DecidableEq, Repr

/-- Has the machine start the workers. -/
def BatchConfig.prepare (machine : Machine) (c : BatchConfig) : Except ReplayStop Unit :=
  match machine.start c.workers with
  | .error f => .error f.stop
  | .ok () => .ok ()

def Strategy.prepare (machine : Machine) : Strategy → Except ReplayStop Unit
  | sync => .ok ()
  | async config => config.prepare machine

namespace Engine

/-- Reads batch after batch and applies each, until a batch is empty. -/
def runBatches (e : Engine) (machine : Machine) (size : Nat) (s : Session)
    (items : List (Except CommandLog.ReadError Record)) :
    Except ReplayStop Unit × Session :=
  match _read : CommandLog.readBatch machine size items with
  | .error shortage => (.error shortage.stop, s)
  | .ok ([], _) => (.ok (), s)
  | .ok (record :: batch, rest) =>
    match e.runBatch s (record :: batch) with
    | (.error i, after) => (.error i.stop, after)
    | (.ok _, after) => e.runBatches machine size after rest
termination_by items.length
decreasing_by
  have bound := CommandLog.takeBatch_length [] size items
  unfold CommandLog.readBatch at _read
  split at _read
  · simp at _read
  · rw [Except.ok.inj _read] at bound
    simp at bound
    omega

def runLog (e : Engine) (machine : Machine) (strategy : Strategy) (s : Session)
    (bytes : List UInt8) : Except ReplayStop Unit × Session :=
  match strategy with
  | .sync =>
    match e.run s (CommandLog.records bytes) with
    | (.error i, after) => (.error i.stop, after)
    | (.ok _, after) => (.ok (), after)
  | .async config => e.runBatches machine config.batchSize s (CommandLog.items bytes)

end Engine

/-- Writes processes to the sink, in whatever order they are listed. -/
def writeListed (sink : Sink) (listed : List TransferProcess) : Except ReplayStop Unit × Sink :=
  match writeSnapshot listed sink with
  | (.error e, written) => (.error (.error e), written)
  | (.ok (), written) => (.ok (), written)

/-- Writes the processes that a replay came to. One that was stopped writes nothing. -/
def writeOut (sink : Sink) : Except ReplayStop Unit × Session → Except ReplayStop Unit × Sink
  | (.error stop, _) => (.error stop, sink)
  | (.ok (), after) =>
    match after.store.all.1 with
    | .error e => (.error (.error (.store e)), sink)
    | .ok processes => writeListed sink processes

/-- Replays the bytes of a log and writes the snapshot to a sink. -/
def replayBytes (machine : Machine) (strategy : Strategy) (policy : RetryPolicy) (clock : Clock)
    (bytes : List UInt8) (sink : Sink) : Except ReplayStop Unit × Sink :=
  writeOut sink <|
    (Engine.standard policy).runLog machine strategy (.start (.reliable .empty) clock) bytes

/-- Replays what a path leads to. It is opened only when the strategy is set up. -/
def replay (machine : Machine) (strategy : Strategy) (policy : RetryPolicy) (clock : Clock)
    (path : String) (source : Source) (sink : Sink) : Except ReplayStop Unit × Sink :=
  match strategy.prepare machine with
  | .error stop => (.error stop, sink)
  | .ok () =>
    match source.open? path with
    | .error e => (.error (.error e), sink)
    | .ok bytes => replayBytes machine strategy policy clock bytes sink

end TransferLifecycle
