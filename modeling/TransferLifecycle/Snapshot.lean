import TransferLifecycle.Csv.Quoted
import TransferLifecycle.Sink
import TransferLifecycle.Text.Utf8
import TransferLifecycle.TransferProcess

set_option autoImplicit false

/- The snapshot lists processes as a table: a header, then one row per process in the order of the
ids, where processes of one id keep their order. It is written to a sink through a buffer. -/
namespace TransferLifecycle

namespace Snapshot

def header : List String := ["process", "state", "state_count", "error_detail"]

def fields (p : TransferProcess) : List String :=
  [p.id.text, p.state.name, toString p.stateCount.toNat, p.errorDetail.getD ""]

def sorted (processes : List TransferProcess) : List TransferProcess :=
  processes.mergeSort fun a b => !decide (b.id < a.id)

def rows (processes : List TransferProcess) : List (List String) :=
  header :: (sorted processes).map fields

def chunks (processes : List TransferProcess) : List Csv.Chunk :=
  (rows processes).flatMap fun row => Csv.rowChunks (row.map Text.encode)

def bufferSize : Nat := 8192

/-- A failed write is met while rows are written, or at the last flush. -/
inductive Error where
  | write
  | flush
  deriving DecidableEq, Repr

def Error.message : Error → String
  | write => "disk full"
  | flush => "Failed to flush output: disk full"

def write (processes : List TransferProcess) (sink : Sink) : Except Error Unit × Sink :=
  match sink.writeAll (pack bufferSize (chunks processes)) with
  | (none, after) => (.ok (), after)
  | (some 0, after) => (.error .flush, after)
  | (some _, after) => (.error .write, after)

/-- The bytes that a sink without limit receives. -/
def contents (processes : List TransferProcess) : List UInt8 := (chunks processes).flatten

end Snapshot

end TransferLifecycle
