import TransferLifecycle.Engine

set_option autoImplicit false

/- A batch of records is split by process id, and each part is applied in its own order. A part that
is interrupted ends there; the other parts still run to their end. -/
namespace TransferLifecycle

structure Partition where
  id : ProcessId
  records : List Record
  deriving DecidableEq, Repr

namespace Partition

/-- Puts a record before all records of its process. -/
def place (r : Record) : List Partition → List Partition
  | [] => [⟨r.processId, [r]⟩]
  | part :: rest =>
    if part.id = r.processId then { part with records := r :: part.records } :: rest
    else if r.processId < part.id then ⟨r.processId, [r]⟩ :: part :: rest
    else part :: place r rest

/-- The parts of a batch, one per process id, in the order of the ids. -/
def ofBatch (batch : List Record) : List Partition := batch.foldr place []

def recordsOf (parts : List Partition) (id : ProcessId) : List Record :=
  (parts.filter (·.id == id)).flatMap (·.records)

@[simp] theorem ofBatch_cons (r : Record) (rest : List Record) :
    ofBatch (r :: rest) = place r (ofBatch rest) := rfl

end Partition

/-- What the parts of a batch came to so far. -/
structure BatchResult where
  tally : Tally
  fault : Option DispatchFault
  abort : Option Abort
  deriving DecidableEq, Repr

namespace BatchResult

def empty : BatchResult := ⟨.zero, none, none⟩

/-- Takes in the result of one part. The first fault and the first abort stand. -/
def absorb (b : BatchResult) : Except Interruption Tally → BatchResult
  | .ok tally => { b with tally := b.tally.add tally }
  | .error (.error fault) => { b with fault := b.fault <|> some fault }
  | .error (.abort reason) => { b with abort := b.abort <|> some reason }

/-- An abort outweighs a fault, and a fault the tally. -/
def conclude (b : BatchResult) : Except Interruption Tally :=
  match b.abort, b.fault with
  | some reason, _ => .error (.abort reason)
  | none, some fault => .error (.error fault)
  | none, none => .ok b.tally

end BatchResult

namespace Engine

def runParts (e : Engine) (b : BatchResult) (s : Session) :
    List Partition → BatchResult × Session
  | [] => (b, s)
  | part :: rest =>
    let (result, after) := e.run s part.records
    e.runParts (b.absorb result) after rest

def runBatch (e : Engine) (s : Session) (batch : List Record) :
    Except Interruption Tally × Session :=
  let (b, after) := e.runParts .empty s (Partition.ofBatch batch)
  (b.conclude, after)

end Engine

end TransferLifecycle
