import TransferLifecycle.Machine

set_option autoImplicit false

/- A machine to run on. It is one of many: its figures serve the program and its tests, and nothing
that is known of every machine comes from them. -/
namespace TransferLifecycle

def Shortage.startFailure : Shortage → StartFailure
  | unaddressable => .aborted Shortage.unaddressable.abort
  | exhausted bytes => .exhausted bytes

namespace Machine

/-- How many threads there may be beside the workers, for calls that wait. -/
def waitingThreads : Nat := 512

/-- The bytes that are reserved for each worker: for its place, handle, counters and queue. -/
def workerSizes : List Nat := [8, 16, 128, 2048]

/-- Reserves room for as many items of each of the sizes, one size after the other. -/
def reserveEach (m : Machine) (count : Nat) : List Nat → Except Shortage Unit
  | [] => .ok ()
  | size :: sizes =>
    match m.reserve count size with
    | .error s => .error s
    | .ok () => m.reserveEach count sizes

/-- All threads together are counted in a word of 64 bits, and there has to be room for the workers.
-/
def startWorkers (m : Machine) : Option Nat → Except StartFailure Unit
  | none => .ok ()
  | some n =>
    if UInt64.size ≤ waitingThreads + n then .error (.aborted .sumOverflow)
    else
      match m.reserveEach n workerSizes with
      | .error s => .error s.startFailure
      | .ok () => .ok ()

def host : Machine :=
  let memory : Machine := ⟨0x800000000, fun _ => .ok ()⟩
  { memory with start := memory.startWorkers }

end Machine

end TransferLifecycle
