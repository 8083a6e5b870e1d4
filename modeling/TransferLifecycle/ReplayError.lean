import TransferLifecycle.Interruption
import TransferLifecycle.Machine
import TransferLifecycle.Registry
import TransferLifecycle.Snapshot
import TransferLifecycle.Store

set_option autoImplicit false

/- What can end a replay before its output is complete, and how it is put into words. -/
namespace TransferLifecycle

inductive ReplayError where
  | cannotOpen (path message : String)
  | output (message : String)
  | runtime (message : String)
  | fault (fault : DispatchFault)
  | registry (error : RegistryError)
  | store (error : StoreError)
  deriving DecidableEq, Repr

def ReplayError.message : ReplayError → String
  | cannotOpen path message => s!"Failed to open file '{path}': {message}"
  | output message => s!"Failed to write output: {message}"
  | runtime message => s!"Failed to create tokio runtime: {message}"
  | fault f => f.message
  | registry e => e.message
  | store e => s!"Failed to read process snapshot: {e.message}"

/-- Why a replay stopped: on an error that it reports, on an abort, or for want of memory, which
ends the program without a word. -/
inductive ReplayStop where
  | error (reason : ReplayError)
  | abort (reason : Abort)
  | outOfMemory (bytes : Nat)
  deriving DecidableEq, Repr

def Interruption.stop : Interruption → ReplayStop
  | error f => .error (.fault f)
  | abort reason => .abort reason

def Shortage.stop : Shortage → ReplayStop
  | unaddressable => .abort Shortage.unaddressable.abort
  | exhausted bytes => .outOfMemory bytes

def StartFailure.stop : StartFailure → ReplayStop
  | refused message => .error (.runtime message)
  | aborted reason => .abort reason
  | exhausted bytes => .outOfMemory bytes

/-- Writes a snapshot and reports a failure as an error of the output. -/
def writeSnapshot (processes : List TransferProcess) (sink : Sink) :
    Except ReplayError Unit × Sink :=
  match Snapshot.write processes sink with
  | (.ok (), after) => (.ok (), after)
  | (.error e, after) => (.error (.output e.message), after)

end TransferLifecycle
