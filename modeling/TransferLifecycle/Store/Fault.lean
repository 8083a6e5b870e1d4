import TransferLifecycle.Store

set_option autoImplicit false

/- Faults planned for a store: each strikes a number of calls of one operation, for one id or for
any, and the first that matches a call is the one that strikes. A struck call is refused. -/
namespace TransferLifecycle

structure Fault where
  operation : String
  id : Option ProcessId
  count : Nat
  message : String
  deriving DecidableEq, Repr

namespace Fault

def strikes (f : Fault) (call : Call) : Bool :=
  f.operation == call.operation && f.id.all (· == call.id) && 0 < f.count

def strike : List Fault → Call → Option String × List Fault
  | [], _ => (none, [])
  | f :: rest, call =>
    if f.strikes call then (some f.message, { f with count := f.count - 1 } :: rest)
    else
      let (struck, left) := strike rest call
      (struck, f :: left)

/-- What is left of the faults after the given calls, the newest first. -/
def after (faults : List Fault) (calls : List Call) : List Fault :=
  calls.foldr (fun call left => (strike left call).2) faults

def fate (faults : List Fault) : List Call → Fate
  | [] => .granted
  | call :: earlier =>
    match (strike (after faults earlier) call).1 with
    | none => .granted
    | some message => .refused (.unavailable call.operation message)

end Fault

end TransferLifecycle
