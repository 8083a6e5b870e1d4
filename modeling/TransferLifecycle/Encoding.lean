import TransferLifecycle.Command
import TransferLifecycle.Rfc3339
import TransferLifecycle.Json

set_option autoImplicit false

/- How commands and processes are kept as JSON. Objects may hold further fields, and a list of the
values in the order of the fields is read as well. -/
namespace TransferLifecycle

namespace State

def encode (s : State) : Json := .string s.name

def decode? : Json → Option State := Json.oneOf? ofName?

end State

namespace CommandKind

def encode (k : CommandKind) : Json := .string k.name

def decode? : Json → Option CommandKind := Json.oneOf? ofName?

end CommandKind

namespace Action

def encode (a : Action) : Json :=
  .object <| ("kind", .string a.kind.name) ::
    match a with
    | suspend reason => [("reason", .ofOptional reason)]
    | terminate reason => [("reason", .string reason)]
    | fail errorDetail => [("error_detail", .string errorDetail)]
    | _ => []

/-- The action of a kind from the fields beside it. Only the field that the kind takes is looked at.
-/
def ofFields? (fields : List (String × Json)) : CommandKind → Option Action
  | .request => some request
  | .start => some start
  | .suspend => (Json.optionalString? (Json.lookup fields "reason")).map suspend
  | .resume => some resume
  | .complete => some complete
  | .terminate => (Json.lookup fields "reason" >>= Json.string?).map terminate
  | .fail => (Json.lookup fields "error_detail" >>= Json.string?).map fail

/-- The action of a kind from the values listed after it, none missing and none left over. -/
def ofItems? : CommandKind → List Json → Option Action
  | .request, [] => some request
  | .start, [] => some start
  | .suspend, [reason] => (Json.optionalString? (some reason)).map suspend
  | .resume, [] => some resume
  | .complete, [] => some complete
  | .terminate, [reason] => reason.string?.map terminate
  | .fail, [errorDetail] => errorDetail.string?.map fail
  | _, _ => none

def kindOf? (j : Json) : Option CommandKind := j.string? >>= CommandKind.ofName?

def decode? : Json → Option Action
  | .object fields => Json.lookup fields "kind" >>= kindOf? >>= ofFields? fields
  | .array (kind :: items) => kindOf? kind >>= (ofItems? · items)
  | _ => none

end Action

namespace ProcessId

def decode? (j : Json) : Option ProcessId := j.string?.map ProcessId.mk

end ProcessId

namespace Command

def encode (c : Command) : Json :=
  .object [("process_id", .string c.processId.text), ("action", c.action.encode)]

def ofParts? (processId action : Json) : Option Command := do
  let id ← ProcessId.decode? processId
  let action ← Action.decode? action
  return ⟨id, action⟩

def decode? : Json → Option Command
  | .object fields => do
    let processId ← Json.lookup fields "process_id"
    let action ← Json.lookup fields "action"
    ofParts? processId action
  | .array [processId, action] => ofParts? processId action
  | _ => none

end Command

namespace TransferProcess

def encode (p : TransferProcess) : Json :=
  .object [("id", .string p.id.text), ("state", p.state.encode),
    ("state_count", .integer p.stateCount.toNat), ("updated_at", .string p.updatedAt.text),
    ("error_detail", .ofOptional p.errorDetail)]

def ofParts? (id state stateCount updatedAt : Json) (errorDetail : Option Json) :
    Option TransferProcess := do
  let id ← ProcessId.decode? id
  let state ← State.decode? state
  let stateCount ← stateCount.word?
  let updatedAt ← updatedAt.string? >>= Instant.ofText?
  let errorDetail ← Json.optionalString? errorDetail
  return ⟨id, state, stateCount, updatedAt, errorDetail⟩

def decode? : Json → Option TransferProcess
  | .object fields => do
    let id ← Json.lookup fields "id"
    let state ← Json.lookup fields "state"
    let stateCount ← Json.lookup fields "state_count"
    let updatedAt ← Json.lookup fields "updated_at"
    ofParts? id state stateCount updatedAt (Json.lookup fields "error_detail")
  | .array [id, state, stateCount, updatedAt, errorDetail] =>
    ofParts? id state stateCount updatedAt (some errorDetail)
  | _ => none

end TransferProcess

end TransferLifecycle
