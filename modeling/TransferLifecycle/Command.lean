import TransferLifecycle.CommandKind
import TransferLifecycle.Failure
import TransferLifecycle.TransferProcess

set_option autoImplicit false

/- A command asks for one transition of one process. What it carries depends on its kind: a pause
may give a reason, a termination has to, and a fault has to be described. -/
namespace TransferLifecycle

inductive Action where
  | request
  | start
  | suspend (reason : Option String)
  | resume
  | complete
  | terminate (reason : String)
  | fail (errorDetail : String)
  deriving DecidableEq, Repr

namespace Action

def kind : Action → CommandKind
  | request => .request
  | start => .start
  | suspend _ => .suspend
  | resume => .resume
  | complete => .complete
  | terminate _ => .terminate
  | fail _ => .fail

/-- The action of a kind with the given text, where a kind that needs one takes none as empty. -/
def ofKind (kind : CommandKind) (text : Option String) : Action :=
  match kind with
  | .request => request
  | .start => start
  | .suspend => suspend text
  | .resume => resume
  | .complete => complete
  | .terminate => terminate (text.getD "")
  | .fail => fail (text.getD "")

@[simp] theorem kind_ofKind (kind : CommandKind) (text : Option String) :
    (ofKind kind text).kind = kind := by cases kind <;> rfl

def text? : Action → Option String
  | suspend reason => reason
  | terminate reason => some reason
  | fail errorDetail => some errorDetail
  | _ => none

/-- The detail that the action leaves on a process which had `old`. -/
def detail (action : Action) (old : Option String) : Option String :=
  match action with
  | request | start => old
  | suspend reason => reason
  | resume | complete => none
  | terminate reason => some reason
  | fail errorDetail => some errorDetail

end Action

structure Command where
  processId : ProcessId
  action : Action
  deriving DecidableEq, Repr

namespace Command

def kind (c : Command) : CommandKind := c.action.kind

def text (c : Command) : String := c.kind.name ++ "(" ++ c.processId.text ++ ")"

def idProblems (c : Command) : List String :=
  if c.processId.isBlank then [s!"{c.kind.name} command has a blank process id"] else []

def actionProblems (c : Command) : List String :=
  match c.action with
  | .terminate reason =>
    if Text.isBlank reason then
      [s!"terminate command for process '{c.processId.text}' requires a reason"]
    else []
  | .fail errorDetail =>
    if Text.isBlank errorDetail then
      [s!"fail command for process '{c.processId.text}' requires an error detail"]
    else []
  | _ => []

/-- Everything wrong with the command itself, whatever process it meets. -/
def invalid? (c : Command) : Option Failure :=
  Failure.ofMessages? .validation (c.idProblems ++ c.actionProblems)

theorem invalid?_kind {c : Command} {f : Failure} (h : c.invalid? = some f) :
    f.kind = .validation := (Failure.messages_of_ofMessages? h).1

theorem invalid?_eq_none_iff (c : Command) :
    c.invalid? = none ↔ c.idProblems = [] ∧ c.actionProblems = [] := by
  rw [invalid?, Failure.ofMessages?_eq_none_iff, List.append_eq_nil_iff]

end Command

end TransferLifecycle
