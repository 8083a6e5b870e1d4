import TransferLifecycle.Record

set_option autoImplicit false

/- One row of a command log: the process it is about, the word for what is to happen, and a detail
for the words that take one. -/
namespace TransferLifecycle.CommandLog

structure Row where
  process : String
  command : String
  detail : Option String
  deriving DecidableEq, Repr

inductive RowError where
  | missingProcess (command : String)
  | unknownCommand (command process : String)
  deriving DecidableEq, Repr

def RowError.message : RowError → String
  | missingProcess command => s!"Missing process id for '{command}' command"
  | unknownCommand command process => s!"Invalid command: '{command}' for process {process}"

/-- The record that a word in lower case stands for. -/
def recordFor? (word : String) (id : ProcessId) (detail : Option String) : Option Record :=
  if word = "initiate" then some (.initiate id)
  else (CommandKind.ofName? word).map fun kind => .command ⟨id, .ofKind kind detail⟩

/-- A blank detail is none. -/
def Row.detailText (row : Row) : Option String :=
  (row.detail.map Text.trim).filter (· ≠ "")

def Row.toRecord (row : Row) : Except RowError Record :=
  let id := Text.trim row.process
  if id = "" then .error (.missingProcess row.command)
  else
    match recordFor? (Text.lower (Text.trim row.command)) ⟨id⟩ row.detailText with
    | some record => .ok record
    | none => .error (.unknownCommand row.command id)

end TransferLifecycle.CommandLog
