import TransferLifecycle.Text.Blank
import TransferLifecycle.Text.Case

set_option autoImplicit false

/- The states of a transfer process and their written names. A process in one of the last three
states is finished for good. -/
namespace TransferLifecycle

inductive State where
  | initial
  | requested
  | started
  | suspended
  | completed
  | terminated
  | error
  deriving DecidableEq, Repr

namespace State

def all : List State :=
  [initial, requested, started, suspended, completed, terminated, error]

theorem mem_all (s : State) : s ∈ all := by cases s <;> decide

def name : State → String
  | initial => "INITIAL"
  | requested => "REQUESTED"
  | started => "STARTED"
  | suspended => "SUSPENDED"
  | completed => "COMPLETED"
  | terminated => "TERMINATED"
  | error => "ERROR"

theorem name_injective {s t : State} (h : s.name = t.name) : s = t := by
  revert h; cases s <;> cases t <;> decide

def isTerminal : State → Bool
  | completed | terminated | error => true
  | _ => false

def ofName? (text : String) : Option State := all.find? (·.name == text)

theorem ofName?_name (s : State) : ofName? s.name = some s := by cases s <;> decide

/-- A state as typed by a person: blanks around it and the case of its letters do not count. -/
def read? (text : String) : Option State :=
  all.find? fun s => Text.sameLetters (Text.trim text) s.name

def unknownMessage (text : String) : String :=
  s!"Unknown transfer process state '{text}'"

end State

end TransferLifecycle
