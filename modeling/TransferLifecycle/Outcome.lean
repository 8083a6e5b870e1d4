import TransferLifecycle.Failure

set_option autoImplicit false

/- The outcome of a command is a value or a failure. Asking an outcome for the side it does not have
is a mistake of the caller and aborts with a text. -/
namespace TransferLifecycle

/-- The end of a computation that met a broken assumption. -/
structure Abort where
  text : String
  deriving DecidableEq, Repr

namespace Abort

/-- A sum that a word cannot hold. -/
def sumOverflow : Abort := ⟨"attempt to add with overflow"⟩

/-- More room than memory can have. -/
def capacityOverflow : Abort := ⟨"capacity overflow"⟩

/-- A cut inside a character. -/
def tornText : Abort := ⟨"byte index is not a char boundary"⟩

/-- A place that a list of the given length does not have. -/
def outOfRange (length place : Nat) : Abort :=
  ⟨s!"index out of bounds: the len is {length} but the index is {place}"⟩

end Abort

/-- The message at the first place. Where the list does not have that place, asking aborts. -/
def Failure.firstMessage (f : Failure) : Except Abort String :=
  if 0 < f.messages.length then .ok f.first else .error (.outOfRange f.messages.length 0)

inductive Outcome (α : Type) where
  | success (value : α)
  | failure (failure : Failure)
  deriving DecidableEq, Repr

namespace Outcome

variable {α β : Type}

def isSuccess : Outcome α → Bool
  | success _ => true
  | failure _ => false

def isFailure (o : Outcome α) : Bool := !o.isSuccess

def failure? : Outcome α → Option Failure
  | success _ => none
  | failure f => some f

/-- The value, where `asked` names the question in the abort of a failed outcome. -/
def valueFor (asked : String) : Outcome α → Except Abort α
  | success a => .ok a
  | failure f => .error ⟨asked ++ " called on a failed outcome: " ++ f.text⟩

def content (o : Outcome α) : Except Abort α := o.valueFor "content()"

def intoContent (o : Outcome α) : Except Abort α := o.valueFor "into_content()"

def firstError : Outcome α → Except Abort String
  | success _ => .error ⟨"first_error() called on a successful outcome"⟩
  | failure f => f.firstMessage

def map (g : α → β) : Outcome α → Outcome β
  | success a => success (g a)
  | failure f => failure f

def toExcept : Outcome α → Except Failure α
  | success a => .ok a
  | failure f => .error f

def ofExcept : Except Failure α → Outcome α
  | .ok a => success a
  | .error f => failure f

@[simp] theorem ofExcept_toExcept (o : Outcome α) : ofExcept o.toExcept = o := by
  cases o <;> rfl

@[simp] theorem toExcept_ofExcept (r : Except Failure α) : (ofExcept r).toExcept = r := by
  cases r <;> rfl

end Outcome

end TransferLifecycle
