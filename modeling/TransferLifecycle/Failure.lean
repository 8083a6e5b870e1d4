set_option autoImplicit false

/- A failure is a refusal with messages. Its kind says whether the same command may be tried again:
only a failure of the storage is worth another attempt. The record itself admits an empty list; that
there is a message is kept by the ways in which failures are made. -/
namespace TransferLifecycle

inductive FailureKind where
  | validation
  | notFound
  | illegalTransition
  | storage
  deriving DecidableEq, Repr

namespace FailureKind

def all : List FailureKind := [validation, notFound, illegalTransition, storage]

def name : FailureKind → String
  | validation => "validation"
  | notFound => "not_found"
  | illegalTransition => "illegal_transition"
  | storage => "storage"

def isRetryable : FailureKind → Bool
  | storage => true
  | _ => false

end FailureKind

structure Failure where
  kind : FailureKind
  messages : List String
  deriving DecidableEq, Repr

namespace Failure

def single (kind : FailureKind) (message : String) : Failure := ⟨kind, [message]⟩

/-- A list without a message gives no failure. -/
def ofMessages? (kind : FailureKind) : List String → Option Failure
  | [] => none
  | first :: others => some ⟨kind, first :: others⟩

theorem ofMessages?_eq_none_iff (kind : FailureKind) (ms : List String) :
    ofMessages? kind ms = none ↔ ms = [] := by cases ms <;> simp [ofMessages?]

theorem messages_of_ofMessages? {kind : FailureKind} {ms : List String} {f : Failure}
    (h : ofMessages? kind ms = some f) : f.kind = kind ∧ f.messages = ms := by
  cases ms with
  | nil => simp [ofMessages?] at h
  | cons m rest =>
    simp only [ofMessages?, Option.some.injEq] at h
    subst h
    exact ⟨rfl, rfl⟩

theorem ne_nil_of_ofMessages? {kind : FailureKind} {ms : List String} {f : Failure}
    (h : ofMessages? kind ms = some f) : f.messages ≠ [] := by
  cases ms with
  | nil => cases h
  | cons m rest =>
    cases h
    exact List.cons_ne_nil m rest

def withMessage (f : Failure) (message : String) : Failure :=
  { f with messages := f.messages ++ [message] }

@[simp] theorem messages_withMessage (f : Failure) (message : String) :
    (f.withMessage message).messages = f.messages ++ [message] := rfl

/-- The messages of both, under the kind of the first. -/
def merge (f other : Failure) : Failure := { f with messages := f.messages ++ other.messages }

@[simp] theorem messages_merge (f other : Failure) :
    (f.merge other).messages = f.messages ++ other.messages := rfl

/-- What stands in front of the other messages; empty where there is none. -/
def first (f : Failure) : String := f.messages.headD ""

def isRetryable (f : Failure) : Bool := f.kind.isRetryable

def text (f : Failure) : String := f.kind.name ++ ": " ++ "; ".intercalate f.messages

/-- How a failure is put together: from a list of messages, by one more message, or by what
another assembly gives. -/
inductive Assembly where
  | messages (kind : FailureKind) (list : List String)
  | message (base : Assembly) (text : String)
  | merged (base part : Assembly)

/-- A part that gives no failure adds nothing; a base that gives none stays none. -/
def Assembly.build : Assembly → Option Failure
  | .messages kind list => ofMessages? kind list
  | .message base text => base.build.map (·.withMessage text)
  | .merged base part => base.build.map fun f =>
      match part.build with
      | none => f
      | some other => f.merge other

end Failure

end TransferLifecycle
