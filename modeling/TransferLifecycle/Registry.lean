import TransferLifecycle.Handler

set_option autoImplicit false

/- A registry binds every kind of command to one handler. It is built step by step: the first
handler of a kind stays, and a registry with a kind left over is not built. -/
namespace TransferLifecycle

inductive RegistryError where
  | duplicateHandler (kind : CommandKind)
  | incomplete (missing : List CommandKind)
  deriving DecidableEq, Repr

def RegistryError.message : RegistryError → String
  | duplicateHandler kind => s!"A handler for '{kind.name}' commands is already registered"
  | incomplete missing =>
    "No handler registered for command kinds: " ++ ", ".intercalate (missing.map (·.name))

structure Registry where
  handlers : List Handler

namespace Registry

def resolve (r : Registry) (kind : CommandKind) : Option Handler :=
  r.handlers.find? (·.kind == kind)

theorem kind_of_resolve {r : Registry} {kind : CommandKind} {h : Handler}
    (found : r.resolve kind = some h) : h.kind = kind := by
  simpa using List.find?_some found

def kinds (r : Registry) : List CommandKind :=
  CommandKind.all.filter fun kind => (r.resolve kind).isSome

def size (r : Registry) : Nat := r.handlers.length

def description (r : Registry) : String :=
  "CommandHandlerRegistry \x7b kinds: [" ++ ", ".intercalate (r.kinds.map (·.label)) ++ "] \x7d"

structure Builder where
  handlers : List Handler

namespace Builder

def empty : Builder := ⟨[]⟩

def covers (b : Builder) (kind : CommandKind) : Bool := b.handlers.any (·.kind == kind)

def register (b : Builder) (h : Handler) : Except RegistryError Builder :=
  if b.covers h.kind then .error (.duplicateHandler h.kind) else .ok ⟨b.handlers ++ [h]⟩

/-- Registers one handler after another. A refused one is passed over; the answers keep its error.
-/
def registerAll (b : Builder) : List Handler → List (Option RegistryError) × Builder
  | [] => ([], b)
  | h :: rest =>
    match b.register h with
    | .error e =>
      let (answers, last) := b.registerAll rest
      (some e :: answers, last)
    | .ok next =>
      let (answers, last) := next.registerAll rest
      (none :: answers, last)

def missing (b : Builder) : List CommandKind := CommandKind.all.filter fun kind => !b.covers kind

def build (b : Builder) : Except RegistryError Registry :=
  if b.missing = [] then .ok ⟨b.handlers⟩ else .error (.incomplete b.missing)

theorem build_ok_iff (b : Builder) (r : Registry) :
    b.build = .ok r ↔ r = ⟨b.handlers⟩ ∧ ∀ kind, b.covers kind = true := by
  have complete : b.missing = [] ↔ ∀ kind, b.covers kind = true := by
    rw [missing, List.filter_eq_nil_iff]
    constructor
    · intro h kind; simpa using h kind (CommandKind.mem_all kind)
    · intro h kind _; simp [h kind]
  rw [← complete, build]
  split
  next h => simp [h, eq_comm]
  next h => simp [h]

end Builder

def standard : Registry := ⟨CommandKind.all.map Handler.standard⟩

theorem standard_resolve (kind : CommandKind) :
    standard.resolve kind = some (Handler.standard kind) := by cases kind <;> rfl

/-- The given handlers, and the standard ones for the kinds they leave open. -/
def compose (handlers : List Handler) : Except RegistryError Registry :=
  let (answers, b) := Builder.empty.registerAll handlers
  match answers.findSome? id with
  | some e => .error e
  | none => (b.registerAll (b.missing.map Handler.standard)).2.build

end Registry

end TransferLifecycle
