import TransferLifecycle.Roster

set_option autoImplicit false

/- A store is a roster behind a line that may fail. Every call is put on record, and the fate of a
call may depend on all calls before it. A call can be refused with nothing done, and a write can
also be done and still be reported as failed. -/
namespace TransferLifecycle

inductive StoreError where
  | notFound (id : ProcessId)
  | alreadyExists (id : ProcessId)
  | unavailable (operation message : String)
  deriving DecidableEq, Repr

def StoreError.message : StoreError → String
  | notFound id => s!"Transfer process {id.text} not found"
  | alreadyExists id => s!"Transfer process {id.text} already exists"
  | unavailable operation message => s!"Store unavailable during {operation}: {message}"

inductive Call where
  | load (id : ProcessId)
  | save (id : ProcessId)
  | create (id : ProcessId)
  | all
  deriving DecidableEq, Repr

namespace Call

def operation : Call → String
  | load _ => "load"
  | save _ => "save"
  | create _ => "create"
  | all => "all"

/-- The id a call is about; the call for all processes counts as one for the empty id. -/
def id : Call → ProcessId
  | load id | save id | create id => id
  | all => ⟨""⟩

def text (c : Call) : String := c.operation ++ ":" ++ c.id.text

end Call

inductive Fate where
  | granted
  | refused (error : StoreError)
  | unacknowledged (error : StoreError)
  deriving DecidableEq, Repr

def Fate.error? : Fate → Option StoreError
  | granted => none
  | refused e | unacknowledged e => some e

/-- The calls made so far, the newest first, and the fate of the first call of such a list. -/
structure Store where
  roster : Roster
  calls : List Call
  fate : List Call → Fate

namespace Store

def reliable (roster : Roster) : Store := ⟨roster, [], fun _ => .granted⟩

def get? (s : Store) (id : ProcessId) : Option TransferProcess := s.roster.get? id

def record (s : Store) (call : Call) : Store := { s with calls := call :: s.calls }

def fateOf (s : Store) (call : Call) : Fate := s.fate (call :: s.calls)

def put (s : Store) (p : TransferProcess) : Store := { s with roster := s.roster.insert p }

@[simp] theorem roster_record (s : Store) (call : Call) : (s.record call).roster = s.roster := rfl

@[simp] theorem get?_record (s : Store) (call : Call) (id : ProcessId) :
    (s.record call).get? id = s.get? id := rfl

theorem get?_put (s : Store) (p : TransferProcess) (id : ProcessId) :
    (s.put p).get? id = if p.id = id then some p else s.get? id := s.roster.get?_insert p id

def load (s : Store) (id : ProcessId) : Except StoreError (Option TransferProcess) × Store :=
  match (s.fateOf (.load id)).error? with
  | none => (.ok (s.get? id), s.record (.load id))
  | some e => (.error e, s.record (.load id))

def save (s : Store) (p : TransferProcess) : Except StoreError Unit × Store :=
  match s.fateOf (.save p.id) with
  | .granted => (.ok (), (s.record (.save p.id)).put p)
  | .refused e => (.error e, s.record (.save p.id))
  | .unacknowledged e => (.error e, (s.record (.save p.id)).put p)

/-- Stores a process under an id that is still free. -/
def create (s : Store) (p : TransferProcess) : Except StoreError Unit × Store :=
  match s.fateOf (.create p.id), s.get? p.id with
  | .refused e, _ => (.error e, s.record (.create p.id))
  | .granted, none => (.ok (), (s.record (.create p.id)).put p)
  | .granted, some _ => (.error (.alreadyExists p.id), s.record (.create p.id))
  | .unacknowledged e, none => (.error e, (s.record (.create p.id)).put p)
  | .unacknowledged e, some _ => (.error e, s.record (.create p.id))

def all (s : Store) : Except StoreError (List TransferProcess) × Store :=
  match (s.fateOf .all).error? with
  | none => (.ok s.roster.rows, s.record .all)
  | some e => (.error e, s.record .all)

@[simp] theorem roster_load (s : Store) (id : ProcessId) : (s.load id).2.roster = s.roster := by
  unfold load; split <;> rfl

@[simp] theorem roster_all (s : Store) : s.all.2.roster = s.roster := by
  unfold all; split <;> rfl

theorem get?_save_of_ne (s : Store) {p : TransferProcess} {id : ProcessId} (h : p.id ≠ id) :
    (s.save p).2.get? id = s.get? id := by
  unfold save; split <;> simp [get?_put, h]

theorem get?_create_of_ne (s : Store) {p : TransferProcess} {id : ProcessId} (h : p.id ≠ id) :
    (s.create p).2.get? id = s.get? id := by
  unfold create; split <;> simp [get?_put, h]

end Store

end TransferLifecycle
