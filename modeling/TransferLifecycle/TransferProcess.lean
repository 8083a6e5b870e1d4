import TransferLifecycle.Instant
import TransferLifecycle.State

set_option autoImplicit false

/- A transfer process: its id, where it stands in its life, how many transitions brought it there,
when the last one was, and a text on why it paused or ended. -/
namespace TransferLifecycle

structure ProcessId where
  text : String
  deriving DecidableEq, Repr

namespace ProcessId

instance : LT ProcessId := ⟨fun a b => a.text < b.text⟩

instance (a b : ProcessId) : Decidable (a < b) := inferInstanceAs (Decidable (a.text < b.text))

theorem lt_irrefl (a : ProcessId) : ¬ a < a := String.lt_irrefl a.text

theorem lt_trans {a b c : ProcessId} (h : a < b) (h' : b < c) : a < c := String.lt_trans h h'

theorem lt_of_not_lt_of_ne {a b : ProcessId} (h : ¬ b < a) (ne : a ≠ b) : a < b := by
  apply Decidable.byContradiction
  intro h'
  apply ne
  cases a; cases b
  exact congrArg ProcessId.mk (String.le_antisymm (String.not_lt.1 h) (String.not_lt.1 h'))

def isBlank (id : ProcessId) : Bool := Text.isBlank id.text

end ProcessId

structure TransferProcess where
  id : ProcessId
  state : State
  stateCount : UInt32
  updatedAt : Instant
  errorDetail : Option String
  deriving DecidableEq, Repr

namespace TransferProcess

def initial (id : ProcessId) (now : Instant) : TransferProcess := ⟨id, .initial, 0, now, none⟩

/-- One more transition; a full counter stays full. -/
def nextCount (count : UInt32) : UInt32 := if count = 0xFFFFFFFF then count else count + 1

theorem nextCount_toNat (count : UInt32) :
    (nextCount count).toNat = min (count.toNat + 1) 0xFFFFFFFF := by
  have bound := count.toNat_lt
  unfold nextCount
  split
  next h => subst h; rfl
  next h =>
    have : count.toNat ≠ 0xFFFFFFFF := fun e => h (UInt32.toNat_inj.1 e)
    rw [UInt32.toNat_add, UInt32.toNat_one]
    omega

def withState (p : TransferProcess) (state : State) : TransferProcess := { p with state }

/-- Enters a state: the count goes up and the time is stamped, the detail stays. -/
def enter (p : TransferProcess) (state : State) (now : Instant) : TransferProcess :=
  { p with state, stateCount := nextCount p.stateCount, updatedAt := now }

def withDetail (p : TransferProcess) (detail : Option String) : TransferProcess :=
  { p with errorDetail := detail }

end TransferProcess

end TransferLifecycle
