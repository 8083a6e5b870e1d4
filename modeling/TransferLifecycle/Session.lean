import TransferLifecycle.Listener
import TransferLifecycle.Store

set_option autoImplicit false

/- What lives on between two commands: the store, the clock, what listeners were told and which
processes were ever locked. -/
namespace TransferLifecycle

/-- The readings that a clock will show, and how many were taken. -/
structure Clock where
  reading : Nat → Instant
  taken : Nat

namespace Clock

def fixed (time : Instant) : Clock := ⟨fun _ => time, 0⟩

def now (c : Clock) : Instant := c.reading c.taken

def advance (c : Clock) : Clock := { c with taken := c.taken + 1 }

end Clock

/-- Deliveries are kept with the newest first. The guards are the ids that were ever locked. -/
structure Session where
  store : Store
  clock : Clock
  deliveries : List Delivery
  guards : List ProcessId

namespace Session

def start (store : Store) (clock : Clock) : Session := ⟨store, clock, [], []⟩

def guard (s : Session) (id : ProcessId) : Session :=
  if s.guards.contains id then s else { s with guards := id :: s.guards }

def deliver (s : Session) (d : Delivery) : Session :=
  { s with deliveries := d :: s.deliveries }

@[simp] theorem store_guard (s : Session) (id : ProcessId) : (s.guard id).store = s.store := by
  unfold guard; split <;> rfl

@[simp] theorem clock_guard (s : Session) (id : ProcessId) : (s.guard id).clock = s.clock := by
  unfold guard; split <;> rfl

@[simp] theorem deliveries_guard (s : Session) (id : ProcessId) :
    (s.guard id).deliveries = s.deliveries := by
  unfold guard; split <;> rfl

end Session

end TransferLifecycle
