import TransferLifecycle.Outcome

set_option autoImplicit false

/- The machine that a replay runs on: how much memory it has, and what comes of starting workers on
it. Both are left open. Room for a number of items of one size is reserved before they are there.
Room that no address reaches is refused on every machine; room that the machine does not have ends
the program. -/
namespace TransferLifecycle

inductive Shortage where
  | unaddressable
  | exhausted (bytes : Nat)
  deriving DecidableEq, Repr

/-- A shortage in words. -/
def Shortage.abort : Shortage → Abort
  | unaddressable => .capacityOverflow
  | exhausted bytes => ⟨s!"memory allocation of {bytes} bytes failed"⟩

/-- Why no workers were started: the system refused them, or setting them up was aborted or ran out
of memory. -/
inductive StartFailure where
  | refused (message : String)
  | aborted (reason : Abort)
  | exhausted (bytes : Nat)
  deriving DecidableEq, Repr

/-- `available` is the most bytes that can be had at once, and `start` is asked for a number of
workers, or for as many as the machine has processors. -/
structure Machine where
  available : Nat
  start : Option Nat → Except StartFailure Unit

namespace Machine

/-- The most bytes that one reservation can be about. -/
def addressable : Nat := 0x7FFFFFFFFFFFFFFF

def reserve (m : Machine) (count size : Nat) : Except Shortage Unit :=
  if addressable < count * size then .error .unaddressable
  else if m.available < count * size then .error (.exhausted (count * size))
  else .ok ()

theorem reserve_ok_iff (m : Machine) (count size : Nat) :
    m.reserve count size = .ok () ↔ count * size ≤ addressable ∧ count * size ≤ m.available := by
  unfold reserve
  split
  next beyond => simp [Nat.not_le.2 beyond]
  next within =>
    split
    next beyond => simp [Nat.not_le.2 beyond]
    next granted => simp [Nat.not_lt.1 within, Nat.not_lt.1 granted]

theorem reserve_eq_unaddressable_iff (m : Machine) (count size : Nat) :
    m.reserve count size = .error .unaddressable ↔ addressable < count * size := by
  unfold reserve
  split
  next beyond => simp [beyond]
  next within => split <;> simp [within]

end Machine

end TransferLifecycle
