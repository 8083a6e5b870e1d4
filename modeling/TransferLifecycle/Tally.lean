import TransferLifecycle.Outcome

set_option autoImplicit false

/- A tally counts what became of the commands of a run. Tallies add up field by field. -/
namespace TransferLifecycle

structure Tally where
  processed : Nat
  rejected : Nat
  retried : Nat
  exhausted : Nat
  deriving DecidableEq, Repr

namespace Tally

def zero : Tally := ⟨0, 0, 0, 0⟩

def add (a b : Tally) : Tally :=
  ⟨a.processed + b.processed, a.rejected + b.rejected, a.retried + b.retried,
    a.exhausted + b.exhausted⟩

@[simp] theorem zero_add (a : Tally) : zero.add a = a := by simp [zero, add]

@[simp] theorem add_zero (a : Tally) : a.add zero = a := by simp [zero, add]

theorem add_assoc (a b c : Tally) : (a.add b).add c = a.add (b.add c) := by
  simp [add, Nat.add_assoc]

theorem add_comm (a b : Tally) : a.add b = b.add a := by simp [add, Nat.add_comm]

theorem map_add_map_add {ε : Type} (a b : Tally) (result : Except ε Tally) :
    (result.map b.add).map a.add = result.map (a.add b).add := by
  cases result with
  | error e => rfl
  | ok total => simp only [Except.map, add_assoc]

/-- Every count fits a word of 64 bits. -/
def fits (a : Tally) : Bool :=
  a.processed < UInt64.size && a.rejected < UInt64.size && a.retried < UInt64.size &&
    a.exhausted < UInt64.size

/-- The total after each of the tallies, as long as every count fits. -/
def runningTotals (total : Tally) : List Tally → Except Abort (List Tally)
  | [] => .ok []
  | a :: rest =>
    let next := total.add a
    if next.fits then (next.runningTotals rest).map (next :: ·)
    else .error .sumOverflow

end Tally

end TransferLifecycle
