import TransferLifecycle.Command

set_option autoImplicit false

/- Commands waiting to be applied, first in first out, each with the number of attempts made so far.
A command to be tried again goes to the end of the line. -/
namespace TransferLifecycle

structure QueuedCommand where
  command : Command
  attempts : Nat
  deriving DecidableEq, Repr

abbrev Queue := List QueuedCommand

namespace Queue

def requeue (q : Queue) (item : QueuedCommand) : Queue := q ++ [item]

def push (q : Queue) (c : Command) : Queue := q.requeue ⟨c, 0⟩

def pop : Queue → Option QueuedCommand × Queue
  | [] => (none, [])
  | item :: rest => (some item, rest)

theorem pop_requeue_of_ne_nil {q : Queue} (item : QueuedCommand) (h : q ≠ []) :
    (q.requeue item).pop = ((q.pop).1, (q.pop).2.requeue item) := by
  cases q with
  | nil => exact absurd rfl h
  | cons head rest => rfl

end Queue

end TransferLifecycle
