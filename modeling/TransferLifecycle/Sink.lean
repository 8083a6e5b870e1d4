set_option autoImplicit false

/- A sink takes bytes up to a limit and fails from then on; the last write before that may be cut
off. A buffer in front of it collects what is written until the next unit does not fit. -/
namespace TransferLifecycle

structure Sink where
  limit : Option Nat
  received : List UInt8
  deriving DecidableEq, Repr

namespace Sink

def unlimited : Sink := ⟨none, []⟩

def limited (limit : Nat) : Sink := ⟨some limit, []⟩

/-- How many of `wanted` bytes the sink still takes. -/
def room (s : Sink) (wanted : Nat) : Nat :=
  match s.limit with
  | none => wanted
  | some limit => min wanted (limit - s.received.length)

/-- Writes all bytes. The answer tells whether the sink took them all. -/
def write (s : Sink) (bytes : List UInt8) : Bool × Sink :=
  let taken := s.room bytes.length
  (taken == bytes.length, { s with received := s.received ++ bytes.take taken })

/-- Writes one load after the other until one fails, and tells how many loads are left then. -/
def writeAll (s : Sink) : List (List UInt8) → Option Nat × Sink
  | [] => (none, s)
  | load :: rest =>
    match s.write load with
    | (true, next) => next.writeAll rest
    | (false, next) => (some rest.length, next)

end Sink

/-- Packs units into loads of a buffer: `load` is what the buffer holds, backwards, and `used` its
length. A unit that does not fit starts the next load. -/
def packFrom (capacity : Nat) (load : List UInt8) (used : Nat) :
    List (List UInt8) → List (List UInt8)
  | [] => [load.reverse]
  | unit :: rest =>
    if used + unit.length ≤ capacity then
      packFrom capacity (unit.reverse ++ load) (used + unit.length) rest
    else load.reverse :: packFrom capacity unit.reverse unit.length rest

def pack (capacity : Nat) (units : List (List UInt8)) : List (List UInt8) :=
  packFrom capacity [] 0 units

theorem flatten_packFrom (capacity : Nat) (load : List UInt8) (used : Nat)
    (units : List (List UInt8)) :
    (packFrom capacity load used units).flatten = load.reverse ++ units.flatten := by
  induction units generalizing load used with
  | nil => simp [packFrom]
  | cons unit rest ih =>
    rw [packFrom]
    split
    · simp [ih]
    · simp [ih]

/-- Packing changes no byte. -/
theorem flatten_pack (capacity : Nat) (units : List (List UInt8)) :
    (pack capacity units).flatten = units.flatten := by simp [pack, flatten_packFrom]

end TransferLifecycle
