set_option autoImplicit false

/- An instant counts seconds from the start of 1970 in UTC. The nanoseconds reach past one second
inside a leap second, which is counted with the second before it. -/
namespace TransferLifecycle

structure Instant where
  seconds : Int
  nanoseconds : Nat
  deriving DecidableEq, Repr

def Instant.ofSeconds (seconds : Int) : Instant := ⟨seconds, 0⟩

end TransferLifecycle
