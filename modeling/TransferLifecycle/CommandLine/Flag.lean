import TransferLifecycle.Replay

set_option autoImplicit false

/- The options of the command line and the values they take. Each may be given once. -/
namespace TransferLifecycle.CommandLine

inductive Mistake where
  | invalidValue
  | unknownArgument
  | tooManyValues
  | valueValidation
  | missingRequiredArgument
  | argumentConflict
  | displayHelp
  deriving DecidableEq, Repr

inductive Flag where
  | strategy
  | batchSize
  | maxConcurrent
  | maxAttempts
  | logLevel
  deriving DecidableEq, Repr

namespace Flag

def all : List Flag := [strategy, batchSize, maxConcurrent, maxAttempts, logLevel]

def name : Flag → String
  | strategy => "strategy"
  | batchSize => "batch-size"
  | maxConcurrent => "max-concurrent"
  | maxAttempts => "max-attempts"
  | logLevel => "log-level"

def ofName? (text : String) : Option Flag := all.find? (·.name == text)

end Flag

inductive StrategyName where
  | sync
  | async
  deriving DecidableEq, Repr

def StrategyName.name : StrategyName → String
  | sync => "sync"
  | async => "async"

def StrategyName.ofName? (text : String) : Option StrategyName :=
  [sync, async].find? (·.name == text)

def digitsValue? (digits : List Char) : Option Nat :=
  if digits ≠ [] ∧ digits.all Char.isDigit then
    some (digits.foldl (fun n c => 10 * n + (c.toNat - 48)) 0)
  else none

/-- A number without sign, or with a plus in front. -/
def unsigned? (text : String) : Option Nat :=
  match text.toList with
  | '+' :: digits => digitsValue? digits
  | digits => digitsValue? digits

/-- A number that may have a sign. -/
def signed? (text : String) : Option Int :=
  match text.toList with
  | '-' :: digits => (digitsValue? digits).map fun n => -(n : Int)
  | _ => (unsigned? text).map Int.ofNat

/-- A number of records or workers fits 64 bits. -/
def size? (text : String) : Option Nat := (unsigned? text).filter (· < UInt64.size)

/-- A number of attempts fits 32 bits; zero may be written with a minus. -/
def attempts? (text : String) : Option Nat :=
  ((signed? text).filter fun n => 0 ≤ n ∧ n ≤ 0xFFFFFFFF).map Int.toNat

/-- What the arguments read so far have given. -/
structure Given where
  input : Option String
  strategy : Option StrategyName
  batchSize : Option Nat
  maxConcurrent : Option Nat
  maxAttempts : Option Nat
  logLevel : Option String
  deriving DecidableEq, Repr

namespace Given

def nothing : Given := ⟨none, none, none, none, none, none⟩

/-- Puts a value where none was given before. -/
def once {α : Type} (old : Option α) (value : Except Mistake α) (put : α → Given) :
    Except Mistake Given :=
  match old with
  | some _ => .error .argumentConflict
  | none => value.map put

def orMistake {α : Type} (mistake : Mistake) : Option α → Except Mistake α
  | some a => .ok a
  | none => .error mistake

def set (g : Given) (flag : Flag) (text : String) : Except Mistake Given :=
  match flag with
  | .strategy =>
    once g.strategy (orMistake .invalidValue (StrategyName.ofName? text))
      fun v => { g with strategy := some v }
  | .batchSize =>
    once g.batchSize (orMistake .valueValidation (size? text))
      fun v => { g with batchSize := some v }
  | .maxConcurrent =>
    once g.maxConcurrent (orMistake .valueValidation (size? text))
      fun v => { g with maxConcurrent := some v }
  | .maxAttempts =>
    once g.maxAttempts (orMistake .valueValidation (attempts? text))
      fun v => { g with maxAttempts := some v }
  | .logLevel => once g.logLevel (.ok text) fun v => { g with logLevel := some v }

end Given

end TransferLifecycle.CommandLine
