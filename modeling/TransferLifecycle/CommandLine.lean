import TransferLifecycle.CommandLine.Flag
import TransferLifecycle.LogFilter

set_option autoImplicit false

/- The command line: one input path, and options that take a value each. Arguments are read from
left to right and a value is checked when the next argument has been understood, so that an argument
nobody knows is reported before a bad value in front of it. -/
namespace TransferLifecycle.CommandLine

structure Options where
  input : String
  strategy : StrategyName
  batchSize : Option Nat
  maxConcurrent : Option Nat
  maxAttempts : Nat
  logLevel : String
  deriving DecidableEq, Repr

/-- What was read but not yet checked. -/
inductive Pending where
  | nothing
  | awaiting (flag : Flag)
  | value (flag : Flag) (text : String)
  | input (path : String)
  deriving DecidableEq, Repr

def Pending.settle (p : Pending) (g : Given) : Except Mistake Given :=
  match p with
  | nothing => .ok g
  | awaiting _ => .error .invalidValue
  | value flag text => g.set flag text
  | input path => if path = "" then .error .invalidValue else .ok { g with input := some path }

/-- How an argument reads by itself, as long as no lone double dash came before it. -/
inductive Argument where
  | doubleDash
  | flag (flag : Flag)
  | flagValue (flag : Flag) (text : String)
  | help
  | helpValue
  | unknown
  | word
  deriving DecidableEq, Repr

def Argument.ofLong (body : List Char) : Argument :=
  let name := String.ofList (body.takeWhile (· != '='))
  match Flag.ofName? name, body.dropWhile (· != '=') with
  | some f, [] => flag f
  | some f, _ :: text => flagValue f (String.ofList text)
  | none, [] => if name = "help" then help else unknown
  | none, _ :: _ => if name = "help" then helpValue else unknown

def Argument.ofText (text : String) : Argument :=
  match text.toList with
  | ['-', '-'] => doubleDash
  | '-' :: '-' :: body => ofLong body
  | '-' :: 'h' :: _ => help
  | '-' :: _ :: _ => unknown
  | _ => word

structure Reading where
  given : Given
  pending : Pending
  hasInput : Bool
  onlyInputs : Bool
  deriving DecidableEq, Repr

namespace Reading

def start : Reading := ⟨.nothing, .nothing, false, false⟩

def settle (r : Reading) (pending : Pending) : Except Mistake Reading :=
  (r.pending.settle r.given).map fun given => { r with given, pending }

def addInput (r : Reading) (path : String) : Except Mistake Reading :=
  if r.hasInput then .error .unknownArgument
  else (r.settle (.input path)).map fun next => { next with hasInput := true }

def add (r : Reading) (text : String) : Except Mistake Reading :=
  if r.onlyInputs then r.addInput text
  else
    match Argument.ofText text with
    | .doubleDash => .ok { r with onlyInputs := true }
    | .flag flag => r.settle (.awaiting flag)
    | .flagValue flag value =>
      match r.settle .nothing with
      | .error m => .error m
      | .ok next => (next.given.set flag value).map fun given => { next with given }
    | .help =>
      match r.settle .nothing with
      | .error m => .error m
      | .ok _ => .error .displayHelp
    | .helpValue => .error .tooManyValues
    | .unknown => .error .unknownArgument
    | .word =>
      match r.pending with
      | .awaiting flag => .ok { r with pending := .value flag text }
      | _ => r.addInput text

def addAll (r : Reading) : List String → Except Mistake Reading
  | [] => .ok r
  | text :: rest =>
    match r.add text with
    | .error m => .error m
    | .ok next => next.addAll rest

def finish (r : Reading) : Except Mistake Options :=
  match r.pending.settle r.given with
  | .error m => .error m
  | .ok g =>
    match g.input with
    | none => .error .missingRequiredArgument
    | some input => .ok {
        input
        strategy := g.strategy.getD .async
        batchSize := g.batchSize
        maxConcurrent := g.maxConcurrent
        maxAttempts := g.maxAttempts.getD 3
        logLevel := g.logLevel.getD "warn" }

end Reading

def parse (args : List String) : Except Mistake Options :=
  match Reading.start.addAll args with
  | .error m => .error m
  | .ok r => r.finish

namespace Options

def batchConfig (o : Options) : BatchConfig := .ofOptions o.batchSize o.maxConcurrent

def retryPolicy (o : Options) : RetryPolicy := .ofNat o.maxAttempts

def replayStrategy (o : Options) : Strategy :=
  match o.strategy with
  | .sync => .sync
  | .async => .async o.batchConfig

end Options

/-- How a run ends: the exit code, which a run that is out of memory does not live to give, what was
printed, and the error that was reported. -/
structure Exit where
  code : Option Nat
  output : List UInt8
  error : Option String
  deriving DecidableEq, Repr

def Mistake.exit (m : Mistake) : Exit := ⟨some (if m = .displayHelp then 0 else 2), [], none⟩

/-- The end of a run that was aborted, with what had been printed. -/
def Exit.aborted (output : List UInt8) : Exit := ⟨some 101, output, none⟩

/-- Sets up the logging and replays the log. -/
def run (machine : Machine) (o : Options) (clock : Clock) (source : Source) : Exit :=
  match LogFilter.install o.logLevel with
  | .error _ => .aborted []
  | .ok () =>
    match replay machine o.replayStrategy o.retryPolicy clock o.input source .unlimited with
    | (.ok (), sink) => ⟨some 0, sink.received, none⟩
    | (.error (.error e), sink) => ⟨some 1, sink.received, some e.message⟩
    | (.error (.abort _), sink) => .aborted sink.received
    | (.error (.outOfMemory _), sink) => ⟨none, sink.received, none⟩

end TransferLifecycle.CommandLine
