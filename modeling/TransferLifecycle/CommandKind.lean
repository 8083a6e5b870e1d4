import TransferLifecycle.State

set_option autoImplicit false

/- The kinds of command. A kind has one target state and a set of states it may start from; a
terminal state is a source of none. -/
namespace TransferLifecycle

inductive CommandKind where
  | request
  | start
  | suspend
  | resume
  | complete
  | terminate
  | fail
  deriving DecidableEq, Repr

namespace CommandKind

def all : List CommandKind := [request, start, suspend, resume, complete, terminate, fail]

theorem mem_all (k : CommandKind) : k ∈ all := by cases k <;> decide

def name : CommandKind → String
  | request => "request"
  | start => "start"
  | suspend => "suspend"
  | resume => "resume"
  | complete => "complete"
  | terminate => "terminate"
  | fail => "fail"

/-- The capitalised name, as diagnostics write it. -/
def label : CommandKind → String
  | request => "Request"
  | start => "Start"
  | suspend => "Suspend"
  | resume => "Resume"
  | complete => "Complete"
  | terminate => "Terminate"
  | fail => "Fail"

def ofName? (text : String) : Option CommandKind := all.find? (·.name == text)

theorem ofName?_name (k : CommandKind) : ofName? k.name = some k := by cases k <;> decide

def target : CommandKind → State
  | request => .requested
  | start => .started
  | suspend => .suspended
  | resume => .started
  | complete => .completed
  | terminate => .terminated
  | fail => .error

def sources : CommandKind → List State
  | request => [.initial]
  | start => [.requested]
  | suspend => [.started]
  | resume => [.suspended]
  | complete => [.started]
  | terminate | fail => [.initial, .requested, .started, .suspended]

theorem isTerminal_of_mem_sources {k : CommandKind} {s : State} (h : s ∈ k.sources) :
    s.isTerminal = false := by
  revert h; cases k <;> cases s <;> decide

theorem target_not_mem_sources (k : CommandKind) : k.target ∉ k.sources := by
  cases k <;> decide

theorem ne_target_of_mem_sources {k : CommandKind} {s : State} (h : s ∈ k.sources) :
    s ≠ k.target := by
  rintro rfl
  exact k.target_not_mem_sources h

end CommandKind

end TransferLifecycle
