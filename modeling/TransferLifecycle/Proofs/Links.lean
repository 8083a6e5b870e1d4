import TransferLifecycle.Proofs.Verdict

set_option autoImplicit false

/- The committed transitions of a process as the links of a chain: each link starts from the process
that the one before it left, and a finished process ends its chain. -/
namespace TransferLifecycle

namespace Command

variable (c : Command) (p : TransferProcess) (now : Instant)

@[simp] theorem moved_id : (c.moved p now).id = p.id := rfl

@[simp] theorem moved_state : (c.moved p now).state = c.kind.target := rfl

@[simp] theorem moved_detail : (c.moved p now).errorDetail = c.action.detail p.errorDetail := rfl

theorem moved_count :
    (c.moved p now).stateCount.toNat = min (p.stateCount.toNat + 1) 0xFFFFFFFF :=
  TransferProcess.nextCount_toNat p.stateCount

end Command

/-- No command brings a process back to the first state, so every state entered has a hook. -/
theorem CommandKind.hooks_of_target (kind : CommandKind) :
    ∃ hook, hook ≠ .changed ∧ Hook.ofState kind.target = [.changed, hook] := by
  cases kind <;> exact ⟨_, by decide, rfl⟩

/-- A transition that was committed: the command, and the process before it and after it. -/
structure Link where
  command : Command
  before : TransferProcess
  after : TransferProcess
  deriving DecidableEq, Repr

namespace Link

/-- What a listener is told of a transition. -/
def callbacks (l : Link) : List Callback :=
  (Hook.ofState l.after.state).map (⟨·, l.after, l.before.state⟩)

/-- A transition of the process `x` that a command makes: `asked` are the commands there were, and
`shown` the times there were. -/
structure Legal (asked : Command → Prop) (shown : Instant → Prop) (x : ProcessId) (l : Link) :
    Prop where
  own : l.command.processId = x
  asked : asked l.command
  valid : l.command.invalid? = none
  id : l.before.id = x
  source : l.before.state ∈ l.command.kind.sources
  stamped : ∃ now, shown now ∧ l.after = l.command.moved l.before now

namespace Legal

variable {asked : Command → Prop} {shown shown' : Instant → Prop} {x : ProcessId} {l : Link}

theorem mono (legal : l.Legal asked shown x) (more : ∀ now, shown now → shown' now) :
    l.Legal asked shown' x := by
  obtain ⟨now, known, moved⟩ := legal.stamped
  exact ⟨legal.own, legal.asked, legal.valid, legal.id, legal.source, now, more now known, moved⟩

theorem target (legal : l.Legal asked shown x) : l.after.state = l.command.kind.target := by
  obtain ⟨now, -, moved⟩ := legal.stamped
  rw [moved, Command.moved_state]

theorem moves (legal : l.Legal asked shown x) : l.after.state ≠ l.before.state := by
  rw [legal.target]
  exact (CommandKind.ne_target_of_mem_sources legal.source).symm

theorem count (legal : l.Legal asked shown x) :
    l.after.stateCount.toNat = min (l.before.stateCount.toNat + 1) 0xFFFFFFFF := by
  obtain ⟨now, -, moved⟩ := legal.stamped
  rw [moved, Command.moved_count]

theorem detail (legal : l.Legal asked shown x) :
    l.after.errorDetail = l.command.action.detail l.before.errorDetail := by
  obtain ⟨now, -, moved⟩ := legal.stamped
  rw [moved, Command.moved_detail]

theorem unfinished (legal : l.Legal asked shown x) : l.before.state.isTerminal = false :=
  CommandKind.isTerminal_of_mem_sources legal.source

/-- A transition is told in two callbacks: that there was a change, and which state was entered. -/
theorem callbacks_eq (legal : l.Legal asked shown x) :
    ∃ hook, hook ≠ .changed ∧ Hook.ofState l.after.state = [.changed, hook] ∧ l.callbacks =
      [⟨.changed, l.after, l.before.state⟩, ⟨hook, l.after, l.before.state⟩] := by
  obtain ⟨hook, other, hooks⟩ := l.command.kind.hooks_of_target
  rw [← legal.target] at hooks
  refine ⟨hook, other, hooks, ?_⟩
  rw [callbacks, hooks]
  rfl

end Legal

/-- The links lead from one row of a store to another, with no gap between them. -/
def Chain : Option TransferProcess → List Link → Option TransferProcess → Prop
  | row, [], last => last = row
  | row, l :: rest, last => row = some l.before ∧ Chain (some l.after) rest last

variable {row mid last : Option TransferProcess} {links : List Link}

theorem Chain.append {later : List Link} (first : Chain row links mid)
    (second : Chain mid later last) : Chain row (links ++ later) last := by
  induction links generalizing row with
  | nil =>
    obtain rfl : mid = row := first
    exact second
  | cons l rest ih => exact ⟨first.1, ih first.2⟩

theorem Chain.split {earlier later : List Link} (chain : Chain row (earlier ++ later) last) :
    ∃ mid, Chain row earlier mid ∧ Chain mid later last := by
  induction earlier generalizing row with
  | nil => exact ⟨row, rfl, chain⟩
  | cons l rest ih =>
    obtain ⟨mid, first, second⟩ := ih chain.2
    exact ⟨mid, ⟨chain.1, first⟩, second⟩

/-- A process that is not there does not change. -/
theorem Chain.of_none (chain : Chain none links last) : links = [] ∧ last = none := by
  cases links with
  | nil => exact ⟨rfl, chain⟩
  | cons l rest => cases chain.1

/-- A process that is there stays there. -/
theorem Chain.of_some {p : TransferProcess} (chain : Chain (some p) links last) :
    ∃ q, last = some q := by
  induction links generalizing p with
  | nil => exact ⟨p, chain⟩
  | cons l rest ih => exact ih chain.2

/-- A finished process does not change. -/
theorem Chain.of_terminal {asked : Command → Prop} {shown : Instant → Prop} {x : ProcessId}
    {p : TransferProcess} (chain : Chain (some p) links last)
    (legal : ∀ l ∈ links, l.Legal asked shown x) (finished : p.state.isTerminal = true) :
    links = [] ∧ last = some p := by
  cases links with
  | nil => exact ⟨rfl, chain⟩
  | cons l rest =>
    have moving := (legal l List.mem_cons_self).unfinished
    rw [← Option.some.inj chain.1, finished] at moving
    cases moving

/-- Behind a link that finishes the process there is no other. -/
theorem Chain.of_finished {asked : Command → Prop} {shown : Instant → Prop} {x : ProcessId}
    {earlier later : List Link} {l : Link} (chain : Chain row (earlier ++ l :: later) last)
    (legal : ∀ k ∈ earlier ++ l :: later, k.Legal asked shown x)
    (finished : l.after.state.isTerminal = true) : later = [] ∧ last = some l.after := by
  obtain ⟨mid, -, rest⟩ := chain.split
  refine rest.2.of_terminal (fun k member => legal k ?_) finished
  exact List.mem_append_right _ (List.mem_cons_of_mem _ member)

end Link

end TransferLifecycle
