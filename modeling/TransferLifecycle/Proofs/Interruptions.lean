import TransferLifecycle.Proofs.Evolution

set_option autoImplicit false

/- What can interrupt a command. The standard handlers never do; so with them only a listener can,
by an abort of its own, and a command that a listener submits is no exception. -/
namespace TransferLifecycle

/-- What interrupts the command is the abort of a listener. -/
def Dispatcher.AbortedBy (d : Dispatcher) (i : Interruption) : Prop :=
  ∃ reason, i = .abort reason ∧ ∃ l ∈ d.listeners, ∃ heard cb, l.react heard cb = .abort reason

namespace Handler

/-- The standard handler of a kind takes the commands of the kind. -/
theorem standard_total {c : Command} {h : Handler}
    (bound : Registry.standard.resolve c.kind = some h) (p : TransferProcess) (now : Instant) :
    ∃ outcome, h.handle p c now = .ok outcome := by
  rw [Registry.standard_resolve] at bound
  obtain rfl := Option.some.inj bound
  exact ⟨_, standard_handle_of_kind c p now⟩

/-- A decision does not fail for want of a handler. -/
theorem decide_ne_unresolved (h : Handler) (current : TransferProcess) (c : Command) (now : Instant)
    (kind : CommandKind) :
    h.decide current c now ≠ .error (.error (.unresolvedHandler kind)) := by
  unfold decide
  split
  next reason aborted => nofun
  next f refused => nofun
  next next made =>
    split
    next renamed => nofun
    next sameId => split <;> nofun

end Handler

namespace Session

variable {submit : Session → Command → Attempt × Session} {reason : Abort}

/-- The listener aborts with `reason`, or a command that it submits does. -/
def Aborts (submit : Session → Command → Attempt × Session) (l : Listener) (reason : Abort) :
    Prop :=
  (∃ heard cb, l.react heard cb = .abort reason) ∨
    ∃ heard cb c, l.react heard cb = .submit c ∧
      ∃ s, (submit s c).1 = .error (.abort reason)

theorem Aborts.of_quiet {l : Listener} (quiet : l.Quiet) (aborts : Aborts submit l reason) :
    ∃ heard cb, l.react heard cb = .abort reason := by
  rcases aborts with own | ⟨heard, cb, c, submitted, -⟩
  · exact own
  · exact absurd submitted (quiet heard cb c)

/-- Callbacks that are aborted were aborted by the listener that got them. -/
theorem abort_of_call {l : Listener} {place : Nat} {s after : Session} {cbs : List Callback}
    (told : s.call submit place l cbs = (some reason, after)) : Aborts submit l reason := by
  induction cbs generalizing s with
  | nil => cases told
  | cons cb rest ih =>
    rw [call] at told
    split at told
    next => exact ih told
    next stopped reacted =>
      cases told
      exact .inl ⟨_, _, reacted⟩
    next c reacted =>
      split at told
      next stopped mid submitted =>
        cases told
        exact .inr ⟨_, _, c, reacted, _, congrArg Prod.fst submitted⟩
      next => exact ih told

/-- An announcement that is aborted was aborted by one of its listeners. -/
theorem abort_of_announce {listeners : List Listener} {p : TransferProcess} {previous : State}
    {place : Nat} {s after : Session}
    (told : s.announce submit p previous place listeners = (some reason, after)) :
    ∃ l ∈ listeners, Aborts submit l reason := by
  induction listeners generalizing place s with
  | nil => cases told
  | cons l rest ih =>
    rw [announce] at told
    split at told
    next stopped mid called =>
      cases told
      exact ⟨l, List.mem_cons_self, abort_of_call called⟩
    next mid called =>
      obtain ⟨k, member, aborts⟩ := ih told
      exact ⟨k, List.mem_cons_of_mem _ member, aborts⟩

end Session

namespace Dispatcher

variable {d : Dispatcher} {submit : Session → Command → Attempt × Session} {s : Session}
  {c : Command} {i : Interruption}

/-- Where every kind has a handler, none is missed. -/
theorem apply_ne_unresolved (complete : ∀ kind, (d.registry.resolve kind).isSome = true)
    (s : Session) (c : Command) (kind : CommandKind) :
    (d.apply s c).1 ≠ .error (.error (.unresolvedHandler kind)) := by
  obtain ⟨submit, -, eq⟩ := d.apply_eq_applyWith s c
  have path := d.applyWith_applied submit s c
  rw [eq]
  intro unresolved
  rw [unresolved] at path
  generalize (d.applyWith submit s c).2 = after at path
  cases path with
  | unresolved unbound =>
    have bound := complete c.kind
    rw [unbound] at bound
    cases bound
  | interrupted bound valid commits =>
    have path := Session.Committed.of_commit commits
    cases path with
    | interrupted stored decided => exact Handler.decide_ne_unresolved _ _ _ _ _ decided

/-- Under the standard handlers, a command is interrupted by a listener only, if those that the
listeners submit are. -/
theorem applyWith_interrupted (standard : d.registry = Registry.standard)
    (nested : ∀ s c i, (submit s c).1 = .error i → d.AbortedBy i)
    (stopped : (d.applyWith submit s c).1 = .error i) : d.AbortedBy i := by
  have path := d.applyWith_applied submit s c
  rw [stopped] at path
  generalize (d.applyWith submit s c).2 = after at path
  cases path with
  | unresolved unbound =>
    rw [standard, Registry.standard_resolve] at unbound
    cases unbound
  | interrupted bound valid commits =>
    obtain rfl := eq_standard_of_resolve standard bound
    exact (Session.Committed.of_commit commits).not_error.elim
  | aborted bound valid commits told =>
    obtain ⟨l, member, own | ⟨heard, cb, submitted, -, s', answer⟩⟩ :=
      Session.abort_of_announce told
    · exact ⟨_, rfl, l, member, own⟩
    · exact nested s' submitted _ answer

theorem apply_interrupted (standard : d.registry = Registry.standard)
    (stopped : (d.apply s c).1 = .error i) : d.AbortedBy i := by
  have within := d.applyWithin_induct
    (P := fun submit => ∀ s c i, (submit s c).1 = .error i → d.AbortedBy i)
    (fun _ _ _ stopped => by cases stopped)
    (fun _ nested _ _ _ stopped => applyWith_interrupted standard nested stopped)
  exact within _ s c i stopped

end Dispatcher

end TransferLifecycle
