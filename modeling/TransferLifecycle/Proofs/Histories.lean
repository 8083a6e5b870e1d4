import TransferLifecycle.Proofs.Reports

set_option autoImplicit false

/- The announcements of a run tell each process's history: to every listener the same one, without a
gap, from the row that was stored at first to the row that is stored in the end. -/
namespace TransferLifecycle

open Scenario (Play)

/-- Planned faults strike before anything is done. -/
theorem Fault.atomic (faults : List Fault) (roster : Roster) (calls : List Call) :
    (Store.mk roster calls (fate faults)).Atomic := by
  intro calls e lost
  cases calls with
  | nil => cases lost
  | cons call earlier =>
    simp only [fate] at lost
    split at lost <;> cases lost

namespace Callback

/-- Each change is told right before the state that was entered, with nothing in between. -/
inductive Paired : List Callback → Prop
  | nil : Paired []
  | cons {p : TransferProcess} {previous : State} {hook : Hook} {rest : List Callback}
      (hooks : Hook.ofState p.state = [.changed, hook]) (later : Paired rest) :
      Paired (⟨.changed, p, previous⟩ :: ⟨hook, p, previous⟩ :: rest)

theorem Paired.append {earlier later : List Callback} (first : Paired earlier)
    (second : Paired later) : Paired (earlier ++ later) := by
  induction first with
  | nil => exact second
  | cons hooks _ ih => exact .cons hooks ih

theorem paired_callbacks {p : TransferProcess} (previous : State)
    (entered : ∃ hook, Hook.ofState p.state = [.changed, hook]) :
    Paired ((Hook.ofState p.state).map (⟨·, p, previous⟩)) := by
  obtain ⟨hook, hooks⟩ := entered
  rw [hooks]
  exact .cons hooks .nil

end Callback

namespace Session

/-- Everything that the listener at a place was ever told, the oldest first. -/
def heardAt (s : Session) (place : Nat) : List Callback :=
  (s.deliveries.reverse.filter (·.listener == place)).map (·.callback)

/-- What the listener at a place heard between two sessions comes in pairs. -/
def HearsPairs (place : Nat) (s after : Session) : Prop :=
  ∃ heard, Callback.Paired heard ∧ after.heardAt place = s.heardAt place ++ heard

theorem HearsPairs.of_same {place : Nat} {s after : Session}
    (same : after.deliveries = s.deliveries) : s.HearsPairs place after :=
  ⟨[], .nil, by rw [heardAt, same, heardAt, List.append_nil]⟩

/-- Deliveries to others leave what a listener hears as it is. -/
theorem keeping_hearsPairs (place : Nat) : Keeping (· ≠ place) (HearsPairs place) where
  refl _ := .of_same rfl
  trans := by
    rintro s mid after ⟨first, paired, told⟩ ⟨second, paired', told'⟩
    exact ⟨first ++ second, paired.append paired', by rw [told', told, List.append_assoc]⟩
  deliver s d other := by
    refine ⟨[], .nil, ?_⟩
    simp [heardAt, deliver, List.filter_append, other]

variable {submit : Session → Command → Attempt × Session} {place : Nat}

theorem call_hearsPairs {l : Listener} (calm : l.Calm) {p : TransferProcess} (previous : State)
    (entered : ∃ hook, Hook.ofState p.state = [.changed, hook]) (s : Session) :
    s.HearsPairs place
      (s.call submit place l ((Hook.ofState p.state).map (⟨·, p, previous⟩))).2 := by
  obtain ⟨heard, last, -, full⟩ := call_of_quiet submit calm.quiet place s
    ((Hook.ofState p.state).map (⟨·, p, previous⟩))
  have all := full (call_of_calm submit calm place s _)
  have own : ∀ cbs : List Callback,
      (cbs.map (Delivery.mk place)).filter (·.listener == place) = cbs.map (Delivery.mk place) :=
    fun cbs => List.filter_eq_self.2 (by simp)
  refine ⟨_, Callback.paired_callbacks previous entered, ?_⟩
  rw [last, all, heardAt, heardAt, List.reverse_append, List.reverse_reverse, List.filter_append,
    own, List.map_append, List.map_map]
  exact congrArg _ (List.map_id _)

theorem announce_hearsPairs (nested : ∀ s c, HearsPairs place s (submit s c).2)
    {p : TransferProcess} (previous : State)
    (entered : ∃ hook, Hook.ofState p.state = [.changed, hook]) {start : Nat}
    {listeners : List Listener}
    (calm : ∀ k l, listeners[k]? = some l → start + k = place → l.Calm) (s : Session) :
    s.HearsPairs place (s.announce submit p previous start listeners).2 := by
  have keeping := keeping_hearsPairs place
  induction listeners generalizing start s with
  | nil => exact keeping.refl s
  | cons l rest ih =>
    have first : s.HearsPairs place
        (s.call submit start l ((Hook.ofState p.state).map (⟨·, p, previous⟩))).2 := by
      by_cases own : start = place
      · subst own
        exact call_hearsPairs (calm 0 l rfl rfl) previous entered s
      · exact call_keeps keeping own (fun s _ _ c _ => nested s c) s _
    rw [announce]
    split
    next reason after eq =>
      rw [eq] at first
      exact first
    next after eq =>
      rw [eq] at first
      refine keeping.trans first (ih (fun k l found same => ?_) after)
      exact calm (k + 1) l found (by omega)

end Session

namespace Dispatcher

variable {d : Dispatcher} {place : Nat}

theorem applyWith_hearsPairs (standard : d.registry = Registry.standard)
    (calm : ∀ l, d.listeners[place]? = some l → l.Calm)
    {submit : Session → Command → Attempt × Session}
    (nested : ∀ s c, Session.HearsPairs place s (submit s c).2) (s : Session) (c : Command) :
    s.HearsPairs place (d.applyWith submit s c).2 := by
  have path := d.applyWith_handled standard submit s c
  generalize (d.applyWith submit s c).1 = answer at path
  generalize (d.applyWith submit s c).2 = after at path ⊢
  have acted : ∀ old, s.HearsPairs place (s.acted c old) := fun _ => .of_same (s.deliveries_acted c)
  have told : ∀ {old stopped after}, (s.acted c old).announce submit (c.moved old s.clock.now)
      old.state 0 d.listeners = (stopped, after) → s.HearsPairs place after := by
    intro old stopped after eq
    obtain ⟨hook, -, hooks⟩ := c.kind.hooks_of_target
    have announced := Session.announce_hearsPairs nested (p := c.moved old s.clock.now) old.state
      ⟨hook, hooks⟩ (fun k l found same => calm l (by rwa [← same, Nat.zero_add])) (s.acted c old)
    rw [eq] at announced
    exact (Session.keeping_hearsPairs place).trans (acted old) announced
  cases path with
  | invalid _ => exact .of_same rfl
  | failed still => exact .of_same still.deliveries
  | refused _ still => exact .of_same still.deliveries
  | kept _ _ still => exact .of_same still.deliveries
  | lost _ _ _ _ => exact acted _
  | announced _ _ _ _ _ eq => exact told eq
  | aborted _ _ _ _ _ eq => exact told eq

/-- A listener that only listens hears of each change in two callbacks, one right after the other,
whatever the other listeners do. -/
theorem apply_hearsPairs (standard : d.registry = Registry.standard)
    (calm : ∀ l, d.listeners[place]? = some l → l.Calm) (s : Session) (c : Command) :
    s.HearsPairs place (d.apply s c).2 := by
  have within := d.applyWithin_induct
    (P := fun submit => ∀ s c, Session.HearsPairs place s (submit s c).2)
    (fun _ _ => .of_same rfl) (fun _ nested => applyWith_hearsPairs standard calm nested)
  exact within _ s c

theorem applyAll_hearsPairs (standard : d.registry = Registry.standard)
    (calm : ∀ l, d.listeners[place]? = some l → l.Calm) (s : Session) (commands : List Command) :
    s.HearsPairs place (Play.applyAll d s commands).2 := by
  induction commands generalizing s with
  | nil => exact .of_same rfl
  | cons c rest ih =>
    have first := apply_hearsPairs standard calm s c
    exact (Session.keeping_hearsPairs place).trans first (ih (d.apply s c).2)

theorem applyAll_reports (asked : Command → Prop) (standard : d.registry = Registry.standard)
    (unfailing : ∀ l ∈ d.listeners, l.Unfailing) (listening : ∀ c, d.Submits c → asked c)
    {s : Session} (atomic : s.store.Atomic) {commands : List Command}
    (known : ∀ c ∈ commands, asked c) (proceeds : d.neverWaitsAll s commands = true) :
    s.Reports d.listeners.length asked [] [] (Play.applyAll d s commands).2 := by
  induction commands generalizing s with
  | nil => exact (Session.Still.refl s).reports
  | cons c rest ih =>
    rw [neverWaitsAll, Bool.and_eq_true] at proceeds
    have first :=
      apply_reports standard unfailing listening atomic (known c List.mem_cons_self) proceeds.1
    exact first.trans (ih (first.world.atomic atomic)
      (fun c member => known c (List.mem_cons_of_mem _ member)) proceeds.2)

theorem applyAll_append (d : Dispatcher) (s : Session) (first second : List Command) :
    (Play.applyAll d s (first ++ second)).2 =
      (Play.applyAll d (Play.applyAll d s first).2 second).2 := by
  induction first generalizing s with
  | nil => rfl
  | cons c rest ih => exact ih (d.apply s c).2

theorem neverWaitsAll_append (d : Dispatcher) (s : Session) (first second : List Command) :
    d.neverWaitsAll s (first ++ second) =
      (d.neverWaitsAll s first && d.neverWaitsAll (Play.applyAll d s first).2 second) := by
  induction first generalizing s with
  | nil => rfl
  | cons c rest ih =>
    rw [List.cons_append, neverWaitsAll, ih, neverWaitsAll, Bool.and_assoc]
    rfl

/-- Once a process is finished, no command changes its row, and nothing is told about it. -/
theorem applyAll_finished (standard : d.registry = Registry.standard)
    (unfailing : ∀ l ∈ d.listeners, l.Unfailing) {s : Session} (atomic : s.store.Atomic)
    {commands : List Command} (proceeds : d.neverWaitsAll s commands = true) {x : ProcessId}
    {p : TransferProcess} (stored : s.store.get? x = some p)
    (finished : p.state.isTerminal = true) :
    (Play.applyAll d s commands).2.store.get? x = some p ∧
      ∀ place < d.listeners.length,
        (Play.applyAll d s commands).2.heard place x = s.heard place x := by
  have reports := applyAll_reports (fun _ => True) standard unfailing
    (fun _ _ => trivial) atomic (fun _ _ => trivial) proceeds
  obtain ⟨links, chain, legal, -, heard⟩ := reports.rows x
  rw [stored] at chain
  obtain ⟨rfl, last⟩ := chain.of_terminal legal finished
  refine ⟨last, fun place within => ?_⟩
  rw [heard place within, Delivery.heardBy_nil, List.append_nil, List.flatMap_nil, List.append_nil]

/-- Whatever commands are applied, in whatever order: the transitions of a process lead from its
first row to its last, every listener is told each of them and nothing else of the process, and a
process that is finished stays as it is. -/
theorem announced_history (standard : d.registry = Registry.standard)
    (unfailing : ∀ l ∈ d.listeners, l.Unfailing) {s : Session} (atomic : s.store.Atomic)
    {commands : List Command} (proceeds : d.neverWaitsAll s commands = true) (x : ProcessId) :
    ∃ links : List Link,
      Link.Chain (s.store.get? x) links ((Play.applyAll d s commands).2.store.get? x) ∧
      (∀ place < d.listeners.length, (Play.applyAll d s commands).2.heard place x =
        s.heard place x ++ links.flatMap Link.callbacks) ∧
      (∀ l ∈ links, (l.command ∈ commands ∨ d.Submits l.command) ∧ l.command.processId = x ∧
        l.before.state ∈ l.command.kind.sources ∧ l.after.state = l.command.kind.target ∧
        l.after.state ≠ l.before.state ∧
        l.after.stateCount.toNat = min (l.before.stateCount.toNat + 1) 0xFFFFFFFF ∧
        ∃ hook, Hook.ofState l.after.state = [.changed, hook] ∧ l.callbacks =
          [⟨.changed, l.after, l.before.state⟩, ⟨hook, l.after, l.before.state⟩]) ∧
      (∀ earlier l later, links = earlier ++ l :: later → l.after.state.isTerminal = true →
        later = [] ∧ (Play.applyAll d s commands).2.store.get? x = some l.after) ∧
      (∀ first second p, commands = first ++ second →
        (Play.applyAll d s first).2.store.get? x = some p → p.state.isTerminal = true →
        (Play.applyAll d s commands).2.store.get? x = some p ∧
          ∀ place < d.listeners.length, (Play.applyAll d s commands).2.heard place x =
            (Play.applyAll d s first).2.heard place x) ∧
      (∀ place l, d.listeners[place]? = some l → l.Quiet →
        s.HearsPairs place (Play.applyAll d s commands).2) := by
  have reports := applyAll_reports (fun c => c ∈ commands ∨ d.Submits c) standard
    unfailing (fun _ => .inr) atomic (fun _ => .inl) proceeds
  obtain ⟨links, chain, legal, -, heard⟩ := reports.rows x
  refine ⟨links, chain, ?_, ?_, ?_, ?_, ?_⟩
  · intro place within
    rw [heard place within, Delivery.heardBy_nil, List.append_nil]
  · intro l member
    have law := legal l member
    obtain ⟨hook, -, hooks, callbacks⟩ := law.callbacks_eq
    exact ⟨law.asked, law.own, law.source, law.target, law.moves, law.count, hook, hooks, callbacks⟩
  · rintro earlier l later rfl finished
    exact chain.of_finished legal finished
  · rintro first second p rfl stored finished
    rw [neverWaitsAll_append, Bool.and_eq_true] at proceeds
    have begun := applyAll_reports (fun _ => True) standard unfailing
      (fun _ _ => trivial) atomic (fun _ _ => trivial) proceeds.1
    rw [applyAll_append]
    exact applyAll_finished standard unfailing (begun.world.atomic atomic) proceeds.2 stored
      finished
  · intro place l found quiet
    refine applyAll_hearsPairs standard (fun k same => ?_) s commands
    obtain rfl := Option.some.inj (found.symm.trans same)
    exact (unfailing l (List.mem_of_getElem? found)).calm quiet

/-- Listeners that only listen never let a command wait, so that they are told every history of the
commands applied, whatever these are. -/
theorem calm_history (standard : d.registry = Registry.standard)
    (calm : ∀ l ∈ d.listeners, l.Calm) {s : Session} (atomic : s.store.Atomic)
    (commands : List Command) (x : ProcessId) :
    ∃ links : List Link,
      Link.Chain (s.store.get? x) links ((Play.applyAll d s commands).2.store.get? x) ∧
      (∀ l ∈ links, l.Legal (· ∈ commands) (s.Shown (Play.applyAll d s commands).2) x) ∧
      ∀ place < d.listeners.length, (Play.applyAll d s commands).2.heard place x =
        s.heard place x ++ links.flatMap Link.callbacks := by
  have unfailing : ∀ l ∈ d.listeners, l.Unfailing := by
    intro l member heard cb reason aborted
    rw [calm l member heard cb] at aborted
    cases aborted
  have nobody : ∀ c, d.Submits c → c ∈ commands := by
    rintro c ⟨l, member, heard, cb, submitted⟩
    exact absurd submitted ((calm l member).quiet heard cb c)
  have proceeds : d.neverWaitsAll s commands = true :=
    neverWaitsAll_of_quiet (fun l member => (calm l member).quiet) s commands
  have reports := applyAll_reports (· ∈ commands) standard unfailing nobody atomic
    (fun _ asked => asked) proceeds
  obtain ⟨links, chain, legal, -, heard⟩ := reports.rows x
  refine ⟨links, chain, legal, fun place within => ?_⟩
  rw [heard place within, Delivery.heardBy_nil, List.append_nil]

/-- The start of the process `a` makes the first listener request `ab`. -/
def chained : Dispatcher := ⟨.standard, [.cascading .started "b" .request, .silent]⟩

/-- Two new processes, and a storage that refuses the first save of `a`. -/
def chainedStart : Session :=
  .start ⟨.ofList [.initial ⟨"a"⟩ (.ofSeconds 1), .initial ⟨"ab"⟩ (.ofSeconds 1)], [],
    Fault.fate [⟨"save", some ⟨"a"⟩, 1, "offline"⟩]⟩ (.fixed (.ofSeconds 7))

def chainedCommands : List Command :=
  [⟨⟨"a"⟩, .request⟩, ⟨⟨"a"⟩, .request⟩, ⟨⟨"a"⟩, .start⟩, ⟨⟨"a"⟩, .complete⟩, ⟨⟨"a"⟩, .fail "late"⟩]

theorem announced_history_chained :
    chainedStart.store.Atomic ∧ chained.neverWaitsAll chainedStart chainedCommands = true ∧
    (Play.applyAll chained chainedStart chainedCommands).2.store.get? ⟨"ab"⟩ =
      some ⟨⟨"ab"⟩, .requested, 1, .ofSeconds 7, none⟩ ∧
    ∃ links : List Link,
      Link.Chain (some (.initial ⟨"a"⟩ (.ofSeconds 1))) links
        (some ⟨⟨"a"⟩, .completed, 3, .ofSeconds 7, none⟩) ∧
      (∀ place < 2, (Play.applyAll chained chainedStart chainedCommands).2.heard place ⟨"a"⟩ =
        links.flatMap Link.callbacks) ∧
      chainedStart.HearsPairs 1 (Play.applyAll chained chainedStart chainedCommands).2 := by
  have atomic : chainedStart.store.Atomic := Fault.atomic _ _ _
  have unfailing : ∀ l ∈ chained.listeners, l.Unfailing := by
    intro l member heard cb reason aborted
    simp only [chained, List.mem_cons, List.not_mem_nil, or_false] at member
    rcases member with rfl | rfl
    · simp only [Listener.cascading] at aborted
      split at aborted <;> cases aborted
    · cases aborted
  have proceeds : chained.neverWaitsAll chainedStart chainedCommands = true := by decide +kernel
  have first : chainedStart.store.get? ⟨"a"⟩ = some (.initial ⟨"a"⟩ (.ofSeconds 1)) := by
    decide +kernel
  have last : (Play.applyAll chained chainedStart chainedCommands).2.store.get? ⟨"a"⟩ =
      some ⟨⟨"a"⟩, .completed, 3, .ofSeconds 7, none⟩ := by decide +kernel
  obtain ⟨links, chain, heard, -, -, -, pairs⟩ :=
    announced_history (d := chained) rfl unfailing atomic proceeds ⟨"a"⟩
  rw [first, last] at chain
  exact ⟨atomic, proceeds, by decide +kernel, links, chain, heard,
    pairs 1 .silent rfl Listener.silent_calm.quiet⟩

end Dispatcher

end TransferLifecycle
