import TransferLifecycle.Proofs.Journals
import TransferLifecycle.Proofs.StandardPaths

set_option autoImplicit false

/- How the rows of a store come about under the standard handlers, where failed calls have done
nothing: by the transitions of the journal only, each of them one granted save, whatever the
listeners submit and wherever they abort. -/
namespace TransferLifecycle

/-- A listener may submit the command. -/
def Dispatcher.Submits (d : Dispatcher) (c : Command) : Prop :=
  ∃ l ∈ d.listeners, ∃ heard cb, l.react heard cb = .submit c

namespace Session

/-- A relation that holds between the sessions before and after a delivery to a listener at one of
the places, and between the first and the last of sessions that it links. -/
structure Keeping (places : Nat → Prop) (R : Session → Session → Prop) : Prop where
  refl : ∀ s, R s s
  trans : ∀ {s mid after}, R s mid → R mid after → R s after
  deliver : ∀ s d, places d.listener → R s (s.deliver d)

section Keeping

variable {places : Nat → Prop} {R : Session → Session → Prop}
  {submit : Session → Command → Attempt × Session}

theorem call_keeps (keeping : Keeping places R) {place : Nat} (reached : places place)
    {l : Listener}
    (nested : ∀ s heard cb c, l.react heard cb = .submit c → R s (submit s c).2) (s : Session)
    (cbs : List Callback) : R s (s.call submit place l cbs).2 := by
  induction cbs generalizing s with
  | nil => exact keeping.refl s
  | cons cb rest ih =>
    have heard := keeping.deliver s ⟨place, cb⟩ reached
    rw [call]
    split
    next => exact keeping.trans heard (ih _)
    next => exact heard
    next c reacted =>
      have answered := keeping.trans heard (nested (s.deliver ⟨place, cb⟩) _ _ c reacted)
      split
      next reason after eq =>
        rw [eq] at answered
        exact answered
      next attempt after _ eq =>
        rw [eq] at answered
        exact keeping.trans answered (ih after)

theorem announce_keeps (keeping : Keeping places R) (reached : ∀ q, places q)
    (process : TransferProcess) (previous : State) (place : Nat) {listeners : List Listener}
    (nested : ∀ l ∈ listeners, ∀ s heard cb c, l.react heard cb = .submit c → R s (submit s c).2)
    (s : Session) : R s (s.announce submit process previous place listeners).2 := by
  induction listeners generalizing place s with
  | nil => exact keeping.refl s
  | cons l rest ih =>
    have first := call_keeps keeping (reached place) (nested l List.mem_cons_self) s
      ((Hook.ofState process.state).map (⟨·, process, previous⟩))
    rw [announce]
    split
    next reason after eq =>
      rw [eq] at first
      exact first
    next after eq =>
      rw [eq] at first
      exact keeping.trans first
        (ih (place + 1) (fun l member => nested l (List.mem_cons_of_mem _ member)) after)

end Keeping

/-- The times that the clock showed between two sessions. -/
def Shown (s after : Session) (now : Instant) : Prop :=
  ∃ k, s.clock.taken ≤ k ∧ k < after.clock.taken ∧ now = s.clock.reading k

theorem Shown.until {s mid after : Session} {now : Instant} (shown : s.Shown mid now)
    (forward : mid.clock.taken ≤ after.clock.taken) : s.Shown after now := by
  obtain ⟨k, low, high, reading⟩ := shown
  exact ⟨k, low, Nat.lt_of_lt_of_le high forward, reading⟩

theorem Shown.since {s mid after : Session} {now : Instant} (shown : mid.Shown after now)
    (world : s.SameWorld mid) (forward : s.clock.taken ≤ mid.clock.taken) : s.Shown after now := by
  obtain ⟨k, low, high, reading⟩ := shown
  exact ⟨k, Nat.le_trans forward low, high, by rw [reading, world.2]⟩

/-- Transitions between two sessions, and further ones until a third. -/
theorem legal_append {asked : Command → Prop} {x : ProcessId} {s mid after : Session}
    {links more : List Link} (legal : ∀ l ∈ links, l.Legal asked (s.Shown mid) x)
    (legal' : ∀ l ∈ more, l.Legal asked (mid.Shown after) x) (world : s.SameWorld mid)
    (forward : s.clock.taken ≤ mid.clock.taken) (further : mid.clock.taken ≤ after.clock.taken) :
    ∀ l ∈ links ++ more, l.Legal asked (s.Shown after) x := by
  intro l member
  rcases List.mem_append.1 member with early | late
  · exact (legal l early).mono fun _ shown => shown.until further
  · exact (legal' l late).mono fun _ shown => shown.since world forward

/-- From `s` to `after` the given transitions were committed, and nothing else was: those of each
process lead from its row before to its row after, and each of them is a granted save. -/
structure Evolves (asked : Command → Prop) (s : Session) (links : List Link) (after : Session) :
    Prop where
  world : s.SameWorld after
  forward : s.clock.taken ≤ after.clock.taken
  legal : ∀ x, ∀ l ∈ Link.about x links, l.Legal asked (s.Shown after) x
  rows : ∀ x, Link.Chain (s.store.get? x) (Link.about x links) (after.store.get? x)
  saves : ∀ x, after.store.saves x = s.store.saves x + (Link.about x links).length

variable {asked : Command → Prop} {s mid after : Session} {c : Command} {old : TransferProcess}
  {links more : List Link}

theorem Still.evolves (still : s.Still after) : s.Evolves asked [] after where
  world := still.world
  forward := still.forward
  legal x l member := by cases member
  rows x := by
    change after.store.roster.get? x = s.store.roster.get? x
    rw [still.rows]
  saves := still.saves

theorem deliver_evolves (s : Session) (d : Delivery) : s.Evolves asked [] (s.deliver d) :=
  ⟨⟨rfl, rfl⟩, Nat.le_refl _, fun _ _ member => (by cases member), fun _ => rfl, fun _ => rfl⟩

theorem Evolves.trans (first : s.Evolves asked links mid) (second : mid.Evolves asked more after) :
    s.Evolves asked (links ++ more) after where
  world := first.world.trans second.world
  forward := Nat.le_trans first.forward second.forward
  legal x := by
    rw [Link.about_append]
    exact legal_append (first.legal x) (second.legal x) first.world first.forward second.forward
  rows x := by
    rw [Link.about_append]
    exact (first.rows x).append (second.rows x)
  saves x := by
    rw [second.saves, first.saves, Link.about_append, List.length_append, Nat.add_assoc]

theorem legal_moved (known : asked c) (valid : c.invalid? = none)
    (stored : s.store.get? c.processId = some old) (source : old.state ∈ c.kind.sources)
    (forward : s.clock.taken < after.clock.taken) :
    Link.Legal asked (s.Shown after) c.processId ⟨c, old, c.moved old s.clock.now⟩ where
  own := rfl
  asked := known
  valid := valid
  id := Roster.id_of_get? stored
  source := source
  stamped := ⟨_, ⟨_, Nat.le_refl _, forward, rfl⟩, rfl⟩

/-- A command that moves a process commits one transition. -/
theorem acted_evolves (known : asked c) (valid : c.invalid? = none)
    (stored : s.store.get? c.processId = some old) (source : old.state ∈ c.kind.sources)
    (fate : (s.read c.processId).store.fateOf (.save c.processId) = .granted) :
    s.Evolves asked [⟨c, old, c.moved old s.clock.now⟩] (s.acted c old) := by
  have forward : s.clock.taken < (s.acted c old).clock.taken := by
    rw [taken_acted]
    exact Nat.lt_succ_self _
  have each : ∀ x,
      (∀ l ∈ Link.about x [⟨c, old, c.moved old s.clock.now⟩],
        l.Legal asked (s.Shown (s.acted c old)) x) ∧
      Link.Chain (s.store.get? x) (Link.about x [⟨c, old, c.moved old s.clock.now⟩])
        ((s.acted c old).store.get? x) ∧
      (s.acted c old).store.saves x =
        s.store.saves x + (Link.about x [⟨c, old, c.moved old s.clock.now⟩]).length := by
    intro x
    rw [s.get?_acted c stored x, s.saves_acted c stored fate x, Link.about_singleton]
    by_cases own : c.processId = x
    · subst own
      rw [if_pos rfl, if_pos rfl, if_pos rfl]
      refine ⟨fun l member => ?_, ⟨stored, rfl⟩, rfl⟩
      rw [List.mem_singleton.1 member]
      exact legal_moved known valid stored source forward
    · rw [if_neg own, if_neg own, if_neg own]
      exact ⟨fun l member => (by cases member), rfl, rfl⟩
  exact ⟨s.sameWorld_acted c, Nat.le_of_lt forward, fun x => (each x).1, fun x => (each x).2.1,
    fun x => (each x).2.2⟩

/-- From one session with a journal beside it to another, just what was committed was entered. -/
def Journaled (asked : Command → Prop) (before after : Session × List Link) : Prop :=
  ∃ more, after.2 = before.2 ++ more ∧
    (before.1.store.Atomic → before.1.Evolves asked more after.1)

theorem Journaled.refl (t : Session × List Link) : Journaled asked t t :=
  ⟨[], (List.append_nil t.2).symm, fun _ => (Still.refl t.1).evolves⟩

theorem Journaled.trans {t u v : Session × List Link} (first : Journaled asked t u)
    (second : Journaled asked u v) : Journaled asked t v := by
  obtain ⟨links, entered, evolves⟩ := first
  obtain ⟨more, entered', evolves'⟩ := second
  refine ⟨links ++ more, by rw [entered', entered, List.append_assoc], fun atomic => ?_⟩
  exact (evolves atomic).trans (evolves' ((evolves atomic).world.atomic atomic))

section Journal

variable {submit : Session → Command → Attempt × Session} {journal : Session → Command → List Link}

theorem call_evolves {l : Listener}
    (nested : ∀ (s : Session) heard cb c, l.react heard cb = .submit c → s.store.Atomic →
      s.Evolves asked (journal s c) (submit s c).2) (place : Nat) (cbs : List Callback)
    (atomic : s.store.Atomic) :
    s.Evolves asked (callJournal submit journal place l s cbs) (s.call submit place l cbs).2 := by
  induction cbs generalizing s with
  | nil => exact (Still.refl s).evolves
  | cons cb rest ih =>
    have heard : s.Evolves asked [] (s.deliver ⟨place, cb⟩) := s.deliver_evolves _
    have still := heard.world.atomic atomic
    rw [call, callJournal]
    cases reacted : l.react s.deliveries cb with
    | none => exact heard.trans (ih still)
    | abort reason => exact heard
    | submit c =>
      have answered := heard.trans (nested _ _ _ c reacted still)
      dsimp only
      generalize submit (s.deliver ⟨place, cb⟩) c = result at answered ⊢
      obtain ⟨⟨fault | reason⟩ | outcome, after⟩ := result
      · exact answered.trans (ih (answered.world.atomic atomic))
      · rw [List.append_nil]
        exact answered
      · exact answered.trans (ih (answered.world.atomic atomic))

theorem announce_evolves {listeners : List Listener}
    (nested : ∀ l ∈ listeners, ∀ (s : Session) heard cb c, l.react heard cb = .submit c →
      s.store.Atomic → s.Evolves asked (journal s c) (submit s c).2)
    (process : TransferProcess) (previous : State) (place : Nat) (atomic : s.store.Atomic) :
    s.Evolves asked (announceJournal submit journal process previous place listeners s)
      (s.announce submit process previous place listeners).2 := by
  induction listeners generalizing place s with
  | nil => exact (Still.refl s).evolves
  | cons l rest ih =>
    have first := call_evolves (nested l List.mem_cons_self) place
      ((Hook.ofState process.state).map (⟨·, process, previous⟩)) atomic
    rw [announce, announceJournal]
    generalize s.call submit place l ((Hook.ofState process.state).map (⟨·, process, previous⟩)) =
      called at first ⊢
    obtain ⟨_ | reason, after⟩ := called
    · exact first.trans (ih (fun l member => nested l (List.mem_cons_of_mem _ member)) (place + 1)
        (first.world.atomic atomic))
    · rw [List.append_nil]
      exact first

end Journal

end Session

namespace Dispatcher

variable {d : Dispatcher} {submit : Session → Command → Attempt × Session}
  {journal : Session → Command → List Link} {asked : Command → Prop}

/-- A command commits just what its journal says. -/
theorem applyWith_evolves (standard : d.registry = Registry.standard)
    (nested : ∀ (s : Session) c, asked c → s.store.Atomic →
      s.Evolves asked (journal s c) (submit s c).2)
    (listening : ∀ c, d.Submits c → asked c) {s : Session} {c : Command} (known : asked c)
    (atomic : s.store.Atomic) :
    s.Evolves asked (d.journalWith submit journal s c) (d.applyWith submit s c).2 := by
  have answered : ∀ l ∈ d.listeners, ∀ (s : Session) heard cb c, l.react heard cb = .submit c →
      s.store.Atomic → s.Evolves asked (journal s c) (submit s c).2 := by
    intro l member s heard cb c reacted
    exact nested s c (listening c ⟨l, member, heard, cb, reacted⟩)
  have guarded := s.still_guard c.processId
  unfold applyWith journalWith
  rw [standard, Registry.standard_resolve]
  cases valid : c.invalid? with
  | some f => exact (Session.Still.refl s).evolves
  | none =>
    dsimp only
    rcases commits : (s.guard c.processId).commit (Handler.standard c.kind) c with ⟨answer, mid⟩
    have ruled := (Session.Committed.of_commit commits).ruled valid
    cases ruled with
    | failed still => exact (guarded.trans still).evolves
    | refused _ still => exact (guarded.trans still).evolves
    | kept _ _ still => exact (guarded.trans still).evolves
    | lost _ _ fate => exact absurd fate ((guarded.world.atomic atomic) _ _)
    | @moved old stored source fate =>
      rw [Session.store_guard] at stored
      have granted : (s.read c.processId).store.fateOf (.save c.processId) = .granted := by
        rw [← fate]
        simp only [Session.read, Session.asked, Session.store_guard]
      have acted : s.Evolves asked [⟨c, old, c.moved old s.clock.now⟩] (s.acted c old) :=
        Session.acted_evolves known valid stored source granted
      have told := Session.announce_evolves answered (c.moved old s.clock.now) old.state 0
        (acted.world.atomic atomic)
      have whole := acted.trans told
      have same : (s.guard c.processId).moving c old = s.acted c old := rfl
      dsimp only
      rw [stored, Session.clock_guard, same]
      generalize (s.acted c old).announce submit (c.moved old s.clock.now) old.state 0 d.listeners =
        announced at whole ⊢
      obtain ⟨_ | reason, after⟩ := announced <;> exact whole

/-- What holds of submitting nothing, and of the commands of a dispatcher where it holds of those
that listeners submit, holds of the dispatcher. -/
theorem applyWithin_induct (d : Dispatcher) {P : (Session → Command → Attempt × Session) → Prop}
    (stop : P fun s c => (.ok (.failure (notFoundFailure c.processId)), s))
    (step : ∀ submit, P submit → P (d.applyWith submit)) (depth : Nat) :
    P (d.applyWithin depth) := by
  induction depth with
  | zero => exact step _ stop
  | succ depth ih => exact step _ ih

theorem journalWithin_evolves (standard : d.registry = Registry.standard)
    (listening : ∀ c, d.Submits c → asked c) (depth : Nat) (s : Session) (c : Command)
    (known : asked c) (atomic : s.store.Atomic) :
    s.Evolves asked (d.journalWithin depth s c) (d.applyWithin depth s c).2 := by
  induction depth generalizing s c with
  | zero =>
    exact applyWith_evolves standard (fun s _ _ _ => (Session.Still.refl s).evolves) listening
      known atomic
  | succ depth ih => exact applyWith_evolves standard ih listening known atomic

/-- Under the standard handlers the rows evolve with every command. -/
theorem apply_evolves (standard : d.registry = Registry.standard)
    (listening : ∀ c, d.Submits c → asked c) {s : Session} {c : Command} (known : asked c)
    (atomic : s.store.Atomic) : s.Evolves asked (d.journal s c) (d.apply s c).2 :=
  journalWithin_evolves standard listening _ s c known atomic

end Dispatcher

/-- A command that was judged waits on at most, and no new one comes. -/
theorem Queue.command_of_mem_settle {rest : Queue} {c : Command} {status : Status}
    {item : QueuedCommand} (member : item ∈ settle rest c status) :
    item ∈ rest ∨ item.command = c := by
  cases status with
  | requeued attempts =>
    rcases List.mem_append.1 member with old | new
    · exact .inl old
    · rw [List.mem_singleton.1 new]
      exact .inr rfl
  | processed p => exact .inl member
  | rejected f => exact .inl member
  | exhausted f => exact .inl member

/-- Draining a queue keeps what every command in it keeps. -/
theorem Queue.drain_keeps {σ : Type} {R : σ → σ → Prop} (refl : ∀ s, R s s)
    (trans : ∀ {s mid after}, R s mid → R mid after → R s after) (policy : RetryPolicy)
    {submit : σ → Command → Attempt × σ} {asked : Command → Prop}
    (kept : ∀ s c, asked c → R s (submit s c).2) (s : σ) {q : Queue}
    (known : ∀ item ∈ q, asked item.command) : R s (q.drain policy submit s).2.2 := by
  fun_induction drain policy submit s q with
  | case1 s => exact refl s
  | case2 s item rest i after attempt =>
    have step := kept s item.command (known item List.mem_cons_self)
    rw [attempt] at step
    exact step
  | case3 s item rest outcome after attempt status result left last drained ih =>
    have step := kept s item.command (known item List.mem_cons_self)
    rw [attempt] at step
    rw [drained] at ih
    refine trans step (ih fun other member => ?_)
    rcases command_of_mem_settle member with old | same
    · exact known other (List.mem_cons_of_mem _ old)
    · rw [same]
      exact known item List.mem_cons_self

end TransferLifecycle
