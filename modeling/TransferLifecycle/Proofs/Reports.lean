import TransferLifecycle.Proofs.Evolution
import TransferLifecycle.Proofs.Waiting

set_option autoImplicit false

/- What the listeners are told of each process, transition by transition. A command that listeners
submit while they are told of a process adds to what they hear of other processes, and nothing to
what they hear of that one. -/
namespace TransferLifecycle

namespace Delivery

/-- What the listener at a place was told about one process, where the deliveries are listed with
the oldest first. -/
def heardBy (place : Nat) (x : ProcessId) (deliveries : List Delivery) : List Callback :=
  (deliveries.filter fun d => d.listener == place && d.callback.process.id == x).map (·.callback)

variable {place : Nat} {x : ProcessId}

@[simp] theorem heardBy_nil : heardBy place x [] = [] := rfl

@[simp] theorem heardBy_append (earlier later : List Delivery) :
    heardBy place x (earlier ++ later) = heardBy place x earlier ++ heardBy place x later := by
  simp [heardBy]

theorem heardBy_of_others {deliveries : List Delivery}
    (others : ∀ d ∈ deliveries, d.callback.process.id ≠ x) : heardBy place x deliveries = [] := by
  rw [heardBy, List.map_eq_nil_iff, List.filter_eq_nil_iff]
  intro d member about
  rw [Bool.and_eq_true] at about
  exact others d member (beq_iff_eq.1 about.2)

end Delivery

namespace Session

open Delivery (heardBy)

/-- Everything that the listener at a place was ever told about one process, the oldest first. -/
def heard (s : Session) (place : Nat) (x : ProcessId) : List Callback :=
  heardBy place x s.deliveries.reverse

theorem heard_deliver (s : Session) (d : Delivery) (place : Nat) (x : ProcessId) :
    (s.deliver d).heard place x = s.heard place x ++ heardBy place x [d] := by
  rw [heard, deliver, List.reverse_cons, Delivery.heardBy_append, heard]

theorem mem_announcement {p : TransferProcess} {previous : State} {place : Nat}
    {listeners : List Listener} {d : Delivery}
    (member : d ∈ announcement p previous place listeners) :
    place ≤ d.listener ∧ d.callback.process = p := by
  induction listeners generalizing place with
  | nil => cases member
  | cons l rest ih =>
    rcases List.mem_append.1 member with own | later
    · obtain ⟨hook, -, rfl⟩ := List.mem_map.1 own
      exact ⟨Nat.le_refl _, rfl⟩
    · obtain ⟨behind, same⟩ := ih later
      exact ⟨Nat.le_of_succ_le behind, same⟩

/-- Each listener is told all callbacks of a change, and the others in the same way. -/
theorem heardBy_announcement (p : TransferProcess) (previous : State) {start place : Nat}
    {listeners : List Listener} (begun : start ≤ place)
    (within : place < start + listeners.length) :
    heardBy place p.id (announcement p previous start listeners) =
      (Hook.ofState p.state).map (⟨·, p, previous⟩) := by
  induction listeners generalizing start with
  | nil =>
    rw [List.length_nil] at within
    omega
  | cons l rest ih =>
    rw [List.length_cons] at within
    rw [announcement, Delivery.heardBy_append]
    by_cases own : start = place
    · subst own
      have behind : heardBy start p.id (announcement p previous (start + 1) rest) = [] := by
        rw [heardBy, List.map_eq_nil_iff, List.filter_eq_nil_iff]
        intro d member
        have later := (mem_announcement member).1
        have other : d.listener ≠ start := by omega
        simp [other]
      rw [behind, List.append_nil, heardBy, List.filter_eq_self.2 (by simp), List.map_map]
      rfl
    · have ahead : heardBy place p.id
          ((Hook.ofState p.state).map fun hook => ⟨start, ⟨hook, p, previous⟩⟩) = [] := by
        simp [heardBy, own]
      rw [ahead, List.nil_append]
      exact ih (by omega) (by omega)

/-- From `s` to `after`, with the guards `held`, a list of `places` listeners was told `told` about
processes under guard; about any other process each of them was told the transitions that its row
went through. -/
structure Reports (places : Nat) (asked : Command → Prop) (held : List ProcessId)
    (told : List Delivery) (s after : Session) : Prop where
  world : s.SameWorld after
  forward : s.clock.taken ≤ after.clock.taken
  guarded : ∀ d ∈ told, d.callback.process.id ∈ held
  rows : ∀ x, ∃ links : List Link, Link.Chain (s.store.get? x) links (after.store.get? x) ∧
    (∀ l ∈ links, l.Legal asked (s.Shown after) x) ∧ (x ∈ held → links = []) ∧
    ∀ place < places, after.heard place x =
      s.heard place x ++ heardBy place x told ++ links.flatMap Link.callbacks

variable {places : Nat} {asked : Command → Prop} {held : List ProcessId} {told : List Delivery}
  {s mid after : Session}

theorem Still.reports (still : s.Still after) : s.Reports places asked held [] after where
  world := still.world
  forward := still.forward
  guarded d member := by cases member
  rows x := by
    refine ⟨[], ?_, by simp, fun _ => rfl, fun place _ => ?_⟩
    · rw [Link.Chain, Store.get?, still.rows, Store.get?]
    · rw [heard, still.deliveries, heard, Delivery.heardBy_nil, List.append_nil, List.flatMap_nil,
        List.append_nil]

theorem reports_deliver (s : Session) {d : Delivery} (guarded : d.callback.process.id ∈ held) :
    s.Reports places asked held [d] (s.deliver d) where
  world := ⟨rfl, rfl⟩
  forward := Nat.le_refl _
  guarded other member := by rwa [List.mem_singleton.1 member]
  rows x := by
    refine ⟨[], rfl, by simp, fun _ => rfl, fun place _ => ?_⟩
    rw [heard_deliver, List.flatMap_nil, List.append_nil]

theorem Reports.trans {later : List Delivery} (first : s.Reports places asked held told mid)
    (second : mid.Reports places asked held later after) :
    s.Reports places asked held (told ++ later) after := by
  refine ⟨first.world.trans second.world, Nat.le_trans first.forward second.forward, ?_,
    fun x => ?_⟩
  · intro d member
    rcases List.mem_append.1 member with early | late
    · exact first.guarded d early
    · exact second.guarded d late
  · obtain ⟨links, chain, legal, still, heard⟩ := first.rows x
    obtain ⟨more, chain', legal', still', heard'⟩ := second.rows x
    refine ⟨links ++ more, chain.append chain', ?_, ?_, fun place within => ?_⟩
    · exact legal_append legal legal' first.world first.forward second.forward
    · intro under
      rw [still under, still' under, List.append_nil]
    · rw [heard' place within, heard place within, Delivery.heardBy_append, List.flatMap_append]
      -- About one process there are deliveries to come or transitions so far, but never both.
      by_cases under : x ∈ held
      · rw [still under]
        simp only [List.flatMap_nil, List.append_nil, List.nil_append, List.append_assoc]
      · have none : heardBy place x later = [] :=
          Delivery.heardBy_of_others fun d member same => under (same ▸ second.guarded d member)
        simp only [none, List.append_nil, List.append_assoc]

/-- Commands that are submitted do not abort, and report as they should. -/
def Reporting (places : Nat) (asked : Command → Prop) (held : List ProcessId)
    (submit : Session → Command → Attempt × Session) (free : Session → Command → Bool) : Prop :=
  ∀ s c, s.store.Atomic → asked c → free s c = true →
    (∀ reason, (submit s c).1 ≠ .error (.abort reason)) ∧
      s.Reports places asked held [] (submit s c).2

section Announcing

variable {submit : Session → Command → Attempt × Session} {free : Session → Command → Bool}

theorem call_reports (nested : Reporting places asked held submit free) (place : Nat) {l : Listener}
    (unfailing : l.Unfailing) (listening : ∀ heard cb c, l.react heard cb = .submit c → asked c)
    (atomic : s.store.Atomic) {cbs : List Callback} (guarded : ∀ cb ∈ cbs, cb.process.id ∈ held)
    (proceeds : s.callFree submit free place l cbs = true) :
    (s.call submit place l cbs).1 = none ∧
      s.Reports places asked held (cbs.map (⟨place, ·⟩)) (s.call submit place l cbs).2 := by
  induction cbs generalizing s with
  | nil => exact ⟨rfl, (Still.refl s).reports⟩
  | cons cb rest ih =>
    have first : s.Reports places asked held [⟨place, cb⟩] (s.deliver ⟨place, cb⟩) :=
      s.reports_deliver (guarded cb List.mem_cons_self)
    have later : ∀ cb ∈ rest, cb.process.id ∈ held :=
      fun cb member => guarded cb (List.mem_cons_of_mem _ member)
    rw [callFree] at proceeds
    rw [call]
    cases reacted : l.react s.deliveries cb with
    | none =>
      simp only [reacted] at proceeds ⊢
      obtain ⟨ended, more⟩ := ih (s := s.deliver ⟨place, cb⟩) atomic later proceeds
      exact ⟨ended, first.trans more⟩
    | abort reason => exact absurd reacted (unfailing _ _ reason)
    | submit c =>
      simp only [reacted, Bool.and_eq_true] at proceeds ⊢
      obtain ⟨answers, inner⟩ :=
        nested (s.deliver ⟨place, cb⟩) c atomic (listening _ _ c reacted) proceeds.1
      have both := first.trans inner
      have goes := proceeds.2
      split
      next reason after eq =>
        rw [eq] at answers
        exact absurd rfl (answers reason)
      next answer after other eq =>
        rw [eq] at both
        split at goes
        next reason stopped aborted =>
          rw [aborted] at answers
          exact absurd rfl (answers reason)
        next answer' after' _ same =>
          rw [eq] at same
          cases same
          obtain ⟨ended, more⟩ := ih (both.world.atomic atomic) later goes
          exact ⟨ended, both.trans more⟩

theorem announce_reports (nested : Reporting places asked held submit free) {p : TransferProcess}
    (previous : State) (guarded : p.id ∈ held) (place : Nat) {listeners : List Listener}
    (unfailing : ∀ l ∈ listeners, l.Unfailing)
    (listening : ∀ l ∈ listeners, ∀ heard cb c, l.react heard cb = .submit c → asked c)
    (atomic : s.store.Atomic)
    (proceeds : s.announceFree submit free p previous place listeners = true) :
    (s.announce submit p previous place listeners).1 = none ∧
      s.Reports places asked held (announcement p previous place listeners)
        (s.announce submit p previous place listeners).2 := by
  induction listeners generalizing place s with
  | nil => exact ⟨rfl, (Still.refl s).reports⟩
  | cons l rest ih =>
    rw [announceFree, Bool.and_eq_true] at proceeds
    obtain ⟨called, goes⟩ := proceeds
    have under : ∀ cb ∈ (Hook.ofState p.state).map (Callback.mk · p previous),
        cb.process.id ∈ held := by
      intro cb member
      obtain ⟨hook, -, rfl⟩ := List.mem_map.1 member
      exact guarded
    obtain ⟨ended, first⟩ := call_reports nested place (unfailing l List.mem_cons_self)
      (listening l List.mem_cons_self) atomic under called
    rw [announce]
    rcases eq : s.call submit place l ((Hook.ofState p.state).map (⟨·, p, previous⟩))
      with ⟨stopped, mid⟩
    rw [eq] at ended first goes
    cases ended
    obtain ⟨told, more⟩ := ih (place + 1)
      (fun l member => unfailing l (List.mem_cons_of_mem _ member))
      (fun l member => listening l (List.mem_cons_of_mem _ member))
      (first.world.atomic atomic) goes
    refine ⟨told, ?_⟩
    have both := first.trans more
    rw [List.map_map] at both
    exact both

end Announcing

/-- A transition that was announced under the guard of its process is reported. -/
theorem Reports.of_acted {c : Command} {old : TransferProcess} (known : asked c)
    (valid : c.invalid? = none) (stored : s.store.get? c.processId = some old)
    (source : old.state ∈ c.kind.sources) (apart : c.processId ∉ held) {listeners : List Listener}
    (told : (s.acted c old).Reports listeners.length asked (c.processId :: held)
      (announcement (c.moved old s.clock.now) old.state 0 listeners) after) :
    s.Reports listeners.length asked held [] after := by
  have own := id_moved stored
  have world : s.SameWorld (s.acted c old) := s.sameWorld_acted c
  have begun : s.clock.taken < (s.acted c old).clock.taken := by
    rw [taken_acted]
    exact Nat.lt_succ_self _
  have forward : s.clock.taken < after.clock.taken := Nat.lt_of_lt_of_le begun told.forward
  have before : ∀ place x, (s.acted c old).heard place x = s.heard place x := by
    intro place x
    rw [heard, deliveries_acted, heard]
  refine ⟨world.trans told.world, Nat.le_of_lt forward, by simp, fun x => ?_⟩
  obtain ⟨links, chain, legal, still, heard⟩ := told.rows x
  rw [s.get?_acted c stored] at chain
  by_cases same : c.processId = x
  · subst same
    obtain rfl := still List.mem_cons_self
    rw [if_pos rfl] at chain
    refine ⟨[⟨c, old, c.moved old s.clock.now⟩], ⟨stored, chain⟩, ?_, ?_, fun place within => ?_⟩
    · intro l member
      rw [List.mem_singleton.1 member]
      exact legal_moved known valid stored source forward
    · intro under
      exact absurd under apart
    · have announced := heardBy_announcement (c.moved old s.clock.now) old.state
        (Nat.zero_le place) (by rwa [Nat.zero_add])
      rw [own] at announced
      rw [heard place within, before, announced]
      simp only [Link.callbacks, Delivery.heardBy_nil, List.append_nil, List.flatMap_nil,
        List.flatMap_cons]
  · rw [if_neg same] at chain
    refine ⟨links, chain, ?_, fun under => still (List.mem_cons_of_mem _ under), ?_⟩
    · intro l member
      exact (legal l member).mono fun _ shown => shown.since world (Nat.le_of_lt begun)
    · intro place within
      have others : heardBy place x
          (announcement (c.moved old s.clock.now) old.state 0 listeners) = [] := by
        refine Delivery.heardBy_of_others fun d member about => same ?_
        rw [(mem_announcement member).2, own] at about
        exact about
      rw [heard place within, before, others, Delivery.heardBy_nil]

end Session

namespace Dispatcher

variable {d : Dispatcher} {submit : Session → Command → Attempt × Session}
  {free : List ProcessId → Session → Command → Bool} {asked : Command → Prop}
  {held : List ProcessId}

/-- A valid command that does not wait has its guard to itself. -/
theorem apart_of_freeWith {s : Session} {c : Command} (standard : d.registry = Registry.standard)
    (valid : c.invalid? = none) (proceeds : d.freeWith submit free held s c = true) :
    c.processId ∉ held := by
  simp only [freeWith, standard, Registry.standard_resolve, valid, Bool.and_eq_true] at proceeds
  simpa using proceeds.1

theorem announceFree_of_freeWith {s committed : Session} {c : Command} {p : TransferProcess}
    {previous : State} (standard : d.registry = Registry.standard) (valid : c.invalid? = none)
    (commits : (s.guard c.processId).commit (Handler.standard c.kind) c =
      (.ok (.changed p previous), committed))
    (proceeds : d.freeWith submit free held s c = true) :
    committed.announceFree submit (free (c.processId :: held)) p previous 0 d.listeners = true := by
  simp only [freeWith, standard, Registry.standard_resolve, valid, commits, Bool.and_eq_true]
    at proceeds
  exact proceeds.2

theorem applyWith_reports (standard : d.registry = Registry.standard)
    (unfailing : ∀ l ∈ d.listeners, l.Unfailing) (listening : ∀ c, d.Submits c → asked c)
    (nested : ∀ x,
      Session.Reporting d.listeners.length asked (x :: held) submit (free (x :: held))) :
    Session.Reporting d.listeners.length asked held (d.applyWith submit)
      (d.freeWith submit free held) := by
  intro s c atomic known proceeds
  have path := d.applyWith_handled standard submit s c
  generalize (d.applyWith submit s c).1 = answer at path ⊢
  generalize (d.applyWith submit s c).2 = after at path ⊢
  -- The announcement of a move is told under its own guard and those that were held before.
  have announced : ∀ {old : TransferProcess}, c.invalid? = none →
      s.store.get? c.processId = some old →
      (s.guard c.processId).commit (Handler.standard c.kind) c =
        (.ok (.changed (c.moved old s.clock.now) old.state), s.acted c old) →
      ((s.acted c old).announce submit (c.moved old s.clock.now) old.state 0 d.listeners).1 = none ∧
      (s.acted c old).Reports d.listeners.length asked (c.processId :: held)
        (Session.announcement (c.moved old s.clock.now) old.state 0 d.listeners)
        ((s.acted c old).announce submit (c.moved old s.clock.now) old.state 0 d.listeners).2 := by
    intro old valid stored commits
    have own := Session.id_moved stored
    exact Session.announce_reports (nested c.processId) old.state
      (own ▸ List.mem_cons_self) 0 unfailing
      (fun l member heard cb c reacted => listening c ⟨l, member, heard, cb, reacted⟩)
      ((s.sameWorld_acted c).atomic atomic)
      (announceFree_of_freeWith standard valid commits proceeds)
  cases path with
  | invalid _ => exact ⟨fun _ => by simp, (Session.Still.refl s).reports⟩
  | failed still => exact ⟨fun _ => by simp, still.reports⟩
  | refused _ still => exact ⟨fun _ => by simp, still.reports⟩
  | kept _ _ still => exact ⟨fun _ => by simp, still.reports⟩
  | lost _ _ _ fate => exact absurd fate (atomic _ _)
  | announced valid stored source _ commits told =>
    have more := (announced valid stored commits).2
    rw [told] at more
    refine ⟨fun _ => by simp, ?_⟩
    exact .of_acted known valid stored source (apart_of_freeWith standard valid proceeds) more
  | aborted valid stored _ _ commits told =>
    have ended := (announced valid stored commits).1
    rw [told] at ended
    cases ended

theorem applyWithin_reports (standard : d.registry = Registry.standard)
    (unfailing : ∀ l ∈ d.listeners, l.Unfailing) (listening : ∀ c, d.Submits c → asked c)
    (depth : Nat) (held : List ProcessId) :
    Session.Reporting d.listeners.length asked held (d.applyWithin depth)
      (d.freeWithin depth held) := by
  induction depth generalizing held with
  | zero =>
    refine applyWith_reports standard unfailing listening fun x s c _ _ _ => ?_
    exact ⟨fun _ => by simp, (Session.Still.refl s).reports⟩
  | succ depth ih => exact applyWith_reports standard unfailing listening fun x => ih (x :: held)

/-- A command that never waits reports every transition that it brings about. -/
theorem apply_reports (standard : d.registry = Registry.standard)
    (unfailing : ∀ l ∈ d.listeners, l.Unfailing) (listening : ∀ c, d.Submits c → asked c)
    {s : Session} {c : Command} (atomic : s.store.Atomic) (known : asked c)
    (proceeds : d.neverWaits s c = true) :
    s.Reports d.listeners.length asked [] [] (d.apply s c).2 :=
  (d.applyWithin_reports standard unfailing listening _ [] s c atomic known proceeds).2

end Dispatcher

end TransferLifecycle
