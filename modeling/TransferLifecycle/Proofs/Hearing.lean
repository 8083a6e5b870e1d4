import TransferLifecycle.Proofs.CommandPaths

set_option autoImplicit false

/- What the listeners hear of a change. Whatever they do, nothing that was delivered is taken back,
and an announcement that ends has told all of them everything; if they submit no commands, it does
nothing else. -/
namespace TransferLifecycle

/-- A listener that submits no command. It may still abort. -/
def Listener.Quiet (l : Listener) : Prop := ∀ heard cb c, l.react heard cb ≠ .submit c

/-- A listener that only listens. -/
def Listener.Calm (l : Listener) : Prop := ∀ heard cb, l.react heard cb = .none

theorem Listener.Calm.quiet {l : Listener} (calm : l.Calm) : l.Quiet := by
  intro heard cb c submitted
  rw [calm heard cb] at submitted
  cases submitted

theorem Listener.silent_calm : Listener.silent.Calm := fun _ _ => rfl

namespace Session

variable {submit : Session → Command → Attempt × Session}

/-- The callbacks of a change, for the listeners from a place on. -/
def announcement (process : TransferProcess) (previous : State) : Nat → List Listener →
    List Delivery
  | _, [] => []
  | place, _ :: rest =>
    (Hook.ofState process.state).map (fun hook => ⟨place, ⟨hook, process, previous⟩⟩) ++
      announcement process previous (place + 1) rest

/-- The session `after` has everything that was delivered before it and, on top, `heard`. -/
def Hears (before : Session) (heard : List Delivery) (after : Session) : Prop :=
  after.deliveries = heard ++ before.deliveries

theorem Hears.trans {s mid after : Session} {first second : List Delivery}
    (earlier : s.Hears first mid) (later : mid.Hears second after) :
    s.Hears (second ++ first) after := by
  unfold Hears at *
  rw [later, earlier, List.append_assoc]

/-- Commands that are submitted take nothing back that was delivered. -/
def Growing (submit : Session → Command → Attempt × Session) : Prop :=
  ∀ (s : Session) (c : Command), ∃ heard, s.Hears heard (submit s c).2

theorem call_hears (growing : Growing submit) (place : Nat) (l : Listener) (s : Session)
    (cbs : List Callback) :
    ∃ heard, s.Hears heard (s.call submit place l cbs).2 ∧
      ((s.call submit place l cbs).1 = none → ∀ cb ∈ cbs, ⟨place, cb⟩ ∈ heard) := by
  induction cbs generalizing s with
  | nil => exact ⟨[], rfl, by simp⟩
  | cons cb rest ih =>
    have delivered : s.Hears [⟨place, cb⟩] (s.deliver ⟨place, cb⟩) := rfl
    -- what comes after the delivery of `cb` ends well from whichever session it starts in
    have more : ∀ {mid : Session} {first : List Delivery}, s.Hears first mid →
        ⟨place, cb⟩ ∈ first → ∃ heard, s.Hears heard (mid.call submit place l rest).2 ∧
          ((mid.call submit place l rest).1 = none → ∀ x ∈ cb :: rest, ⟨place, x⟩ ∈ heard) := by
      intro mid first told member
      obtain ⟨second, later, all⟩ := ih mid
      refine ⟨second ++ first, told.trans later, ?_⟩
      intro ended x present
      rcases List.mem_cons.1 present with rfl | present
      · exact List.mem_append_right _ member
      · exact List.mem_append_left _ (all ended x present)
    rw [call]
    split
    next => exact more delivered (by simp)
    next reason reacted => exact ⟨_, delivered, by simp⟩
    next c reacted =>
      obtain ⟨nested, inner⟩ := growing (s.deliver ⟨place, cb⟩) c
      have told := delivered.trans inner
      split
      next reason after eq =>
        rw [eq] at told
        exact ⟨_, told, by simp⟩
      next answer after _ eq =>
        rw [eq] at told
        exact more told (by simp)

theorem announce_hears (growing : Growing submit) (process : TransferProcess) (previous : State)
    (place : Nat) (listeners : List Listener) (s : Session) :
    ∃ heard, s.Hears heard (s.announce submit process previous place listeners).2 ∧
      ((s.announce submit process previous place listeners).1 = none →
        ∀ x ∈ announcement process previous place listeners, x ∈ heard) := by
  induction listeners generalizing place s with
  | nil => exact ⟨[], rfl, by simp [announcement]⟩
  | cons l rest ih =>
    obtain ⟨first, told, full⟩ := call_hears growing place l s
      ((Hook.ofState process.state).map (⟨·, process, previous⟩))
    rw [announce]
    split
    next reason after eq =>
      rw [eq] at told
      exact ⟨first, told, by simp⟩
    next after eq =>
      rw [eq] at told full
      obtain ⟨second, later, all⟩ := ih (place + 1) after
      refine ⟨second ++ first, told.trans later, ?_⟩
      intro ended x present
      rcases List.mem_append.1 present with now | then_
      · obtain ⟨hook, member, rfl⟩ := List.mem_map.1 now
        exact List.mem_append_right _ (full rfl _ (List.mem_map.2 ⟨hook, member, rfl⟩))
      · exact List.mem_append_left _ (all ended x then_)

variable (submit)

/-- Quiet listeners only listen: the session keeps all but the deliveries. -/
theorem call_of_quiet {l : Listener} (quiet : l.Quiet) (place : Nat) (s : Session)
    (cbs : List Callback) :
    ∃ heard, (s.call submit place l cbs).2 = { s with deliveries := heard ++ s.deliveries } ∧
      heard.reverse <+: cbs.map (⟨place, ·⟩) ∧
      ((s.call submit place l cbs).1 = none → heard = (cbs.map (⟨place, ·⟩)).reverse) := by
  induction cbs generalizing s with
  | nil => exact ⟨[], rfl, List.nil_prefix, by simp⟩
  | cons cb rest ih =>
    rw [call]
    split
    next =>
      obtain ⟨heard, told, part, full⟩ := ih (s.deliver ⟨place, cb⟩)
      refine ⟨heard ++ [⟨place, cb⟩], ?_, ?_, ?_⟩
      · rw [told]
        simp [deliver]
      · simpa using part
      · intro ended
        simp [full ended]
    next reason reacted => exact ⟨[⟨place, cb⟩], rfl, by simp, by simp⟩
    next c reacted => exact absurd reacted (quiet _ _ c)

theorem announce_of_quiet {listeners : List Listener} (quiet : ∀ l ∈ listeners, l.Quiet)
    (process : TransferProcess) (previous : State) (place : Nat) (s : Session) :
    ∃ heard, (s.announce submit process previous place listeners).2 =
        { s with deliveries := heard ++ s.deliveries } ∧
      heard.reverse <+: announcement process previous place listeners ∧
      ((s.announce submit process previous place listeners).1 = none →
        heard = (announcement process previous place listeners).reverse) := by
  induction listeners generalizing place s with
  | nil => exact ⟨[], rfl, List.nil_prefix, by simp [announcement]⟩
  | cons l rest ih =>
    obtain ⟨first, told, begun, full⟩ := call_of_quiet submit (quiet l (by simp)) place s
      ((Hook.ofState process.state).map (⟨·, process, previous⟩))
    rw [List.map_map] at begun
    rw [announce]
    split
    next reason after eq =>
      rw [eq] at told
      exact ⟨first, told, begun.trans (List.prefix_append _ _), by simp⟩
    next after eq =>
      rw [eq] at told full
      change after = _ at told
      obtain ⟨second, later, part, all⟩ :=
        ih (fun l member => quiet l (List.mem_cons_of_mem _ member)) (place + 1) after
      refine ⟨second ++ first, ?_, ?_, ?_⟩
      · rw [later, told, List.append_assoc]
      · rw [List.reverse_append, full rfl, List.reverse_reverse, List.map_map, announcement]
        exact (List.prefix_append_right_inj _).2 part
      · intro ended
        simp [all ended, full rfl, announcement, List.map_map, Function.comp_def]

theorem call_of_calm {l : Listener} (calm : l.Calm) (place : Nat) (s : Session)
    (cbs : List Callback) : (s.call submit place l cbs).1 = none := by
  induction cbs generalizing s with
  | nil => rfl
  | cons cb rest ih => simp only [call, calm s.deliveries cb, ih]

theorem announce_of_calm {listeners : List Listener} (calm : ∀ l ∈ listeners, l.Calm)
    (process : TransferProcess) (previous : State) (place : Nat) (s : Session) :
    (s.announce submit process previous place listeners).1 = none := by
  induction listeners generalizing place s with
  | nil => rfl
  | cons l rest ih =>
    rw [announce]
    split
    next reason after eq =>
      have ended := call_of_calm submit (calm l (by simp)) place s
        ((Hook.ofState process.state).map (⟨·, process, previous⟩))
      rw [eq] at ended
      cases ended
    next after eq => exact ih (fun l member => calm l (List.mem_cons_of_mem _ member)) _ after

section Alike

variable (submit' : Session → Command → Attempt × Session)
  {R : List Delivery → List Delivery → Prop}

/-- A listener that answers alike after histories related by `R` tells two such sessions the same,
where one more delivery keeps them related. -/
theorem call_alike {l : Listener} (quiet : l.Quiet)
    (alike : ∀ heard heard' cb, R heard heard' → l.react heard' cb = l.react heard cb)
    (grows : ∀ heard heard' d, R heard heard' → R (d :: heard) (d :: heard')) (place : Nat)
    (cbs : List Callback) {s t : Session} (related : R s.deliveries t.deliveries) :
    (t.call submit' place l cbs).1 = (s.call submit place l cbs).1 ∧
      ∃ heard, s.Hears heard (s.call submit place l cbs).2 ∧
        t.Hears heard (t.call submit' place l cbs).2 := by
  induction cbs generalizing s t with
  | nil => exact ⟨rfl, [], rfl, rfl⟩
  | cons cb rest ih =>
    have first : s.Hears [⟨place, cb⟩] (s.deliver ⟨place, cb⟩) := rfl
    have first' : t.Hears [⟨place, cb⟩] (t.deliver ⟨place, cb⟩) := rfl
    rw [call, call, alike _ _ cb related]
    cases reacted : l.react s.deliveries cb with
    | none =>
      have more : R (s.deliver ⟨place, cb⟩).deliveries (t.deliver ⟨place, cb⟩).deliveries :=
        grows _ _ _ related
      obtain ⟨ended, heard, later, later'⟩ := ih more
      exact ⟨ended, heard ++ [⟨place, cb⟩], first.trans later, first'.trans later'⟩
    | abort reason => exact ⟨rfl, _, first, first'⟩
    | submit c => exact absurd reacted (quiet _ _ c)

theorem announce_alike {listeners : List Listener} (quiet : ∀ l ∈ listeners, l.Quiet)
    (alike : ∀ l ∈ listeners, ∀ heard heard' cb, R heard heard' →
      l.react heard' cb = l.react heard cb)
    (grows : ∀ heard heard' d, R heard heard' → R (d :: heard) (d :: heard'))
    (p : TransferProcess) (previous : State) (place : Nat) {s t : Session}
    (related : R s.deliveries t.deliveries) :
    (t.announce submit' p previous place listeners).1 =
        (s.announce submit p previous place listeners).1 ∧
      ∃ heard, s.Hears heard (s.announce submit p previous place listeners).2 ∧
        t.Hears heard (t.announce submit' p previous place listeners).2 := by
  induction listeners generalizing place s t with
  | nil => exact ⟨rfl, [], rfl, rfl⟩
  | cons l rest ih =>
    obtain ⟨ended, heard, told, told'⟩ := call_alike submit submit' (quiet l List.mem_cons_self)
      (alike l List.mem_cons_self) grows place
      ((Hook.ofState p.state).map (⟨·, p, previous⟩)) related
    rw [announce, announce]
    generalize s.call submit place l ((Hook.ofState p.state).map (⟨·, p, previous⟩)) = called
      at ended told ⊢
    generalize t.call submit' place l ((Hook.ofState p.state).map (⟨·, p, previous⟩)) = called'
      at ended told' ⊢
    obtain ⟨stopped, mid⟩ := called
    obtain ⟨stopped', mid'⟩ := called'
    obtain rfl : stopped' = stopped := ended
    cases stopped' with
    | some reason => exact ⟨rfl, heard, told, told'⟩
    | none =>
      have grown : ∀ more, R (more ++ s.deliveries) (more ++ t.deliveries) := by
        intro more
        induction more with
        | nil => exact related
        | cons d more ih => exact grows _ _ d ih
      have still : R mid.deliveries mid'.deliveries := by
        rw [told, told']
        exact grown heard
      obtain ⟨same, more, later, later'⟩ :=
        ih (fun l member => quiet l (List.mem_cons_of_mem _ member))
          (fun l member => alike l (List.mem_cons_of_mem _ member)) (place + 1) still
      exact ⟨same, more ++ heard, told.trans later, told'.trans later'⟩

/-- Listeners do the same in sessions in which the same was told. -/
theorem announce_of_told {listeners : List Listener} (quiet : ∀ l ∈ listeners, l.Quiet)
    (p : TransferProcess) (previous : State) (place : Nat) {s t : Session}
    (told : t.deliveries = s.deliveries) :
    (t.announce submit' p previous place listeners).1 =
        (s.announce submit p previous place listeners).1 ∧
      (t.announce submit' p previous place listeners).2.deliveries =
        (s.announce submit p previous place listeners).2.deliveries := by
  obtain ⟨ended, heard, first, second⟩ := announce_alike submit submit' quiet (R := Eq)
    (fun l _ _ _ cb same => by rw [same]) (fun _ _ d same => by rw [same]) p previous place
    told.symm
  exact ⟨ended, by rw [first, second, told]⟩

end Alike

/-- A commit delivers nothing. -/
theorem Committed.deliveries {s after : Session} {h : Handler} {c : Command} {id : ProcessId}
    {answer : Except Interruption Commit} (path : (s.guard id).Committed h c answer after) :
    after.deliveries = s.deliveries := by
  rw [← s.deliveries_guard id]
  cases path <;> rfl

end Session

namespace Dispatcher

theorem applyWith_growing (d : Dispatcher) {submit : Session → Command → Attempt × Session}
    (growing : Session.Growing submit) : Session.Growing (d.applyWith submit) := by
  intro s c
  have path := d.applyWith_applied submit s c
  generalize (d.applyWith submit s c).1 = answer at path
  generalize (d.applyWith submit s c).2 = after at path ⊢
  cases path with
  | unresolved _ => exact ⟨[], rfl⟩
  | invalid _ _ => exact ⟨[], rfl⟩
  | interrupted _ _ commits => exact ⟨[], (Session.Committed.of_commit commits).deliveries⟩
  | rejected _ _ commits => exact ⟨[], (Session.Committed.of_commit commits).deliveries⟩
  | unchanged _ _ commits => exact ⟨[], (Session.Committed.of_commit commits).deliveries⟩
  | @announced h p previous committed _ _ _ commits told =>
    obtain ⟨heard, more, -⟩ := Session.announce_hears growing p previous 0 d.listeners committed
    rw [told] at more
    have begun := (Session.Committed.of_commit commits).deliveries
    exact ⟨heard, by simpa [Session.Hears, begun] using more⟩
  | @aborted h p previous reason committed _ _ _ commits told =>
    obtain ⟨heard, more, -⟩ := Session.announce_hears growing p previous 0 d.listeners committed
    rw [told] at more
    have begun := (Session.Committed.of_commit commits).deliveries
    exact ⟨heard, by simpa [Session.Hears, begun] using more⟩

theorem applyWithin_growing (d : Dispatcher) (depth : Nat) :
    Session.Growing (d.applyWithin depth) := by
  induction depth with
  | zero => exact d.applyWith_growing fun s c => ⟨[], rfl⟩
  | succ depth ih => exact d.applyWith_growing ih

/-- The dispatcher applies a command with listeners that take nothing back. -/
theorem apply_eq_applyWith (d : Dispatcher) (s : Session) (c : Command) :
    ∃ submit, Session.Growing submit ∧ d.apply s c = d.applyWith submit s c := by
  unfold apply
  cases s.store.roster.size with
  | zero =>
    exact ⟨fun s c => (.ok (.failure (notFoundFailure c.processId)), s), fun s c => ⟨[], rfl⟩, rfl⟩
  | succ depth => exact ⟨_, d.applyWithin_growing depth, rfl⟩

end Dispatcher

end TransferLifecycle
