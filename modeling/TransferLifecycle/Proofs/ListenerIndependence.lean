import TransferLifecycle.Proofs.Histories
import TransferLifecycle.Proofs.Locality
import TransferLifecycle.Proofs.QuietCommands

set_option autoImplicit false

/- What listeners can do to the store. All that comes of them is what comes of the commands that
they submit; and an abort, after which the guard of the process is poisoned, takes nothing back and
keeps nothing from the calls that follow. -/
namespace TransferLifecycle

open Scenario (Play)

namespace Session

variable {s t mid after : Session}

/-- Two sessions that differ in nothing but what was told. -/
structure Matches (s t : Session) : Prop where
  store : t.store = s.store
  clock : t.clock = s.clock
  guards : t.guards = s.guards

theorem Matches.refl (s : Session) : s.Matches s := ⟨rfl, rfl, rfl⟩

theorem Matches.symm (same : s.Matches t) : t.Matches s :=
  ⟨same.store.symm, same.clock.symm, same.guards.symm⟩

theorem Matches.trans (first : s.Matches mid) (second : mid.Matches after) : s.Matches after :=
  ⟨second.store.trans first.store, second.clock.trans first.clock,
    second.guards.trans first.guards⟩

theorem Matches.eq (same : s.Matches t) : t = { s with deliveries := t.deliveries } := by
  obtain ⟨store, clock, deliveries, guards⟩ := t
  obtain ⟨rfl, rfl, rfl⟩ := same
  rfl

theorem guard_retold (s : Session) (deliveries : List Delivery) (id : ProcessId) :
    { s with deliveries }.guard id = { s.guard id with deliveries } := by
  unfold guard
  split <;> rfl

/-- A commit does not look at what was told. -/
theorem commit_retold (s : Session) (deliveries : List Delivery) (h : Handler) (c : Command) :
    { s with deliveries }.commit h c =
      ((s.commit h c).1, { (s.commit h c).2 with deliveries }) := by
  unfold commit
  rcases s.store.load c.processId with ⟨e | _ | current, store⟩
  · rfl
  · rfl
  · dsimp only
    rcases h.decide current c s.clock.now with i | _ | _ | next
    · rfl
    · rfl
    · rfl
    · simp only [save]
      rcases store.save next with ⟨e | _, saved⟩ <;> rfl

theorem commit_congr (same : s.Matches t) (id : ProcessId) (h : Handler) (c : Command) :
    ((t.guard id).commit h c).1 = ((s.guard id).commit h c).1 ∧
      ((s.guard id).commit h c).2.Matches ((t.guard id).commit h c).2 := by
  rw [same.eq, guard_retold, commit_retold]
  exact ⟨rfl, rfl, rfl, rfl⟩

section Aborts

variable {submit : Session → Command → Attempt × Session} {reason : Abort} {place : Nat}

/-- A call that is aborted has told everything before the callback that aborts, and that one. -/
theorem call_aborted {l : Listener} (quiet : l.Quiet) {cbs : List Callback}
    (told : s.call submit place l cbs = (some reason, after)) :
    ∃ full cb rest heard, cbs = full ++ cb :: rest ∧ l.react heard cb = .abort reason ∧
      s.Hears ((full ++ [cb]).map (Delivery.mk place)).reverse after := by
  induction cbs generalizing s with
  | nil => cases told
  | cons cb rest ih =>
    rw [call] at told
    split at told
    next =>
      obtain ⟨full, last, more, heard, rfl, aborts, hears⟩ := ih told
      refine ⟨cb :: full, last, more, heard, rfl, aborts, ?_⟩
      have first : s.Hears [⟨place, cb⟩] (s.deliver ⟨place, cb⟩) := rfl
      simpa using first.trans hears
    next stopped reacted =>
      cases told
      exact ⟨[], cb, rest, _, rfl, reacted, rfl⟩
    next c reacted => exact absurd reacted (quiet _ _ c)

/-- An announcement that is aborted has told the listeners before the one that aborts everything,
that one all up to where it aborts, and the others nothing. -/
theorem announce_aborted {listeners : List Listener} (quiet : ∀ l ∈ listeners, l.Quiet)
    {p : TransferProcess} {previous : State}
    (told : s.announce submit p previous place listeners = (some reason, after)) :
    ∃ earlier l later full cb rest heard, listeners = earlier ++ l :: later ∧
      (Hook.ofState p.state).map (⟨·, p, previous⟩) = full ++ cb :: rest ∧
      l.react heard cb = .abort reason ∧
      s.Hears (announcement p previous place earlier ++
        (full ++ [cb]).map (Delivery.mk (place + earlier.length))).reverse after := by
  induction listeners generalizing place s with
  | nil => cases told
  | cons l rest ih =>
    rw [announce] at told
    split at told
    next stopped mid called =>
      cases told
      obtain ⟨full, cb, more, heard, hooks, aborts, hears⟩ :=
        call_aborted (quiet l List.mem_cons_self) called
      exact ⟨[], l, rest, full, cb, more, heard, rfl, hooks, aborts, hears⟩
    next mid called =>
      obtain ⟨begun, first, -, ended⟩ := call_of_quiet submit (quiet l List.mem_cons_self) place s
        ((Hook.ofState p.state).map (⟨·, p, previous⟩))
      rw [called] at first ended
      have hears : s.Hears begun mid := congrArg Session.deliveries first
      obtain ⟨earlier, k, later, full, cb, more, heard, rfl, hooks, aborts, then_⟩ :=
        ih (fun l member => quiet l (List.mem_cons_of_mem _ member)) told
      refine ⟨l :: earlier, k, later, full, cb, more, heard, rfl, hooks, aborts, ?_⟩
      have all := hears.trans then_
      rw [ended rfl] at all
      simpa [announcement, Function.comp_def, Nat.add_assoc, Nat.add_comm 1] using all

end Aborts

section Detached

variable (submit submit' : Session → Command → Attempt × Session)

/-- It does not matter how commands are submitted where none is. -/
theorem call_quiet_congr {l : Listener} (quiet : l.Quiet) (place : Nat) (cbs : List Callback)
    (s : Session) : s.call submit place l cbs = s.call submit' place l cbs := by
  induction cbs generalizing s with
  | nil => rfl
  | cons cb rest ih =>
    rw [call, call]
    cases reacted : l.react s.deliveries cb with
    | none => exact ih _
    | abort reason => rfl
    | submit c => exact absurd reacted (quiet _ _ c)

theorem announce_quiet_congr {listeners : List Listener} (quiet : ∀ l ∈ listeners, l.Quiet)
    (p : TransferProcess) (previous : State) (place : Nat) (s : Session) :
    s.announce submit p previous place listeners =
      s.announce submit' p previous place listeners := by
  induction listeners generalizing place s with
  | nil => rfl
  | cons l rest ih =>
    rw [announce, announce, call_quiet_congr submit submit' (quiet l List.mem_cons_self)]
    split
    · rfl
    · exact ih (fun l member => quiet l (List.mem_cons_of_mem _ member)) _ _

/-- Listeners that look at the callback alone do the same whatever was told before. -/
theorem announce_detached {listeners : List Listener} (quiet : ∀ l ∈ listeners, l.Quiet)
    (detached : ∀ l ∈ listeners, l.Detached) (p : TransferProcess) (previous : State) (place : Nat)
    (s t : Session) :
    (t.announce submit' p previous place listeners).1 =
        (s.announce submit p previous place listeners).1 ∧
      ∃ heard, s.Hears heard (s.announce submit p previous place listeners).2 ∧
        t.Hears heard (t.announce submit' p previous place listeners).2 :=
  announce_alike submit submit' quiet (R := fun _ _ => True)
    (fun l member heard heard' cb _ => detached l member heard' heard cb) (fun _ _ _ _ => trivial)
    p previous place trivial

end Detached

end Session

namespace Dispatcher

variable {d : Dispatcher} {submit submit' : Session → Command → Attempt × Session}
  {s t after : Session} {c : Command}

/-- The same handlers, and nobody to tell. -/
def alone (d : Dispatcher) : Dispatcher := ⟨d.registry, []⟩

/-- A command is applied as it would be with nobody to tell, and then it is announced, or there was
nothing to announce. -/
theorem applyWith_alone (d : Dispatcher) (submit submit' : Session → Command → Attempt × Session)
    (s : Session) (c : Command) :
    d.applyWith submit s c = d.alone.applyWith submit' s c ∨
      ∃ p previous mid, d.alone.applyWith submit' s c = (.ok (.success p), mid) ∧
        d.applyWith submit s c =
          (Attempt.ofAnnouncement p (mid.announce submit p previous 0 d.listeners).1,
            (mid.announce submit p previous 0 d.listeners).2) := by
  simp only [applyWith, alone]
  cases d.registry.resolve c.kind with
  | none => exact .inl rfl
  | some h =>
    cases c.invalid? with
    | some f => exact .inl rfl
    | none =>
      dsimp only
      rcases (s.guard c.processId).commit h c with ⟨i | _ | _ | ⟨p, previous⟩, mid⟩
      · exact .inl rfl
      · exact .inl rfl
      · exact .inl rfl
      · refine .inr ⟨p, previous, mid, rfl, ?_⟩
        dsimp only
        rcases mid.announce submit p previous 0 d.listeners with ⟨_ | reason, told⟩ <;> rfl

/-- With nobody to tell, a command comes to the same whatever was told before. -/
theorem alone_applyWith_congr (same : s.Matches t) (c : Command) :
    (d.alone.applyWith submit' t c).1 = (d.alone.applyWith submit s c).1 ∧
      (d.alone.applyWith submit s c).2.Matches (d.alone.applyWith submit' t c).2 := by
  simp only [applyWith, alone]
  cases d.registry.resolve c.kind with
  | none => exact ⟨rfl, same⟩
  | some h =>
    cases c.invalid? with
    | some f => exact ⟨rfl, same⟩
    | none =>
      obtain ⟨answer, after⟩ := Session.commit_congr same c.processId h c
      dsimp only
      generalize (s.guard c.processId).commit h c = committed at answer after ⊢
      generalize (t.guard c.processId).commit h c = committed' at answer after ⊢
      obtain ⟨result, mid⟩ := committed
      obtain ⟨result', mid'⟩ := committed'
      obtain rfl : result' = result := answer
      rcases result' with i | _ | _ | ⟨p, previous⟩ <;> exact ⟨rfl, after⟩

/-- With nobody to tell, nobody submits. -/
theorem alone_apply (d : Dispatcher) (submit : Session → Command → Attempt × Session)
    (s : Session) (c : Command) : d.alone.apply s c = d.alone.applyWith submit s c := by
  obtain ⟨submit', -, eq⟩ := d.alone.apply_eq_applyWith s c
  rw [eq]
  simp only [applyWith, alone]
  rfl

theorem alone_apply_congr (same : s.Matches t) (c : Command) :
    (d.alone.apply t c).1 = (d.alone.apply s c).1 ∧
      (d.alone.apply s c).2.Matches (d.alone.apply t c).2 := by
  obtain ⟨submit, -, eq⟩ := d.alone.apply_eq_applyWith s c
  rw [eq, d.alone_apply submit t c]
  exact alone_applyWith_congr same c

theorem applyAll_alone_congr (same : s.Matches t) (commands : List Command) :
    (Play.applyAll d.alone s commands).2.Matches (Play.applyAll d.alone t commands).2 := by
  induction commands generalizing s t with
  | nil => exact same
  | cons c rest ih => exact ih (alone_apply_congr same c).2

/-- All that happened from `s` to `after` is what comes of commands that listeners submit, one after
the other and with nobody to tell. -/
def Follows (d : Dispatcher) (s after : Session) : Prop :=
  ∃ more : List Command, (∀ c ∈ more, d.Submits c) ∧
    after.Matches (Play.applyAll d.alone s more).2

theorem Follows.refl (s : Session) : d.Follows s s := ⟨[], by simp, .refl s⟩

theorem keeping_follows : Session.Keeping (fun _ => True) d.Follows where
  refl := .refl
  trans first second := by
    obtain ⟨more, asked, same⟩ := first
    obtain ⟨others, asked', same'⟩ := second
    refine ⟨more ++ others, fun c member => ?_, ?_⟩
    · exact (List.mem_append.1 member).elim (asked c) (asked' c)
    · rw [applyAll_append]
      exact same'.trans (applyAll_alone_congr same others)
  deliver s _ _ := ⟨[], by simp, ⟨rfl, rfl, rfl⟩⟩

/-- A command, whatever the listeners do about it, comes to the same as the command and then those
that the listeners submit, with nobody to tell. -/
theorem applyWith_follows (nested : ∀ s c, d.Submits c → d.Follows s (submit s c).2) (s : Session)
    (c : Command) : d.Follows (d.alone.apply s c).2 (d.applyWith submit s c).2 := by
  rw [d.alone_apply submit s c]
  rcases d.applyWith_alone submit submit s c with eq | ⟨p, previous, mid, moved, told⟩
  · rw [eq]
    exact .refl _
  · rw [moved, told]
    refine Session.announce_keeps keeping_follows (fun _ => trivial) p previous 0 ?_ mid
    exact fun l member s heard cb c reacted => nested s c ⟨l, member, heard, cb, reacted⟩

theorem applyWithin_follows (d : Dispatcher) (depth : Nat) (s : Session) (c : Command) :
    d.Follows (d.alone.apply s c).2 (d.applyWithin depth s c).2 := by
  induction depth generalizing s c with
  | zero => exact applyWith_follows (fun s _ _ => .refl s) s c
  | succ depth ih =>
    refine applyWith_follows (fun s c asked => ?_) s c
    have submitted : d.Follows s (d.alone.apply s c).2 :=
      ⟨[c], fun q member => List.mem_singleton.1 member ▸ asked, .refl _⟩
    exact keeping_follows.trans submitted (ih s c)

/-- What a call returns, it returns with nobody to tell as well. -/
theorem alone_apply_of_ok {outcome : Outcome TransferProcess}
    (returned : (d.apply s c).1 = .ok outcome) : (d.alone.apply s c).1 = .ok outcome := by
  obtain ⟨submit, -, eq⟩ := d.apply_eq_applyWith s c
  rw [eq] at returned
  rw [d.alone_apply submit s c]
  rcases d.applyWith_alone submit submit s c with same | ⟨p, previous, mid, moved, told⟩
  · rwa [← same]
  · rw [moved]
    rw [told] at returned
    cases stopped : (mid.announce submit p previous 0 d.listeners).1 with
    | none => rwa [stopped] at returned
    | some reason =>
      rw [stopped] at returned
      cases returned

/-- The commands that are carried out when `commands` are called: those, and between them the ones
that listeners submit. All of it is what they come to with nobody to tell. -/
structure CarriesOut (d : Dispatcher) (s : Session) (commands applied : List Command) : Prop where
  called : commands.Sublist applied
  asked : ∀ c ∈ applied, c ∈ commands ∨ d.Submits c
  last : (Play.applyAll d s commands).2.Matches (Play.applyAll d.alone s applied).2

theorem exists_carriesOut (d : Dispatcher) (s : Session) (commands : List Command) :
    ∃ applied, d.CarriesOut s commands applied := by
  induction commands generalizing s with
  | nil => exact ⟨[], .slnil, by simp, .refl s⟩
  | cons c rest ih =>
    obtain ⟨more, submitted, same⟩ := d.applyWithin_follows s.store.roster.size s c
    obtain ⟨applied, called, asked, last⟩ := ih (d.apply s c).2
    refine ⟨c :: (more ++ applied), .cons_cons c (called.trans (List.sublist_append_right _ _)), ?_,
      ?_⟩
    · intro q member
      rcases List.mem_cons.1 member with rfl | member
      · exact .inl List.mem_cons_self
      · rcases List.mem_append.1 member with inner | outer
        · exact .inr (submitted q inner)
        · exact (asked q outer).imp_left (List.mem_cons_of_mem c)
    · have first : (Play.applyAll d.alone (d.apply s c).2 applied).2.Matches
          (Play.applyAll d.alone (Play.applyAll d.alone (d.alone.apply s c).2 more).2 applied).2 :=
        applyAll_alone_congr same applied
      rw [← applyAll_append] at first
      exact last.trans first

/-- Listeners that submit nothing leave no trace but what they were told. A command that returns
gives the answer that it gives with nobody to tell. -/
theorem apply_quiet (quiet : ∀ l ∈ d.listeners, l.Quiet) (same : s.Matches t) (c : Command) :
    (d.alone.apply t c).2.Matches (d.apply s c).2 ∧
      ((d.apply s c).1 = (d.alone.apply t c).1 ∨
        ∃ reason, (d.apply s c).1 = .error (.abort reason)) := by
  obtain ⟨answer, alike⟩ := alone_apply_congr (d := d) same c
  constructor
  · obtain ⟨more, asked, last⟩ := d.applyWithin_follows s.store.roster.size s c
    have none : more = [] := by
      refine List.eq_nil_iff_forall_not_mem.2 fun q member => ?_
      obtain ⟨l, listening, heard, cb, reacted⟩ := asked q member
      exact quiet l listening heard cb q reacted
    subst none
    exact alike.symm.trans last.symm
  · obtain ⟨submit, -, eq⟩ := d.apply_eq_applyWith s c
    rw [answer, d.alone_apply submit s c, eq]
    rcases d.applyWith_alone submit submit s c with eq | ⟨p, previous, mid, moved, told⟩
    · exact .inl (congrArg _ eq)
    · rw [moved, told]
      cases (mid.announce submit p previous 0 d.listeners).1 with
      | none => exact .inl rfl
      | some reason => exact .inr ⟨reason, rfl⟩

/-- If they also look at the callback alone, they do the same whatever was told before. -/
theorem apply_detached (quiet : ∀ l ∈ d.listeners, l.Quiet)
    (detached : ∀ l ∈ d.listeners, l.Detached) (same : s.Matches t) (c : Command) :
    (d.apply t c).1 = (d.apply s c).1 ∧
      ∃ heard, s.Hears heard (d.apply s c).2 ∧ t.Hears heard (d.apply t c).2 := by
  obtain ⟨submit, -, eq⟩ := d.apply_eq_applyWith s c
  obtain ⟨submit', -, eq'⟩ := d.apply_eq_applyWith t c
  rw [eq, eq']
  simp only [applyWith]
  cases d.registry.resolve c.kind with
  | none => exact ⟨rfl, [], rfl, rfl⟩
  | some h =>
    cases c.invalid? with
    | some f => exact ⟨rfl, [], rfl, rfl⟩
    | none =>
      obtain ⟨answer, -⟩ := Session.commit_congr same c.processId h c
      have untold : s.Hears [] ((s.guard c.processId).commit h c).2 :=
        (Session.commit_committed _ h c).deliveries
      have untold' : t.Hears [] ((t.guard c.processId).commit h c).2 :=
        (Session.commit_committed _ h c).deliveries
      dsimp only
      generalize (s.guard c.processId).commit h c = committed at answer untold ⊢
      generalize (t.guard c.processId).commit h c = committed' at answer untold' ⊢
      obtain ⟨result, mid⟩ := committed
      obtain ⟨result', mid'⟩ := committed'
      obtain rfl : result' = result := answer
      rcases result' with i | _ | _ | ⟨p, previous⟩
      · exact ⟨rfl, [], untold, untold'⟩
      · exact ⟨rfl, [], untold, untold'⟩
      · exact ⟨rfl, [], untold, untold'⟩
      · obtain ⟨ended, heard, told, told'⟩ :=
          Session.announce_detached submit submit' quiet detached p previous 0 mid mid'
        dsimp only
        generalize mid.announce submit p previous 0 d.listeners = round at ended told ⊢
        generalize mid'.announce submit' p previous 0 d.listeners = round' at ended told' ⊢
        obtain ⟨stopped, last⟩ := round
        obtain ⟨stopped', last'⟩ := round'
        obtain rfl : stopped' = stopped := ended
        cases stopped' with
        | none => exact ⟨rfl, heard ++ [], untold.trans told, untold'.trans told'⟩
        | some reason => exact ⟨rfl, heard ++ [], untold.trans told, untold'.trans told'⟩

/-- The same handlers, and listeners of whom none does anything. -/
def silenced (d : Dispatcher) : Dispatcher :=
  ⟨d.registry, d.listeners.map fun _ => .silent⟩

/-- A call was ended by an abort: its process was moved, and the save was granted. The listeners
before the one that aborts were told everything, that one all up to where it aborts, and the others
nothing. -/
structure Aborted (d : Dispatcher) (s : Session) (c : Command) (reason : Abort) (after : Session)
    (old : TransferProcess) : Prop where
  valid : c.invalid? = none
  stored : s.store.get? c.processId = some old
  source : old.state ∈ c.kind.sources
  granted : (s.read c.processId).store.fateOf (.save c.processId) = .granted
  saved : ∀ x, after.store.get? x =
    if c.processId = x then some (c.moved old s.clock.now) else s.store.get? x
  told : ∃ earlier l later full cb rest heard, d.listeners = earlier ++ l :: later ∧
    (Hook.ofState c.kind.target).map (⟨·, c.moved old s.clock.now, old.state⟩) =
      full ++ cb :: rest ∧
    l.react heard cb = .abort reason ∧
    s.Hears (Session.announcement (c.moved old s.clock.now) old.state 0 earlier ++
      (full ++ [cb]).map (Delivery.mk earlier.length)).reverse after

theorem quiet_silenced (d : Dispatcher) : ∀ l ∈ d.silenced.listeners, l.Calm := by
  intro l member
  obtain ⟨_, -, rfl⟩ := List.mem_map.1 member
  exact Listener.silent_calm

/-- A call that was committed and has to be announced. -/
theorem applyWith_of_changed (standard : d.registry = Registry.standard) (valid : c.invalid? = none)
    {p : TransferProcess} {previous : State} {mid : Session}
    (commits : (s.guard c.processId).commit (Handler.standard c.kind) c =
      (.ok (.changed p previous), mid)) :
    d.applyWith submit s c =
      (Attempt.ofAnnouncement p (mid.announce submit p previous 0 d.listeners).1,
        (mid.announce submit p previous 0 d.listeners).2) := by
  simp only [applyWith, standard, Registry.standard_resolve, valid, commits]
  rcases mid.announce submit p previous 0 d.listeners with ⟨_ | reason, told⟩ <;> rfl

/-- Only an abort of a listener interrupts a call, and it comes after the save. Had nobody aborted,
the call would have returned. -/
theorem apply_aborted (standard : d.registry = Registry.standard)
    (quiet : ∀ l ∈ d.listeners, l.Quiet) {i : Interruption}
    (interrupted : (d.apply s c).1 = .error i) :
    ∃ reason old, i = .abort reason ∧ d.Aborted s c reason (d.apply s c).2 old ∧
      (d.silenced.apply s c).1 = .ok (.success (c.moved old s.clock.now)) := by
  obtain ⟨submit, -, eq⟩ := d.apply_eq_applyWith s c
  obtain ⟨submit', -, eq'⟩ := d.silenced.apply_eq_applyWith s c
  rw [eq] at interrupted ⊢
  have path := d.applyWith_handled standard submit s c
  rw [interrupted] at path
  generalize (d.applyWith submit s c).2 = after at path ⊢
  cases path with
  | @aborted old reason _ valid stored source fate commits told =>
    obtain ⟨earlier, l, later, full, cb, rest, heard, order, hooks, aborts, hears⟩ :=
      Session.announce_aborted quiet told
    obtain ⟨_, last, -⟩ := Session.announce_of_quiet submit quiet (c.moved old s.clock.now)
      old.state 0 (s.acted c old)
    rw [told] at last
    change after = _ at last
    refine ⟨reason, old, rfl, ⟨valid, stored, source, fate, fun x => ?_, earlier, l, later, full,
      cb, rest, heard, order, hooks, aborts, ?_⟩, ?_⟩
    · rw [last]
      exact s.get?_acted c stored x
    · rw [Session.Hears, hears, s.deliveries_acted c, Nat.zero_add]
    · have standard' : d.silenced.registry = Registry.standard := standard
      rw [eq', applyWith_of_changed standard' valid commits,
        Session.announce_of_calm submit' d.quiet_silenced]
      rfl

end Dispatcher

section Guards

/-- A session, and the guards that are poisoned: a call that held them was ended by an abort. -/
structure Guarded where
  session : Session
  poisoned : List ProcessId

namespace Guarded

/-- Locking the guard of a process. It is had in both cases; a poisoned one comes as an error. -/
def lock (g : Guarded) (id : ProcessId) : Except ProcessId ProcessId :=
  if g.poisoned.contains id then .error id else .ok id

/-- A guard protects no data of its own, so a poisoned one is as good as another. -/
def held : Except ProcessId ProcessId → ProcessId
  | .ok id | .error id => id

theorem held_lock (g : Guarded) (id : ProcessId) : held (g.lock id) = id := by
  unfold lock
  split <;> rfl

end Guarded

namespace Dispatcher

variable {d : Dispatcher} {s : Session} {c : Command}

/-- Whoever submits a command in a callback is refused. -/
def refuse (s : Session) (c : Command) : Attempt × Session :=
  (.ok (.failure (notFoundFailure c.processId)), s)

/-- One command with its guard, for listeners that submit nothing: an abort leaves the guard
poisoned. -/
def applyGuarded (d : Dispatcher) (g : Guarded) (c : Command) : Attempt × Guarded :=
  match d.registry.resolve c.kind with
  | none => (.error (.error (.unresolvedHandler c.kind)), g)
  | some h =>
    match c.invalid? with
    | some f => (.ok (.failure f), g)
    | none =>
      let id := Guarded.held (g.lock c.processId)
      match (g.session.guard id).commit h c with
      | (.error (.abort reason), after) => (.error (.abort reason), ⟨after, id :: g.poisoned⟩)
      | (.error (.error fault), after) => (.error (.error fault), ⟨after, g.poisoned⟩)
      | (.ok (.changed p previous), after) =>
        match after.announce refuse p previous 0 d.listeners with
        | (some reason, told) => (.error (.abort reason), ⟨told, id :: g.poisoned⟩)
        | (none, told) => (.ok (.success p), ⟨told, g.poisoned⟩)
      | (.ok committed, after) => (.ok committed.outcome, ⟨after, g.poisoned⟩)

/-- Which guards are poisoned makes no difference to a call. -/
theorem applyGuarded_eq (quiet : ∀ l ∈ d.listeners, l.Quiet) (g : Guarded) (c : Command) :
    ((d.applyGuarded g c).1, (d.applyGuarded g c).2.session) = d.apply g.session c := by
  obtain ⟨submit, -, eq⟩ := d.apply_eq_applyWith g.session c
  rw [eq]
  simp only [applyGuarded, applyWith, Guarded.held_lock]
  cases d.registry.resolve c.kind with
  | none => rfl
  | some h =>
    cases c.invalid? with
    | some f => rfl
    | none =>
      dsimp only
      rcases (g.session.guard c.processId).commit h c with
        ⟨(_ | _) | _ | _ | ⟨p, previous⟩, mid⟩
      · rfl
      · rfl
      · rfl
      · rfl
      · dsimp only
        rw [Session.announce_quiet_congr refuse submit quiet]
        rcases mid.announce submit p previous 0 d.listeners with ⟨_ | reason, told⟩ <;> rfl

/-- An abort poisons the guard of the process. -/
theorem poisoned_of_abort {g : Guarded} {reason : Abort}
    (aborted : (d.applyGuarded g c).1 = .error (.abort reason)) :
    (d.applyGuarded g c).2.poisoned = c.processId :: g.poisoned := by
  revert aborted
  simp only [applyGuarded, Guarded.held_lock]
  cases d.registry.resolve c.kind with
  | none => simp
  | some h =>
    cases c.invalid? with
    | some f => simp
    | none =>
      dsimp only
      rcases (g.session.guard c.processId).commit h c with
        ⟨(_ | _) | _ | _ | ⟨p, previous⟩, mid⟩
      · simp
      · simp
      · simp
      · simp
      · dsimp only
        rcases mid.announce refuse p previous 0 d.listeners with ⟨_ | reason, told⟩ <;> simp

/-- The state after a sequence of calls whose aborts are caught. -/
def playGuarded (d : Dispatcher) (g : Guarded) (commands : List Command) : Guarded :=
  commands.foldl (fun g c => (d.applyGuarded g c).2) g

theorem session_playGuarded (quiet : ∀ l ∈ d.listeners, l.Quiet) (g : Guarded)
    (commands : List Command) :
    (d.playGuarded g commands).session = (Play.applyAll d g.session commands).2 := by
  induction commands generalizing g with
  | nil => rfl
  | cons c rest ih =>
    have same : (d.applyGuarded g c).2.session = (d.apply g.session c).2 :=
      congrArg Prod.snd (applyGuarded_eq quiet g c)
    have later := ih (d.applyGuarded g c).2
    rw [same] at later
    exact later

/-- A call finds the same store in two runs and leaves the same one, and where it returns in both,
it returns the same. -/
structure SameCall (d d' : Dispatcher) (g g' : Guarded) (c : Command) : Prop where
  before : g.session.Matches g'.session
  after : (d.applyGuarded g c).2.session.Matches (d'.applyGuarded g' c).2.session
  outcome : ∀ o o', (d.applyGuarded g c).1 = .ok o → (d'.applyGuarded g' c).1 = .ok o' → o' = o

variable {d' : Dispatcher} {g g' : Guarded}

theorem alone_congr (same : d'.registry = d.registry) : d'.alone = d.alone :=
  congrArg (Dispatcher.mk · []) same

theorem sameCall (same : d'.registry = d.registry) (quiet : ∀ l ∈ d.listeners, l.Quiet)
    (quiet' : ∀ l ∈ d'.listeners, l.Quiet) (alike : g.session.Matches g'.session) (c : Command) :
    d.SameCall d' g g' c := by
  have eq := applyGuarded_eq quiet g c
  have eq' := applyGuarded_eq quiet' g' c
  obtain ⟨last, answer⟩ := apply_quiet quiet (.refl g.session) c
  obtain ⟨last', answer'⟩ := apply_quiet quiet' alike.symm c
  rw [alone_congr same] at last' answer'
  rw [← eq] at last answer
  rw [← eq'] at last' answer'
  refine ⟨alike, last.symm.trans last', fun o o' returned returned' => ?_⟩
  rcases answer with given | ⟨reason, aborted⟩
  · rcases answer' with given' | ⟨reason, aborted⟩
    · exact Except.ok.inj (returned'.symm.trans (given'.trans (given.symm.trans returned)))
    · cases returned'.symm.trans aborted
  · cases returned.symm.trans aborted

theorem playGuarded_matches (same : d'.registry = d.registry)
    (quiet : ∀ l ∈ d.listeners, l.Quiet) (quiet' : ∀ l ∈ d'.listeners, l.Quiet)
    (alike : g.session.Matches g'.session) (commands : List Command) :
    (d.playGuarded g commands).session.Matches (d'.playGuarded g' commands).session := by
  induction commands generalizing g g' with
  | nil => exact alike
  | cons c rest ih => exact ih (sameCall same quiet quiet' alike c).after

theorem applyGuarded_detached (quiet : ∀ l ∈ d.listeners, l.Quiet)
    (detached : ∀ l ∈ d.listeners, l.Detached) (alike : g.session.Matches g'.session)
    (c : Command) :
    (d.applyGuarded g' c).1 = (d.applyGuarded g c).1 ∧
      ∃ heard, g.session.Hears heard (d.applyGuarded g c).2.session ∧
        g'.session.Hears heard (d.applyGuarded g' c).2.session := by
  have told := apply_detached quiet detached alike c
  rw [← applyGuarded_eq quiet g c, ← applyGuarded_eq quiet g' c] at told
  exact told

/-- A call that is aborted was saved before, and only the listeners up to the one that aborts have
heard of it. All later calls, for the process whose guard is poisoned as for any other, go on as if
it had returned. -/
structure AbortContained (d : Dispatcher) (g : Guarded) (c : Command) (reason : Abort)
    (old : TransferProcess) : Prop where
  aborted : d.Aborted g.session c reason (d.applyGuarded g c).2.session old
  poisoned : (d.applyGuarded g c).2.poisoned = c.processId :: g.poisoned
  returned : (d.silenced.applyGuarded g c).1 =
    .ok (.success (c.moved old g.session.clock.now))
  later : ∀ later q, ∀ g₁ g₂ : Guarded, g₁ = d.playGuarded (d.applyGuarded g c).2 later →
    g₂ = d.playGuarded (d.silenced.applyGuarded g c).2 later →
    d.SameCall d g₁ g₂ q ∧
      ((∀ l ∈ d.listeners, l.Detached) →
        (d.applyGuarded g₂ q).1 = (d.applyGuarded g₁ q).1 ∧
        ∃ heard, g₁.session.Hears heard (d.applyGuarded g₁ q).2.session ∧
          g₂.session.Hears heard (d.applyGuarded g₂ q).2.session)

theorem exists_abortContained (standard : d.registry = Registry.standard)
    (quiet : ∀ l ∈ d.listeners, l.Quiet) {i : Interruption}
    (interrupted : (d.applyGuarded g c).1 = .error i) :
    ∃ reason old, i = .abort reason ∧ d.AbortContained g c reason old := by
  have silent : ∀ l ∈ d.silenced.listeners, l.Quiet := fun l member =>
    (d.quiet_silenced l member).quiet
  have eq := applyGuarded_eq quiet g c
  have eq' := applyGuarded_eq silent g c
  have interrupted' := (congrArg Prod.fst eq).symm.trans interrupted
  obtain ⟨reason, old, rfl, aborted, returned⟩ := apply_aborted standard quiet interrupted'
  rw [← eq] at aborted
  rw [← eq'] at returned
  refine ⟨reason, old, rfl, aborted, poisoned_of_abort interrupted, returned, ?_⟩
  rintro later q g₁ g₂ rfl rfl
  have handlers : d.silenced.registry = d.registry := rfl
  have after := sameCall handlers quiet silent (.refl g.session) c
  have last := playGuarded_matches rfl quiet quiet after.after later
  exact ⟨sameCall rfl quiet quiet last q,
    fun detached => applyGuarded_detached quiet detached last q⟩

/-- Whatever listeners do, all that comes of them is what comes of the commands that they submit,
and what a call returns, it returns with nobody to tell. So two lists of listeners that submit
nothing, whatever is told and wherever they abort, have the same store at each call of a sequence,
and a call that returns with both returns the same. A call that is aborted was saved before, only
the listeners up to the one that aborts have heard of it, and later calls go on as if it had
returned. -/
theorem listeners_cannot_influence (standard : d.registry = Registry.standard)
    (same : d'.registry = d.registry) :
    (∀ s commands, ∃ applied, d.CarriesOut s commands applied) ∧
    (∀ s c outcome, (d.apply s c).1 = .ok outcome → (d.alone.apply s c).1 = .ok outcome) ∧
    ((∀ l ∈ d.listeners, l.Quiet) → (∀ l ∈ d'.listeners, l.Quiet) →
      ∀ (g : Guarded) (earlier : List Command) (c : Command),
        (d.playGuarded g earlier).session = (Play.applyAll d g.session earlier).2 ∧
        ((d.applyGuarded (d.playGuarded g earlier) c).1,
            (d.applyGuarded (d.playGuarded g earlier) c).2.session) =
          d.apply (d.playGuarded g earlier).session c ∧
        d.SameCall d' (d.playGuarded g earlier) (d'.playGuarded g earlier) c ∧
        ∀ i, (d.applyGuarded (d.playGuarded g earlier) c).1 = .error i →
          ∃ reason old, i = .abort reason ∧
            d.AbortContained (d.playGuarded g earlier) c reason old) := by
  refine ⟨d.exists_carriesOut, fun s c outcome => alone_apply_of_ok,
    fun quiet quiet' g earlier c => ?_⟩
  have alike := playGuarded_matches same quiet quiet' (.refl g.session) earlier
  exact ⟨session_playGuarded quiet g earlier, applyGuarded_eq quiet _ c,
    sameCall same quiet quiet' alike c, fun i => exists_abortContained standard quiet⟩

/-- The second of three listeners aborts when it hears that a process was started. -/
def explosive : Dispatcher := ⟨.standard, [.silent, .exploding 1 .started, .silent]⟩

def quietened : Dispatcher := ⟨.standard, [.silent]⟩

/-- Two processes, and a guard that is poisoned from the outset. -/
def explosiveStart : Guarded :=
  ⟨.start (.reliable (.ofList [.initial ⟨"a"⟩ (.ofSeconds 0), .initial ⟨"b"⟩ (.ofSeconds 0)]))
    (.fixed (.ofSeconds 5)), [⟨"b"⟩]⟩

theorem listeners_cannot_influence_explosive :
    (∃ i, (explosive.applyGuarded (explosive.playGuarded explosiveStart [⟨⟨"a"⟩, .request⟩])
      ⟨⟨"a"⟩, .start⟩).1 = .error i) ∧
    explosive.SameCall quietened (explosive.playGuarded explosiveStart [⟨⟨"a"⟩, .request⟩])
      (quietened.playGuarded explosiveStart [⟨⟨"a"⟩, .request⟩]) ⟨⟨"a"⟩, .start⟩ ∧
    ∃ reason old, explosive.Aborted
      (explosive.playGuarded explosiveStart [⟨⟨"a"⟩, .request⟩]).session ⟨⟨"a"⟩, .start⟩ reason
      (explosive.applyGuarded (explosive.playGuarded explosiveStart [⟨⟨"a"⟩, .request⟩])
        ⟨⟨"a"⟩, .start⟩).2.session old ∧
      (explosive.applyGuarded (explosive.playGuarded explosiveStart [⟨⟨"a"⟩, .request⟩])
        ⟨⟨"a"⟩, .start⟩).2.poisoned = [⟨"a"⟩, ⟨"b"⟩] := by
  have quiet : ∀ l ∈ explosive.listeners, l.Quiet := by
    intro l member heard cb c
    simp only [explosive, List.mem_cons, List.not_mem_nil, or_false] at member
    rcases member with rfl | rfl | rfl
    · exact Listener.silent_calm.quiet heard cb c
    · simp only [Listener.exploding]
      split <;> simp
    · exact Listener.silent_calm.quiet heard cb c
  have quiet' : ∀ l ∈ quietened.listeners, l.Quiet := by
    intro l member
    rw [List.mem_singleton.1 member]
    exact Listener.silent_calm.quiet
  have interrupted : ((explosive.applyGuarded
      (explosive.playGuarded explosiveStart [⟨⟨"a"⟩, .request⟩]) ⟨⟨"a"⟩, .start⟩).1.toOption =
        none) := by decide +kernel
  have handlers : quietened.registry = explosive.registry := rfl
  obtain ⟨-, -, guarded⟩ := listeners_cannot_influence (d := explosive) rfl handlers
  obtain ⟨-, -, same, aborts⟩ :=
    guarded quiet quiet' explosiveStart [⟨⟨"a"⟩, .request⟩] ⟨⟨"a"⟩, .start⟩
  cases result : (explosive.applyGuarded
      (explosive.playGuarded explosiveStart [⟨⟨"a"⟩, .request⟩]) ⟨⟨"a"⟩, .start⟩).1 with
  | ok outcome =>
    rw [result] at interrupted
    cases interrupted
  | error i =>
    obtain ⟨reason, old, -, contained⟩ := aborts i result
    exact ⟨⟨i, rfl⟩, same, reason, old, contained.aborted,
      contained.poisoned.trans (by decide +kernel)⟩

end Dispatcher

end Guards

end TransferLifecycle
