import TransferLifecycle.Proofs.ReachableProcesses
import TransferLifecycle.Proofs.Steps

set_option autoImplicit false

/- The moments of a run are the sessions between its single actions. At a storage whose failed calls
have done nothing, one action leaves the row of a process or writes it; and it writes it right after
the clock was read, with that reading. -/
namespace TransferLifecycle

namespace Steps

variable {α β γ : Type} {R : Session → Session → Session → Prop}

/-- The sessions that a computation goes through, the first and the last included. -/
def moments : Steps α → Session → List Session
  | done _, s => [s]
  | act effect next, s => s :: (next s).moments (effect s)

/-- Every single action leads from one session to another as `R` says, which also knows the session
before the one. -/
def Each (R : Session → Session → Session → Prop) : Steps α → Session → Session → Prop
  | done _, _, _ => True
  | act effect next, prev, s => R prev s (effect s) ∧ (next s).Each R s (effect s)

/-- The session before the last, where `prev` is the one before the first. -/
def beforeLast : Steps α → Session → Session → Session
  | done _, prev, _ => prev
  | act effect next, _, s => (next s).beforeLast s (effect s)

theorem each_once {action : Session → α × Session} {prev s : Session}
    (related : R prev s (action s).2) : (once action).Each R prev s := ⟨related, trivial⟩

theorem Each.bind {t : Steps α} {f : α → Steps β} {prev s : Session} (first : t.Each R prev s)
    (later : (f (t.solo s).1).Each R (t.beforeLast prev s) (t.solo s).2) :
    (t >>= f).Each R prev s := by
  induction t generalizing prev s with
  | done a => exact later
  | act effect next ih => exact ⟨first.1, ih s first.2 later⟩

theorem Each.solo {Q : Session → Session → Prop} (refl : ∀ s, Q s s)
    (trans : ∀ {s mid after}, Q s mid → Q mid after → Q s after)
    (weaker : ∀ {prev s after}, R prev s after → Q s after) {t : Steps α} {prev s : Session}
    (each : t.Each R prev s) : Q s (t.solo s).2 := by
  induction t generalizing prev s with
  | done a => exact refl s
  | act effect next ih => exact trans (weaker each.1) (ih s each.2)

theorem moments_head (t : Steps α) (s : Session) : ∃ rest, t.moments s = s :: rest := by
  cases t with
  | done a => exact ⟨[], rfl⟩
  | act effect next => exact ⟨_, rfl⟩

/-- Three moments one after the other. -/
theorem Each.related {t : Steps α} {prev s a b c : Session} (each : t.Each R prev s) {i : Nat}
    (first : (prev :: t.moments s)[i]? = some a) (second : (t.moments s)[i]? = some b)
    (third : (t.moments s)[i + 1]? = some c) : R a b c := by
  induction t generalizing prev s i with
  | done a =>
    rw [moments, List.getElem?_cons_succ, List.getElem?_nil] at third
    cases third
  | act effect next ih =>
    rw [moments, List.getElem?_cons_succ] at third
    cases i with
    | zero =>
      obtain ⟨rest, begun⟩ := moments_head (next s) (effect s)
      rw [begun] at third
      cases first
      cases second
      cases third
      exact each.1
    | succ i =>
      rw [moments, List.getElem?_cons_succ] at first second
      exact ih s each.2 first second third

/-- Where a computation goes on for no longer than another after the same beginning. -/
theorem moments_bind_prefix (t : Steps α) {f : α → Steps β} {g : α → Steps γ} {s : Session}
    (later : (f (t.solo s).1).moments (t.solo s).2 <+: (g (t.solo s).1).moments (t.solo s).2) :
    (t >>= f).moments s <+: (t >>= g).moments s := by
  induction t generalizing s with
  | done a => exact later
  | act effect next ih => exact (List.prefix_cons_inj s).2 (ih s later)

end Steps

theorem Store.get?_of_load {s after : Store} {id : ProcessId} {row : Option TransferProcess}
    (loaded : s.load id = (.ok row, after)) : s.get? id = row := by
  unfold load at loaded
  split at loaded
  · cases loaded
    rfl
  · cases loaded

namespace Session

variable {asked : Command → Prop} {x : ProcessId} {s prev after : Session}

/-- The row of `x` is written right after the clock was read, with that reading: the process is
initiated, or a command moves it. -/
inductive Writes (asked : Command → Prop) (x : ProcessId) (prev s after : Session) : Prop
  | born (read : s = { prev with clock := prev.clock.advance }) (absent : s.store.get? x = none)
      (row : after.store.get? x = some (.initial x prev.clock.now))
  | moved {l : Link} (read : s = { prev with clock := prev.clock.advance })
      (legal : l.Legal asked (· = prev.clock.now) x) (stored : s.store.get? x = some l.before)
      (row : after.store.get? x = some l.after)

/-- A single action leaves the row of `x`, or writes it. -/
structure Ticks (asked : Command → Prop) (x : ProcessId) (prev s after : Session) : Prop where
  world : s.SameWorld after
  forward : s.clock.taken ≤ after.clock.taken
  row : after.store.get? x = s.store.get? x ∨ Writes asked x prev s after

/-- An action that writes nothing. -/
theorem Ticks.of_rows (world : s.SameWorld after) (forward : s.clock.taken ≤ after.clock.taken)
    (rows : after.store.roster = s.store.roster) : Ticks asked x prev s after :=
  ⟨world, forward, .inl (by rw [Store.get?, rows, Store.get?])⟩

theorem ticks_guard (s : Session) {prev : Session} (id : ProcessId) :
    Ticks asked x prev s (s.guard id) := by
  refine .of_rows (s.sameWorld_guard id) (Nat.le_of_eq ?_) (by rw [store_guard])
  exact congrArg Clock.taken (s.clock_guard id).symm

theorem ticks_load (s : Session) {prev : Session} (id : ProcessId) :
    Ticks asked x prev s { s with store := (s.store.load id).2 } := by
  refine .of_rows ⟨?_, rfl⟩ (Nat.le_refl _) (s.store.roster_load id)
  simp only [Store.load]
  split <;> rfl

theorem ticks_now (s : Session) {prev : Session} :
    Ticks asked x prev s { s with clock := s.clock.advance } :=
  .of_rows ⟨rfl, rfl⟩ (Nat.le_succ _) rfl

theorem ticks_deliver (s : Session) {prev : Session} (d : Delivery) :
    Ticks asked x prev s (s.deliver d) :=
  .of_rows ⟨rfl, rfl⟩ (Nat.le_refl _) rfl

/-- The save of a process that a command moves, where the clock was just read. -/
theorem ticks_save {l : Link} (atomic : s.store.Atomic)
    (read : s = { prev with clock := prev.clock.advance })
    (stored : s.store.get? l.command.processId = some l.before)
    (legal : l.Legal asked (· = prev.clock.now) l.command.processId) :
    Ticks asked x prev s { s with store := (s.store.save l.after).2 } := by
  have id : l.after.id = l.command.processId := by
    obtain ⟨now, -, moved⟩ := legal.stamped
    rw [moved]
    exact legal.id
  unfold Store.save
  cases fate : s.store.fateOf (.save l.after.id) with
  | refused e => exact .of_rows ⟨rfl, rfl⟩ (Nat.le_refl _) rfl
  | unacknowledged e => exact absurd fate (atomic _ e)
  | granted =>
    refine ⟨⟨rfl, rfl⟩, Nat.le_refl _, ?_⟩
    have row := Store.get?_put (s.store.record (.save l.after.id)) l.after x
    by_cases own : l.after.id = x
    · rw [if_pos own] at row
      rw [id] at own
      subst own
      exact .inr (.moved read legal stored row)
    · rw [if_neg own] at row
      exact .inl row

theorem ticks_create (atomic : s.store.Atomic)
    (read : s = { prev with clock := prev.clock.advance }) (id : ProcessId) :
    Ticks asked x prev s
      { s with store := (s.store.create (.initial id prev.clock.now)).2 } := by
  have path := Store.create_created atomic (.initial id prev.clock.now)
  generalize (s.store.create (.initial id prev.clock.now)).1 = answer at path
  generalize (s.store.create (.initial id prev.clock.now)).2 = store at path
  cases path with
  | refused _ => exact .of_rows ⟨rfl, rfl⟩ (Nat.le_refl _) rfl
  | taken _ => exact .of_rows ⟨rfl, rfl⟩ (Nat.le_refl _) rfl
  | stored missing =>
    refine ⟨⟨rfl, rfl⟩, Nat.le_refl _, ?_⟩
    have row : ((s.store.record (.create id)).put (.initial id prev.clock.now)).get? x =
        if id = x then some (.initial id prev.clock.now) else s.store.get? x :=
      Store.get?_put _ _ x
    by_cases own : id = x
    · subst own
      rw [if_pos rfl] at row
      exact .inr (.born read missing row)
    · rw [if_neg own] at row
      exact .inl row

end Session

namespace Steps

variable {α β : Type} {asked : Command → Prop} {x : ProcessId}

/-- Every single action leaves the row of `x` or writes it. -/
def Ticking (asked : Command → Prop) (x : ProcessId) (t : Steps α) : Prop :=
  ∀ prev s : Session, s.store.Atomic → t.Each (Session.Ticks asked x) prev s

theorem Each.sameWorld {t : Steps α} {prev s : Session}
    (each : t.Each (Session.Ticks asked x) prev s) : s.SameWorld (t.solo s).2 :=
  each.solo (Q := Session.SameWorld) (fun _ => ⟨rfl, rfl⟩) Session.SameWorld.trans
    Session.Ticks.world

theorem ticking_done (a : α) : Ticking asked x (done a) := fun _ _ _ => trivial

theorem Ticking.bind {t : Steps α} {f : α → Steps β} (first : Ticking asked x t)
    (later : ∀ a, Ticking asked x (f a)) : Ticking asked x (t >>= f) :=
  fun prev s atomic =>
    (first prev s atomic).bind (later _ _ _ ((first prev s atomic).sameWorld.atomic atomic))

/-- What is saved is the process that was loaded, moved at the time that was read in between. -/
theorem ticking_commit {c : Command} (known : asked c) (valid : c.invalid? = none) :
    Ticking asked x (commit (Handler.standard c.kind) c) := by
  intro prev s atomic
  refine Each.bind (each_once (s.ticks_load c.processId)) ?_
  have rows := s.store.roster_load c.processId
  have world := (s.ticks_load c.processId : Session.Ticks asked x prev s _).world
  simp only [load, solo_once]
  rcases loaded : s.store.load c.processId with ⟨answer, store⟩
  rw [loaded] at rows world
  rcases answer with e | _ | old
  · trivial
  · trivial
  · refine Each.bind (each_once (Session.ticks_now _)) ?_
    simp only [now, solo_once]
    cases decided : (Handler.standard c.kind).decide old c s.clock.now with
    | error i => trivial
    | ok decision =>
      cases decision with
      | reject f => trivial
      | keep p => trivial
      | write next =>
        obtain ⟨source, rfl⟩ := Handler.of_standard_write decided
        have stored := Store.get?_of_load loaded
        refine Each.bind (each_once ?_) ?_
        · refine Session.ticks_save (l := ⟨c, old, c.moved old s.clock.now⟩) (world.atomic atomic)
            rfl ?_ ?_
          · rw [Store.get?, rows]
            exact stored
          · exact ⟨rfl, known, valid, Roster.id_of_get? stored, source, _, rfl, rfl⟩
        · simp only [save, solo_once]
          split <;> trivial

section Listening

variable {submit : Command → Steps Attempt} {listeners : List Listener}

theorem ticking_hear (place : Nat) (l : Listener) (cb : Callback) :
    Ticking asked x (hear place l cb) := fun _ s _ => each_once (s.ticks_deliver _)

theorem ticking_call {l : Listener}
    (nested : ∀ heard cb c, l.react heard cb = .submit c → Ticking asked x (submit c))
    (place : Nat) (cbs : List Callback) : Ticking asked x (call submit place l cbs) := by
  induction cbs with
  | nil => exact ticking_done none
  | cons cb rest ih =>
    intro prev s atomic
    have first : (hear place l cb).Each (Session.Ticks asked x) prev s :=
      ticking_hear place l cb prev s atomic
    have heard := first.sameWorld.atomic atomic
    refine first.bind ?_
    simp only [hear, solo_once] at heard ⊢
    cases reacted : l.react s.deliveries cb with
    | none => exact ih _ _ heard
    | abort reason => trivial
    | submit c =>
      refine (nested _ _ c reacted).bind (fun attempt => ?_) _ _ heard
      rcases attempt with ⟨fault | reason⟩ | outcome
      · exact ih
      · exact ticking_done _
      · exact ih

theorem ticking_announce
    (nested : ∀ l ∈ listeners, ∀ heard cb c, l.react heard cb = .submit c →
      Ticking asked x (submit c))
    (process : TransferProcess) (previous : State) (place : Nat) :
    Ticking asked x (announce submit process previous place listeners) := by
  induction listeners generalizing place with
  | nil => exact ticking_done none
  | cons l rest ih =>
    refine (ticking_call (nested l List.mem_cons_self) place _).bind fun stopped => ?_
    cases stopped with
    | some reason => exact ticking_done _
    | none => exact ih (fun l member => nested l (List.mem_cons_of_mem _ member)) (place + 1)

end Listening

end Steps

namespace Dispatcher

open Steps (Ticking ticking_done)

variable {d : Dispatcher} {asked : Command → Prop} {x : ProcessId}

theorem ticking_stepsWith (standard : d.registry = Registry.standard)
    {submit : Command → Steps Attempt} (nested : ∀ c, asked c → Ticking asked x (submit c))
    (listening : ∀ c, d.Submits c → asked c) {c : Command} (known : asked c) :
    Ticking asked x (d.stepsWith submit c) := by
  unfold stepsWith
  rw [standard, Registry.standard_resolve]
  cases valid : c.invalid? with
  | some f => exact ticking_done _
  | none =>
    refine Ticking.bind (fun _ s _ => Steps.each_once (s.ticks_guard _)) fun _ => ?_
    refine (Steps.ticking_commit known valid).bind fun committed => ?_
    rcases committed with i | _ | _ | ⟨p, previous⟩
    · exact ticking_done _
    · exact ticking_done _
    · exact ticking_done _
    · refine (Steps.ticking_announce ?_ p previous 0).bind fun stopped => ?_
      · intro l member heard cb c reacted
        exact nested c (listening c ⟨l, member, heard, cb, reacted⟩)
      · cases stopped <;> exact ticking_done _

theorem ticking_stepsWithin (standard : d.registry = Registry.standard)
    (listening : ∀ c, d.Submits c → asked c) (depth : Nat) {c : Command} (known : asked c) :
    Ticking asked x (d.stepsWithin depth c) := by
  induction depth generalizing c with
  | zero => exact d.ticking_stepsWith standard (fun _ _ => ticking_done _) listening known
  | succ depth ih => exact d.ticking_stepsWith standard (fun _ known => ih known) listening known

theorem ticking_steps (standard : d.registry = Registry.standard)
    (listening : ∀ c, d.Submits c → asked c) {c : Command} (known : asked c) :
    Ticking asked x (d.steps c) :=
  fun _ s atomic => ⟨.of_rows ⟨rfl, rfl⟩ (Nat.le_refl _) rfl,
    d.ticking_stepsWithin standard listening s.store.roster.size known s s atomic⟩

end Dispatcher

namespace Engine

open Steps (Ticking ticking_done)

variable {e : Engine} {asked : Command → Prop} {x : ProcessId}

theorem ticking_drainSteps (policy : RetryPolicy) {submit : Command → Steps Attempt} {q : Queue}
    (ticking : ∀ item ∈ q, Ticking asked x (submit item.command)) :
    Ticking asked x (q.drainSteps policy submit) := by
  fun_induction Queue.drainSteps policy submit q with
  | case1 => exact ticking_done _
  | case2 item rest ih =>
    refine (ticking item List.mem_cons_self).bind fun attempt => ?_
    cases attempt with
    | error i => exact ticking_done _
    | ok outcome =>
      refine (ih outcome fun other member => ?_).bind fun _ => ticking_done _
      rcases Queue.command_of_mem_settle member with old | same
      · exact ticking other (List.mem_cons_of_mem _ old)
      · rw [same]
        exact ticking item List.mem_cons_self

theorem ticking_recordSteps (standard : e.dispatcher.registry = Registry.standard)
    (listening : ∀ c, e.dispatcher.Submits c → asked c) {r : Record}
    (known : ∀ c, r = .command c → asked c) : Ticking asked x (e.recordSteps r) := by
  cases r with
  | initiate id =>
    intro prev s atomic
    have read : ({ s with clock := s.clock.advance } : Session).store.Atomic := atomic
    refine Steps.Each.bind (Steps.each_once s.ticks_now) ?_
    simp only [Steps.now, Steps.solo_once]
    refine Steps.Each.bind (Steps.each_once (Session.ticks_create read rfl id)) ?_
    simp only [Steps.create, Steps.solo_once]
    split <;> trivial
  | command c =>
    refine ticking_drainSteps e.policy fun item member => ?_
    rw [List.mem_singleton.1 member]
    exact Dispatcher.ticking_steps standard listening (known c rfl)

/-- The steps of all records of a log, whatever each of them comes to. -/
def allSteps (e : Engine) : List Record → Steps Unit
  | [] => return ()
  | r :: rest => do
    let _ ← e.recordSteps r
    e.allSteps rest

theorem solo_allSteps (e : Engine) (log : List Record) (s : Session) :
    ((e.allSteps log).solo s).2 = e.applyAll s log := by
  induction log generalizing s with
  | nil => rfl
  | cons r rest ih =>
    simp only [allSteps, Steps.solo_bind, solo_recordSteps, ih]
    rfl

/-- A run goes through the same moments, up to its interruption. -/
theorem moments_runSteps_prefix (e : Engine) (total : Tally) (log : List Record) (s : Session) :
    (e.runSteps total log).moments s <+: (e.allSteps log).moments s := by
  induction log generalizing total s with
  | nil => exact List.prefix_refl _
  | cons r rest ih =>
    refine Steps.moments_bind_prefix _ ?_
    cases ((e.recordSteps r).solo s).1 with
    | error i =>
      obtain ⟨later, begun⟩ := Steps.moments_head (e.allSteps rest) ((e.recordSteps r).solo s).2
      rw [begun]
      exact ⟨later, rfl⟩
    | ok tally => exact ih (total.add tally) _

theorem ticking_allSteps (standard : e.dispatcher.registry = Registry.standard)
    (listening : ∀ c, e.dispatcher.Submits c → asked c) {log : List Record}
    (known : ∀ c, .command c ∈ log → asked c) : Ticking asked x (e.allSteps log) := by
  induction log with
  | nil => exact ticking_done _
  | cons r rest ih =>
    refine (ticking_recordSteps standard listening ?_).bind fun _ => ih ?_
    · rintro c rfl
      exact known c List.mem_cons_self
    · exact fun c member => known c (List.mem_cons_of_mem _ member)

end Engine

end TransferLifecycle
