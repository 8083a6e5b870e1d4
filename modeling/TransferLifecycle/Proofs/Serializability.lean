import TransferLifecycle.Proofs.ProcessRows
import TransferLifecycle.Proofs.UnderGuard

set_option autoImplicit false

/- Concurrent calls come to what the same calls come to one at a time. A call takes effect in the
step that answers it: until then the serial session still has the row that the call has found. An
initiation takes no guard, but where a process was found there is nothing to create. -/
namespace TransferLifecycle

namespace Dispatcher

variable {ι : Type}

/-- A call with nothing in between. -/
def serve (d : Dispatcher) (s : Session) : Record → Reply × Session
  | .initiate id => (.initiated (Engine.initiate s id).1, (Engine.initiate s id).2)
  | .command c => (.applied (d.apply s c).1, (d.apply s c).2)

/-- Calls of several callers, one at a time. -/
def serveAll (d : Dispatcher) (s : Session) : List (ι × Record) → List (ι × Reply) × Session
  | [] => ([], s)
  | (i, r) :: rest =>
    ((i, (d.serve s r).1) :: (d.serveAll (d.serve s r).2 rest).1,
      (d.serveAll (d.serve s r).2 rest).2)

theorem serveAll_append_singleton (d : Dispatcher) (s : Session) (order : List (ι × Record)) (i : ι)
    (r : Record) :
    d.serveAll s (order ++ [(i, r)]) =
      ((d.serveAll s order).1 ++ [(i, (d.serve (d.serveAll s order).2 r).1)],
        (d.serve (d.serveAll s order).2 r).2) := by
  induction order generalizing s with
  | nil => rfl
  | cons call rest ih => rw [List.cons_append, serveAll, ih, serveAll, List.cons_append]

variable {d : Dispatcher} {now : Instant} {s : Session}

/-- A call makes the step of its process once. -/
theorem serve_row (standard : d.registry = Registry.standard) (quiet : ∀ l ∈ d.listeners, l.Quiet)
    (stable : s.Stable now) (r : Record) :
    (d.serve s r).2.Stable now ∧ ∀ x, (d.serve s r).2.store.get? x =
      if r.processId = x then r.next now (s.store.get? x) else s.store.get? x := by
  cases r with
  | initiate id =>
    obtain ⟨-, touches, row, -⟩ := Engine.initiate_of_stable stable id
    refine ⟨touches.world.stable stable, fun x => ?_⟩
    by_cases same : id = x
    · subst same
      exact row.trans (if_pos rfl).symm
    · exact (touches.others x (Ne.symm same)).trans (if_neg same).symm
  | command c =>
    have settles := apply_settles standard quiet stable.reliable c
    refine ⟨settles.world.stable stable, fun x => ?_⟩
    have rows := settles.rows
    rw [Clock.now, stable.steady] at rows
    change (d.apply s c).2.store.roster.get? x = _
    rw [rows]
    exact Roster.get?_step _ now (.command c) x

theorem serveAll_row (standard : d.registry = Registry.standard)
    (quiet : ∀ l ∈ d.listeners, l.Quiet) (stable : s.Stable now) (order : List (ι × Record))
    (x : ProcessId) :
    (d.serveAll s order).2.store.get? x =
      Record.rowAfter now x (s.store.get? x) (order.map Prod.snd) := by
  induction order generalizing s with
  | nil => rfl
  | cons call rest ih =>
    obtain ⟨i, r⟩ := call
    obtain ⟨still, rows⟩ := serve_row standard quiet stable r
    rw [serveAll, ih still, List.map_cons, Record.rowAfter_cons, rows]

end Dispatcher

namespace Caller

/-- The calls that have not taken effect. -/
def ahead (k : Caller) : List Record :=
  match k.held with
  | some held => if held.stage.answer?.isNone then .command held.command :: k.todo else k.todo
  | none => k.todo

/-- The replies of the calls that have taken effect. -/
def given (k : Caller) : List Reply :=
  k.returned ++ ((k.held.bind (·.stage.answer?)).map Reply.applied).toList

end Caller

namespace System

open Stage (Reached)

variable {ι : Type} {d : Dispatcher} {now : Instant} {sys after : System ι} {s t : Session}

/-- The callers go by the serial session `t`: two are never under one guard, a stage was reached
from the row in `t`, and where nobody is under the guard the rows are the same. -/
structure Tracks (d : Dispatcher) (now : Instant) (sys : System ι) (t : Session) : Prop where
  stable : sys.session.Stable now
  serial : t.Stable now
  told : sys.session.deliveries = t.deliveries
  exclusive : ∀ i j held held', (sys.callers i).held = some held →
    (sys.callers j).held = some held' →
    held.command.processId = held'.command.processId → i = j
  admitted : ∀ i held, (sys.callers i).held = some held → d.gate held.command = .ok held.handler
  reached : ∀ i held, (sys.callers i).held = some held →
    Reached held.handler held.command now (t.store.get? held.command.processId) held.stage
      (sys.session.store.get? held.command.processId)
  free : ∀ x, sys.Free x → sys.session.store.get? x = t.store.get? x

namespace Tracks

theorem start (stable : s.Stable now) (calls : ι → List Record) :
    (System.start s calls).Tracks d now s where
  stable := stable
  serial := stable
  told := rfl
  exclusive _ _ _ _ here := by cases here
  admitted _ _ here := by cases here
  reached _ _ here := by cases here
  free _ _ := rfl

theorem isNone_eq (tracks : sys.Tracks d now t) (x : ProcessId) :
    (sys.session.store.get? x).isNone = (t.store.get? x).isNone := by
  by_cases free : sys.Free x
  · rw [tracks.free x free]
  · simp only [Free, not_forall, not_not] at free
    obtain ⟨i, held, here, rfl⟩ := free
    exact (tracks.reached i held here).isNone_eq

/-- A call that takes no guard leaves the callers under theirs. -/
theorem of_held (tracks : sys.Tracks d now t)
    (held : ∀ j, (after.callers j).held = (sys.callers j).held)
    (stable : after.session.Stable now) (serial : s.Stable now)
    (told : after.session.deliveries = s.deliveries)
    (reached : ∀ h c st, Reached h c now (t.store.get? c.processId) st
        (sys.session.store.get? c.processId) →
      Reached h c now (s.store.get? c.processId) st (after.session.store.get? c.processId))
    (free : ∀ x, sys.session.store.get? x = t.store.get? x →
      after.session.store.get? x = s.store.get? x) : after.Tracks d now s where
  stable := stable
  serial := serial
  told := told
  exclusive i j := by
    rw [held i, held j]
    exact tracks.exclusive i j
  admitted i := by
    rw [held i]
    exact tracks.admitted i
  reached i k here := by
    rw [held i] at here
    exact reached _ _ _ (tracks.reached i k here)
  free x idle := by
    refine free x (tracks.free x fun i k here => ?_)
    rw [← held i] at here
    exact idle i k here

/-- A caller is alone under its guard. -/
theorem alone (tracks : sys.Tracks d now t) {i : ι} {c : Command} {h : Handler} {st : Stage}
    {rest : List Record} {returned : List Reply}
    (here : sys.callers i = ⟨rest, some ⟨h, c, st⟩, returned⟩) :
    (∀ held, (sys.callers i).held = some held → held.command.processId = c.processId) ∧
      ∀ j held, j ≠ i → (sys.callers j).held = some held →
        held.command.processId ≠ c.processId := by
  have mine : (sys.callers i).held = some ⟨h, c, st⟩ := by rw [here]
  constructor
  · intro held also
    rw [mine] at also
    cases also
    rfl
  · intro j held other theirs same
    exact other (tracks.exclusive j i held _ theirs mine same)

variable [DecidableEq ι] {i : ι} {k : Caller}

theorem held_set {s' : Session} {j : ι} {held : Held}
    (here : ((sys.set i k s').callers j).held = some held) :
    (j = i ∧ k.held = some held) ∨ (j ≠ i ∧ (sys.callers j).held = some held) := by
  by_cases same : j = i
  · subst same
    rw [callers_set_self] at here
    exact .inl ⟨rfl, here⟩
  · rw [sys.callers_set_of_ne same] at here
    exact .inr ⟨same, here⟩

/-- The others do not see what a caller does under the guard of `x`. -/
theorem set (tracks : sys.Tracks d now t) {x : ProcessId} {s' t' : Session}
    (touches : sys.session.Touches x s') (touches' : t.Touches x t')
    (told : s'.deliveries = t'.deliveries)
    (own : ∀ held, (sys.callers i).held = some held → held.command.processId = x)
    (alone : ∀ j held, j ≠ i → (sys.callers j).held = some held → held.command.processId ≠ x)
    (goes : ∀ held, k.held = some held → held.command.processId = x ∧
      d.gate held.command = .ok held.handler ∧
      Reached held.handler held.command now (t'.store.get? x) held.stage (s'.store.get? x))
    (leaves : k.held = none → s'.store.get? x = t'.store.get? x) :
    (sys.set i k s').Tracks d now t' := by
  refine ⟨touches.world.stable tracks.stable, touches'.world.stable tracks.serial, told, ?exclusive,
    ?admitted, ?reached, ?free⟩
  case exclusive =>
    intro j j' held held' here here' same
    -- At most one of the two goes on, and then the other is not under `x`.
    rcases held_set here with ⟨rfl, mine⟩ | ⟨other, before⟩ <;>
      rcases held_set here' with ⟨rfl, mine'⟩ | ⟨other', before'⟩
    · rfl
    · exact absurd (same.symm.trans (goes held mine).1) (alone j' held' other' before')
    · exact absurd (same.trans (goes held' mine').1) (alone j held other before)
    · exact tracks.exclusive j j' held held' before before' same
  case admitted =>
    intro j held here
    rcases held_set here with ⟨-, mine⟩ | ⟨-, before⟩
    · exact (goes held mine).2.1
    · exact tracks.admitted j held before
  case reached =>
    intro j held here
    rcases held_set here with ⟨-, mine⟩ | ⟨other, before⟩
    · obtain ⟨rfl, -, reached⟩ := goes held mine
      exact reached
    · have apart := alone j held other before
      have reached := tracks.reached j held before
      rw [← touches.others _ apart, ← touches'.others _ apart] at reached
      exact reached
  case free =>
    intro y idle
    by_cases same : y = x
    · subst same
      refine leaves (Option.eq_none_iff_forall_ne_some.2 fun held mine => ?_)
      exact idle i held (by rw [callers_set_self, mine]) (goes held mine).1
    · refine (touches.others y same).trans (.trans (tracks.free y ?_) (touches'.others y same).symm)
      intro j held here
      by_cases this : j = i
      · subst this
        rw [own held here]
        exact Ne.symm same
      · exact idle j held (by rw [sys.callers_set_of_ne this, here])

end Tracks

variable [DecidableEq ι] {i : ι} {k : Caller}

/-- What does not change about the caller that goes on changes about no caller. -/
theorem view_set {α : Type} (view : Caller → α) (same : view k = view (sys.callers i)) (s : Session)
    (j : ι) : view ((sys.set i k s).callers j) = view (sys.callers j) := by
  by_cases here : j = i
  · rw [here, callers_set_self, same]
  · rw [callers_set_of_ne sys here]

/-- Seen from the serial session, a step of the callers is nothing, or one call. -/
inductive Matched (d : Dispatcher) (now : Instant) (sys after : System ι) (t : Session) : Prop
  | idle (tracks : after.Tracks d now t)
      (ahead : ∀ j, (after.callers j).ahead = (sys.callers j).ahead)
      (given : ∀ j, (after.callers j).given = (sys.callers j).given)
  | served {i : ι} {r : Record} (tracks : after.Tracks d now (d.serve t r).2)
      (ahead : (sys.callers i).ahead = r :: (after.callers i).ahead)
      (given : (after.callers i).given = (sys.callers i).given ++ [(d.serve t r).1])
      (others : ∀ j, j ≠ i → after.callers j = sys.callers j)

/-- A creation may come between the stages of a command. Either the command has found a row, and
nothing is created, or it has not looked yet. -/
theorem initiate_matched (tracks : sys.Tracks d now t) {id : ProcessId} {rest : List Record}
    {returned : List Reply} (here : sys.callers i = ⟨.initiate id :: rest, none, returned⟩) :
    sys.Matched d now (sys.set i
      ⟨rest, none, returned ++ [.initiated (Engine.initiate sys.session id).1]⟩
      (Engine.initiate sys.session id).2) t := by
  obtain ⟨counted, touches, row, told⟩ := Engine.initiate_of_stable tracks.stable id
  obtain ⟨counted', touches', row', told'⟩ := Engine.initiate_of_stable tracks.serial id
  have same : (Engine.initiate sys.session id).1 = (Engine.initiate t id).1 := by
    rw [counted, counted']
    simp only [Record.result?, tracks.isNone_eq id]
  refine .served (i := i) (r := .initiate id) (tracks.of_held ?_ ?_ ?_ ?_ ?_ ?_) ?_ ?_ ?_
  · exact sys.view_set Caller.held (by rw [here]) _
  · exact touches.world.stable tracks.stable
  · exact touches'.world.stable tracks.serial
  · exact told.trans (tracks.told.trans told'.symm)
  · intro h c st reached
    by_cases own : c.processId = id
    · have created := reached.initiate id
      rw [own] at created ⊢
      rw [← row, ← row'] at created
      exact created
    · have kept := touches.others _ own
      have kept' := touches'.others _ own
      rw [← kept, ← kept'] at reached
      exact reached
  · intro x agree
    by_cases own : x = id
    · subst own
      rw [agree, ← row'] at row
      exact row
    · exact (touches.others x own).trans (agree.trans (touches'.others x own).symm)
  · rw [here, callers_set_self]
    rfl
  · rw [here, callers_set_self, same]
    simp [Caller.given, Dispatcher.serve]
  · exact fun j other => sys.callers_set_of_ne other _ _

theorem refuse_matched (tracks : sys.Tracks d now t) {c : Command} {a : Attempt}
    {rest : List Record} {returned : List Reply}
    (here : sys.callers i = ⟨.command c :: rest, none, returned⟩) (refused : d.gate c = .error a) :
    sys.Matched d now (sys.set i ⟨rest, none, returned ++ [.applied a]⟩ sys.session) t := by
  have served : d.serve t (.command c) = (.applied a, t) := by
    obtain ⟨submit, -, eq⟩ := d.apply_eq_applyWith t c
    rw [Dispatcher.serve, eq, Dispatcher.applyWith_of_refused refused]
  refine .served (i := i) (r := .command c) ?_ ?_ ?_ ?_
  · rw [served]
    exact tracks.of_held (sys.view_set Caller.held (by rw [here]) _) tracks.stable tracks.serial
      tracks.told (fun _ _ _ reached => reached) fun _ agree => agree
  · rw [here, callers_set_self]
    rfl
  · rw [here, callers_set_self, served]
    simp [Caller.given]
  · exact fun j other => sys.callers_set_of_ne other _ _

theorem acquire_matched (tracks : sys.Tracks d now t) {c : Command} {h : Handler}
    {rest : List Record} {returned : List Reply}
    (here : sys.callers i = ⟨.command c :: rest, none, returned⟩) (admitted : d.gate c = .ok h)
    (free : sys.Free c.processId) :
    sys.Matched d now (sys.set i ⟨rest, some ⟨h, c, .acquired⟩, returned⟩
      (sys.session.guard c.processId)) t := by
  have row : (sys.session.guard c.processId).store.get? c.processId =
      t.store.get? c.processId := by
    rw [Session.store_guard, tracks.free _ free]
  have touches : sys.session.Touches c.processId (sys.session.guard c.processId) :=
    sys.session.touches_guard c.processId
  refine .idle (tracks.set touches (.refl c.processId t) ?_ ?_ ?_ ?_ ?_) ?_ ?_
  · rw [Session.deliveries_guard, tracks.told]
  · intro held none
    rw [here] at none
    cases none
  · exact fun j held _ => free j held
  · rintro _ ⟨⟩
    refine ⟨rfl, admitted, ?_⟩
    rw [row]
    exact .acquired
  · exact fun none => by cases none
  · exact sys.view_set Caller.ahead (by rw [here]; rfl) _
  · exact sys.view_set Caller.given (by rw [here]; rfl) _

section Guarded

variable {c : Command} {h : Handler} {st : Stage} {rest : List Record} {returned : List Reply}

/-- A command takes effect in the stage that answers it. Up to there it is nothing to the serial
session, which then does all of it. -/
theorem advance_matched (quiet : ∀ l ∈ d.listeners, l.Quiet) (tracks : sys.Tracks d now t)
    (here : sys.callers i = ⟨rest, some ⟨h, c, st⟩, returned⟩) (pending : st.answer? = none) :
    sys.Matched d now (sys.set i
      ⟨rest, some ⟨h, c, (d.advance d.apply h c st sys.session).1⟩, returned⟩
      (d.advance d.apply h c st sys.session).2) t := by
  have mine : (sys.callers i).held = some ⟨h, c, st⟩ := by rw [here]
  have admitted : d.gate c = .ok h := tracks.admitted i _ mine
  have reached : Stage.Reached h c now (t.store.get? c.processId) st
      (sys.session.store.get? c.processId) := tracks.reached i _ mine
  have own := reached.own fun p stored => Roster.id_of_get? stored
  have touches : sys.session.Touches c.processId (d.advance d.apply h c st sys.session).2 :=
    Dispatcher.advance_touches quiet d.apply own sys.session
  obtain ⟨only, others⟩ := tracks.alone here
  rcases answer : (d.advance d.apply h c st sys.session).1.answer? with _ | a
  · rcases reached.advance (d := d) d.apply tracks.stable own with ⟨a, given⟩ | ⟨further, untold⟩
    · rw [given] at answer
      cases answer
    refine .idle (tracks.set touches (.refl c.processId t) (untold.trans tracks.told) only others ?_
      fun none => by cases none) ?_ ?_
    · rintro _ ⟨⟩
      exact ⟨rfl, admitted, further⟩
    · refine sys.view_set Caller.ahead ?_ _
      rw [here]
      simp [Caller.ahead, answer, pending]
    · refine sys.view_set Caller.given ?_ _
      rw [here]
      simp [Caller.given, answer, pending]
  · have answered := Stage.eq_of_answer? answer
    obtain ⟨same, touches', row, told⟩ := Dispatcher.apply_of_answered d.apply quiet admitted
      tracks.stable tracks.serial tracks.told pending reached answered
    refine .served (i := i) (r := .command c) ?_ ?_ ?_ ?_
    · refine tracks.set touches touches' told.symm only others ?_ fun none => by cases none
      rintro _ ⟨⟩
      refine ⟨rfl, admitted, ?_⟩
      rw [answered, ← row]
      exact .answered
    · rw [here, callers_set_self]
      simp [Caller.ahead, answer, pending]
    · rw [here, callers_set_self]
      simp [Caller.given, answer, pending, Dispatcher.serve, same]
    · exact fun j other => sys.callers_set_of_ne other _ _

theorem release_matched (tracks : sys.Tracks d now t) {a : Attempt}
    (here : sys.callers i = ⟨rest, some ⟨h, c, .answered a⟩, returned⟩) :
    sys.Matched d now (sys.set i ⟨rest, none, returned ++ [.applied a]⟩ sys.session) t := by
  have mine : (sys.callers i).held = some ⟨h, c, .answered a⟩ := by rw [here]
  obtain ⟨only, others⟩ := tracks.alone here
  have reached : Stage.Reached h c now (t.store.get? c.processId) (.answered a)
      (sys.session.store.get? c.processId) := tracks.reached i _ mine
  refine .idle (tracks.set (.refl c.processId sys.session) (.refl c.processId t) tracks.told only
    others ?_ ?_) ?_ ?_
  · exact fun held none => by cases none
  · intro _
    generalize t.store.get? c.processId = stored at reached ⊢
    cases reached
    rfl
  · exact sys.view_set Caller.ahead (by rw [here]; rfl) _
  · refine sys.view_set Caller.given ?_ _
    rw [here]
    simp [Caller.given, Stage.answer?]

end Guarded

theorem Step.matched (quiet : ∀ l ∈ d.listeners, l.Quiet) (tracks : sys.Tracks d now t)
    (step : Step d sys after) : sys.Matched d now after t := by
  cases step with
  | initiate here => exact initiate_matched tracks here
  | refuse here refused => exact refuse_matched tracks here refused
  | acquire here admitted free => exact acquire_matched tracks here admitted free
  | advance here pending => exact advance_matched quiet tracks here pending
  | release here => exact release_matched tracks here

/-- What is one caller's, in its order. -/
def ofCaller {α : Type} (i : ι) (order : List (ι × α)) : List α :=
  (order.filter (·.1 = i)).map Prod.snd

theorem ofCaller_append_singleton {α : Type} (i j : ι) (order : List (ι × α)) (a : α) :
    ofCaller j (order ++ [(i, a)]) = ofCaller j order ++ if i = j then [a] else [] := by
  by_cases same : i = j <;> simp [ofCaller, same]

/-- The calls that have taken effect, in this order, account for everything that the callers did. -/
structure Serialized (d : Dispatcher) (now : Instant) (s : Session) (calls : ι → List Record)
    (sys : System ι) (order : List (ι × Record)) : Prop where
  tracks : sys.Tracks d now (d.serveAll s order).2
  calls : ∀ j, calls j = ofCaller j order ++ (sys.callers j).ahead
  given : ∀ j, (sys.callers j).given = ofCaller j (d.serveAll s order).1

theorem Serialized.step {calls : ι → List Record} {order : List (ι × Record)}
    (quiet : ∀ l ∈ d.listeners, l.Quiet) (serialized : sys.Serialized d now s calls order)
    (step : Step d sys after) : ∃ order', after.Serialized d now s calls order' := by
  cases step.matched quiet serialized.tracks with
  | idle tracks ahead given =>
    refine ⟨order, tracks, fun j => ?_, fun j => ?_⟩
    · rw [ahead, serialized.calls]
    · rw [given, serialized.given]
  | @served i r tracks ahead given others =>
    refine ⟨order ++ [(i, r)], ?_, fun j => ?_, fun j => ?_⟩
    · rw [Dispatcher.serveAll_append_singleton]
      exact tracks
    · rw [ofCaller_append_singleton, serialized.calls j]
      by_cases same : i = j
      · subst same
        rw [if_pos rfl, ahead, List.append_assoc, List.singleton_append]
      · rw [if_neg same, List.append_nil, others j (Ne.symm same)]
    · rw [Dispatcher.serveAll_append_singleton, ofCaller_append_singleton, ← serialized.given j]
      by_cases same : i = j
      · subst same
        rw [if_pos rfl, given]
      · rw [if_neg same, List.append_nil, others j (Ne.symm same)]

theorem exists_serialized {calls : ι → List Record} (quiet : ∀ l ∈ d.listeners, l.Quiet)
    (stable : s.Stable now) (run : Relation.ReflTransGen (Step d) (start s calls) sys) :
    ∃ order, sys.Serialized d now s calls order := by
  induction run with
  | refl => exact ⟨[], .start stable calls, fun _ => rfl, fun _ => rfl⟩
  | tail _ step ih =>
    obtain ⟨order, serialized⟩ := ih
    exact serialized.step quiet step

/-- Concurrent calls are serializable. However the steps of the callers come between each other, the
calls return what they return one at a time in some order, which is each caller's own order for its
calls. They leave the same rows and have told the same of every process; and each call makes the
step of its process exactly once. The listeners may abort, but a command of theirs would go under a
second guard within an announcement. -/
theorem run_serializable (standard : d.registry = Registry.standard)
    (quiet : ∀ l ∈ d.listeners, l.Quiet) (stable : s.Stable now) (calls : ι → List Record)
    (run : Relation.ReflTransGen (Step d) (start s calls) sys) (ended : sys.Ended) :
    ∃ order : List (ι × Record),
      (∀ i, ofCaller i order = calls i) ∧
      (∀ i, (sys.callers i).returned = ofCaller i (d.serveAll s order).1) ∧
      sys.session.store.roster = (d.serveAll s order).2.store.roster ∧
      (∀ x, sys.session.about x = (d.serveAll s order).2.about x) ∧
      ∀ x, sys.session.store.get? x =
        Record.rowAfter now x (s.store.get? x) (order.map Prod.snd) := by
  obtain ⟨order, serialized⟩ := exists_serialized quiet stable run
  have idle : ∀ x, sys.Free x := by
    intro x i held here
    rw [(ended i).2] at here
    cases here
  have rows : ∀ x, sys.session.store.get? x = (d.serveAll s order).2.store.get? x :=
    fun x => serialized.tracks.free x (idle x)
  refine ⟨order, fun i => ?_, fun i => ?_, Roster.ext_get? rows, fun x => ?_, fun x => ?_⟩
  · have all := serialized.calls i
    simp only [Caller.ahead, (ended i).1, (ended i).2, List.append_nil] at all
    exact all.symm
  · have given := serialized.given i
    simpa [Caller.given, (ended i).2] using given
  · rw [Session.about, serialized.tracks.told, Session.about]
  · rw [rows, Dispatcher.serveAll_row standard quiet stable]

/-- Both callers request a process, and one of them brings it into being while the other is already
under the guard. -/
def rivals : Bool → List Record
  | true => [.initiate ⟨"a"⟩, .command ⟨⟨"a"⟩, .request⟩]
  | false => [.command ⟨⟨"a"⟩, .request⟩]

def rivalStart : Session := .start (.reliable .empty) (.fixed (.ofSeconds 5))

theorem run_serializable_rivals :
    ∃ sys : System Bool,
      Relation.ReflTransGen (Step (Engine.standard .default).dispatcher) (start rivalStart rivals)
        sys ∧
      sys.Ended ∧ ∃ order : List (Bool × Record),
        (∀ i, ofCaller i order = rivals i) ∧
        (∀ i, (sys.callers i).returned =
          ofCaller i ((Engine.standard .default).dispatcher.serveAll rivalStart order).1) ∧
        Record.rowAfter (.ofSeconds 5) ⟨"a"⟩ none (order.map Prod.snd) =
          some ⟨⟨"a"⟩, .requested, 1, .ofSeconds 5, none⟩ := by
  have quiet : ∀ l ∈ (Engine.standard .default).dispatcher.listeners, l.Quiet := by
    intro l member
    rw [List.mem_singleton.1 member]
    exact Listener.silent_calm.quiet
  have stable : rivalStart.Stable (.ofSeconds 5) := ⟨fun _ => rfl, fun _ => rfl⟩
  have begun : Step (Engine.standard .default).dispatcher (start rivalStart rivals) _ :=
    .acquire (i := false) rfl rfl fun i held here => by cases here
  -- The process is created between the guard and the load.
  have run := (Relation.ReflTransGen.single begun).tail (.initiate (i := true) rfl)
  have run := run.tail (.advance (i := false) rfl rfl)
  have run := run.tail (.advance (i := false) rfl rfl)
  have run := run.tail (.advance (i := false) rfl rfl)
  have run := run.tail (.advance (i := false) rfl rfl)
  have run := run.tail (.release (i := false) rfl)
  -- The second request finds nothing to do, so that it has no save and no announcement.
  have run := run.tail (.acquire (i := true) rfl rfl fun i held here => by cases i <;> cases here)
  have run := run.tail (.advance (i := true) rfl rfl)
  have run := run.tail (.advance (i := true) rfl rfl)
  have run := run.tail (.release (i := true) rfl)
  refine ⟨_, run, fun i => by cases i <;> exact ⟨rfl, rfl⟩, ?_⟩
  obtain ⟨order, own, returned, -, -, rows⟩ := run_serializable rfl quiet stable rivals run
    fun i => by cases i <;> exact ⟨rfl, rfl⟩
  exact ⟨order, own, returned, (rows ⟨"a"⟩).symm⟩

end System

end TransferLifecycle
