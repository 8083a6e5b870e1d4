import TransferLifecycle.Proofs.Evolution
import TransferLifecycle.Proofs.Steps
import TransferLifecycle.Proofs.Visits

set_option autoImplicit false

/- The steps for one process see nothing of the others and leave nothing behind for them, whatever
the handlers answer: two runs that meet the same row of the process take the same steps. It needs a
storage that does not fail, a clock that stands still and listeners that look at the callback alone
and submit nothing. -/
namespace TransferLifecycle

/-- A listener that answers a callback by the callback alone. -/
def Listener.Detached (l : Listener) : Prop :=
  ∀ heard heard' cb, l.react heard cb = l.react heard' cb

namespace Session

/-- The storage does not fail, and the clock stands still. -/
structure Stable (now : Instant) (s : Session) : Prop where
  reliable : s.store.Reliable
  steady : s.clock.Steady now

theorem SameWorld.stable {now : Instant} {s after : Session} (world : s.SameWorld after)
    (stable : s.Stable now) : after.Stable now :=
  ⟨world.reliable stable.reliable, world.steady stable.steady⟩

theorem Stable.load {now : Instant} {s : Session} (stable : s.Stable now) (x : ProcessId) :
    s.store.load x = (.ok (s.store.get? x), s.store.record (.load x)) := by
  refine Store.load_of_granted ?_
  rw [Store.fateOf, stable.reliable]
  rfl

theorem Stable.save {now : Instant} {s : Session} (stable : s.Stable now) (p : TransferProcess) :
    s.store.save p = (.ok (), (s.store.record (.save p.id)).put p) := by
  simp only [Store.save, Store.fateOf, stable.reliable _]

/-- Everything that was delivered about one process, the newest first. -/
def about (s : Session) (x : ProcessId) : List Delivery :=
  s.deliveries.filter (·.callback.process.id == x)

/-- Two sessions that have the same row of a process, and in which the same was told about it. -/
structure Agrees (x : ProcessId) (s s' : Session) : Prop where
  row : s'.store.get? x = s.store.get? x
  told : s'.about x = s.about x

variable {x : ProcessId} {s mid after : Session}

theorem Agrees.refl (x : ProcessId) (s : Session) : s.Agrees x s := ⟨rfl, rfl⟩

theorem Agrees.symm (same : s.Agrees x mid) : mid.Agrees x s := ⟨same.row.symm, same.told.symm⟩

theorem Agrees.trans (first : s.Agrees x mid) (second : mid.Agrees x after) : s.Agrees x after :=
  ⟨second.row.trans first.row, second.told.trans first.told⟩

theorem Agrees.of_same (rows : after.store.roster = s.store.roster)
    (deliveries : after.deliveries = s.deliveries) (x : ProcessId) : s.Agrees x after :=
  ⟨by rw [Store.get?, rows, Store.get?], by rw [about, deliveries, about]⟩

end Session

namespace Steps

variable {α β : Type} {now : Instant} {x : ProcessId}

/-- An effect that concerns the process `x` only. -/
structure Confined (now : Instant) (x : ProcessId) (effect : Session → Session) : Prop where
  stable : ∀ s : Session, s.Stable now → (effect s).Stable now
  apart : ∀ s : Session, s.Stable now → ∀ y, y ≠ x → s.Agrees y (effect s)
  agrees : ∀ s s' : Session, s.Stable now → s'.Stable now → s.Agrees x s' →
    (effect s).Agrees x (effect s')

/-- The two computations take the same steps for the process `x` in sessions that agree about it,
and come to the same answer, of which `P` holds. -/
inductive Alike (now : Instant) (x : ProcessId) (P : α → Prop) : Steps α → Steps α → Prop
  | done {a : α} (holds : P a) : Alike now x P (.done a) (.done a)
  | act {effect : Session → Session} {next next' : Session → Steps α}
      (confined : Confined now x effect)
      (later : ∀ s s' : Session, s.Stable now → s'.Stable now → s.Agrees x s' →
        Alike now x P (next s) (next' s')) :
      Alike now x P (.act effect next) (.act effect next')

namespace Alike

variable {P : α → Prop} {Q : β → Prop} {t t' : Steps α}

theorem bind {f f' : α → Steps β} (alike : Alike now x P t t')
    (later : ∀ a, P a → Alike now x Q (f a) (f' a)) : Alike now x Q (t >>= f) (t' >>= f') := by
  induction alike with
  | done holds => exact later _ holds
  | act confined _ ih => exact .act confined fun s s' good good' same => ih s s' good good' same

/-- A computation for the process `x` leaves everything about the others as it is. -/
theorem apart (alike : Alike now x P t t') {s : Session} (stable : s.Stable now) :
    (t.solo s).2.Stable now ∧ ∀ y, y ≠ x → s.Agrees y (t.solo s).2 := by
  induction alike generalizing s with
  | done _ => exact ⟨stable, fun y _ => .refl y s⟩
  | act confined _ ih =>
    have still := confined.stable s stable
    obtain ⟨ended, others⟩ := ih s s stable stable (.refl x s) still
    exact ⟨ended, fun y other => (confined.apart s stable y other).trans (others y other)⟩

/-- It comes to the same from sessions that agree about `x`. -/
theorem solo (alike : Alike now x P t t') {s s' : Session} (stable : s.Stable now)
    (stable' : s'.Stable now) (same : s.Agrees x s') :
    (t'.solo s').1 = (t.solo s).1 ∧ P (t.solo s).1 ∧ (t.solo s).2.Agrees x (t'.solo s').2 := by
  induction alike generalizing s s' with
  | done holds => exact ⟨rfl, holds, same⟩
  | act confined _ ih =>
    exact ih s s' stable stable' same (confined.stable s stable) (confined.stable s' stable')
      (confined.agrees s s' stable stable' same)

end Alike

/-- A single action for the process `x` only, with an answer that depends on nothing else. -/
theorem alike_once {P : α → Prop} {action : Session → α × Session}
    (confined : Confined now x fun s => (action s).2)
    (answers : ∀ s s' : Session, s.Stable now → s'.Stable now → s.Agrees x s' →
      (action s').1 = (action s).1 ∧ P (action s).1) :
    Alike now x P (once action) (once action) := by
  refine .act confined fun s s' stable stable' same => ?_
  obtain ⟨answer, holds⟩ := answers s s' stable stable' same
  rw [answer]
  exact .done holds

/-- An effect that writes no row and tells nobody. -/
theorem Confined.of_still {effect : Session → Session}
    (stable : ∀ s : Session, s.Stable now → (effect s).Stable now)
    (rows : ∀ s, (effect s).store.roster = s.store.roster)
    (deliveries : ∀ s, (effect s).deliveries = s.deliveries) : Confined now x effect where
  stable := stable
  apart s _ y _ := .of_same (rows s) (deliveries s) y
  agrees s s' _ _ same := by
    have back := Session.Agrees.of_same (rows s) (deliveries s) x
    exact back.symm.trans (same.trans (.of_same (rows s') (deliveries s') x))

/-- An effect that acts on the row of `x`, by what the row is, and tells nobody. -/
theorem Confined.of_row {effect : Session → Session}
    (change : Option TransferProcess → Option TransferProcess)
    (stable : ∀ s : Session, s.Stable now → (effect s).Stable now)
    (rows : ∀ s : Session, s.Stable now → ∀ y,
      (effect s).store.get? y = if x = y then change (s.store.get? x) else s.store.get? y)
    (deliveries : ∀ s, (effect s).deliveries = s.deliveries) : Confined now x effect where
  stable := stable
  apart s good y other := by
    refine ⟨?_, by rw [Session.about, deliveries, Session.about]⟩
    rw [rows s good, if_neg (Ne.symm other)]
  agrees s s' good good' same := by
    constructor
    · rw [rows s good, rows s' good', if_pos rfl, if_pos rfl, same.row]
    · rw [Session.about, Session.about, deliveries, deliveries]
      exact same.told

theorem alike_guard (id : ProcessId) : Alike now x (fun _ => True) (guard id) (guard id) := by
  refine alike_once (.of_still ?_ (fun s => ?_) fun s => s.deliveries_guard id) (by simp)
  · intro s stable
    exact ⟨by rw [Session.store_guard]; exact stable.reliable,
      by rw [Session.clock_guard]; exact stable.steady⟩
  · rw [Session.store_guard]

theorem alike_now : Alike now x (· = now) Steps.now Steps.now := by
  refine alike_once (.of_still ?_ (fun _ => rfl) fun _ => rfl) ?_
  · exact fun s stable => ⟨stable.reliable, stable.steady⟩
  · intro s s' stable stable' _
    exact ⟨(stable'.steady _).trans (stable.steady _).symm, stable.steady _⟩

theorem alike_load :
    Alike now x (fun answer => ∃ row, answer = .ok row ∧ ∀ p ∈ row, p.id = x) (load x)
      (load x) := by
  refine alike_once (.of_still ?_ (fun s => s.store.roster_load x) fun _ => rfl) ?_
  · intro s stable
    rw [stable.load]
    exact ⟨stable.reliable, stable.steady⟩
  · intro s s' stable stable' same
    rw [stable.load, stable'.load, same.row]
    exact ⟨rfl, _, rfl, fun p stored => Roster.id_of_get? stored⟩

theorem alike_save {p : TransferProcess} (own : p.id = x) :
    Alike now x (· = .ok ()) (save p) (save p) := by
  refine alike_once (.of_row (fun _ => some p) ?_ ?_ fun _ => rfl) ?_
  · intro s stable
    rw [stable.save]
    exact ⟨stable.reliable, stable.steady⟩
  · intro s stable y
    rw [stable.save, ← own]
    exact Store.get?_put _ p y
  · intro s s' stable stable' _
    rw [stable.save, stable'.save]
    exact ⟨rfl, rfl⟩

theorem alike_create {p : TransferProcess} (own : p.id = x) :
    Alike now x (fun _ => True) (create p) (create p) := by
  have paths : ∀ s : Session, s.Stable now →
      s.store.create p = match s.store.get? x with
        | none => (.ok (), (s.store.record (.create p.id)).put p)
        | some _ => (.error (.alreadyExists p.id), s.store.record (.create p.id)) := by
    intro s stable
    simp only [Store.create, Store.fateOf, stable.reliable _, own]
    cases s.store.get? x <;> rfl
  refine alike_once (.of_row (fun row => row.or (some p)) ?_ ?_ fun _ => rfl) ?_
  · intro s stable
    rw [paths s stable]
    cases s.store.get? x <;> exact ⟨stable.reliable, stable.steady⟩
  · intro s stable y
    rw [paths s stable]
    cases stored : s.store.get? x with
    | none =>
      rw [← own]
      exact Store.get?_put _ p y
    | some q =>
      change s.store.get? y = _
      by_cases same : x = y
      · rw [if_pos same, ← same, stored]
        rfl
      · rw [if_neg same]
  · intro s s' stable stable' same
    rw [paths s stable, paths s' stable', same.row]
    cases s.store.get? x <;> exact ⟨rfl, trivial⟩

theorem alike_hear {l : Listener} (quiet : l.Quiet) (detached : l.Detached) (place : Nat)
    {cb : Callback} (own : cb.process.id = x) :
    Alike now x (fun r => ∀ c, r ≠ .submit c) (hear place l cb) (hear place l cb) := by
  have told : ∀ (s : Session) y, (s.deliver ⟨place, cb⟩).about y =
      if x = y then ⟨place, cb⟩ :: s.about y else s.about y := by
    intro s y
    rw [Session.about, Session.deliver, List.filter_cons, own]
    by_cases same : x = y <;> simp [same, Session.about]
  refine alike_once ⟨?_, ?_, ?_⟩ ?_
  · exact fun s stable => ⟨stable.reliable, stable.steady⟩
  · intro s _ y other
    exact ⟨rfl, by rw [told, if_neg (Ne.symm other)]⟩
  · intro s s' _ _ same
    exact ⟨same.row, by rw [told, told, if_pos rfl, if_pos rfl, same.told]⟩
  · intro s s' _ _ _
    exact ⟨detached _ _ cb, quiet _ cb⟩

theorem alike_commit (h : Handler) {c : Command} (own : c.processId = x) :
    Alike now x (fun answer => ∀ p previous, answer = .ok (.changed p previous) → p.id = x)
      (commit h c) (commit h c) := by
  unfold commit
  rw [own]
  refine alike_load.bind ?_
  rintro _ ⟨row, rfl, known⟩
  cases row with
  | none => exact .done (by simp)
  | some current =>
    refine alike_now.bind fun time _ => ?_
    have id : current.id = x := known current rfl
    cases decided : h.decide current c time with
    | error i => exact .done (by simp)
    | ok decision =>
      cases decision with
      | reject f => exact .done (by simp)
      | keep p => exact .done (by simp)
      | write next =>
        have same : next.id = x := (Handler.of_decide_write decided).1.trans id
        refine (alike_save same).bind ?_
        rintro _ rfl
        refine .done fun p previous eq => ?_
        split at eq
        · cases eq
        · cases eq
          exact same

section Listening

variable {submit submit' : Command → Steps Attempt} {listeners : List Listener}

theorem alike_call {l : Listener} (quiet : l.Quiet) (detached : l.Detached) (place : Nat)
    {cbs : List Callback} (own : ∀ cb ∈ cbs, cb.process.id = x) :
    Alike now x (fun _ => True) (call submit place l cbs) (call submit' place l cbs) := by
  induction cbs with
  | nil => exact .done trivial
  | cons cb rest ih =>
    refine (alike_hear quiet detached place (own cb List.mem_cons_self)).bind ?_
    intro reaction answers
    cases reaction with
    | none => exact ih fun cb member => own cb (List.mem_cons_of_mem _ member)
    | abort reason => exact .done trivial
    | submit c => exact absurd rfl (answers c)

theorem alike_announce (quiet : ∀ l ∈ listeners, l.Quiet)
    (detached : ∀ l ∈ listeners, l.Detached) {p : TransferProcess} (own : p.id = x)
    (previous : State) (place : Nat) :
    Alike now x (fun _ => True) (announce submit p previous place listeners)
      (announce submit' p previous place listeners) := by
  induction listeners generalizing place with
  | nil => exact .done trivial
  | cons l rest ih =>
    have called : Alike now x (fun _ => True)
        (call submit place l ((Hook.ofState p.state).map (⟨·, p, previous⟩)))
        (call submit' place l ((Hook.ofState p.state).map (⟨·, p, previous⟩))) := by
      refine alike_call (quiet l List.mem_cons_self) (detached l List.mem_cons_self) place ?_
      intro cb member
      obtain ⟨hook, -, rfl⟩ := List.mem_map.1 member
      exact own
    refine called.bind fun stopped _ => ?_
    cases stopped with
    | some reason => exact .done trivial
    | none =>
      exact ih (fun l member => quiet l (List.mem_cons_of_mem _ member))
        (fun l member => detached l (List.mem_cons_of_mem _ member)) (place + 1)

end Listening

end Steps

namespace Engine

open Steps (Alike)

variable {e : Engine} {now : Instant} {x : ProcessId}

/-- Listeners that submit nothing and look at the callback alone. One that submitted commands for
other processes would make of their parts something else than their own records do. -/
structure Bystanders (listeners : List Listener) : Prop where
  quiet : ∀ l ∈ listeners, l.Quiet
  detached : ∀ l ∈ listeners, l.Detached

theorem alike_stepsWith {d : Dispatcher} (bystanders : Bystanders d.listeners)
    (submit submit' : Command → Steps Attempt) {c : Command} (own : c.processId = x) :
    Alike now x (fun _ => True) (d.stepsWith submit c) (d.stepsWith submit' c) := by
  unfold Dispatcher.stepsWith
  cases d.registry.resolve c.kind with
  | none => exact .done trivial
  | some h =>
    cases c.invalid? with
    | some f => exact .done trivial
    | none =>
      refine (Steps.alike_guard c.processId).bind fun _ _ => ?_
      refine (Steps.alike_commit h own).bind fun committed moved => ?_
      rcases committed with i | _ | _ | ⟨p, previous⟩
      · exact .done trivial
      · exact .done trivial
      · exact .done trivial
      · refine (Steps.alike_announce bystanders.quiet bystanders.detached
          (moved p previous rfl) previous 0).bind fun stopped _ => ?_
        cases stopped <;> exact .done trivial

/-- How deep the listeners may submit does not matter, as they submit nothing. -/
theorem alike_stepsWithin {d : Dispatcher} (bystanders : Bystanders d.listeners)
    (depth depth' : Nat) {c : Command} (own : c.processId = x) :
    Alike now x (fun _ => True) (d.stepsWithin depth c) (d.stepsWithin depth' c) := by
  cases depth <;> cases depth' <;> exact alike_stepsWith bystanders _ _ own

theorem alike_steps {d : Dispatcher} (bystanders : Bystanders d.listeners) {c : Command}
    (own : c.processId = x) : Alike now x (fun _ => True) (d.steps c) (d.steps c) := by
  refine .act (.of_still (fun s stable => stable) (fun _ => rfl) fun _ => rfl) ?_
  exact fun s s' _ _ _ => alike_stepsWithin bystanders _ _ own

theorem alike_drainSteps {d : Dispatcher} (bystanders : Bystanders d.listeners)
    (policy : RetryPolicy) {q : Queue} (own : ∀ item ∈ q, item.command.processId = x) :
    Alike now x (fun _ => True) (q.drainSteps policy d.steps) (q.drainSteps policy d.steps) := by
  fun_induction Queue.drainSteps policy d.steps q with
  | case1 => exact .done trivial
  | case2 item rest ih =>
    refine (alike_steps bystanders (own item List.mem_cons_self)).bind fun attempt _ => ?_
    cases attempt with
    | error i => exact .done trivial
    | ok outcome =>
      refine (ih outcome ?_).bind fun _ _ => .done trivial
      intro other member
      rcases Queue.command_of_mem_settle member with old | same
      · exact own other (List.mem_cons_of_mem _ old)
      · rw [same]
        exact own item List.mem_cons_self

theorem alike_recordSteps (bystanders : Bystanders e.dispatcher.listeners) {r : Record}
    (own : r.processId = x) :
    Alike now x (fun _ => True) (e.recordSteps r) (e.recordSteps r) := by
  cases r with
  | initiate id =>
    refine Steps.alike_now.bind fun time _ => ?_
    have same : (TransferProcess.initial id time).id = x := own
    refine (Steps.alike_create same).bind fun answer _ => ?_
    cases answer <;> exact .done trivial
  | command c =>
    refine alike_drainSteps bystanders e.policy fun item member => ?_
    rw [List.mem_singleton.1 member]
    exact own

/-- A run of records about one process concerns that process only. -/
theorem alike_runSteps (bystanders : Bystanders e.dispatcher.listeners) {records : List Record}
    (own : ∀ r ∈ records, r.processId = x) (total : Tally) :
    Alike now x (fun _ => True) (e.runSteps total records) (e.runSteps total records) := by
  induction records generalizing total with
  | nil => exact .done trivial
  | cons r rest ih =>
    refine (alike_recordSteps bystanders (own r List.mem_cons_self)).bind fun answer _ => ?_
    cases answer with
    | error i => exact .done trivial
    | ok tally => exact ih (fun r member => own r (List.mem_cons_of_mem _ member)) (total.add tally)

end Engine

end TransferLifecycle
