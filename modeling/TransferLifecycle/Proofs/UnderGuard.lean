import TransferLifecycle.Proofs.Callers

set_option autoImplicit false

/- What a command relies on while it is under its guard. Others may come in between its stages, but
the row of its process is the one that it found until it saves another. So each stage is one that
the command comes to alone, and so is the answer. -/
namespace TransferLifecycle

namespace Session

variable {x : ProcessId} {s mid after : Session}

/-- Of the rows, at most that of `x` is another. -/
structure Touches (x : ProcessId) (s after : Session) : Prop where
  world : s.SameWorld after
  others : ∀ y, y ≠ x → after.store.get? y = s.store.get? y

theorem Touches.refl (x : ProcessId) (s : Session) : s.Touches x s :=
  ⟨⟨rfl, rfl⟩, fun _ _ => rfl⟩

theorem Touches.trans (first : s.Touches x mid) (second : mid.Touches x after) :
    s.Touches x after :=
  ⟨first.world.trans second.world,
    fun y other => (second.others y other).trans (first.others y other)⟩

theorem Touches.of_roster (world : s.SameWorld after)
    (rows : after.store.roster = s.store.roster) : s.Touches x after :=
  ⟨world, fun y _ => by rw [Store.get?, rows, Store.get?]⟩

theorem touches_guard (s : Session) (id : ProcessId) : s.Touches x (s.guard id) :=
  .of_roster (s.sameWorld_guard id) (by rw [store_guard])

end Session

theorem Engine.initiate_of_stable {now : Instant} {s : Session} (stable : s.Stable now)
    (id : ProcessId) :
    (initiate s id).1 = .ofResult ((Record.initiate id).result? now (s.store.get? id)) ∧
      s.Touches id (initiate s id).2 ∧
      (initiate s id).2.store.get? id = (Record.initiate id).next now (s.store.get? id) ∧
      (initiate s id).2.deliveries = s.deliveries := by
  have world := initiate_sameWorld stable.reliable.atomic id
  have time : s.clock.now = now := stable.steady _
  cases initiate_initiated stable.reliable.atomic id with
  | refused fate _ _ _ =>
    rw [Store.fateOf, stable.reliable] at fate
    cases fate
  | stepped _ counted rows =>
    rw [time] at counted rows
    have row : ∀ y, (initiate s id).2.store.get? y =
        if id = y then (Record.initiate id).next now (s.store.get? y) else s.store.get? y := by
      intro y
      rw [Store.get?, rows]
      exact Roster.get?_step _ now (.initiate id) y
    refine ⟨counted, ⟨world, fun y other => ?_⟩, ?_, deliveries_initiate s id⟩
    · rw [row, if_neg (Ne.symm other)]
    · rw [row, if_pos rfl]

namespace Stage

/-- What is to be saved is of the process `x`. -/
def Own (x : ProcessId) : Stage → Prop
  | handled _ next => next.id = x
  | _ => True

/-- A command has come to a stage from the row `stored`, with `visible` in its place. Only what was
saved is visible before the answer. -/
inductive Reached (h : Handler) (c : Command) (now : Instant) :
    Option TransferProcess → Stage → Option TransferProcess → Prop
  | acquired {row : Option TransferProcess} : Reached h c now row acquired row
  | loaded {current : TransferProcess} :
      Reached h c now (some current) (loaded current) (some current)
  | handled {current next : TransferProcess}
      (decided : h.decide current c now = .ok (.write next)) :
      Reached h c now (some current) (handled current next) (some current)
  | saved {current next : TransferProcess}
      (decided : h.decide current c now = .ok (.write next))
      (moved : next.state ≠ current.state) :
      Reached h c now (some current) (saved next current.state) (some next)
  | answered {row : Option TransferProcess} {a : Attempt} : Reached h c now row (answered a) row

variable {h : Handler} {c : Command} {now : Instant} {stored visible : Option TransferProcess}
  {st : Stage} {x : ProcessId}

theorem Reached.own (reached : Reached h c now stored st visible)
    (ids : ∀ p, stored = some p → p.id = x) : st.Own x := by
  cases reached with
  | handled decided => exact (Handler.of_decide_write decided).1.trans (ids _ rfl)
  | _ => trivial

theorem Reached.isNone_eq (reached : Reached h c now stored st visible) :
    visible.isNone = stored.isNone := by cases reached <;> rfl

/-- An initiation does the same to both rows: it creates only where nothing was found. -/
theorem Reached.initiate (reached : Reached h c now stored st visible) (id : ProcessId) :
    Reached h c now ((Record.initiate id).next now stored) st
      ((Record.initiate id).next now visible) := by
  have kept : ∀ p, (Record.initiate id).next now (some p) = some p := fun p => rfl
  cases reached with
  | acquired => exact .acquired
  | loaded => simpa only [kept] using .loaded
  | handled decided => simpa only [kept] using .handled decided
  | saved decided moved => simpa only [kept] using .saved decided moved
  | answered => exact .answered

end Stage

namespace Dispatcher

section Stages

variable {d : Dispatcher} {h : Handler} {c : Command} {st : Stage} {now : Instant} {x : ProcessId}
  {s t : Session}

theorem advance_touches (quiet : ∀ l ∈ d.listeners, l.Quiet)
    (submit : Session → Command → Attempt × Session) (own : st.Own x) (s : Session) :
    s.Touches x (d.advance submit h c st s).2 := by
  cases st with
  | acquired =>
    refine .of_roster ⟨?_, rfl⟩ (s.store.roster_load c.processId)
    simp only [advance, Store.load]
    split <;> rfl
  | loaded current => exact .of_roster ⟨rfl, rfl⟩ rfl
  | handled current next =>
    refine ⟨⟨?_, rfl⟩, fun y other => s.store.get?_save_of_ne ?_⟩
    · simp only [advance, Store.save]
      split <;> rfl
    · rw [show next.id = x from own]
      exact Ne.symm other
  | saved p previous =>
    obtain ⟨heard, told, -⟩ := Session.announce_of_quiet submit quiet p previous 0 s
    rw [advance, told]
    exact .of_roster ⟨rfl, rfl⟩ rfl
  | answered a => exact .of_roster ⟨rfl, rfl⟩ rfl

/-- A stage sees of the session the row of its process, the time and what was told. -/
theorem advance_congr (quiet : ∀ l ∈ d.listeners, l.Quiet)
    (submit submit' : Session → Command → Attempt × Session) (stable : s.Stable now)
    (stable' : t.Stable now) (own : st.Own c.processId)
    (row : t.store.get? c.processId = s.store.get? c.processId)
    (told : t.deliveries = s.deliveries) :
    (d.advance submit' h c st t).1 = (d.advance submit h c st s).1 ∧
      (d.advance submit' h c st t).2.store.get? c.processId =
        (d.advance submit h c st s).2.store.get? c.processId ∧
      (d.advance submit' h c st t).2.deliveries = (d.advance submit h c st s).2.deliveries := by
  cases st with
  | acquired =>
    simp only [advance, stable.load, stable'.load, row]
    exact ⟨trivial, row, told⟩
  | loaded current =>
    simp only [advance, Clock.now, stable.steady _, stable'.steady _]
    exact ⟨trivial, row, told⟩
  | handled current next =>
    simp only [advance, stable.save, stable'.save, Store.get?_put, Store.get?_record]
    exact ⟨trivial, by rw [row], told⟩
  | saved p previous =>
    obtain ⟨ended, same⟩ :=
      Session.announce_of_told submit submit' quiet p previous 0 told
    obtain ⟨heard, eq, -⟩ := Session.announce_of_quiet submit quiet p previous 0 s
    obtain ⟨heard', eq', -⟩ := Session.announce_of_quiet submit' quiet p previous 0 t
    simp only [advance, ended]
    refine ⟨trivial, ?_, same⟩
    rw [eq, eq']
    exact row
  | answered a => exact ⟨rfl, row, told⟩

end Stages

end Dispatcher

namespace Stage.Reached

variable {d : Dispatcher} {h : Handler} {c : Command} {now : Instant} {st : Stage}
  {stored : Option TransferProcess} {s t : Session}

/-- A stage is followed by an answer, or by a stage reached from the same row. -/
theorem advance (submit : Session → Command → Attempt × Session) (stable : s.Stable now)
    (own : st.Own c.processId)
    (reached : Reached h c now stored st (s.store.get? c.processId)) :
    (∃ a, (d.advance submit h c st s).1 = .answered a) ∨
      (Reached h c now stored (d.advance submit h c st s).1
          ((d.advance submit h c st s).2.store.get? c.processId) ∧
        (d.advance submit h c st s).2.deliveries = s.deliveries) := by
  generalize row : s.store.get? c.processId = visible at reached
  cases reached with
  | acquired =>
    simp only [Dispatcher.advance, stable.load, row]
    cases stored with
    | none => exact .inl ⟨_, rfl⟩
    | some current =>
      rw [Store.get?_record, row]
      exact .inr ⟨.loaded, trivial⟩
  | @loaded current =>
    simp only [Dispatcher.advance, Clock.now, stable.steady _, row]
    cases decided : h.decide current c now with
    | error i => exact .inl ⟨_, rfl⟩
    | ok decision =>
      cases decision with
      | reject f => exact .inl ⟨_, rfl⟩
      | keep p => exact .inl ⟨_, rfl⟩
      | write next => exact .inr ⟨.handled decided, trivial⟩
  | @handled current next decided =>
    simp only [Dispatcher.advance, stable.save, Store.get?_put]
    by_cases same : next.state = current.state
    · exact .inl ⟨.ok (.success next), by rw [Stage.ofSave, if_pos same]⟩
    · rw [Stage.ofSave, if_neg same, if_pos (show next.id = c.processId from own)]
      exact .inr ⟨.saved decided same, trivial⟩
  | saved _ _ => exact .inl ⟨_, rfl⟩
  | answered => exact .inl ⟨_, rfl⟩

end Stage.Reached

namespace Dispatcher

/-- From `t` and with nothing in between, a command comes to a stage and to the session `mid`. -/
structure Alone (d : Dispatcher) (submit : Session → Command → Attempt × Session) (h : Handler)
    (c : Command) (t : Session) (st : Stage) (mid : Session) : Prop where
  finish : d.finish submit h c st mid = d.finish submit h c .acquired (t.guard c.processId)
  touches : t.Touches c.processId mid
  deliveries : mid.deliveries = t.deliveries

section Alone

variable {d : Dispatcher} {submit : Session → Command → Attempt × Session} {h : Handler}
  {c : Command} {now : Instant} {st st' : Stage} {current changed : TransferProcess}
  {s t mid after : Session}

theorem alone_acquired (t : Session) :
    Alone d submit h c t .acquired (t.guard c.processId) :=
  ⟨rfl, t.touches_guard c.processId, t.deliveries_guard c.processId⟩

theorem Alone.next (alone : Alone d submit h c t st mid)
    (step : d.advance submit h c st mid = (st', after)) (touches : mid.Touches c.processId after)
    (untold : after.deliveries = mid.deliveries) : Alone d submit h c t st' after := by
  refine ⟨?_, alone.touches.trans touches, untold.trans alone.deliveries⟩
  rw [← alone.finish, ← d.finish_advance submit h c st mid, step]

variable (d submit h)

theorem exists_alone_loaded (stable : t.Stable now)
    (stored : t.store.get? c.processId = some current) :
    ∃ mid, Alone d submit h c t (.loaded current) mid ∧
      mid.store.get? c.processId = some current := by
  have start : Alone d submit h c t .acquired (t.guard c.processId) := alone_acquired t
  have row : (t.guard c.processId).store.get? c.processId = some current := by
    rw [Session.store_guard, stored]
  generalize t.guard c.processId = begun at start row
  have step : d.advance submit h c .acquired begun =
      (.loaded current, { begun with store := begun.store.record (.load c.processId) }) := by
    rw [advance, (start.touches.world.stable stable).load, row]
    rfl
  exact ⟨_, start.next step (.of_roster ⟨rfl, rfl⟩ rfl) rfl, row⟩

theorem exists_alone_handled (stable : t.Stable now)
    (stored : t.store.get? c.processId = some current)
    (decided : h.decide current c now = .ok (.write changed)) :
    ∃ mid, Alone d submit h c t (.handled current changed) mid ∧
      mid.store.get? c.processId = some current := by
  obtain ⟨mid, alone, row⟩ := exists_alone_loaded d submit h stable stored
  have time : mid.clock.now = now := (alone.touches.world.stable stable).steady _
  have step : d.advance submit h c (.loaded current) mid =
      (.handled current changed, { mid with clock := mid.clock.advance }) := by
    rw [advance, time, decided]
    rfl
  exact ⟨_, alone.next step (.of_roster ⟨rfl, rfl⟩ rfl) rfl, row⟩

theorem exists_alone_saved (stable : t.Stable now)
    (stored : t.store.get? c.processId = some current)
    (decided : h.decide current c now = .ok (.write changed))
    (moved : changed.state ≠ current.state) :
    ∃ mid, Alone d submit h c t (.saved changed current.state) mid ∧
      mid.store.get? c.processId = some changed := by
  obtain ⟨mid, alone, row⟩ := exists_alone_handled d submit h stable stored decided
  have own : changed.id = c.processId :=
    (Handler.of_decide_write decided).1.trans (Roster.id_of_get? stored)
  have step : d.advance submit h c (.handled current changed) mid =
      (.saved changed current.state,
        { mid with store := (mid.store.record (.save changed.id)).put changed }) := by
    rw [advance, (alone.touches.world.stable stable).save, Stage.ofSave, if_neg moved]
  refine ⟨_, alone.next step ⟨⟨rfl, rfl⟩, fun y other => ?_⟩ rfl, ?_⟩
  · exact (Store.get?_put _ changed y).trans (if_neg (own ▸ Ne.symm other))
  · exact (Store.get?_put _ changed c.processId).trans (if_pos own)

/-- A stage that was reached while others were at work is reached alone, from the same row. -/
theorem exists_alone {visible : Option TransferProcess} (stable : t.Stable now)
    (pending : st.answer? = none)
    (reached : Stage.Reached h c now (t.store.get? c.processId) st visible) :
    ∃ mid, Alone d submit h c t st mid ∧ mid.store.get? c.processId = visible := by
  generalize stored : t.store.get? c.processId = row at reached
  cases reached with
  | acquired => exact ⟨_, alone_acquired t, by rw [Session.store_guard, stored]⟩
  | loaded => exact exists_alone_loaded d submit h stable stored
  | handled decided => exact exists_alone_handled d submit h stable stored decided
  | saved decided moved => exact exists_alone_saved d submit h stable stored decided moved
  | answered => cases pending

variable {d h}

/-- The answer that a stage comes to is the answer to the command where it is applied alone, and it
leaves the same row and has told the same. -/
theorem apply_of_answered (quiet : ∀ l ∈ d.listeners, l.Quiet) {a : Attempt}
    (admitted : d.gate c = .ok h) (stable : s.Stable now) (stable' : t.Stable now)
    (told : s.deliveries = t.deliveries) (pending : st.answer? = none)
    (reached : Stage.Reached h c now (t.store.get? c.processId) st (s.store.get? c.processId))
    (answered : (d.advance submit h c st s).1 = .answered a) :
    (d.apply t c).1 = a ∧ t.Touches c.processId (d.apply t c).2 ∧
      (d.apply t c).2.store.get? c.processId =
        (d.advance submit h c st s).2.store.get? c.processId ∧
      (d.apply t c).2.deliveries = (d.advance submit h c st s).2.deliveries := by
  obtain ⟨submit', -, eq⟩ := d.apply_eq_applyWith t c
  obtain ⟨mid, alone, row⟩ := exists_alone d submit' h stable' pending reached
  have own := reached.own fun p stored => Roster.id_of_get? stored
  -- Nothing is told before the answer, so that `mid` has told what `s` has.
  obtain ⟨same, rows, heard⟩ := advance_congr (h := h) quiet submit submit' stable
    (alone.touches.world.stable stable') own row (alone.deliveries.trans told.symm)
  have last : t.Touches c.processId (d.advance submit' h c st mid).2 :=
    alone.touches.trans (advance_touches quiet submit' own mid)
  rw [eq, applyWith_of_admitted admitted, ← alone.finish, ← finish_advance, same, answered,
    finish_answered]
  exact ⟨rfl, last, rows, heard⟩

end Alone

end Dispatcher

end TransferLifecycle
