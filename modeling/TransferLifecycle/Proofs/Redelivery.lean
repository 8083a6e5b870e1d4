import TransferLifecycle.Proofs.ProcesswiseRuns
import TransferLifecycle.Proofs.QuietCommands

set_option autoImplicit false

/- Records that are delivered more than once. A further copy that comes before the next record of
its process finds its own work done: it changes no row and tells nobody. So a run with such copies
goes the way of the run without them. -/
namespace TransferLifecycle

open Record (about)

namespace Session

variable {s t : Session}

/-- Two sessions with the same rows and the same things told. What was called, read and locked may
differ. -/
structure Mirrors (s t : Session) : Prop where
  rows : t.store.roster = s.store.roster
  deliveries : t.deliveries = s.deliveries

theorem Mirrors.get? (mirrors : s.Mirrors t) (id : ProcessId) :
    t.store.get? id = s.store.get? id := by rw [Store.get?, mirrors.rows, Store.get?]

end Session

namespace Dispatcher

variable {d : Dispatcher} {submit submit' : Session → Command → Attempt × Session} {now : Instant}
  {s t after after' : Session} {c : Command} {answer answer' : Attempt}

/-- The ways of a command in two such sessions, at the same time, are the same way. -/
theorem Judged.congr (quiet : ∀ l ∈ d.listeners, l.Quiet) (mirrors : s.Mirrors t)
    (time : t.clock.now = s.clock.now) (path : d.Judged submit s c answer after)
    (path' : d.Judged submit' t c answer' after') :
    answer' = answer ∧ after'.deliveries = after.deliveries := by
  have row := mirrors.get? c.processId
  cases path with
  | untold verdict leaves _ _ deliveries =>
    cases path' with
    | untold verdict' _ _ _ deliveries' =>
      rw [verdict, verdict', row, time, deliveries, deliveries', mirrors.deliveries]
      exact ⟨rfl, rfl⟩
    | told valid stored source _ =>
      rw [verdict, ← row, stored] at leaves
      exact (Command.not_leaves_of_source valid source leaves).elim
  | @told old stopped _ valid stored source heard =>
    cases path' with
    | untold verdict leaves _ _ _ =>
      rw [verdict, row, stored] at leaves
      exact (Command.not_leaves_of_source valid source leaves).elim
    | told _ stored' _ heard' =>
      obtain rfl := Option.some.inj (stored.symm.trans (row.symm.trans stored'))
      have same : (t.acted c old).deliveries = (s.acted c old).deliveries := by
        rw [Session.deliveries_acted, Session.deliveries_acted, mirrors.deliveries]
      have alike := Session.announce_of_told submit submit' quiet (c.moved old s.clock.now)
        old.state 0 same
      rw [time] at heard' ⊢
      rw [heard, heard'] at alike
      exact ⟨congrArg _ alike.1, alike.2⟩

/-- A command comes to the same in sessions with the same rows and the same things told. -/
theorem apply_mirrors (standard : d.registry = Registry.standard)
    (quiet : ∀ l ∈ d.listeners, l.Quiet) (stable : s.Stable now) (stable' : t.Stable now)
    (mirrors : s.Mirrors t) (c : Command) :
    (d.apply t c).1 = (d.apply s c).1 ∧ (d.apply s c).2.Mirrors (d.apply t c).2 := by
  have time : t.clock.now = s.clock.now := (stable'.steady _).trans (stable.steady _).symm
  obtain ⟨submit, -, eq⟩ := d.apply_eq_applyWith s c
  obtain ⟨submit', -, eq'⟩ := d.apply_eq_applyWith t c
  have path := d.applyWith_judged standard submit stable.reliable c
  have path' := d.applyWith_judged standard submit' stable'.reliable c
  obtain ⟨answer, deliveries⟩ := path.congr quiet mirrors time path'
  have rows := (path.settles quiet).rows
  have rows' := (path'.settles quiet).rows
  rw [eq, eq']
  refine ⟨answer, ?_, deliveries⟩
  rw [rows, rows', mirrors.rows, time]

end Dispatcher

namespace Record

variable {r : Record} {now : Instant}

/-- A command that is repeated at once gives the same result again. -/
theorem result?_command_next (c : Command) (now : Instant) (stored : Option TransferProcess) :
    (command c).result? now ((command c).next now stored) = (command c).result? now stored := by
  simp only [next, result?]
  cases verdict : c.verdict now stored with
  | failure f => rw [Option.none_or, verdict]
  | success p =>
    rw [Option.some_or]
    unfold Command.verdict at verdict ⊢
    cases valid : c.invalid? with
    | some f => simp [valid] at verdict
    | none =>
      cases stored with
      | none => simp [valid] at verdict
      | some old =>
        simp only [valid] at verdict ⊢
        rcases c.applyTo_cases old now with ⟨there, eq⟩ | ⟨-, eq⟩ | eq <;> rw [eq] at verdict <;>
          cases verdict
        · rw [eq]
        · rw [Command.applyTo_of_target (c.moved_state old now)]

/-- An initiation that is repeated is in vain. -/
theorem result?_initiate_next (id : ProcessId) (now : Instant) (stored : Option TransferProcess) :
    (initiate id).result? now ((initiate id).next now stored) = none := by
  cases stored <;> simp [next, result?]

/-- A record that is repeated at once changes nothing more. -/
theorem next_next (r : Record) (now : Instant) (stored : Option TransferProcess) :
    r.next now (r.next now stored) = r.next now stored := by
  cases r with
  | initiate id =>
    rw [next, result?_initiate_next, Option.none_or]
  | command c =>
    rw [next, result?_command_next, next]
    cases (command c).result? now stored <;> rfl

end Record

/-- A record as it arrives: for the first time, or as a further copy. -/
structure Arrival where
  record : Record
  again : Bool
  deriving DecidableEq, Repr

namespace Arrival

/-- All records as they arrive. -/
def all (log : List Arrival) : List Record := log.map record

/-- The records without the further copies. -/
def firsts (log : List Arrival) : List Record := (log.filter (!·.again)).map record

/-- Each further copy is one of the last record of its process, where `past` are the records that
arrived for the first time so far. -/
def inTime (past : List Record) : List Arrival → Bool
  | [] => true
  | a :: rest =>
    if a.again then
      (about a.record.processId past).getLast? == some a.record && inTime past rest
    else inTime (past ++ [a.record]) rest

variable {past : List Record} {a : Arrival}

theorem firsts_cons_of_again (again : a.again = true) (rest : List Arrival) :
    firsts (a :: rest) = firsts rest := by simp [firsts, again]

theorem firsts_cons_of_first (first : a.again = false) (rest : List Arrival) :
    firsts (a :: rest) = a.record :: firsts rest := by simp [firsts, first]

theorem all_append (earlier later : List Arrival) :
    all (earlier ++ later) = all earlier ++ all later := List.map_append

theorem inTime_append (earlier later : List Arrival) :
    inTime past (earlier ++ later) =
      (inTime past earlier && inTime (past ++ firsts earlier) later) := by
  induction earlier generalizing past with
  | nil => simp [inTime, firsts]
  | cons a rest ih =>
    rw [List.cons_append, inTime, inTime, ih, ih]
    cases again : a.again with
    | true => rw [firsts_cons_of_again again, if_pos rfl, if_pos rfl, Bool.and_assoc]
    | false =>
      rw [firsts_cons_of_first again, List.append_assoc, if_neg Bool.false_ne_true,
        if_neg Bool.false_ne_true, List.singleton_append]

/-- Until the next record of a process arrives, all that arrives about it are copies of the last. -/
theorem eq_of_inTime {x : ProcessId} {r : Record} (last : (about x past).getLast? = some r)
    {log : List Arrival} (timely : inTime past log = true)
    (copies : ∀ b ∈ log, b.record.processId = x → b.again = true) {b : Arrival} (member : b ∈ log)
    (own : b.record.processId = x) : b.record = r := by
  induction log generalizing past with
  | nil => cases member
  | cons a rest ih =>
    have later := fun b member => copies b (List.mem_cons_of_mem _ member)
    rw [inTime] at timely
    cases again : a.again with
    | true =>
      rw [again, if_pos rfl, Bool.and_eq_true, beq_iff_eq] at timely
      rcases List.mem_cons.1 member with rfl | member
      · rw [own, last] at timely
        exact (Option.some.inj timely.1).symm
      · exact ih last timely.2 later member
    | false =>
      rw [again, if_neg Bool.false_ne_true] at timely
      have other : a.record.processId ≠ x := by
        intro same
        rw [copies a List.mem_cons_self same] at again
        cases again
      rcases List.mem_cons.1 member with rfl | member
      · exact absurd own other
      · refine ih ?_ timely later member
        rw [Record.about_append, Record.about_cons_of_ne other]
        simpa [about] using last

end Arrival

theorem Tally.add_left_cancel {a b c : Tally} (same : a.add b = a.add c) : b = c := by
  obtain ⟨_, _, _, _⟩ := b
  obtain ⟨_, _, _, _⟩ := c
  simpa [Tally.add] using same

namespace Engine

open Arrival (all firsts inTime)

variable {e : Engine} {now : Instant} {s t : Session} {past : List Record}

theorem apply_stable (standard : e.dispatcher.registry = Registry.standard)
    (quiet : ∀ l ∈ e.dispatcher.listeners, l.Quiet) (stable : s.Stable now) (r : Record) :
    (e.apply s r).2.Stable now :=
  (apply_settles standard quiet stable.reliable r).world.stable stable

/-- A record comes to the same in sessions with the same rows and the same things told. -/
theorem apply_mirrors (standard : e.dispatcher.registry = Registry.standard)
    (quiet : ∀ l ∈ e.dispatcher.listeners, l.Quiet) (stable : s.Stable now)
    (stable' : t.Stable now) (mirrors : s.Mirrors t) (r : Record) :
    (e.apply t r).1 = (e.apply s r).1 ∧ (e.apply s r).2.Mirrors (e.apply t r).2 := by
  have time : t.clock.now = s.clock.now := (stable'.steady _).trans (stable.steady _).symm
  have settles := apply_settles standard quiet stable.reliable r
  have settles' := apply_settles standard quiet stable'.reliable r
  have rows : (e.apply t r).2.store.roster = (e.apply s r).2.store.roster := by
    rw [settles'.rows, settles.rows, mirrors.rows, time]
  cases r with
  | initiate id =>
    have answer : (e.apply t (.initiate id)).1 = (e.apply s (.initiate id)).1 := by
      rcases settles.answered with given | ⟨reason, aborted⟩
      · rcases settles'.answered with given' | ⟨reason, aborted⟩
        · rw [given, given', time, mirrors.get?]
        · cases aborted
      · cases aborted
    refine ⟨answer, rows, ?_⟩
    exact (deliveries_initiate t id).trans
      (mirrors.deliveries.trans (deliveries_initiate s id).symm)
  | command c =>
    obtain ⟨answer, after⟩ := Dispatcher.apply_mirrors standard quiet stable stable' mirrors c
    have settled := (Dispatcher.apply_settles standard quiet stable.reliable c).settled
    have settled' := (Dispatcher.apply_settles standard quiet stable'.reliable c).settled
    rw [apply_command_of_settled settled, apply_command_of_settled settled'] at rows ⊢
    exact ⟨congrArg (Except.map _) answer, rows, after.deliveries⟩

/-- A record that would change nothing more is a step that leaves the rows and what was told. -/
theorem apply_of_stays (standard : e.dispatcher.registry = Registry.standard)
    (quiet : ∀ l ∈ e.dispatcher.listeners, l.Quiet) (stable : s.Stable now) {r : Record}
    (stays : r.next now (s.store.get? r.processId) = s.store.get? r.processId) :
    (e.apply s r).1 = .ok (.ofResult (r.result? now (s.store.get? r.processId))) ∧
      s.Mirrors (e.apply s r).2 := by
  have settles := apply_settles standard quiet stable.reliable r
  have time : s.clock.now = now := stable.steady _
  rw [← time] at stays ⊢
  obtain ⟨answer, deliveries⟩ := settles.untold stays
  refine ⟨answer, Roster.ext_get? fun id => ?_, deliveries⟩
  rw [settles.rows, Roster.get?_step]
  split
  next same => rw [← same]; exact stays
  next => rfl

/-- The last record of each process, of those in `past`, would change nothing more. -/
def Settled (now : Instant) (past : List Record) (s : Session) : Prop :=
  ∀ r : Record, (about r.processId past).getLast? = some r →
    r.next now (s.store.get? r.processId) = s.store.get? r.processId

theorem Settled.congr (settled : Settled now past s) (mirrors : s.Mirrors t) :
    Settled now past t := by
  intro r last
  rw [mirrors.get?]
  exact settled r last

theorem settled_apply (standard : e.dispatcher.registry = Registry.standard)
    (quiet : ∀ l ∈ e.dispatcher.listeners, l.Quiet) (stable : s.Stable now)
    (settled : Settled now past s) (r : Record) : Settled now (past ++ [r]) (e.apply s r).2 := by
  have settles := apply_settles standard quiet stable.reliable r
  have time : s.clock.now = now := stable.steady _
  intro q last
  rw [Store.get?, settles.rows, Roster.get?_step, time]
  rw [Record.about_append] at last
  by_cases own : r.processId = q.processId
  · rw [Record.about_cons_self own] at last
    obtain rfl : r = q := by simpa [about] using last
    rw [if_pos rfl]
    exact r.next_next now _
  · rw [Record.about_cons_of_ne own] at last
    rw [if_neg own]
    refine settled q ?_
    simpa [about] using last

theorem run_cons_of_ok {r : Record} {tally : Tally} (answer : (e.apply s r).1 = .ok tally)
    (rest : List Record) :
    e.run s (r :: rest) =
      ((e.run (e.apply s r).2 rest).1.map tally.add, (e.run (e.apply s r).2 rest).2) := by
  rw [run_cons]
  rcases attempt : e.apply s r with ⟨result, mid⟩
  obtain rfl : result = .ok tally := by rw [attempt] at answer; exact answer
  rfl

theorem run_cons_of_error {r : Record} {i : Interruption} (answer : (e.apply s r).1 = .error i)
    (rest : List Record) : e.run s (r :: rest) = (.error i, (e.apply s r).2) := by
  rw [run_cons]
  rcases attempt : e.apply s r with ⟨result, mid⟩
  obtain rfl : result = .error i := by rw [attempt] at answer; exact answer
  rfl

theorem exists_ok_congr {result result' : Except Interruption Tally}
    (same : ∀ i, result = .error i ↔ result' = .error i) :
    (∃ total, result = .ok total) ↔ ∃ total, result' = .ok total := by
  cases result with
  | error i => simp [(same i).1 rfl]
  | ok total =>
    cases result' with
    | error i => cases (same i).2 rfl
    | ok total' => simp

theorem map_add_error_iff {tally : Tally} {result : Except Interruption Tally} (i : Interruption) :
    result.map tally.add = .error i ↔ result = .error i := by
  cases result <;> simp [Except.map]

theorem run_stable (standard : e.dispatcher.registry = Registry.standard)
    (quiet : ∀ l ∈ e.dispatcher.listeners, l.Quiet) (stable : s.Stable now) (log : List Record) :
    (e.run s log).2.Stable now := by
  induction log generalizing s with
  | nil => exact stable
  | cons r rest ih =>
    have still := apply_stable standard quiet stable r
    cases answer : (e.apply s r).1 with
    | error i => rw [run_cons_of_error answer]; exact still
    | ok tally => rw [run_cons_of_ok answer]; exact ih still

/-- A run with further copies goes the way of the run without them: from sessions with the same rows
and the same things told it comes to such sessions again, and an abort ends both or neither. The
induction is on the log; what the earlier records leave behind for a copy is that the last record of
its process is settled. -/
theorem run_mirrors (standard : e.dispatcher.registry = Registry.standard)
    (quiet : ∀ l ∈ e.dispatcher.listeners, l.Quiet) (stable : s.Stable now)
    (stable' : t.Stable now) (mirrors : s.Mirrors t) (settled : Settled now past s)
    {log : List Arrival} (timely : inTime past log = true) :
    (∀ i, (e.run t (all log)).1 = .error i ↔ (e.run s (firsts log)).1 = .error i) ∧
      (e.run s (firsts log)).2.Mirrors (e.run t (all log)).2 := by
  induction log generalizing s t past with
  | nil => exact ⟨fun i => Iff.rfl, mirrors⟩
  | cons a rest ih =>
    have begun : all (a :: rest) = a.record :: all rest := rfl
    have still' := apply_stable standard quiet stable' a.record
    rw [inTime] at timely
    cases again : a.again with
    | true =>
      rw [again, if_pos rfl, Bool.and_eq_true, beq_iff_eq] at timely
      obtain ⟨answer, same⟩ :=
        apply_of_stays standard quiet stable' (settled.congr mirrors _ timely.1)
      have kept : s.Mirrors (e.apply t a.record).2 :=
        ⟨same.rows.trans mirrors.rows, same.deliveries.trans mirrors.deliveries⟩
      obtain ⟨ended, last⟩ := ih stable still' kept settled timely.2
      rw [Arrival.firsts_cons_of_again again, begun, run_cons_of_ok answer]
      exact ⟨fun i => (map_add_error_iff i).trans (ended i), last⟩
    | false =>
      rw [again, if_neg Bool.false_ne_true] at timely
      obtain ⟨answer', same⟩ := apply_mirrors standard quiet stable stable' mirrors a.record
      rw [Arrival.firsts_cons_of_first again, begun]
      cases answer : (e.apply s a.record).1 with
      | error i =>
        rw [run_cons_of_error answer, run_cons_of_error (answer'.trans answer)]
        exact ⟨fun j => Iff.rfl, same⟩
      | ok tally =>
        have still := apply_stable standard quiet stable a.record
        have later := settled_apply standard quiet stable settled a.record
        obtain ⟨ended, last⟩ := ih still still' same later timely
        rw [run_cons_of_ok answer, run_cons_of_ok (answer'.trans answer)]
        exact ⟨fun i => (map_add_error_iff i).trans ((ended i).trans (map_add_error_iff i).symm),
          last⟩

theorem run_append_of_ok {first : List Record} {sum : Tally} (ran : (e.run s first).1 = .ok sum)
    (second : List Record) :
    e.run s (first ++ second) =
      ((e.run (e.run s first).2 second).1.map sum.add, (e.run (e.run s first).2 second).2) := by
  have begun : e.runFrom .zero s first = (.ok sum, (e.run s first).2) := Prod.ext ran rfl
  rw [run, e.runFrom_append_of_ok begun, runFrom_eq]

theorem run_append_of_error {first : List Record} {i : Interruption}
    (ran : (e.run s first).1 = .error i) (second : List Record) :
    (e.run s (first ++ second)).1 = .error i := by
  induction first generalizing s with
  | nil => cases ran
  | cons r rest ih =>
    cases answer : (e.apply s r).1 with
    | error j =>
      rw [run_cons_of_error answer] at ran
      rw [List.cons_append, run_cons_of_error answer]
      exact ran
    | ok tally =>
      rw [run_cons_of_ok answer, map_add_error_iff] at ran
      rw [List.cons_append, run_cons_of_ok answer, map_add_error_iff]
      exact ih ran

/-- A run that comes to its end has come to the end of its first part. -/
theorem run_ok_of_append {first second : List Record} {total : Tally}
    (ran : (e.run s (first ++ second)).1 = .ok total) : ∃ sum, (e.run s first).1 = .ok sum := by
  cases begun : (e.run s first).1 with
  | error i =>
    rw [run_append_of_error begun] at ran
    cases ran
  | ok sum => exact ⟨sum, rfl⟩

/-- A row that no record would change stays. -/
theorem run_of_stays (standard : e.dispatcher.registry = Registry.standard)
    (quiet : ∀ l ∈ e.dispatcher.listeners, l.Quiet) (stable : s.Stable now) {x : ProcessId}
    {row : Option TransferProcess} (stored : s.store.get? x = row) {log : List Record}
    (stays : ∀ r ∈ log, r.processId = x → r.next now row = row) :
    (e.run s log).2.store.get? x = row := by
  induction log generalizing s with
  | nil => exact stored
  | cons r rest ih =>
    have settles := apply_settles standard quiet stable.reliable r
    have time : s.clock.now = now := stable.steady _
    have kept : (e.apply s r).2.store.get? x = row := by
      rw [Store.get?, settles.rows, Roster.get?_step, time, ← Store.get?, stored]
      split
      next own => exact stays r List.mem_cons_self own
      next => rfl
    cases answer : (e.apply s r).1 with
    | error i => rw [run_cons_of_error answer]; exact kept
    | ok tally =>
      rw [run_cons_of_ok answer]
      exact ih (apply_stable standard quiet stable r) kept fun q member =>
        stays q (List.mem_cons_of_mem _ member)

/-- The record that comes after `earlier` is counted as `tally`: the total grows by that. -/
def Counts (e : Engine) (s : Session) (earlier : List Record) (r : Record) (tally : Tally) : Prop :=
  ∃ total, (e.run s earlier).1 = .ok total ∧
    (e.run s (earlier ++ [r])).1 = .ok (total.add tally)

theorem counts_iff {earlier : List Record} {r : Record} {tally : Tally} :
    Counts e s earlier r tally ↔ (∃ total, (e.run s earlier).1 = .ok total) ∧
      (e.apply (e.run s earlier).2 r).1 = .ok tally := by
  have single : ∀ t : Session, (e.run t [r]).1 = (e.apply t r).1 := by
    intro t
    cases answer : (e.apply t r).1 with
    | error i => rw [run_cons_of_error answer]
    | ok tally =>
      rw [run_cons_of_ok answer]
      exact congrArg Except.ok (Tally.add_zero tally)
  constructor
  · rintro ⟨total, begun, counted⟩
    refine ⟨⟨total, begun⟩, ?_⟩
    rw [run_append_of_ok begun, single] at counted
    cases answer : (e.apply (e.run s earlier).2 r).1 with
    | error i => simp [answer, Except.map] at counted
    | ok given =>
      rw [answer] at counted
      exact congrArg _ (Tally.add_left_cancel (Except.ok.inj counted))
  · rintro ⟨⟨total, begun⟩, answer⟩
    refine ⟨total, begun, ?_⟩
    rw [run_append_of_ok begun, single, answer]
    rfl

/-- The last record of a process that a run has reached was counted by the row that it met, and what
it made of the row is still there. -/
theorem counts_of_reached (standard : e.dispatcher.registry = Registry.standard)
    (quiet : ∀ l ∈ e.dispatcher.listeners, l.Quiet) (stable : s.Stable now)
    {before between : List Record} {r : Record} {total : Tally}
    (ran : (e.run s (before ++ r :: between)).1 = .ok total)
    (copies : ∀ q ∈ between, q.processId = r.processId → q = r) :
    ∃ row, Counts e s before r (.ofResult (r.result? now row)) ∧
      (e.run s (before ++ r :: between)).2.store.get? r.processId = r.next now row := by
  obtain ⟨sum, begun⟩ := run_ok_of_append ran
  have still := run_stable standard quiet stable before
  have settles := apply_settles standard quiet still.reliable r
  have time : (e.run s before).2.clock.now = now := still.steady _
  rw [run_append_of_ok begun] at ran ⊢
  cases answer : (e.apply (e.run s before).2 r).1 with
  | error i =>
    rw [run_cons_of_error answer] at ran
    cases ran
  | ok tally =>
    have counted := settles.answered
    rw [answer, time] at counted
    obtain rfl : tally = _ := by simpa using counted
    refine ⟨_, counts_iff.2 ⟨⟨sum, begun⟩, answer⟩, ?_⟩
    rw [run_cons_of_ok answer]
    refine run_of_stays standard quiet (apply_stable standard quiet still r) ?_ ?_
    · rw [Store.get?, settles.rows, Roster.get?_step, if_pos rfl, time, Store.get?]
    · intro q member own
      rw [copies q member own]
      exact r.next_next now _

/-- A copy is counted by the row that the record has left. -/
theorem counts_copy (standard : e.dispatcher.registry = Registry.standard)
    (quiet : ∀ l ∈ e.dispatcher.listeners, l.Quiet) (stable : s.Stable now)
    {before between : List Record} {r : Record} {total : Tally}
    (ran : (e.run s (before ++ r :: between)).1 = .ok total)
    (copies : ∀ q ∈ between, q.processId = r.processId → q = r) :
    ∃ row, Counts e s before r (.ofResult (r.result? now row)) ∧
      Counts e s (before ++ r :: between) r (.ofResult (r.result? now (r.next now row))) := by
  obtain ⟨row, counted, stored⟩ := counts_of_reached standard quiet stable ran copies
  have still := run_stable standard quiet stable (before ++ r :: between)
  have stays := r.next_next now row
  rw [← stored] at stays
  refine ⟨row, counted, counts_iff.2 ⟨⟨total, ran⟩, ?_⟩⟩
  rw [(apply_of_stays standard quiet still stays).1, stored]

/-- Any number of further copies of records, each of them before the next record of its process, do
no harm. The run with them leaves the rows and has told what the run without them leaves and has
told, and it is interrupted where that is. Each record counts as it did, and each copy of a command
as the command did; a copy of an initiation counts as rejected. -/
theorem run_redelivered (standard : e.dispatcher.registry = Registry.standard)
    (quiet : ∀ l ∈ e.dispatcher.listeners, l.Quiet) (stable : s.Stable now) {log : List Arrival}
    (timely : inTime [] log = true) :
    (e.run s (all log)).2.store.roster = (e.run s (firsts log)).2.store.roster ∧
      (e.run s (all log)).2.deliveries = (e.run s (firsts log)).2.deliveries ∧
      (∀ i, (e.run s (all log)).1 = .error i ↔ (e.run s (firsts log)).1 = .error i) ∧
      (∀ before a later, log = before ++ a :: later → a.again = false → ∀ tally,
        e.Counts s (all before) a.record tally ↔ e.Counts s (firsts before) a.record tally) ∧
      ∀ before a between copy later, log = before ++ a :: (between ++ copy :: later) →
        a.again = false → copy.again = true → copy.record.processId = a.record.processId →
        (∀ b ∈ between, b.record.processId = a.record.processId → b.again = true) →
        (∃ total, (e.run s (all (before ++ a :: between))).1 = .ok total) →
        copy.record = a.record ∧ ∃ tally, e.Counts s (all before) a.record tally ∧
          e.Counts s (all (before ++ a :: between)) copy.record
            (match a.record with
              | .initiate _ => ⟨0, 1, 0, 0⟩
              | .command _ => tally) := by
  have begun : s.Mirrors s := ⟨rfl, rfl⟩
  have none : Settled now [] s := by
    intro r last
    cases last
  obtain ⟨ended, last⟩ := run_mirrors standard quiet stable stable begun none timely
  refine ⟨last.rows, last.deliveries, ended, ?_, ?_⟩
  · rintro before a later rfl first tally
    rw [Arrival.inTime_append, Bool.and_eq_true] at timely
    obtain ⟨same, mid⟩ := run_mirrors standard quiet stable stable begun none timely.1
    have still := run_stable standard quiet stable (firsts before)
    have still' := run_stable standard quiet stable (all before)
    have answer := (apply_mirrors standard quiet still still' mid a.record).1
    rw [counts_iff, counts_iff, answer, exists_ok_congr same]
  · rintro before a between copy later rfl first again own copies reached
    rw [Arrival.inTime_append, Bool.and_eq_true, inTime, first, if_neg Bool.false_ne_true,
      List.append_cons between, Arrival.inTime_append, Bool.and_eq_true] at timely
    have copied : ∀ b ∈ between ++ [copy], b.record.processId = a.record.processId →
        b.record = a.record := by
      refine fun b => Arrival.eq_of_inTime ?_ timely.2.1 ?_
      · simp [about]
      · intro b member same
        rcases List.mem_append.1 member with member | member
        · exact copies b member same
        · rw [List.mem_singleton.1 member]
          exact again
    obtain ⟨total, ran⟩ := reached
    have repeated := copied copy (List.mem_append_right _ List.mem_cons_self) own
    have spread : all (before ++ a :: between) = all before ++ a.record :: all between :=
      Arrival.all_append before (a :: between)
    rw [spread] at ran ⊢
    obtain ⟨row, counted, recounted⟩ := counts_copy standard quiet stable ran <| by
      intro q member same
      obtain ⟨b, inside, rfl⟩ := List.mem_map.1 member
      exact copied b (List.mem_append_left _ inside) same
    refine ⟨repeated, _, counted, ?_⟩
    rw [repeated]
    generalize a.record = r at recounted ⊢
    cases r with
    | initiate id => rwa [Record.result?_initiate_next] at recounted
    | command c => rwa [Record.result?_command_next] at recounted

/-- A process that is paused, and each of its records is delivered again, late. -/
def lateLog : List Arrival :=
  [⟨.initiate ⟨"a"⟩, false⟩, ⟨.initiate ⟨"b"⟩, false⟩, ⟨.initiate ⟨"a"⟩, true⟩,
    ⟨.command ⟨⟨"a"⟩, .request⟩, false⟩, ⟨.command ⟨⟨"a"⟩, .request⟩, true⟩,
    ⟨.command ⟨⟨"a"⟩, .start⟩, false⟩, ⟨.command ⟨⟨"a"⟩, .suspend (some "quota")⟩, false⟩,
    ⟨.command ⟨⟨"b"⟩, .resume⟩, false⟩, ⟨.command ⟨⟨"a"⟩, .suspend (some "quota")⟩, true⟩,
    ⟨.command ⟨⟨"b"⟩, .resume⟩, true⟩, ⟨.command ⟨⟨"a"⟩, .suspend (some "quota")⟩, true⟩]

theorem run_redelivered_late :
    inTime [] lateLog = true ∧
    ((standard .default).run (.start (.reliable .empty) (.fixed (.ofSeconds 5)))
      (all lateLog)).2.store.roster =
      ((standard .default).run (.start (.reliable .empty) (.fixed (.ofSeconds 5)))
        (firsts lateLog)).2.store.roster ∧
    ∃ tally,
      (standard .default).Counts (.start (.reliable .empty) (.fixed (.ofSeconds 5)))
        (all (lateLog.take 6)) (.command ⟨⟨"a"⟩, .suspend (some "quota")⟩) tally ∧
      (standard .default).Counts (.start (.reliable .empty) (.fixed (.ofSeconds 5)))
        (all (lateLog.take 10)) (.command ⟨⟨"a"⟩, .suspend (some "quota")⟩) tally := by
  have quiet : ∀ l ∈ (standard .default).dispatcher.listeners, l.Quiet := by
    intro l member
    rw [List.mem_singleton.1 member]
    exact Listener.silent_calm.quiet
  have timely : inTime [] lateLog = true := by decide +kernel
  have reached : ((standard .default).run (.start (.reliable .empty) (.fixed (.ofSeconds 5)))
      (all (lateLog.take 10))).1.toOption = some ⟨7, 3, 0, 0⟩ := by decide +kernel
  obtain ⟨rows, -, -, -, copied⟩ := run_redelivered (e := standard .default) rfl quiet
    (s := .start (.reliable .empty) (.fixed (.ofSeconds 5))) ⟨fun _ => rfl, fun _ => rfl⟩ timely
  refine ⟨timely, rows, ?_⟩
  obtain ⟨-, counted⟩ := copied (lateLog.take 6)
    ⟨.command ⟨⟨"a"⟩, .suspend (some "quota")⟩, false⟩ ((lateLog.drop 7).take 3)
    ⟨.command ⟨⟨"a"⟩, .suspend (some "quota")⟩, true⟩ [] rfl rfl rfl rfl (by decide) <| by
      cases result : ((standard .default).run
        (.start (.reliable .empty) (.fixed (.ofSeconds 5))) (all (lateLog.take 10))).1 with
      | error i =>
        rw [result] at reached
        cases reached
      | ok total => exact ⟨total, result⟩
  exact counted

end Engine

end TransferLifecycle
