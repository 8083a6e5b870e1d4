import Mathlib.Algebra.BigOperators.Group.Finset.Basic
import TransferLifecycle.Proofs.ProcessRows

set_option autoImplicit false

/- Over a store that never fails, a replay is the product of its parts: each process comes out as if
only its own records had been there, and the reports of the parts add up to the report of the whole.
-/
namespace TransferLifecycle

instance : Zero Tally := ⟨.zero⟩

instance : Add Tally := ⟨.add⟩

instance : AddCommMonoid Tally where
  add_assoc := Tally.add_assoc
  zero_add := Tally.zero_add
  add_zero := Tally.add_zero
  add_comm := Tally.add_comm
  nsmul := nsmulRec

namespace Record

/-- The processes that a log is about. -/
def ids (log : List Record) : Finset ProcessId := (log.map processId).toFinset

theorem mem_ids {r : Record} {log : List Record} (member : r ∈ log) : r.processId ∈ ids log :=
  List.mem_toFinset.2 (List.mem_map.2 ⟨r, member, rfl⟩)

theorem about_of_not_mem_ids {x : ProcessId} {log : List Record} (absent : x ∉ ids log) :
    about x log = [] := by
  rw [about, List.filter_eq_nil_iff]
  intro r member own
  exact absent (beq_iff_eq.1 own ▸ mem_ids member)

/-- What the records of one process are counted as. -/
def report (now : Instant) (stored : Option TransferProcess) : List Record → Tally
  | [] => 0
  | r :: rest => .ofResult (r.result? now stored) + report now (r.next now stored) rest

/-- The first record of one process adds to its report, and the others report as before. -/
theorem sum_report_cons {ids : Finset ProcessId} (now : Instant) (r : Record) (rest : List Record)
    {rows after : ProcessId → Option TransferProcess} (covered : r.processId ∈ ids)
    (stepped : ∀ x, after x = rowAfter now x (rows x) [r]) :
    ∑ x ∈ ids, report now (rows x) (about x (r :: rest)) =
      .ofResult (r.result? now (rows r.processId)) +
        ∑ x ∈ ids, report now (after x) (about x rest) := by
  have others : ∀ x ∈ ids.erase r.processId,
      report now (rows x) (about x (r :: rest)) = report now (after x) (about x rest) := by
    intro x member
    have other := (Finset.ne_of_mem_erase member).symm
    rw [about_cons_of_ne other, stepped, rowAfter_cons, if_neg other]
    rfl
  have own : after r.processId = r.next now (rows r.processId) := by
    rw [stepped, rowAfter_cons, if_pos rfl]
    rfl
  rw [← Finset.add_sum_erase ids _ covered, Finset.sum_congr rfl others,
    ← Finset.add_sum_erase ids (fun x => report now (after x) (about x rest)) covered,
    about_cons_self rfl, report, own, add_assoc]

end Record

/-- A roster lists a process once where it has it at all. -/
theorem Roster.countP_id (rows : Roster) (x : ProcessId) :
    rows.rows.countP (·.id == x) = if (rows.get? x).isSome = true then 1 else 0 := by
  obtain ⟨rows, ascending⟩ := rows
  change rows.countP (·.id == x) = if (rows.find? (·.id == x)).isSome = true then 1 else 0
  induction rows with
  | nil => rfl
  | cons p rest ih =>
    rw [List.pairwise_cons] at ascending
    rw [List.countP_cons, List.find?_cons]
    by_cases own : p.id = x
    · have none : rest.countP (·.id == x) = 0 := by
        rw [List.countP_eq_zero]
        intro q member same
        have later := ascending.1 q member
        rw [own, beq_iff_eq.1 same] at later
        exact ProcessId.lt_irrefl x later
      simp [own, none]
    · have other : (p.id == x) = false := beq_false_of_ne own
      simp only [other, ih ascending.2, Bool.false_eq_true, if_false, Nat.add_zero]

namespace Engine

variable {e : Engine} {s : Session} {log : List Record} {ids : Finset ProcessId}

/-- The report of a run over a reliable store is the sum of those of its processes. -/
theorem runFrom_report (standard : e.dispatcher.Standard) (reliable : s.store.Reliable)
    {now : Instant} (steady : s.clock.ReadsAs id now) (total : Tally)
    (covers : ∀ r ∈ log, r.processId ∈ ids) :
    (e.runFrom total s log).1 =
      .ok (total + ∑ x ∈ ids, Record.report now (s.store.get? x) (Record.about x log)) := by
  induction log generalizing total s with
  | nil => simp [runFrom, Record.about, Record.report]
  | cons r rest ih =>
    have tally := (apply_of_reliable standard reliable r).1
    have first := apply_followed standard reliable steady r
    have stepped := first.rows
    have counted := steady s.clock.taken r (s.store.get? r.processId)
    simp only [Option.map_id_fun, id] at stepped counted
    rw [runFrom]
    rcases applied : e.apply s r with ⟨answer, mid⟩
    rw [applied] at tally first stepped
    cases tally
    have later := ih (first.world.reliable reliable) (first.world.readsAs steady)
      (total.add (.ofResult (r.result? s.clock.now (s.store.get? r.processId))))
      (fun q member => covers q (List.mem_cons_of_mem _ member))
    refine later.trans ?_
    rw [Record.sum_report_cons now r rest (covers r List.mem_cons_self) stepped, ← counted,
      ← add_assoc]
    rfl

/-- A replay of a log over an empty store that never fails, with a clock that stands still. -/
def replayed (policy : RetryPolicy) (now : Instant) (log : List Record) :
    Except Interruption Tally × Session :=
  (standard policy).run (.start (.reliable .empty) (.fixed now)) log

section Replayed

variable (policy : RetryPolicy) (now : Instant) (log : List Record)

theorem replayed_result {log : List Record} (covers : ∀ r ∈ log, r.processId ∈ ids) :
    (replayed policy now log).1 = .ok (∑ x ∈ ids, Record.report now none (Record.about x log)) := by
  have reliable := Store.reliable_reliable .empty
  have result := runFrom_report (s := .start (.reliable .empty) (.fixed now))
    (standard_dispatcher policy) reliable (Clock.readsAs_fixed now) 0 covers
  rw [zero_add] at result
  exact result

theorem replayed_followed :
    (Session.start (.reliable .empty) (.fixed now)).Followed id now log
      (replayed policy now log).2 :=
  (runFrom_followed (standard_dispatcher policy) (Store.reliable_reliable .empty)
    (Clock.readsAs_fixed now) .zero log).2

theorem get?_replayed (x : ProcessId) :
    (replayed policy now log).2.store.get? x = Record.rowAfter now x none log := by
  have rows := (replayed_followed policy now log).rows x
  simp only [Option.map_id_fun, id] at rows
  exact rows

theorem isSome_replayed (x : ProcessId) :
    ((replayed policy now log).2.store.get? x).isSome = true ↔ .initiate x ∈ log := by
  rw [get?_replayed, Record.isSome_rowAfter, Option.isSome_none]
  simp

theorem processes_replayed :
    (processes (replayed policy now log).2).1 =
      .ok (replayed policy now log).2.store.roster.rows := by
  have world := (replayed_followed policy now log).world
  have reliable := world.reliable (Store.reliable_reliable .empty)
  have granted := reliable (.all :: (replayed policy now log).2.store.calls)
  simp only [processes, Store.all, Store.fateOf, granted, Fate.error?]

/-- The report of the records of one process. -/
theorem replayed_about (x : ProcessId) :
    (replayed policy now (Record.about x log)).1 =
      .ok (Record.report now none (Record.about x log)) := by
  have covers : ∀ r ∈ Record.about x log, r.processId ∈ ({x} : Finset ProcessId) := by
    intro r member
    simpa [Record.about] using (List.mem_filter.1 member).2
  rw [replayed_result policy now covers, Finset.sum_singleton, Record.about_about]

/-- A log leaves the same rows and the same report as one with the same records of each process. -/
theorem replayed_congr {other : List Record}
    (same : ∀ x, Record.about x other = Record.about x log) :
    (replayed policy now other).2.store.roster = (replayed policy now log).2.store.roster ∧
      (replayed policy now other).1 = (replayed policy now log).1 := by
  constructor
  · apply Roster.ext_get?
    intro x
    have first := get?_replayed policy now other x
    rw [Record.rowAfter_congr now none (same x), ← get?_replayed policy] at first
    exact first
  -- Both reports are sums over the processes of either log.
  · have left : ∀ r ∈ other, r.processId ∈ Record.ids other ∪ Record.ids log :=
      fun r member => Finset.mem_union_left _ (Record.mem_ids member)
    have right : ∀ r ∈ log, r.processId ∈ Record.ids other ∪ Record.ids log :=
      fun r member => Finset.mem_union_right _ (Record.mem_ids member)
    rw [replayed_result policy now left, replayed_result policy now right]
    simp only [same]

/-- A command whose process is not there leaves all rows as they are. -/
theorem roster_replayed_command {before : List Record} {c : Command}
    (absent : .initiate c.processId ∉ before) :
    (replayed policy now (before ++ [.command c])).2.store.roster =
      (replayed policy now before).2.store.roster := by
  apply Roster.ext_get?
  intro x
  change (replayed policy now (before ++ [.command c])).2.store.get? x =
    (replayed policy now before).2.store.get? x
  rw [get?_replayed, get?_replayed, Record.rowAfter_append, Record.rowAfter_cons]
  by_cases own : (Record.command c).processId = x
  · subst own
    have missing : Record.rowAfter now c.processId none before = none := by
      rw [← Option.not_isSome_iff_eq_none, Record.isSome_rowAfter]
      simpa using absent
    have stays : (Record.command c).next now none = none := by
      rw [← Option.not_isSome_iff_eq_none, Record.next_none]
      simp
    change Record.rowAfter now _ (if _ then (Record.command c).next now
      (Record.rowAfter now c.processId none before) else _) [] = _
    rw [if_pos rfl, missing, stays]
    exact missing.symm
  · rw [if_neg own]
    rfl

end Replayed

/-- A replay is the product of the replays of its processes. -/
theorem replayed_product (policy : RetryPolicy) (now : Instant) (log : List Record) :
    (∀ x, (replayed policy now log).2.store.get? x =
      (replayed policy now (Record.about x log)).2.store.get? x) ∧
    (∀ x, ((replayed policy now log).2.store.get? x).isSome = true ↔ .initiate x ∈ log) ∧
    (∃ listed, (processes (replayed policy now log).2).1 = .ok listed ∧
      ∀ x, listed.countP (·.id == x) = if .initiate x ∈ log then 1 else 0) ∧
    (∀ before c, before ++ [.command c] <+: log → .initiate c.processId ∉ before →
      (replayed policy now (before ++ [.command c])).2.store.roster =
        (replayed policy now before).2.store.roster) ∧
    (∃ part : ProcessId → Tally,
      (∀ x, (replayed policy now (Record.about x log)).1 = .ok (part x)) ∧
      (∀ x, x ∉ Record.ids log → part x = 0) ∧
      (replayed policy now log).1 = .ok (∑ x ∈ Record.ids log, part x)) ∧
    (∀ other, (∀ x, Record.about x other = Record.about x log) →
      (processes (replayed policy now other).2).1 = (processes (replayed policy now log).2).1 ∧
        (replayed policy now other).1 = (replayed policy now log).1) ∧
    (∀ other x, Record.about x other = Record.about x log →
      (replayed policy now other).2.store.get? x = (replayed policy now log).2.store.get? x) := by
  refine ⟨?_, isSome_replayed policy now log, ?_, ?_, ?_, ?_, ?_⟩
  · intro x
    rw [get?_replayed, get?_replayed]
    exact Record.rowAfter_congr now none (Record.about_about x log).symm
  · refine ⟨_, processes_replayed policy now log, fun x => ?_⟩
    rw [Roster.countP_id]
    exact ite_congr (propext (isSome_replayed policy now log x)) (fun _ => rfl) fun _ => rfl
  · intro before c _ absent
    exact roster_replayed_command policy now absent
  · refine ⟨_, replayed_about policy now log, ?_,
      replayed_result policy now fun _ => Record.mem_ids⟩
    intro x absent
    rw [Record.about_of_not_mem_ids absent, Record.report]
  · intro other same
    obtain ⟨rows, result⟩ := replayed_congr policy now log same
    rw [processes_replayed, processes_replayed, rows]
    exact ⟨rfl, result⟩
  · intro other x same
    rw [get?_replayed, get?_replayed, Record.rowAfter_congr now none same]

/-- Two processes by turns. The first record comes before its process, and the last creates it again.
-/
def interleavedLog : List Record :=
  [.command ⟨⟨"b"⟩, .request⟩, .initiate ⟨"a"⟩, .initiate ⟨"b"⟩, .command ⟨⟨"a"⟩, .request⟩,
    .command ⟨⟨"b"⟩, .terminate "late"⟩, .command ⟨⟨"a"⟩, .start⟩, .initiate ⟨"b"⟩]

theorem replayed_product_interleaved :
    (replayed .default (.ofSeconds 7) interleavedLog).2.store.roster.rows =
      [⟨⟨"a"⟩, .started, 2, .ofSeconds 7, none⟩,
        ⟨⟨"b"⟩, .terminated, 1, .ofSeconds 7, some "late"⟩] ∧
    (replayed .default (.ofSeconds 7) (Record.about ⟨"b"⟩ interleavedLog)).2.store.get? ⟨"b"⟩ =
      some ⟨⟨"b"⟩, .terminated, 1, .ofSeconds 7, some "late"⟩ ∧
    ∃ part : ProcessId → Tally, part ⟨"a"⟩ = ⟨3, 0, 0, 0⟩ ∧ part ⟨"b"⟩ = ⟨2, 2, 0, 0⟩ ∧
      (∀ x, (replayed .default (.ofSeconds 7) (Record.about x interleavedLog)).1 =
        .ok (part x)) ∧
      ∑ x ∈ Record.ids interleavedLog, part x = ⟨5, 2, 0, 0⟩ := by
  obtain ⟨rows, -, -, -, ⟨part, parts, -, total⟩, -⟩ :=
    replayed_product .default (.ofSeconds 7) interleavedLog
  have first : (replayed .default (.ofSeconds 7) (Record.about ⟨"a"⟩ interleavedLog)).1 =
      .ok ⟨3, 0, 0, 0⟩ := by decide +kernel
  have second : (replayed .default (.ofSeconds 7) (Record.about ⟨"b"⟩ interleavedLog)).1 =
      .ok ⟨2, 2, 0, 0⟩ := by decide +kernel
  have all : (replayed .default (.ofSeconds 7) interleavedLog).1 = .ok ⟨5, 2, 0, 0⟩ := by
    decide +kernel
  have stored : (replayed .default (.ofSeconds 7) interleavedLog).2.store.get? ⟨"b"⟩ =
      some ⟨⟨"b"⟩, .terminated, 1, .ofSeconds 7, some "late"⟩ := by decide +kernel
  refine ⟨by decide +kernel, (rows ⟨"b"⟩).symm.trans stored, part, ?_, ?_, parts, ?_⟩
  · exact Except.ok.inj ((parts ⟨"a"⟩).symm.trans first)
  · exact Except.ok.inj ((parts ⟨"b"⟩).symm.trans second)
  · exact Except.ok.inj (total.symm.trans all)

end Engine

end TransferLifecycle
