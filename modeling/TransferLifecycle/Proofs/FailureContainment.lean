import TransferLifecycle.Handler.Scripted
import TransferLifecycle.Proofs.BatchParts
import TransferLifecycle.Proofs.Interleaving
import TransferLifecycle.Proofs.ProcesswiseRuns

set_option autoImplicit false

/- A batch whose parts are applied at the same time: what goes wrong with one process ends its own
part and touches no other, and the batch comes to the worst that came of its parts. It comes to a
tally exactly when its records, applied one by one, come to that tally. -/
namespace TransferLifecycle

open Record (about ids)

namespace Partition

theorem toFinset_id_place (r : Record) (parts : List Partition) :
    ((place r parts).map id).toFinset = insert r.processId (parts.map id).toFinset := by
  induction parts with
  | nil => rfl
  | cons part rest ih =>
    rw [place]
    split
    next same => simp [same]
    next =>
      split
      next => simp
      next => simp [ih, Finset.insert_comm]

/-- There is a part for each process of the batch. -/
theorem toFinset_id_ofBatch (batch : List Record) :
    ((ofBatch batch).map id).toFinset = ids batch := by
  induction batch with
  | nil => rfl
  | cons r rest ih =>
    rw [ofBatch_cons, toFinset_id_place, ih]
    simp [ids]

end Partition

namespace BatchResult

def abort? : Except Interruption Tally → Option Abort
  | .error (.abort reason) => some reason
  | _ => none

def fault? : Except Interruption Tally → Option DispatchFault
  | .error (.error fault) => some fault
  | _ => none

def tally? : Except Interruption Tally → Tally
  | .ok tally => tally
  | .error _ => 0

theorem absorb_eq (b : BatchResult) (result : Except Interruption Tally) :
    b.absorb result =
      ⟨b.tally + tally? result, b.fault.or (fault? result), b.abort.or (abort? result)⟩ := by
  rcases result with (fault | reason) | tally
  · simp [absorb, tally?, fault?, abort?]
  · simp [absorb, tally?, fault?, abort?]
  · simp only [absorb, tally?, fault?, abort?, Option.or_none]
    rfl

/-- The first abort and the first fault stand, and the tallies add up. -/
theorem foldl_absorb (b : BatchResult) (results : List (Except Interruption Tally)) :
    results.foldl absorb b =
      ⟨b.tally + (results.map tally?).sum, b.fault.or (results.findSome? fault?),
        b.abort.or (results.findSome? abort?)⟩ := by
  induction results generalizing b with
  | nil => simp
  | cons result rest ih =>
    rw [List.foldl_cons, ih, absorb_eq, List.findSome?_cons, List.findSome?_cons, List.map_cons,
      List.sum_cons, add_assoc, Option.or_assoc, Option.or_assoc]
    cases fault? result <;> cases abort? result <;> rfl

theorem of_abort? {result : Except Interruption Tally} {reason : Abort}
    (found : abort? result = some reason) : result = .error (.abort reason) := by
  rcases result with (fault | other) | tally
  · cases found
  · cases found
    rfl
  · cases found

theorem of_fault? {result : Except Interruption Tally} {fault : DispatchFault}
    (found : fault? result = some fault) : result = .error (.error fault) := by
  rcases result with (other | reason) | tally
  · cases found
    rfl
  · cases found
  · cases found

theorem of_none {result : Except Interruption Tally} (noAbort : abort? result = none)
    (noFault : fault? result = none) : result = .ok (tally? result) := by
  rcases result with (fault | reason) | tally
  · cases noFault
  · cases noAbort
  · rfl

end BatchResult

namespace Engine

/-- What the records of one process come to when there are no others. -/
def alone (e : Engine) (s : Session) (batch : List Record) (x : ProcessId) :
    Except Interruption Tally × Session :=
  e.run s (about x batch)

/-- What a batch comes to: the abort of a process, else the fault of one, else the sum of all. -/
inductive BatchVerdict (e : Engine) (s : Session) (batch : List Record) :
    Except Interruption Tally → Prop
  | aborted {x : ProcessId} {reason : Abort} (present : x ∈ ids batch)
      (own : (e.alone s batch x).1 = .error (.abort reason)) :
      BatchVerdict e s batch (.error (.abort reason))
  | faulted {x : ProcessId} {fault : DispatchFault}
      (calm : ∀ y ∈ ids batch, ∀ reason, (e.alone s batch y).1 ≠ .error (.abort reason))
      (present : x ∈ ids batch) (own : (e.alone s batch x).1 = .error (.error fault)) :
      BatchVerdict e s batch (.error (.error fault))
  | finished {report : ProcessId → Tally}
      (own : ∀ x ∈ ids batch, (e.alone s batch x).1 = .ok (report x)) :
      BatchVerdict e s batch (.ok (∑ x ∈ ids batch, report x))

variable {e : Engine} {s last : Session} {batch : List Record} {now : Instant}

/-- No two parts of a batch are for the same process, in whatever order they are taken. -/
theorem distinct_of_parts {parts : List Partition}
    (order : parts.Perm (Partition.ofBatch batch)) : parts.Pairwise fun p q => p.id ≠ q.id :=
  (order.pairwise_iff fun apart => apart.symm).2 (Partition.sorted_ofBatch batch).distinct

/-- The verdict does not depend on the order of the parts. -/
theorem batchVerdict_of_parts {parts : List Partition}
    (order : parts.Perm (Partition.ofBatch batch)) :
    e.BatchVerdict s batch ((parts.map fun part => (e.alone s batch part.id).1).foldl
      BatchResult.absorb .empty).conclude := by
  have covered : (parts.map Partition.id).toFinset = ids batch := by
    rw [← Partition.toFinset_id_ofBatch, List.toFinset_eq_of_perm _ _ (order.map Partition.id)]
  have present : ∀ result ∈ parts.map fun part => (e.alone s batch part.id).1,
      ∃ x ∈ ids batch, (e.alone s batch x).1 = result := by
    intro result member
    obtain ⟨part, listed, same⟩ := List.mem_map.1 member
    refine ⟨part.id, ?_, same⟩
    rw [← covered, List.mem_toFinset]
    exact List.mem_map_of_mem listed
  have listed : ∀ x ∈ ids batch,
      (e.alone s batch x).1 ∈ parts.map fun part => (e.alone s batch part.id).1 := by
    intro x member
    rw [← covered, List.mem_toFinset] at member
    obtain ⟨part, known, rfl⟩ := List.mem_map.1 member
    exact List.mem_map.2 ⟨part, known, rfl⟩
  rw [BatchResult.foldl_absorb]
  cases aborts : (parts.map fun part => (e.alone s batch part.id).1).findSome?
    BatchResult.abort? with
  | some reason =>
    obtain ⟨result, member, found⟩ := List.exists_of_findSome?_eq_some aborts
    obtain ⟨x, known, own⟩ := present result member
    exact .aborted known (own.trans (BatchResult.of_abort? found))
  | none =>
    have noAbort : ∀ x ∈ ids batch, BatchResult.abort? (e.alone s batch x).1 = none :=
      fun x known => List.findSome?_eq_none_iff.1 aborts _ (listed x known)
    cases faults : (parts.map fun part => (e.alone s batch part.id).1).findSome?
      BatchResult.fault? with
    | some fault =>
      obtain ⟨result, member, found⟩ := List.exists_of_findSome?_eq_some faults
      obtain ⟨x, known, own⟩ := present result member
      refine .faulted ?_ known (own.trans (BatchResult.of_fault? found))
      intro y other reason aborted
      have none := noAbort y other
      rw [aborted] at none
      cases none
    | none =>
      have noFault : ∀ x ∈ ids batch, BatchResult.fault? (e.alone s batch x).1 = none :=
        fun x known => List.findSome?_eq_none_iff.1 faults _ (listed x known)
      have distinct : (parts.map Partition.id).Nodup :=
        List.pairwise_map.2 (distinct_of_parts order)
      have sum : ((parts.map fun part => (e.alone s batch part.id).1).map BatchResult.tally?).sum =
          ∑ x ∈ ids batch, BatchResult.tally? (e.alone s batch x).1 := by
        rw [← covered, List.sum_toFinset _ distinct, List.map_map, List.map_map]
        rfl
      have verdict : e.BatchVerdict s batch
          (.ok (∑ x ∈ ids batch, BatchResult.tally? (e.alone s batch x).1)) :=
        .finished fun x known => BatchResult.of_none (noAbort x known) (noFault x known)
      rw [← sum, ← zero_add (List.sum _)] at verdict
      exact verdict

/-- Whatever the interleaving, each process comes to what its records come to alone. -/
theorem BatchInterleaves.contained {answer : Except Interruption Tally}
    (run : e.BatchInterleaves s batch answer last)
    (bystanders : Bystanders e.dispatcher.listeners) (stable : s.Stable now) :
    e.BatchVerdict s batch answer ∧ ∀ x, (e.alone s batch x).2.Agrees x last := by
  obtain ⟨parts, results, order, interleaved, rfl⟩ := run
  have member : ∀ part ∈ parts, part ∈ Partition.ofBatch batch := fun _ => order.mem_iff.1
  have own : ∀ part ∈ parts, ∀ r ∈ part.records, r.processId = part.id :=
    fun part known => (Partition.sorted_ofBatch batch).own part (member part known)
  have solo : ∀ part ∈ parts, (e.task part).steps.solo s = e.alone s batch part.id := by
    intro part known
    rw [alone, ← Partition.records_ofBatch (member part known)]
    exact e.solo_runSteps .zero part.records s
  have distinct : (parts.map e.task).Pairwise fun t t' => t.id ≠ t'.id :=
    List.pairwise_map.2 (distinct_of_parts order)
  obtain ⟨given, agree, untouched⟩ := interleaved.solo stable distinct (P := fun _ => True) (by
    intro t known
    obtain ⟨part, listed, rfl⟩ := List.mem_map.1 known
    exact alike_runSteps bystanders (own part listed) .zero)
  constructor
  · have same : results = parts.map fun part => (e.alone s batch part.id).1 := by
      rw [given, List.map_map]
      exact List.map_congr_left fun part known => congrArg Prod.fst (solo part known)
    rw [same]
    exact batchVerdict_of_parts order
  · intro x
    by_cases present : ∃ part ∈ parts, part.id = x
    · obtain ⟨part, known, rfl⟩ := present
      have agrees := agree (e.task part) (List.mem_map_of_mem known)
      rw [solo part known] at agrees
      exact agrees
    · have none : about x batch = [] := by
        refine Record.about_of_not_mem_ids fun inside => present ?_
        rw [← Partition.toFinset_id_ofBatch, List.mem_toFinset] at inside
        obtain ⟨part, known, same⟩ := List.mem_map.1 inside
        exact ⟨part, order.mem_iff.2 known, same⟩
      rw [alone, none]
      refine untouched x fun t known same => present ?_
      obtain ⟨part, listed, rfl⟩ := List.mem_map.1 known
      exact ⟨part, listed, same⟩

/-- Applied one by one, the records come to a tally exactly when the batch does, and to the same. -/
theorem BatchVerdict.iff_run {answer : Except Interruption Tally}
    (verdict : e.BatchVerdict s batch answer) (bystanders : Bystanders e.dispatcher.listeners)
    (stable : s.Stable now) (tally : Tally) :
    answer = .ok tally ↔ (e.run s batch).1 = .ok tally := by
  have stopped : ∀ {x i}, (e.alone s batch x).1 = .error i → (e.run s batch).1 ≠ .ok tally := by
    intro x i own ran
    obtain ⟨part, counted⟩ := run_about_of_ok bystanders stable ran x
    cases own.symm.trans counted
  cases verdict with
  | aborted _ own =>
    constructor
    · intro never
      cases never
    · exact fun ran => absurd ran (stopped own)
  | faulted _ _ own =>
    constructor
    · intro never
      cases never
    · exact fun ran => absurd ran (stopped own)
  | finished own =>
    have covers : ∀ r ∈ batch, r.processId ∈ ids batch := fun r => Record.mem_ids
    rw [(run_of_about bystanders stable covers own).1]

/-- The program's own order is one of the interleavings. Under any of them, each process goes
through its own records up to and including the first that is interrupted, whatever becomes of the
others; the batch comes to its verdict; and it comes to a tally exactly when the records, applied
one by one, come to that tally, with the same rows. -/
theorem batch_failure_containment (bystanders : Bystanders e.dispatcher.listeners)
    (stable : s.Stable now) (batch : List Record) :
    e.BatchInterleaves s batch (e.runBatch s batch).1 (e.runBatch s batch).2 ∧
    ∀ answer last, e.BatchInterleaves s batch answer last →
      (∀ x, (e.alone s batch x).2.Agrees x last ∧
        ∃ applied, e.Applies s (about x batch) applied (e.alone s batch x).1 ∧
          (e.alone s batch x).2 = e.applyAll s applied) ∧
      e.BatchVerdict s batch answer ∧
      (∀ tally, answer = .ok tally ↔ (e.run s batch).1 = .ok tally) ∧
      ∀ tally, (e.run s batch).1 = .ok tally →
        last.store.roster = (e.run s batch).2.store.roster := by
  refine ⟨.of_runBatch e s batch, fun answer last run => ?_⟩
  obtain ⟨verdict, agree⟩ := run.contained bystanders stable
  refine ⟨fun x => ⟨agree x, e.run_applies s (about x batch)⟩, verdict,
    verdict.iff_run bystanders stable, fun tally ran => ?_⟩
  apply Roster.ext_get?
  intro x
  exact (agree x).row.trans (run_agrees_of_ok bystanders stable ran x).row.symm

/-- A start that gives the process another id, and a listener that does not stand a termination. -/
def failing : Engine :=
  ⟨⟨⟨.relabelling .start ⟨"z"⟩ :: CommandKind.all.map Handler.standard⟩,
    [.exploding 0 .terminated]⟩, .default⟩

/-- Three processes, of which one meets a fault and one an abort before they are through. -/
def failingBatch : List Record :=
  [.initiate ⟨"a"⟩, .initiate ⟨"b"⟩, .initiate ⟨"c"⟩, .command ⟨⟨"b"⟩, .request⟩,
    .command ⟨⟨"c"⟩, .terminate "lost"⟩, .command ⟨⟨"b"⟩, .start⟩, .command ⟨⟨"b"⟩, .fail "late"⟩,
    .command ⟨⟨"a"⟩, .request⟩]

def failingStart : Session := .start (.reliable .empty) (.fixed (.ofSeconds 3))

theorem batch_failure_containment_failing :
    Bystanders failing.dispatcher.listeners ∧ failingStart.Stable (.ofSeconds 3) ∧
    failing.BatchInterleaves failingStart failingBatch
      (failing.runBatch failingStart failingBatch).1
      (failing.runBatch failingStart failingBatch).2 ∧
    ∀ answer last, failing.BatchInterleaves failingStart failingBatch answer last →
      (∃ reason, answer = .error (.abort reason)) ∧
      last.store.get? ⟨"a"⟩ = some ⟨⟨"a"⟩, .requested, 1, .ofSeconds 3, none⟩ ∧
      last.store.get? ⟨"b"⟩ = some ⟨⟨"b"⟩, .requested, 1, .ofSeconds 3, none⟩ ∧
      last.store.get? ⟨"c"⟩ = some ⟨⟨"c"⟩, .terminated, 1, .ofSeconds 3, some "lost"⟩ := by
  have bystanders : Bystanders failing.dispatcher.listeners := by
    refine ⟨?_, ?_⟩
    · intro l member heard cb c submitted
      rw [List.mem_singleton.1 member] at submitted
      simp only [Listener.exploding] at submitted
      split at submitted <;> cases submitted
    · intro l member heard heard' cb
      rw [List.mem_singleton.1 member]
      rfl
  have stable : failingStart.Stable (.ofSeconds 3) :=
    ⟨Store.reliable_reliable .empty, fun _ => rfl⟩
  obtain ⟨own, contained⟩ := batch_failure_containment bystanders stable failingBatch
  refine ⟨bystanders, stable, own, fun answer last run => ?_⟩
  obtain ⟨processes, verdict, -, -⟩ := contained answer last run
  have aborted : BatchResult.abort? (failing.alone failingStart failingBatch ⟨"c"⟩).1 =
      some ⟨"listener 0 blew up in terminated"⟩ := by decide +kernel
  have present : (⟨"c"⟩ : ProcessId) ∈ ids failingBatch := by decide +kernel
  refine ⟨?_, ?_, ?_, ?_⟩
  · cases verdict with
    | aborted _ _ => exact ⟨_, rfl⟩
    | faulted calm _ _ => exact absurd (BatchResult.of_abort? aborted) (calm _ present _)
    | finished fine => cases (fine _ present).symm.trans (BatchResult.of_abort? aborted)
  · rw [(processes ⟨"a"⟩).1.row]
    decide +kernel
  · rw [(processes ⟨"b"⟩).1.row]
    decide +kernel
  · rw [(processes ⟨"c"⟩).1.row]
    decide +kernel

end Engine

end TransferLifecycle
