import Mathlib.Data.List.Nodup
import TransferLifecycle.Roster
import TransferLifecycle.Snapshot

set_option autoImplicit false

/- The bytes of a snapshot depend on the rows alone: neither the order in which a roster is listed
nor the times of the last changes leave a trace. A sink without limit receives all of them. -/
namespace TransferLifecycle

/-- The process as it would be if its last change had been at `time`. -/
def TransferProcess.stamped (time : Instant) (p : TransferProcess) : TransferProcess :=
  { p with updatedAt := time }

namespace Snapshot

variable {processes others : List TransferProcess}

/-- An order by ids that differ is the only one of its kind. -/
theorem eq_of_perm (same : others.Perm processes) (distinct : (processes.map (·.id)).Nodup)
    (ordered : others.Pairwise fun a b => ¬ b.id < a.id)
    (ordered' : processes.Pairwise fun a b => ¬ b.id < a.id) : others = processes := by
  refine List.Perm.eq_of_pairwise ?_ ordered ordered' same
  intro a b first second notAfter notBefore
  -- Neither is before the other, so they have one id, and the ids differ.
  have own : a.id = b.id := by
    by_cases eq : a.id = b.id
    · exact eq
    · exact absurd (ProcessId.lt_of_not_lt_of_ne notAfter eq) notBefore
  exact List.inj_on_of_nodup_map distinct (same.mem_iff.1 first) second own

theorem inOrder_trans (a b c : TransferProcess) (first : (!decide (b.id < a.id)) = true)
    (second : (!decide (c.id < b.id)) = true) : (!decide (c.id < a.id)) = true := by
  simp only [Bool.not_eq_true', decide_eq_false_iff_not] at first second ⊢
  intro back
  by_cases eq : b.id = c.id
  · exact first (eq ▸ back)
  · exact first (ProcessId.lt_trans (ProcessId.lt_of_not_lt_of_ne second eq) back)

theorem inOrder_total (a b : TransferProcess) :
    (!decide (b.id < a.id) || !decide (a.id < b.id)) = true := by
  simp only [Bool.or_eq_true, Bool.not_eq_true', decide_eq_false_iff_not]
  by_cases before : b.id < a.id
  · exact .inr fun after => ProcessId.lt_irrefl b.id (ProcessId.lt_trans before after)
  · exact .inl before

theorem sorted_perm (processes : List TransferProcess) : (sorted processes).Perm processes :=
  List.mergeSort_perm _ _

theorem sorted_pairwise (processes : List TransferProcess) :
    (sorted processes).Pairwise fun a b => ¬ b.id < a.id := by
  have order : (sorted processes).Pairwise fun a b => (!decide (b.id < a.id)) = true :=
    List.pairwise_mergeSort inOrder_trans inOrder_total processes
  refine order.imp ?_
  intro a b ordered
  simpa using ordered

/-- Sorting leaves the processes of one id in their order. -/
theorem sorted_filter (processes : List TransferProcess) (id : ProcessId) :
    (sorted processes).filter (·.id == id) = processes.filter (·.id == id) := by
  have own : (processes.filter (·.id == id)).Pairwise fun a b =>
      (!decide (b.id < a.id)) = true := by
    rw [List.pairwise_filter]
    refine List.pairwise_of_forall fun a b first second => ?_
    rw [beq_iff_eq.1 first, beq_iff_eq.1 second]
    simp [ProcessId.lt_irrefl]
  have kept : (processes.filter (·.id == id)).Sublist (sorted processes) :=
    List.sublist_mergeSort inOrder_trans inOrder_total own List.filter_sublist
  have inside := kept.filter (·.id == id)
  rw [List.filter_filter, List.filter_congr (fun p _ => Bool.and_self (p.id == id))] at inside
  have sameLength := ((sorted_perm processes).filter (·.id == id)).length_eq
  exact (inside.eq_of_length sameLength.symm).symm

/-- Where ids differ, the order in which the processes come does not matter. -/
theorem sorted_of_perm (same : others.Perm processes) (distinct : (processes.map (·.id)).Nodup) :
    sorted others = sorted processes := by
  have order := (sorted_perm others).trans (same.trans (sorted_perm processes).symm)
  have distinct' := ((sorted_perm processes).map (·.id)).nodup_iff.2 distinct
  exact eq_of_perm order distinct' (sorted_pairwise others) (sorted_pairwise processes)

end Snapshot

namespace Roster

def stamped (time : Instant) (r : Roster) : Roster :=
  ⟨r.rows.map (·.stamped time), by
    rw [List.pairwise_map]
    exact r.ascending⟩

theorem get?_stamped (time : Instant) (r : Roster) (id : ProcessId) :
    (r.stamped time).get? id = (r.get? id).map (·.stamped time) := List.find?_map

/-- Where a roster is listed in the order of the ids, it is listed as it is. -/
theorem eq_of_perm {r : Roster} {listed : List TransferProcess} (same : listed.Perm r.rows)
    (ordered : listed.Pairwise fun a b => ¬ b.id < a.id) : listed = r.rows := by
  have distinct : (r.rows.map (·.id)).Nodup := by
    rw [List.Nodup, List.pairwise_map]
    refine r.ascending.imp fun {a b} before same => ?_
    rw [same] at before
    exact ProcessId.lt_irrefl b.id before
  refine Snapshot.eq_of_perm same distinct ordered (r.ascending.imp ?_)
  intro a b before after
  exact ProcessId.lt_irrefl a.id (ProcessId.lt_trans before after)

end Roster

namespace Snapshot

theorem contents_eq_of_sorted {processes others : List TransferProcess}
    (same : (sorted processes).map fields = (sorted others).map fields) :
    contents processes = contents others := by
  simp only [contents, chunks, rows, same]

/-- A roster is in the order of a snapshot. -/
theorem sorted_rows (r : Roster) : sorted r.rows = r.rows :=
  r.eq_of_perm (sorted_perm r.rows) (sorted_pairwise r.rows)

/-- A snapshot is the same in whatever order the processes are listed. -/
theorem contents_of_perm {r : Roster} {listed : List TransferProcess}
    (order : listed.Perm r.rows) : contents listed = contents r.rows := by
  apply contents_eq_of_sorted
  rw [r.eq_of_perm ((sorted_perm listed).trans order) (sorted_pairwise listed), sorted_rows]

/-- A snapshot does not tell the times of the last changes. -/
theorem contents_of_stamped {r other : Roster} {time : Instant}
    (same : r.stamped time = other.stamped time) : contents r.rows = contents other.rows := by
  apply contents_eq_of_sorted
  have timeless : fields ∘ TransferProcess.stamped time = fields := rfl
  have listed : r.rows.map (·.stamped time) = other.rows.map (·.stamped time) :=
    congrArg Roster.rows same
  rw [sorted_rows, sorted_rows, ← timeless, ← List.map_map, listed, List.map_map]

end Snapshot

namespace Sink

variable {s : Sink}

theorem write_of_unlimited (unlimited : s.limit = none) (bytes : List UInt8) :
    s.write bytes = (true, { s with received := s.received ++ bytes }) := by
  simp [write, room, unlimited]

theorem writeAll_of_unlimited (unlimited : s.limit = none) (loads : List (List UInt8)) :
    s.writeAll loads = (none, { s with received := s.received ++ loads.flatten }) := by
  induction loads generalizing s with
  | nil => simp [writeAll]
  | cons load rest ih =>
    have later := @ih { s with received := s.received ++ load } unlimited
    rw [writeAll, write_of_unlimited unlimited]
    simp only [later, List.flatten_cons, List.append_assoc]

end Sink

theorem Snapshot.write_of_unlimited {sink : Sink} (unlimited : sink.limit = none)
    (processes : List TransferProcess) :
    write processes sink =
      (.ok (), { sink with received := sink.received ++ contents processes }) := by
  rw [write, Sink.writeAll_of_unlimited unlimited, flatten_pack, contents]

end TransferLifecycle
