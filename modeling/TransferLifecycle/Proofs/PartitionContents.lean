import Mathlib.Algebra.GroupWithZero.Nat
import TransferLifecycle.Proofs.FailureContainment

set_option autoImplicit false

/- What the parts of a batch hold. There is one part for each process of the batch, with the records
of the process in their order; and the batch is put together again by taking each record in turn from
the front of one of the parts, until all of them are used up. -/
namespace TransferLifecycle

namespace Partition

/-- The log is drawn from the parts: each record in turn is the first that is left in some part, and
in the end none is left. -/
inductive DrawnFrom : List Partition → List Record → Prop
  | usedUp {parts : List Partition} (empty : ∀ part ∈ parts, part.records = []) :
      DrawnFrom parts []
  | draw {left right : List Partition} {id : ProcessId} {r : Record} {rest log : List Record}
      (later : DrawnFrom (left ++ ⟨id, rest⟩ :: right) log) :
      DrawnFrom (left ++ ⟨id, r :: rest⟩ :: right) (r :: log)

variable {parts left right : List Partition} {log : List Record} {id : ProcessId}

/-- A part without records may stand anywhere. -/
theorem DrawnFrom.insert (drawn : DrawnFrom (left ++ right) log) (id : ProcessId) :
    DrawnFrom (left ++ ⟨id, []⟩ :: right) log := by
  generalize whole : left ++ right = parts at drawn
  induction drawn generalizing left right with
  | usedUp empty =>
    subst whole
    refine .usedUp fun part member => ?_
    rcases List.mem_append.1 member with before | behind
    · exact empty part (List.mem_append_left _ before)
    · rcases List.mem_cons.1 behind with rfl | behind
      · rfl
      · exact empty part (List.mem_append_right _ behind)
  | @draw first last own r rest log later ih =>
    -- The part that the record is drawn from stands behind the new one or before it.
    rcases List.append_eq_append_iff.1 whole with ⟨mid, rfl, rfl⟩ | ⟨mid, rfl, tail⟩
    · have drawn : DrawnFrom (left ++ ⟨id, []⟩ :: (mid ++ ⟨own, rest⟩ :: last)) log := ih (by simp)
      rw [← List.cons_append, ← List.append_assoc] at drawn ⊢
      exact .draw drawn
    · cases mid with
      | nil =>
        rw [List.nil_append] at tail
        subst tail
        rw [List.append_nil]
        have drawn : DrawnFrom (first ++ ⟨id, []⟩ :: (⟨own, rest⟩ :: last)) log := ih rfl
        rw [← List.singleton_append, ← List.append_assoc] at drawn ⊢
        exact .draw drawn
      | cons part mid =>
        obtain ⟨rfl, rfl⟩ := List.cons.inj tail
        have drawn : DrawnFrom (first ++ ⟨own, rest⟩ :: mid ++ ⟨id, []⟩ :: right) log :=
          ih (by simp)
        rw [List.append_assoc, List.cons_append] at drawn ⊢
        exact .draw drawn

/-- A record is placed at the front of a part, or into a part of its own. -/
theorem place_eq (r : Record) (parts : List Partition) :
    (∃ left right records, parts = left ++ ⟨r.processId, records⟩ :: right ∧
      place r parts = left ++ ⟨r.processId, r :: records⟩ :: right) ∨
    ∃ left right, parts = left ++ right ∧ place r parts = left ++ ⟨r.processId, [r]⟩ :: right := by
  induction parts with
  | nil => exact .inr ⟨[], [], rfl, rfl⟩
  | cons part rest ih =>
    obtain ⟨id, records⟩ := part
    rw [place]
    split
    next same =>
      simp only at same
      subst same
      exact .inl ⟨[], rest, records, rfl, rfl⟩
    next =>
      split
      next => exact .inr ⟨[], ⟨id, records⟩ :: rest, rfl, rfl⟩
      next =>
        rcases ih with ⟨left, right, found, parted, placed⟩ | ⟨left, right, parted, placed⟩
        · exact .inl ⟨⟨id, records⟩ :: left, right, found, by rw [parted]; rfl, by rw [placed]; rfl⟩
        · exact .inr ⟨⟨id, records⟩ :: left, right, by rw [parted]; rfl, by rw [placed]; rfl⟩

theorem DrawnFrom.place (drawn : DrawnFrom parts log) (r : Record) :
    DrawnFrom (place r parts) (r :: log) := by
  rcases place_eq r parts with ⟨left, right, records, rfl, placed⟩ | ⟨left, right, rfl, placed⟩
  · rw [placed]
    exact .draw drawn
  · rw [placed]
    exact .draw (drawn.insert r.processId)

theorem drawnFrom_ofBatch (batch : List Record) : DrawnFrom (ofBatch batch) batch := by
  induction batch with
  | nil => exact .usedUp (by simp [ofBatch])
  | cons r rest ih => exact ih.place r

/-- Each record of the log is a record of one part, and the other way round. -/
theorem DrawnFrom.perm (drawn : DrawnFrom parts log) : (parts.flatMap records).Perm log := by
  induction drawn with
  | usedUp empty => rw [List.flatMap_eq_nil_iff.2 empty]
  | @draw left right id r rest log later ih =>
    rw [List.flatMap_append, List.flatMap_cons] at ih ⊢
    exact List.perm_middle.trans (ih.cons r)

theorem mem_ids_ofBatch (batch : List Record) (id : ProcessId) :
    id ∈ (ofBatch batch).map (·.id) ↔ ∃ r ∈ batch, r.processId = id := by
  rw [← List.mem_toFinset, toFinset_id_ofBatch, Record.ids, List.mem_toFinset, List.mem_map]

/-- Looking up the records of a process is the same as picking them from all parts. -/
theorem Sorted.recordsOf_eq (sorted : Sorted parts) (id : ProcessId) :
    recordsOf parts id = Record.about id (parts.map records).flatten := by
  induction parts with
  | nil => rfl
  | cons part rest ih =>
    have own := sorted.own part List.mem_cons_self
    have later := ih sorted.tail
    rw [recordsOf] at later ⊢
    rw [List.map_cons, List.flatten_cons, Record.about_append, ← later]
    by_cases same : part.id = id
    · have kept : Record.about id part.records = part.records :=
        List.filter_eq_self.2 fun r member => beq_iff_eq.2 ((own r member).trans same)
      rw [kept, List.filter_cons, if_pos (beq_iff_eq.2 same), List.flatMap_cons]
    · have dropped : Record.about id part.records = [] :=
        Record.about_eq_nil fun r member => own r member ▸ same
      rw [dropped, List.filter_cons, if_neg fun h => same (beq_iff_eq.1 h), List.nil_append]

theorem nodup_ids_ofBatch (batch : List Record) : ((ofBatch batch).map (·.id)).Nodup :=
  List.pairwise_map.2 (sorted_ofBatch batch).distinct

theorem exists_part {batch : List Record} {r : Record} (member : r ∈ batch) :
    ∃ part ∈ ofBatch batch, part.id = r.processId :=
  List.mem_map.1 ((mem_ids_ofBatch batch r.processId).2 ⟨r, member, rfl⟩)

/-- A batch is split without loss: there is one part for each process of the batch, which holds the
records of the process in the order of the batch, and the batch is drawn from the parts. So a record
is in one part only, and there as often as in the batch. -/
theorem ofBatch_lossless (batch : List Record) :
    ((ofBatch batch).map (·.id)).Nodup ∧
    (∀ id, id ∈ (ofBatch batch).map (·.id) ↔ ∃ r ∈ batch, r.processId = id) ∧
    (∀ part ∈ ofBatch batch,
      part.records = batch.filter (·.processId == part.id) ∧ part.records ≠ []) ∧
    (∀ id, recordsOf (ofBatch batch) id = batch.filter (·.processId == id)) ∧
    DrawnFrom (ofBatch batch) batch ∧
    (∀ r ∈ batch, ∃! part, part ∈ ofBatch batch ∧ r ∈ part.records) ∧
    ∀ r, ((ofBatch batch).map fun part => part.records.count r).sum = batch.count r := by
  have drawn := drawnFrom_ofBatch batch
  have sorted := sorted_ofBatch batch
  refine ⟨nodup_ids_ofBatch batch, mem_ids_ofBatch batch, fun part member => ?_, fun id => ?_,
    drawn, fun r member => ?_, fun r => ?_⟩
  · have held := records_ofBatch member
    refine ⟨held, ?_⟩
    obtain ⟨r, present, own⟩ := (mem_ids_ofBatch batch part.id).1 (List.mem_map_of_mem member)
    rw [held]
    exact List.ne_nil_of_mem (List.mem_filter.2 ⟨present, beq_iff_eq.2 own⟩)
  · rw [sorted.recordsOf_eq, about_ofBatch, Record.about]
  · obtain ⟨part, known, own⟩ := exists_part member
    refine ⟨part, ⟨known, ?_⟩, fun other both => ?_⟩
    · rw [records_ofBatch known]
      exact List.mem_filter.2 ⟨member, beq_iff_eq.2 own.symm⟩
    · obtain ⟨listed, held⟩ := both
      have same : other.id = part.id := (sorted.own other listed r held).symm.trans own.symm
      exact List.inj_on_of_nodup_map (nodup_ids_ofBatch batch) listed known same
  · rw [← drawn.perm.count_eq r, List.count_flatMap]
    rfl

example : ofBatch [.initiate ⟨"b"⟩, .initiate ⟨"a"⟩, .command ⟨⟨"b"⟩, .request⟩, .initiate ⟨"b"⟩] =
    [⟨⟨"a"⟩, [.initiate ⟨"a"⟩]⟩,
      ⟨⟨"b"⟩, [.initiate ⟨"b"⟩, .command ⟨⟨"b"⟩, .request⟩, .initiate ⟨"b"⟩]⟩] := by decide

end Partition

end TransferLifecycle
