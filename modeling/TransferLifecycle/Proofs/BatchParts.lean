import TransferLifecycle.CommandLog
import TransferLifecycle.Batch
import TransferLifecycle.Proofs.ProcessRows

set_option autoImplicit false

/- Reading in batches loses no record, and splitting a batch into parts keeps the records of each
process together and in their order. -/
namespace TransferLifecycle

namespace CommandLog

/-- The records among the items of a log. -/
def recordsOf (items : List (Except ReadError Record)) : List Record :=
  items.filterMap Except.toOption

@[simp] theorem recordsOf_nil : recordsOf [] = [] := rfl

@[simp] theorem recordsOf_error (e : ReadError) (items : List (Except ReadError Record)) :
    recordsOf (.error e :: items) = recordsOf items := rfl

@[simp] theorem recordsOf_ok (r : Record) (items : List (Except ReadError Record)) :
    recordsOf (.ok r :: items) = r :: recordsOf items := rfl

/-- A batch has the first of the records that are left, as many as go in. -/
theorem takeBatch_batch (taken : List Record) (size : Nat)
    (items : List (Except ReadError Record)) :
    (takeBatch taken size items).1 = taken.reverse ++ (recordsOf items).take size := by
  fun_induction takeBatch taken size items with
  | case1 => simp
  | case2 => simp
  | case3 taken size e rest ih => simpa using ih
  | case4 taken size record rest ih => simpa using ih

/-- The records that follow are left, and no others. -/
theorem takeBatch_rest (taken : List Record) (size : Nat) (items : List (Except ReadError Record)) :
    recordsOf (takeBatch taken size items).2 = (recordsOf items).drop size := by
  fun_induction takeBatch taken size items with
  | case1 => simp
  | case2 => simp
  | case3 taken size e rest ih => simpa using ih
  | case4 taken size record rest ih => simpa using ih

theorem takeBatch_records (taken : List Record) (size : Nat)
    (items : List (Except ReadError Record)) :
    (takeBatch taken size items).1 ++ recordsOf (takeBatch taken size items).2 =
      taken.reverse ++ recordsOf items := by
  rw [takeBatch_batch, takeBatch_rest, List.append_assoc, List.take_append_drop]

/-- An empty batch means that there is no record left. -/
theorem recordsOf_of_empty {size : Nat} {items rest : List (Except ReadError Record)}
    (positive : 0 < size) (read : takeBatch [] size items = ([], rest)) : recordsOf items = [] := by
  have batch := takeBatch_batch [] size items
  rw [read, List.reverse_nil, List.nil_append] at batch
  rcases List.take_eq_nil_iff.1 batch.symm with none | nothing
  · omega
  · exact nothing

end CommandLog

/-- Two lists of records that have no process in common. -/
def Record.Apart (first second : List Record) : Prop :=
  ∀ r ∈ first, ∀ q ∈ second, r.processId ≠ q.processId

namespace Record

theorem about_eq_nil {x : ProcessId} {log : List Record} (others : ∀ r ∈ log, r.processId ≠ x) :
    about x log = [] := by
  rw [about, List.filter_eq_nil_iff]
  intro r member own
  exact others r member (beq_iff_eq.1 own)

theorem Apart.symm {first second : List Record} (apart : Apart first second) :
    Apart second first := fun r member q other => (apart q other r member).symm

/-- Of two lists with no process in common, one at most is about a given process. -/
theorem Apart.about_eq_nil {first second : List Record} (apart : Apart first second)
    (x : ProcessId) : about x first = [] ∨ about x second = [] := by
  by_cases present : ∃ r ∈ first, r.processId = x
  · obtain ⟨r, member, own⟩ := present
    right
    apply Record.about_eq_nil
    intro q other same
    exact apart r member q other (own.trans same.symm)
  · left
    apply Record.about_eq_nil
    intro r member own
    exact present ⟨r, member, own⟩

theorem Apart.about_comm {first second : List Record} (apart : Apart first second) (x : ProcessId) :
    about x first ++ about x second = about x second ++ about x first := by
  rcases apart.about_eq_nil x with none | none <;> simp [none]

/-- A record may go before records of other processes. -/
theorem about_pull {r : Record} {first : List Record}
    (others : ∀ q ∈ first, q.processId ≠ r.processId) (rest : List Record) (x : ProcessId) :
    about x (first ++ r :: rest) = about x (r :: (first ++ rest)) := by
  by_cases own : r.processId = x
  · have none : about x first = [] := by
      apply about_eq_nil
      intro q member same
      exact others q member (same.trans own.symm)
    rw [about_append, about_cons_self own, about_cons_self own, about_append, none]
    rfl
  · rw [about_append, about_cons_of_ne own, about_cons_of_ne own, about_append]

theorem others_of_apart {left right : List (List Record)} {r : Record} {rest : List Record}
    (apart : (left ++ (r :: rest) :: right).Pairwise Apart) :
    ∀ q ∈ left.flatten, q.processId ≠ r.processId := by
  intro q member
  obtain ⟨log, present, inside⟩ := List.mem_flatten.1 member
  have before := (List.pairwise_append.1 apart).2.2 log present (r :: rest) List.mem_cons_self
  exact before q inside r List.mem_cons_self

theorem apart_tail {left right : List (List Record)} {r : Record} {rest : List Record}
    (apart : (left ++ (r :: rest) :: right).Pairwise Apart) :
    (left ++ rest :: right).Pairwise Apart := by
  obtain ⟨first, second, across⟩ := List.pairwise_append.1 apart
  obtain ⟨front, back⟩ := List.pairwise_cons.1 second
  have later : ∀ q ∈ rest, q ∈ r :: rest := fun q => List.mem_cons_of_mem r
  refine List.pairwise_append.2 ⟨first, List.pairwise_cons.2 ⟨?_, back⟩, ?_⟩
  · intro other member q inside
    exact front other member q (later q inside)
  · intro other member log present q inside p found
    rcases List.mem_cons.1 present with rfl | known
    · exact across other member (r :: log) List.mem_cons_self q inside p (later p found)
    · exact across other member log (List.mem_cons_of_mem _ known) q inside p found

/-- Lists with no process in common may be put one after the other in any order. -/
theorem about_flatten_perm {lists others : List (List Record)} (same : lists.Perm others)
    (apart : lists.Pairwise Apart) (x : ProcessId) :
    about x lists.flatten = about x others.flatten := by
  induction same with
  | nil => rfl
  | cons first _ ih =>
    rw [List.pairwise_cons] at apart
    simp only [List.flatten_cons, about_append, ih apart.2]
  | swap second first rest =>
    rw [List.pairwise_cons] at apart
    have swapped := (apart.1 second List.mem_cons_self).about_comm x
    simp only [List.flatten_cons, about_append]
    rw [← List.append_assoc, swapped, List.append_assoc]
  | trans first _ ih ih' =>
    rw [ih apart]
    exact ih' (first.pairwise apart fun ab => ab.symm)

end Record

namespace Partition

/-- Parts in the order of their ids, each with records of its own process only. -/
structure Sorted (parts : List Partition) : Prop where
  ascending : parts.Pairwise fun p q => p.id < q.id
  own : ∀ p ∈ parts, ∀ r ∈ p.records, r.processId = p.id

/-- Placing a record changes one part at most, that of its process. -/
theorem mem_place {r : Record} {parts : List Partition} {p : Partition}
    (member : p ∈ place r parts) :
    p ∈ parts ∨ p.id = r.processId ∧
      ∀ q ∈ p.records, q = r ∨ ∃ old ∈ parts, old.id = p.id ∧ q ∈ old.records := by
  induction parts with
  | nil =>
    rw [place, List.mem_singleton] at member
    rw [member]
    exact .inr ⟨rfl, fun q known => .inl (List.mem_singleton.1 known)⟩
  | cons part rest ih =>
    rw [place] at member
    split at member
    next same =>
      rcases List.mem_cons.1 member with rfl | later
      · refine .inr ⟨same, fun q known => (List.mem_cons.1 known).imp_right ?_⟩
        intro old
        exact ⟨part, List.mem_cons_self, rfl, old⟩
      · exact .inl (List.mem_cons_of_mem _ later)
    next =>
      split at member
      next =>
        rcases List.mem_cons.1 member with rfl | later
        · exact .inr ⟨rfl, fun q known => .inl (List.mem_singleton.1 known)⟩
        · exact .inl later
      next =>
        rcases List.mem_cons.1 member with rfl | later
        · exact .inl List.mem_cons_self
        · refine (ih later).imp (List.mem_cons_of_mem _) (And.imp_right fun known q recorded => ?_)
          refine (known q recorded).imp_right ?_
          rintro ⟨old, present, found⟩
          exact ⟨old, List.mem_cons_of_mem _ present, found⟩

theorem place_ascending (r : Record) {parts : List Partition}
    (ascending : parts.Pairwise fun p q => p.id < q.id) :
    (place r parts).Pairwise fun p q => p.id < q.id := by
  induction parts with
  | nil => exact List.pairwise_singleton _ _
  | cons part rest ih =>
    obtain ⟨before, later⟩ := List.pairwise_cons.1 ascending
    rw [place]
    split
    next => exact List.pairwise_cons.2 ⟨before, later⟩
    next other =>
      split
      next smaller =>
        refine List.pairwise_cons.2 ⟨fun p member => ?_, ascending⟩
        rcases List.mem_cons.1 member with rfl | member
        · exact smaller
        · exact ProcessId.lt_trans smaller (before p member)
      next notSmaller =>
        refine List.pairwise_cons.2 ⟨fun p member => ?_, ih later⟩
        rcases mem_place member with known | ⟨same, -⟩
        · exact before p known
        · rw [same]
          exact ProcessId.lt_of_not_lt_of_ne notSmaller other

theorem Sorted.place {parts : List Partition} (sorted : Sorted parts) (r : Record) :
    Sorted (place r parts) := by
  refine ⟨place_ascending r sorted.ascending, ?_⟩
  intro p member q recorded
  rcases mem_place member with known | ⟨same, found⟩
  · exact sorted.own p known q recorded
  · rcases found q recorded with rfl | ⟨old, present, sameId, was⟩
    · exact same.symm
    · rw [← sameId]
      exact sorted.own old present q was

theorem Sorted.tail {part : Partition} {rest : List Partition} (sorted : Sorted (part :: rest)) :
    Sorted rest :=
  ⟨(List.pairwise_cons.1 sorted.ascending).2,
    fun p member => sorted.own p (List.mem_cons_of_mem _ member)⟩

theorem sorted_ofBatch (batch : List Record) : Sorted (ofBatch batch) := by
  induction batch with
  | nil => exact ⟨.nil, by simp [ofBatch]⟩
  | cons r rest ih => exact ih.place r

theorem Sorted.distinct {parts : List Partition} (sorted : Sorted parts) :
    parts.Pairwise fun p q => p.id ≠ q.id := by
  refine sorted.ascending.imp fun {p q} less same => ?_
  rw [same] at less
  exact ProcessId.lt_irrefl _ less

theorem Sorted.apart {parts : List Partition} (sorted : Sorted parts) :
    (parts.map records).Pairwise Record.Apart := by
  rw [List.pairwise_map]
  refine sorted.distinct.imp_of_mem ?_
  intro p q first second other r member s found same
  rw [sorted.own p first r member, sorted.own q second s found] at same
  exact other same

/-- The part of a process has the records about it, in their order. -/
theorem Sorted.about_flatten {parts : List Partition} (sorted : Sorted parts) {part : Partition}
    (member : part ∈ parts) : Record.about part.id (parts.map records).flatten = part.records := by
  induction parts with
  | nil => cases member
  | cons first rest ih =>
    obtain ⟨apart, -⟩ := List.pairwise_cons.1 sorted.distinct
    rw [List.map_cons, List.flatten_cons, Record.about_append]
    rcases List.mem_cons.1 member with rfl | later
    · have own : Record.about part.id part.records = part.records := by
        rw [Record.about, List.filter_eq_self]
        intro r recorded
        exact beq_iff_eq.2 (sorted.own part member r recorded)
      have others : Record.about part.id (rest.map records).flatten = [] := by
        refine Record.about_eq_nil fun r inside => ?_
        obtain ⟨log, listed, recorded⟩ := List.mem_flatten.1 inside
        obtain ⟨other, known, rfl⟩ := List.mem_map.1 listed
        rw [sorted.own other (List.mem_cons_of_mem _ known) r recorded]
        exact (apart other known).symm
      rw [own, others, List.append_nil]
    · have none : Record.about part.id first.records = [] := by
        refine Record.about_eq_nil fun r recorded => ?_
        rw [sorted.own first List.mem_cons_self r recorded]
        exact apart part later
      rw [none, List.nil_append, ih sorted.tail later]

theorem about_place {parts : List Partition} (sorted : Sorted parts) (r : Record) (x : ProcessId) :
    Record.about x ((place r parts).map records).flatten =
      Record.about x (r :: (parts.map records).flatten) := by
  induction parts with
  | nil => rfl
  | cons part rest ih =>
    rw [place]
    split
    next => rfl
    next other =>
      split
      next => rfl
      next =>
        have others : ∀ q ∈ part.records, q.processId ≠ r.processId := by
          intro q member same
          exact other ((sorted.own part List.mem_cons_self q member).symm.trans same)
        simp only [List.map_cons, List.flatten_cons]
        rw [← Record.about_pull others, Record.about_append, ih sorted.tail, ← Record.about_append]

/-- The parts of a batch have the records of each process in their order. -/
theorem about_ofBatch (batch : List Record) (x : ProcessId) :
    Record.about x ((ofBatch batch).map records).flatten = Record.about x batch := by
  induction batch with
  | nil => rfl
  | cons r rest ih =>
    rw [ofBatch_cons, about_place (sorted_ofBatch rest)]
    by_cases own : r.processId = x
    · rw [Record.about_cons_self own, Record.about_cons_self own, ih]
    · rw [Record.about_cons_of_ne own, Record.about_cons_of_ne own, ih]

/-- So each part has the records of its process, in their order. -/
theorem records_ofBatch {batch : List Record} {part : Partition}
    (member : part ∈ ofBatch batch) : part.records = Record.about part.id batch := by
  rw [← about_ofBatch, (sorted_ofBatch batch).about_flatten member]

end Partition

end TransferLifecycle
