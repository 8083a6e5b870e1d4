import TransferLifecycle.TransferProcess

set_option autoImplicit false

/- A roster holds at most one process per id, in the order of the ids. Its view is `get?`: two
rosters that answer alike for every id are the same roster. -/
namespace TransferLifecycle

structure Roster where
  rows : List TransferProcess
  ascending : rows.Pairwise (fun a b => a.id < b.id)

namespace Roster

def empty : Roster := ⟨[], .nil⟩

def size (r : Roster) : Nat := r.rows.length

def get? (r : Roster) (id : ProcessId) : Option TransferProcess := r.rows.find? (·.id == id)

/-- Puts a process at its place among ascending rows, over a row of the same id. -/
def insertRow (p : TransferProcess) : List TransferProcess → List TransferProcess
  | [] => [p]
  | q :: rest =>
    if q.id = p.id then p :: rest
    else if p.id < q.id then p :: q :: rest
    else q :: insertRow p rest

theorem mem_insertRow {p x : TransferProcess} {rows : List TransferProcess}
    (h : x ∈ insertRow p rows) : x = p ∨ x ∈ rows := by
  induction rows with
  | nil => simpa [insertRow] using h
  | cons q rest ih =>
    rw [insertRow] at h
    split at h
    · rcases List.mem_cons.1 h with rfl | h
      · exact .inl rfl
      · exact .inr (List.mem_cons_of_mem _ h)
    · split at h
      · exact List.mem_cons.1 h
      · rcases List.mem_cons.1 h with rfl | h
        · exact .inr List.mem_cons_self
        · exact (ih h).imp_right (List.mem_cons_of_mem _)

theorem insertRow_ascending (p : TransferProcess) {rows : List TransferProcess}
    (h : rows.Pairwise (fun a b => a.id < b.id)) :
    (insertRow p rows).Pairwise (fun a b => a.id < b.id) := by
  induction rows with
  | nil => simp [insertRow]
  | cons q rest ih =>
    rw [List.pairwise_cons] at h
    rw [insertRow]
    split
    next same => exact List.pairwise_cons.2 ⟨fun x hx => same ▸ h.1 x hx, h.2⟩
    next other =>
      split
      next before =>
        refine List.pairwise_cons.2 ⟨fun x hx => ?_, List.pairwise_cons.2 h⟩
        rcases List.mem_cons.1 hx with rfl | hx
        · exact before
        · exact ProcessId.lt_trans before (h.1 x hx)
      next after =>
        have lt := ProcessId.lt_of_not_lt_of_ne after other
        refine List.pairwise_cons.2 ⟨fun x hx => ?_, ih h.2⟩
        rcases mem_insertRow hx with rfl | hx
        · exact lt
        · exact h.1 x hx

def insert (r : Roster) (p : TransferProcess) : Roster :=
  ⟨insertRow p r.rows, insertRow_ascending p r.ascending⟩

/-- A later process of the same id replaces an earlier one. -/
def ofList (processes : List TransferProcess) : Roster := processes.foldl insert empty

theorem id_of_get? {r : Roster} {id : ProcessId} {p : TransferProcess} (h : r.get? id = some p) :
    p.id = id := by simpa using List.find?_some h

@[simp] theorem get?_empty (id : ProcessId) : empty.get? id = none := rfl

private theorem find?_insertRow (p : TransferProcess) {rows : List TransferProcess} (id : ProcessId)
    (h : rows.Pairwise (fun a b => a.id < b.id)) :
    (insertRow p rows).find? (·.id == id) =
      if p.id = id then some p else rows.find? (·.id == id) := by
  induction rows with
  | nil => by_cases e : p.id = id <;> simp [insertRow, e]
  | cons q rest ih =>
    rw [List.pairwise_cons] at h
    rw [insertRow]
    split
    next same =>
      by_cases e : p.id = id
      · simp [e]
      · simp [e, same]
    next other =>
      split
      next => by_cases e : p.id = id <;> simp [e]
      next =>
        rw [List.find?_cons, List.find?_cons, ih h.2]
        by_cases e : p.id = id
        · have : (q.id == id) = false := beq_false_of_ne fun e' => other (e'.trans e.symm)
          simp [e, this]
        · simp [e]

theorem get?_insert (r : Roster) (p : TransferProcess) (id : ProcessId) :
    (r.insert p).get? id = if p.id = id then some p else r.get? id :=
  find?_insertRow p id r.ascending

@[simp] theorem get?_insert_self (r : Roster) (p : TransferProcess) :
    (r.insert p).get? p.id = some p := by simp [get?_insert]

theorem get?_insert_of_ne (r : Roster) {p : TransferProcess} {id : ProcessId} (h : p.id ≠ id) :
    (r.insert p).get? id = r.get? id := by simp [get?_insert, h]

theorem get?_eq_some_iff (r : Roster) (id : ProcessId) (p : TransferProcess) :
    r.get? id = some p ↔ p ∈ r.rows ∧ p.id = id := by
  constructor
  · intro h
    exact ⟨List.mem_of_find?_eq_some h, id_of_get? h⟩
  · rintro ⟨mem, rfl⟩
    obtain ⟨rows, ascending⟩ := r
    simp only [get?] at mem ⊢
    induction rows with
    | nil => simp at mem
    | cons q rest ih =>
      rw [List.pairwise_cons] at ascending
      rcases List.mem_cons.1 mem with rfl | mem
      · simp
      · have lt := ascending.1 p mem
        have ne : (q.id == p.id) = false :=
          beq_false_of_ne fun e => ProcessId.lt_irrefl p.id (by rw [e] at lt; exact lt)
        rw [List.find?_cons, ne]
        exact ih ascending.2 mem

private theorem nodup_of_ascending {rows : List TransferProcess}
    (h : rows.Pairwise (fun a b => a.id < b.id)) : rows.Nodup := by
  refine List.Pairwise.imp ?_ h
  rintro a b lt rfl
  exact ProcessId.lt_irrefl a.id lt

theorem ext_get? {r s : Roster} (h : ∀ id, r.get? id = s.get? id) : r = s := by
  have same : ∀ p, p ∈ r.rows ↔ p ∈ s.rows := by
    intro p
    have hr := get?_eq_some_iff r p.id p
    have hs := get?_eq_some_iff s p.id p
    rw [h] at hr
    simp only [and_true] at hr hs
    exact hr.symm.trans hs
  obtain ⟨rows, ascending⟩ := r
  obtain ⟨rows', ascending'⟩ := s
  have perm : rows.Perm rows' :=
    (List.perm_ext_iff_of_nodup (nodup_of_ascending ascending) (nodup_of_ascending ascending')).2
      same
  have := perm.eq_of_pairwise
    (fun a b _ _ ab ba => absurd (ProcessId.lt_trans ab ba) (ProcessId.lt_irrefl _))
    ascending ascending'
  subst this
  rfl

end Roster

end TransferLifecycle
