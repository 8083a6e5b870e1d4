import TransferLifecycle.Proofs.RecordSteps

set_option autoImplicit false

/- What a log makes of the rows of a reliable store, process by process. The row of a process
follows the records about it and no others, whatever was applied in between. -/
namespace TransferLifecycle

namespace Record

/-- The records of a log that are about one process. -/
def about (x : ProcessId) (log : List Record) : List Record := log.filter (·.processId == x)

/-- What the records about a process make of its row, one after the other. -/
def rowAfter (now : Instant) (x : ProcessId) (stored : Option TransferProcess)
    (log : List Record) : Option TransferProcess :=
  (about x log).foldl (fun row r => r.next now row) stored

variable {x : ProcessId} {r : Record}

theorem about_cons_self (own : r.processId = x) (rest : List Record) :
    about x (r :: rest) = r :: about x rest := by simp [about, own]

theorem about_cons_of_ne (other : r.processId ≠ x) (rest : List Record) :
    about x (r :: rest) = about x rest := by simp [about, other]

theorem about_append (x : ProcessId) (first second : List Record) :
    about x (first ++ second) = about x first ++ about x second := List.filter_append _ _

theorem about_about (x : ProcessId) (log : List Record) : about x (about x log) = about x log := by
  simp [about, List.filter_filter]

theorem rowAfter_cons (now : Instant) (x : ProcessId) (stored : Option TransferProcess)
    (r : Record) (rest : List Record) :
    rowAfter now x stored (r :: rest) =
      rowAfter now x (if r.processId = x then r.next now stored else stored) rest := by
  unfold rowAfter
  by_cases own : r.processId = x
  · rw [about_cons_self own, if_pos own, List.foldl_cons]
  · rw [about_cons_of_ne own, if_neg own]

theorem rowAfter_append (now : Instant) (x : ProcessId) (stored : Option TransferProcess)
    (first second : List Record) :
    rowAfter now x stored (first ++ second) =
      rowAfter now x (rowAfter now x stored first) second := by
  rw [rowAfter, about_append, List.foldl_append]
  rfl

theorem rowAfter_congr (now : Instant) (stored : Option TransferProcess) {log other : List Record}
    (same : about x other = about x log) :
    rowAfter now x stored other = rowAfter now x stored log := by rw [rowAfter, same, rowAfter]

/-- A process comes to have a row by an initiation, and then keeps having one. -/
theorem isSome_rowAfter (now : Instant) (x : ProcessId) (stored : Option TransferProcess)
    (log : List Record) :
    (rowAfter now x stored log).isSome = true ↔ stored.isSome = true ∨ .initiate x ∈ log := by
  induction log generalizing stored with
  | nil => simp [rowAfter, about]
  | cons r rest ih =>
    rw [rowAfter_cons, ih, List.mem_cons]
    by_cases own : r.processId = x
    · subst own
      rw [if_pos rfl]
      cases stored with
      | some p => simp [r.isSome_next now p]
      | none => rw [r.next_none, eq_comm, Option.isSome_none]; simp
    · have apart : Record.initiate x ≠ r := by
        rintro rfl
        exact own rfl
      rw [if_neg own]
      simp [apart]

end Record

/-- Seen through `f`, a record does at any reading of the clock what it does at `now`. -/
def Clock.ReadsAs (clock : Clock) (f : TransferProcess → TransferProcess) (now : Instant) : Prop :=
  ∀ k r stored, (Record.result? r (clock.reading k) stored).map f = r.result? now (stored.map f)

theorem Clock.readsAs_fixed (now : Instant) : (fixed now).ReadsAs id now := by
  intro k r stored
  simp only [Option.map_id_fun, id, fixed]

theorem Clock.ReadsAs.next {clock : Clock} {f : TransferProcess → TransferProcess} {now : Instant}
    (reads : clock.ReadsAs f now) (k : Nat) (r : Record) (stored : Option TransferProcess) :
    (r.next (clock.reading k) stored).map f = r.next now (stored.map f) := by
  rw [Record.next, Record.next, ← reads k r stored]
  cases r.result? (clock.reading k) stored <;> rfl

namespace Session

variable {s mid after : Session} {f : TransferProcess → TransferProcess} {now : Instant}
  {log : List Record}

theorem SameWorld.readsAs (world : s.SameWorld after) (reads : s.clock.ReadsAs f now) :
    after.clock.ReadsAs f now := by
  intro k
  rw [world.2]
  exact reads k

/-- Seen through `f`, the session `after` has the rows that the log makes of those of `s`. -/
structure Followed (f : TransferProcess → TransferProcess) (now : Instant) (s : Session)
    (log : List Record) (after : Session) : Prop where
  world : s.SameWorld after
  rows : ∀ x, (after.store.get? x).map f = Record.rowAfter now x ((s.store.get? x).map f) log

theorem Followed.refl (s : Session) : s.Followed f now [] s := ⟨⟨rfl, rfl⟩, fun _ => rfl⟩

theorem Followed.trans {second : List Record} (first : s.Followed f now log mid)
    (later : mid.Followed f now second after) : s.Followed f now (log ++ second) after := by
  refine ⟨first.world.trans later.world, fun x => ?_⟩
  rw [later.rows, first.rows, Record.rowAfter_append]

/-- Only the order of the records of each process counts. -/
theorem Followed.congr {other : List Record} (followed : s.Followed f now log after)
    (same : ∀ x, Record.about x other = Record.about x log) : s.Followed f now other after := by
  refine ⟨followed.world, fun x => ?_⟩
  rw [followed.rows, Record.rowAfter_congr now _ (same x)]

end Session

namespace Engine

variable {e : Engine} {s : Session} {f : TransferProcess → TransferProcess} {now : Instant}

theorem apply_followed (standard : e.dispatcher.Standard) (reliable : s.store.Reliable)
    (reads : s.clock.ReadsAs f now) (r : Record) : s.Followed f now [r] (e.apply s r).2 := by
  obtain ⟨-, rows, world⟩ := apply_of_reliable standard reliable r
  refine ⟨world, fun x => ?_⟩
  rw [Store.get?, rows, Roster.get?_step, Record.rowAfter_cons, ← reads.next s.clock.taken]
  split <;> rfl

/-- A run over a reliable store is not interrupted, and the rows follow its records. -/
theorem runFrom_followed (standard : e.dispatcher.Standard) (reliable : s.store.Reliable)
    (reads : s.clock.ReadsAs f now) (total : Tally) (log : List Record) :
    (∃ tally, (e.runFrom total s log).1 = .ok tally) ∧
      s.Followed f now log (e.runFrom total s log).2 := by
  induction log generalizing total s with
  | nil => exact ⟨⟨total, rfl⟩, .refl s⟩
  | cons r rest ih =>
    have tally := (apply_of_reliable standard reliable r).1
    have first := apply_followed standard reliable reads r
    rw [runFrom]
    rcases applied : e.apply s r with ⟨answer, mid⟩
    rw [applied] at tally first
    cases tally
    obtain ⟨ended, later⟩ := ih (first.world.reliable reliable) (first.world.readsAs reads)
      (total.add (.ofResult (r.result? s.clock.now (s.store.get? r.processId))))
    exact ⟨ended, first.trans later⟩

end Engine

end TransferLifecycle
