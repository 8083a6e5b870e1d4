import Mathlib.Order.Monotone.Basic
import TransferLifecycle.Proofs.Moments

set_option autoImplicit false

/- The state count of a process as its version number. Between two moments of a run it does not go
down, and while it stays, the whole row stays, as long as the count is not full. A process that the
run initiated carries the reading of the clock that was taken for the last write of its row. -/
namespace TransferLifecycle

/-- Instants in the order of time. -/
instance : Preorder Instant where
  le a b := a.seconds < b.seconds ∨ a.seconds = b.seconds ∧ a.nanoseconds ≤ b.nanoseconds
  le_refl a := .inr ⟨rfl, Nat.le_refl _⟩
  le_trans a b c first second := by omega

namespace TransferProcess

/-- The process is the same, or it has a higher count, if the count was not full. -/
def SameOrNewer (p q : TransferProcess) : Prop :=
  q = p ∨ min (p.stateCount.toNat + 1) 0xFFFFFFFF ≤ q.stateCount.toNat

variable {p q r : TransferProcess}

theorem count_le_full (p : TransferProcess) : p.stateCount.toNat ≤ 0xFFFFFFFF := by
  have bound := p.stateCount.toNat_lt
  omega

theorem SameOrNewer.count (later : p.SameOrNewer q) : p.stateCount ≤ q.stateCount := by
  rw [UInt32.le_iff_toNat_le]
  have full := p.count_le_full
  rcases later with rfl | more
  · exact Nat.le_refl _
  · omega

theorem SameOrNewer.trans (first : p.SameOrNewer q) (second : q.SameOrNewer r) :
    p.SameOrNewer r := by
  rcases first with rfl | more
  · exact second
  · rcases second with rfl | most
    · exact .inr more
    · exact .inr (by omega)

/-- Of two versions with the same count, which is not full, one is the other. -/
theorem SameOrNewer.eq_of_count (later : p.SameOrNewer q) (same : p.stateCount = q.stateCount)
    (room : p.stateCount < 0xFFFFFFFF) : q = p := by
  rcases later with eq | more
  · exact eq
  · rw [← same] at more
    rw [UInt32.lt_iff_toNat_lt] at room
    change p.stateCount.toNat < 0xFFFFFFFF at room
    omega

end TransferProcess

theorem Link.Legal.newer {asked : Command → Prop} {shown : Instant → Prop} {x : ProcessId}
    {l : Link} (legal : l.Legal asked shown x) : l.before.SameOrNewer l.after :=
  .inr (Nat.le_of_eq legal.count.symm)

namespace Session

variable {asked : Command → Prop} {x : ProcessId} {s mid after : Session}

/-- The process `x` stays where it is stored, as it is or as a newer version. -/
structure Succeeds (x : ProcessId) (s after : Session) : Prop where
  world : s.SameWorld after
  forward : s.clock.taken ≤ after.clock.taken
  row : ∀ p, s.store.get? x = some p → ∃ q, after.store.get? x = some q ∧ p.SameOrNewer q

theorem Succeeds.refl (s : Session) : s.Succeeds x s :=
  ⟨⟨rfl, rfl⟩, Nat.le_refl _, fun p stored => ⟨p, stored, .inl rfl⟩⟩

theorem Succeeds.trans (first : s.Succeeds x mid) (second : mid.Succeeds x after) :
    s.Succeeds x after := by
  refine ⟨first.world.trans second.world, Nat.le_trans first.forward second.forward, ?_⟩
  intro p stored
  obtain ⟨q, found, newer⟩ := first.row p stored
  obtain ⟨r, present, newest⟩ := second.row q found
  exact ⟨r, present, newer.trans newest⟩

theorem Ticks.succeeds {prev : Session} (ticks : Ticks asked x prev s after) :
    s.Succeeds x after := by
  refine ⟨ticks.world, ticks.forward, fun p stored => ?_⟩
  rcases ticks.row with same | written
  · exact ⟨p, same.trans stored, .inl rfl⟩
  · cases written with
    | born _ absent _ =>
      rw [absent] at stored
      cases stored
    | moved _ legal before row =>
      obtain rfl := Option.some.inj (before.symm.trans stored)
      exact ⟨_, row, legal.newer⟩

/-- A row that was just written carries the reading that was taken before. -/
theorem Writes.stamped {prev : Session} {p : TransferProcess}
    (written : Writes asked x prev s after) (stored : after.store.get? x = some p) :
    p.updatedAt = prev.clock.now := by
  cases written with
  | born _ _ row =>
    obtain rfl := Option.some.inj (row.symm.trans stored)
    rfl
  | moved _ legal _ row =>
    obtain rfl := Option.some.inj (row.symm.trans stored)
    obtain ⟨now, rfl, moved⟩ := legal.stamped
    rw [moved]
    rfl

/-- Nothing is written before the clock was read. -/
theorem Writes.read {prev : Session} (written : Writes asked x prev s after) :
    s = { prev with clock := prev.clock.advance } := by
  cases written with
  | born read _ _ => exact read
  | moved read _ _ _ => exact read

end Session

theorem exists_getElem?_of_le {α : Type} {l : List α} {b : α} {i j : Nat} (order : i ≤ j)
    (second : l[j]? = some b) : ∃ a, l[i]? = some a := by
  obtain ⟨within, -⟩ := List.getElem?_eq_some_iff.1 second
  exact ⟨_, List.getElem?_eq_getElem (Nat.lt_of_le_of_lt order within)⟩

/-- From the moment `m` to the next the clock was read, and then the row of `x` was written with
that reading; and it stayed until the moment `j`. -/
structure LastWritten (asked : Command → Prop) (x : ProcessId) (moments : List Session) (j : Nat)
    (p : TransferProcess) (m : Nat) : Prop where
  before : m + 2 ≤ j
  written : ∃ prev s after, moments[m]? = some prev ∧ moments[m + 1]? = some s ∧
    moments[m + 2]? = some after ∧ Session.Writes asked x prev s after ∧
    p.updatedAt = prev.clock.now
  stays : ∀ n, m + 2 ≤ n → n ≤ j → ∀ s, moments[n]? = some s → s.store.get? x = some p

namespace Steps

variable {α : Type} {t : Steps α} {asked : Command → Prop} {x : ProcessId} {s u v : Session}
  {i j : Nat} {p q : TransferProcess}

/-- Two moments one after the other, and the one before them. -/
theorem exists_ticks (each : t.Each (Session.Ticks asked x) s s)
    (first : (t.moments s)[i]? = some u) (second : (t.moments s)[i + 1]? = some v) :
    ∃ prev, (s :: t.moments s)[i]? = some prev ∧ Session.Ticks asked x prev u v := by
  obtain ⟨prev, earlier⟩ :=
    exists_getElem?_of_le (Nat.le_succ i) (List.getElem?_cons_succ.trans first)
  exact ⟨prev, earlier, each.related earlier first second⟩

theorem succeeds_of_le (each : t.Each (Session.Ticks asked x) s s) (order : i ≤ j)
    (first : (t.moments s)[i]? = some u) (second : (t.moments s)[j]? = some v) :
    u.Succeeds x v := by
  induction order generalizing v with
  | refl =>
    obtain rfl := Option.some.inj (first.symm.trans second)
    exact .refl u
  | @step j _ ih =>
    obtain ⟨w, between⟩ := exists_getElem?_of_le (Nat.le_succ j) second
    obtain ⟨prev, -, ticks⟩ := exists_ticks each between second
    exact (ih between).trans ticks.succeeds

/-- A process that was not there at first was written last at some moment. The induction goes back
from the moment at which it is there. -/
theorem exists_lastWritten (each : t.Each (Session.Ticks asked x) s s)
    (absent : s.store.get? x = none) (now : (t.moments s)[j]? = some u)
    (stored : u.store.get? x = some p) : ∃ m, LastWritten asked x (t.moments s) j p m := by
  obtain ⟨rest, begun⟩ := moments_head t s
  induction j generalizing u with
  | zero =>
    rw [begun] at now
    cases now
    rw [absent] at stored
    cases stored
  | succ j ih =>
    obtain ⟨w, earlier⟩ := exists_getElem?_of_le (Nat.le_succ j) now
    obtain ⟨prev, first, ticks⟩ := exists_ticks each earlier now
    rcases ticks.row with same | written
    · obtain ⟨m, last⟩ := ih earlier (same.symm.trans stored)
      refine ⟨m, Nat.le_succ_of_le last.before, last.written, fun n behind within w found => ?_⟩
      rcases Nat.lt_or_eq_of_le within with sooner | rfl
      · exact last.stays n behind (Nat.le_of_lt_succ sooner) w found
      · obtain rfl := Option.some.inj (now.symm.trans found)
        exact stored
    · cases j with
      | zero =>
        -- No reading comes before the first action.
        rw [begun] at earlier
        cases first
        cases earlier
        have taken := congrArg (·.clock.taken) written.read
        exact absurd taken (Nat.ne_of_lt (Nat.lt_succ_self _))
      | succ m =>
        rw [List.getElem?_cons_succ] at first
        refine ⟨m, Nat.le_refl _, ⟨prev, w, u, first, earlier, now, written,
          written.stamped stored⟩, ?_⟩
        intro n behind within z found
        obtain rfl : n = m + 2 := by omega
        obtain rfl := Option.some.inj (now.symm.trans found)
        exact stored

/-- A later write has a later reading, or there was none in between. -/
theorem updatedAt_le_of_lastWritten (each : t.Each (Session.Ticks asked x) s s)
    (forward : Monotone s.clock.reading) (order : i ≤ j) (first : (t.moments s)[i]? = some u)
    (stored : u.store.get? x = some p) {m n : Nat}
    (last : LastWritten asked x (t.moments s) i p m)
    (last' : LastWritten asked x (t.moments s) j q n) : p.updatedAt ≤ q.updatedAt := by
  have begun : (t.moments s)[0]? = some s := by
    obtain ⟨rest, begun⟩ := moments_head t s
    rw [begun]
    rfl
  by_cases older : n + 2 ≤ i
  · obtain rfl := Option.some.inj (stored.symm.trans (last'.stays i older order u first))
    exact le_refl _
  · obtain ⟨w, -, -, earlier, -, -, -, stamp⟩ := last.written
    obtain ⟨w', -, -, later, -, -, -, stamp'⟩ := last'.written
    have before := last.before
    have ahead := (succeeds_of_le each (by omega : m ≤ n) earlier later).forward
    have world := (succeeds_of_le each (Nat.zero_le m) begun earlier).world
    have world' := (succeeds_of_le each (Nat.zero_le n) begun later).world
    rw [stamp, stamp', Clock.now, Clock.now, world.2, world'.2]
    exact forward ahead

end Steps

namespace Engine

/-- Between two moments of a run, whatever the store held at first, the count of a stored process
does not go down, and where it is the same and not full, the process is the same. A process that
was initiated on the way carries the reading that its initiation took, or the last of its committed
transitions, and so its time does not go back where the clock does not. -/
theorem stateCount_is_version {e : Engine} (standard : e.dispatcher.registry = Registry.standard)
    {s : Session} (atomic : s.store.Atomic) (log : List Record) {i j : Nat} (order : i ≤ j)
    {u v : Session} (first : ((e.allSteps log).moments s)[i]? = some u)
    (second : ((e.allSteps log).moments s)[j]? = some v) {x : ProcessId} {p q : TransferProcess}
    (stored : u.store.get? x = some p) (stored' : v.store.get? x = some q) :
    p.stateCount ≤ q.stateCount ∧
      (p.stateCount = q.stateCount → p.stateCount < 0xFFFFFFFF → q = p) ∧
      (s.store.get? x = none →
        (∃ m, LastWritten (fun c => .command c ∈ log ∨ e.dispatcher.Submits c) x
          ((e.allSteps log).moments s) j q m) ∧
        ((∀ k, s.clock.reading k ≤ s.clock.reading (k + 1)) → p.updatedAt ≤ q.updatedAt)) := by
  have each : (e.allSteps log).Each
      (Session.Ticks (fun c => .command c ∈ log ∨ e.dispatcher.Submits c) x) s s :=
    ticking_allSteps standard (fun _ => .inr) (fun _ => .inl) s s atomic
  obtain ⟨r, found, newer⟩ := (Steps.succeeds_of_le each order first second).row p stored
  obtain rfl := Option.some.inj (stored'.symm.trans found)
  refine ⟨newer.count, newer.eq_of_count, fun absent => ?_⟩
  obtain ⟨m, last⟩ := Steps.exists_lastWritten each absent first stored
  obtain ⟨n, last'⟩ := Steps.exists_lastWritten each absent second stored'
  refine ⟨⟨n, last'⟩, fun forward => ?_⟩
  exact Steps.updatedAt_le_of_lastWritten each (monotone_nat_of_le_succ forward) order first stored
    last last'

/-- A process is requested among others, the clock ticks, and the first save is refused. -/
def tickingStart : Session :=
  .start ⟨.ofList [⟨⟨"b"⟩, .started, 7, .ofSeconds 0, none⟩], [], refuseThird⟩
    ⟨fun k => .ofSeconds (10 + k), 0⟩

def tickingMoments : List Session :=
  ((standard .default).allSteps
    [.initiate ⟨"a"⟩, .command ⟨⟨"a"⟩, .request⟩, .command ⟨⟨"b"⟩, .suspend none⟩]).moments
      tickingStart

theorem stateCount_is_version_ticking :
    tickingStart.store.get? ⟨"a"⟩ = none ∧
    (∃ m, LastWritten (fun c => .command c ∈ [Record.initiate ⟨"a"⟩, .command ⟨⟨"a"⟩, .request⟩,
        .command ⟨⟨"b"⟩, .suspend none⟩] ∨ (standard .default).dispatcher.Submits c)
      ⟨"a"⟩ tickingMoments 16 ⟨⟨"a"⟩, .requested, 1, .ofSeconds 12, none⟩ m) ∧
    (0 : UInt32) ≤ 1 ∧ Instant.ofSeconds 10 ≤ .ofSeconds 12 := by
  have early : tickingMoments[5]?.bind (·.store.get? ⟨"a"⟩) =
      some ⟨⟨"a"⟩, .initial, 0, .ofSeconds 10, none⟩ := by decide +kernel
  have late : tickingMoments[16]?.bind (·.store.get? ⟨"a"⟩) =
      some ⟨⟨"a"⟩, .requested, 1, .ofSeconds 12, none⟩ := by decide +kernel
  have absent : tickingStart.store.get? ⟨"a"⟩ = none := by decide +kernel
  have forward : ∀ k, tickingStart.clock.reading k ≤ tickingStart.clock.reading (k + 1) := by
    intro k
    refine .inl ?_
    change (10 + (k : Int)) < 10 + ((k + 1 : Nat) : Int)
    omega
  obtain ⟨u, first, stored⟩ := Option.bind_eq_some_iff.1 early
  obtain ⟨v, second, stored'⟩ := Option.bind_eq_some_iff.1 late
  obtain ⟨count, -, stamped⟩ := stateCount_is_version (e := standard .default) rfl
    atomic_refuseThird _ (by decide : 5 ≤ 16) first second stored stored'
  obtain ⟨last, time⟩ := stamped absent
  exact ⟨absent, last, count, time forward⟩

end Engine

end TransferLifecycle
