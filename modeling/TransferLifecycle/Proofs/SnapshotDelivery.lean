import TransferLifecycle.Proofs.SnapshotText
import TransferLifecycle.ReplayError

set_option autoImplicit false

/- A snapshot never goes out cut off without a word. The loads of the buffer end anywhere in a row,
but together they are the whole text, and the first load that the sink does not take in full is the
error of the writing, be it the last load or one before. -/
namespace TransferLifecycle

namespace Sink

/-- A sink with a limit, to which the given bytes were offered. -/
def offered (limit : Nat) (bytes : List UInt8) : Sink := ⟨some limit, bytes.take limit⟩

@[simp] theorem received_offered (limit : Nat) (bytes : List UInt8) :
    (offered limit bytes).received = bytes.take limit := rfl

@[simp] theorem offered_nil (limit : Nat) : offered limit [] = limited limit := by
  rw [offered, List.take_nil, limited]

/-- What is offered to a full sink is lost on it. -/
theorem offered_of_full {limit : Nat} {bytes : List UInt8} (full : limit ≤ bytes.length)
    (more : List UInt8) : offered limit (bytes ++ more) = offered limit bytes := by
  rw [offered, offered, List.take_append_of_le_length full]

theorem write_offered {limit : Nat} {bytes : List UInt8} (fits : bytes.length ≤ limit)
    (load : List UInt8) :
    (offered limit bytes).write load =
      (decide ((bytes ++ load).length ≤ limit), offered limit (bytes ++ load)) := by
  have before : bytes.take limit = bytes := List.take_of_length_le fits
  have room : (offered limit bytes).room load.length = min load.length (limit - bytes.length) := by
    rw [Sink.room, offered, before]
  have taken : (min load.length (limit - bytes.length) == load.length) =
      decide ((bytes ++ load).length ≤ limit) := by
    rw [Bool.eq_iff_iff, beq_iff_eq, decide_eq_true_iff, List.length_append]
    omega
  have kept : bytes ++ load.take (min load.length (limit - bytes.length)) =
      (bytes ++ load).take limit := by
    rw [List.take_append, before, Nat.min_comm, ← List.take_eq_take_min]
  rw [write, room, taken]
  simp only [offered, before, kept]

/-- Loads that fit are written in full. -/
theorem writeAll_of_fits {limit : Nat} {bytes : List UInt8} {loads : List (List UInt8)}
    (fits : (bytes ++ loads.flatten).length ≤ limit) :
    (offered limit bytes).writeAll loads = (none, offered limit (bytes ++ loads.flatten)) := by
  induction loads generalizing bytes with
  | nil => rw [writeAll, List.flatten_nil, List.append_nil]
  | cons load rest ih =>
    rw [List.flatten_cons, ← List.append_assoc] at fits ⊢
    have first : (bytes ++ load).length ≤ limit := by
      rw [List.length_append] at fits
      omega
    have start : bytes.length ≤ limit := by
      rw [List.length_append] at first
      omega
    rw [writeAll, write_offered start, decide_eq_true first]
    exact ih fits

/-- Loads that do not fit are written up to the limit, and the writing fails: at the last load if
all before it fit. -/
theorem writeAll_of_exceeds {limit : Nat} {bytes : List UInt8} {loads : List (List UInt8)}
    (start : bytes.length ≤ limit) (exceeds : limit < (bytes ++ loads.flatten).length) :
    ∃ left, (offered limit bytes).writeAll loads =
        (some left, offered limit (bytes ++ loads.flatten)) ∧
      (left = 0 ↔ (bytes ++ loads.dropLast.flatten).length ≤ limit) := by
  induction loads generalizing bytes with
  | nil =>
    rw [List.flatten_nil, List.append_nil] at exceeds
    omega
  | cons load rest ih =>
    rw [List.flatten_cons, ← List.append_assoc] at exceeds ⊢
    by_cases first : (bytes ++ load).length ≤ limit
    · obtain ⟨left, written, last⟩ := ih first exceeds
      refine ⟨left, ?_, last.trans ?_⟩
      · rw [writeAll, write_offered start, decide_eq_true first]
        exact written
      · -- A load that fits is not the one that fails, so there is another behind it.
        have behind : rest ≠ [] := by
          rintro rfl
          rw [List.flatten_nil, List.append_nil] at exceeds
          omega
        rw [List.dropLast_cons_of_ne_nil behind, List.flatten_cons, List.append_assoc]
    · refine ⟨rest.length, ?_, ?_⟩
      · rw [writeAll, write_offered start, decide_eq_false first,
          offered_of_full (Nat.le_of_not_le first)]
      · rw [List.length_eq_zero_iff]
        cases rest with
        | nil => simpa using start
        | cons second others =>
          have beyond :
              ¬ (bytes ++ (load :: second :: others).dropLast.flatten).length ≤ limit := by
            rw [List.dropLast_cons_of_ne_nil (List.cons_ne_nil second others), List.flatten_cons,
              ← List.append_assoc, List.length_append]
            omega
          simp only [reduceCtorEq, beyond]

end Sink

namespace Snapshot

/-- The text of a snapshot as the buffer passes it on. -/
def loads (processes : List TransferProcess) : List (List UInt8) :=
  pack bufferSize (chunks processes)

theorem flatten_loads (processes : List TransferProcess) :
    (loads processes).flatten = contents processes := flatten_pack _ _

end Snapshot

open Snapshot (contents loads flatten_loads)

/-- What comes of writing a snapshot to a sink with a limit, told by the bytes of the snapshot. -/
theorem writeSnapshot_limited (processes : List TransferProcess) (limit : Nat) :
    let written := writeSnapshot processes (.limited limit)
    (written.1 = .ok () ↔ (contents processes).length ≤ limit) ∧
    (written.1 = .ok () → written.2.received = contents processes) ∧
    (limit < (contents processes).length →
      written.2.received = (contents processes).take limit ∧
      ∃ cause : Snapshot.Error, written.1 = .error (.output cause.message) ∧
        (cause = .flush ↔ (loads processes).dropLast.flatten.length ≤ limit)) := by
  rw [← Sink.offered_nil]
  have whole : ([] ++ (loads processes).flatten : List UInt8) = contents processes := by
    rw [List.nil_append, flatten_loads]
  by_cases fits : (contents processes).length ≤ limit
  · have all : (Sink.offered limit []).writeAll (loads processes) =
        (none, .offered limit (contents processes)) := by
      rw [← whole]
      exact Sink.writeAll_of_fits (by rwa [whole])
    have success : writeSnapshot processes (.offered limit []) =
        (.ok (), .offered limit (contents processes)) := by
      rw [writeSnapshot, Snapshot.write, ← loads, all]
    rw [success]
    refine ⟨iff_of_true rfl fits, fun _ => ?_, fun exceeds => absurd fits (by omega)⟩
    exact List.take_of_length_le fits
  · have exceeds : limit < ([] ++ (loads processes).flatten).length := by
      rw [whole]
      omega
    obtain ⟨left, all, last⟩ := Sink.writeAll_of_exceeds (Nat.zero_le limit) exceeds
    rw [whole] at all
    rw [List.nil_append] at last
    have failure : ∃ cause : Snapshot.Error, (cause = .flush ↔ left = 0) ∧
        writeSnapshot processes (.offered limit []) =
          (.error (.output cause.message), .offered limit (contents processes)) := by
      rw [writeSnapshot, Snapshot.write, ← loads, all]
      cases left with
      | zero => exact ⟨.flush, iff_of_true rfl rfl, rfl⟩
      | succ left => exact ⟨.write, by simp, rfl⟩
    obtain ⟨cause, place, written⟩ := failure
    have failed : (Except.error (.output cause.message) : Except ReplayError Unit) ≠ .ok () := by
      simp
    rw [written]
    refine ⟨iff_of_false failed fits, fun success => absurd success failed, fun _ => ?_⟩
    exact ⟨rfl, cause, rfl, place.trans last⟩

/-- Writing a snapshot to a sink with a limit succeeds exactly if its whole text, with the processes
in the order of their ids, is within the limit, and then the sink has received just the text.
Otherwise the sink is full and an error of the output is reported. It is that of the last flush if
all loads of the buffer but the last are within the limit, and that of writing rows if not. -/
theorem writeSnapshot_delivers (processes : List TransferProcess) (limit : Nat) :
    ∃ ordered : List TransferProcess, ordered.Perm processes ∧
      (ordered.Pairwise fun a b => ¬ b.id < a.id) ∧
      (∀ id, ordered.filter (·.id == id) = processes.filter (·.id == id)) ∧
      let text := Text.encode (Snapshot.text ordered)
      let written := writeSnapshot processes (.limited limit)
      (loads processes).flatten = text ∧
      (written.1 = .ok () ↔ text.length ≤ limit) ∧
      (written.1 = .ok () → written.2.received = text) ∧
      (limit < text.length → written.2.received = text.take limit ∧
        ∃ cause : Snapshot.Error, written.1 = .error (.output cause.message) ∧
          (cause = .flush ↔ (loads processes).dropLast.flatten.length ≤ limit)) := by
  refine ⟨Snapshot.sorted processes, Snapshot.sorted_perm processes,
    Snapshot.sorted_pairwise processes, Snapshot.sorted_filter processes, ?_⟩
  rw [← Snapshot.contents_eq_encode]
  exact ⟨flatten_loads processes, writeSnapshot_limited processes limit⟩

example :
    (writeSnapshot [.initial ⟨"a"⟩ (.ofSeconds 1)] (.limited 40)).1 =
      .error (.output "Failed to flush output: disk full") := by decide +kernel

end TransferLifecycle
