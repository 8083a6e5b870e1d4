import TransferLifecycle.Encoding
import TransferLifecycle.Proofs.InstantText

set_option autoImplicit false

/- Commands and processes are read back from their encodings, so no two of them have the same one.
What is decoded from any other form of a value is the value as well, and then stays the same. -/
namespace TransferLifecycle

namespace Json

theorem optionalString?_ofOptional (text : Option String) :
    optionalString? (some (ofOptional text)) = some text := by
  cases text <;> rfl

theorem word?_integer (n : UInt32) : word? (.integer n.toNat) = some n := by
  have bound := n.toNat_lt
  have inWord : (0 : Int) ≤ n.toNat ∧ (n.toNat : Int) ≤ 0xFFFFFFFF := by omega
  rw [word?, if_pos inWord, Int.toNat_natCast]
  exact congrArg some (UInt32.ofNat_toNat)

end Json

theorem State.decode?_encode (s : State) : decode? s.encode = some s := s.ofName?_name

theorem Action.decode?_encode (a : Action) : decode? a.encode = some a := by
  cases a with
  | suspend reason =>
    change (Json.optionalString? (some (.ofOptional reason))).map suspend = some (suspend reason)
    rw [Json.optionalString?_ofOptional]
    rfl
  | _ => rfl

theorem Command.decode?_encode (c : Command) : decode? c.encode = some c := by
  change ofParts? (.string c.processId.text) c.action.encode = some c
  simp only [ofParts?, ProcessId.decode?, Json.string?, Action.decode?_encode, Option.map_some,
    Option.bind_eq_bind, Option.bind_some]
  rfl

theorem TransferProcess.decode?_encode {p : TransferProcess} (plain : p.updatedAt.Plain) :
    decode? p.encode = some p := by
  change ofParts? (.string p.id.text) p.state.encode (.integer p.stateCount.toNat)
    (.string p.updatedAt.text) (some (.ofOptional p.errorDetail)) = some p
  simp only [ofParts?, ProcessId.decode?, Json.string?, State.decode?_encode, Json.word?_integer,
    Instant.ofText?_text plain, Json.optionalString?_ofOptional, Option.map_some,
    Option.bind_eq_bind, Option.bind_some]
  rfl

/-- Commands and plain processes are read back from their encodings, and different ones have
different encodings. Whatever form a value is decoded from, its encoding decodes to the same. -/
theorem persisted_round_trip :
    (∀ c : Command, Command.decode? c.encode = some c) ∧
    (∀ p : TransferProcess, p.updatedAt.Plain → TransferProcess.decode? p.encode = some p) ∧
    (∀ c c' : Command, c.encode = c'.encode → c = c') ∧
    (∀ p p' : TransferProcess, p.updatedAt.Plain → p'.updatedAt.Plain → p.encode = p'.encode →
      p = p') ∧
    (∀ j c, Command.decode? j = some c → Command.decode? c.encode = Command.decode? j) ∧
    ∀ j p, TransferProcess.decode? j = some p → p.updatedAt.Plain →
      TransferProcess.decode? p.encode = TransferProcess.decode? j := by
  refine ⟨Command.decode?_encode, fun p => TransferProcess.decode?_encode, ?_, ?_, ?_, ?_⟩
  · intro c c' same
    have read := congrArg Command.decode? same
    rw [c.decode?_encode, c'.decode?_encode] at read
    exact Option.some.inj read
  · intro p p' plain plain' same
    have read := congrArg TransferProcess.decode? same
    rw [TransferProcess.decode?_encode plain, TransferProcess.decode?_encode plain'] at read
    exact Option.some.inj read
  · intro j c decoded
    rw [c.decode?_encode, decoded]
  · intro j p decoded plain
    rw [TransferProcess.decode?_encode plain, decoded]

/-- A process that ended one nanosecond into the last second of a leap day. -/
def leapDayProcess : TransferProcess :=
  ⟨⟨"tp-1"⟩, .terminated, 0xFFFFFFFF, ⟨1709251199, 1⟩, some ""⟩

theorem persisted_round_trip_leapDay :
    leapDayProcess.updatedAt.Plain ∧
      leapDayProcess.updatedAt.text = "2024-02-29T23:59:59.000000001Z" ∧
      TransferProcess.decode? leapDayProcess.encode = some leapDayProcess := by
  have plain : leapDayProcess.updatedAt.Plain := ⟨by decide, by decide, by decide⟩
  exact ⟨plain, by decide, persisted_round_trip.2.1 leapDayProcess plain⟩

end TransferLifecycle
