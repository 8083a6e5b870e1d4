import TransferLifecycle.CommandLog
import TransferLifecycle.Snapshot

set_option autoImplicit false

/- The lines on which the rows of a table start. A line ends with a carriage return, a line feed, or
both of them in this order; an empty line is no row, and a row may go on over several lines. So rows
start on lines further and further down, and the number of a row is at most that of its line. -/
namespace TransferLifecycle

namespace Csv

/-- The line that was reached, and whether the byte before was a carriage return. -/
structure LineCount where
  line : Nat
  returned : Bool

def LineCount.after (l : LineCount) (b : UInt8) : LineCount :=
  ⟨if b = carriageReturn ∨ b = lineFeed ∧ l.returned = false then l.line + 1 else l.line,
    b == carriageReturn⟩

def countLines (bytes : List UInt8) : LineCount := bytes.foldl LineCount.after ⟨1, false⟩

/-- The line of the byte that comes behind these bytes, counted from one. -/
def lineBehind (bytes : List UInt8) : Nat := (countLines bytes).line

def markLength : List UInt8 → Nat
  | 0xEF :: 0xBB :: 0xBF :: _ => 3
  | _ => 0

/-- Where the first byte of a row is. Reading the row begins behind the row before it, or behind the
byte order mark; empty lines are passed over. -/
def Row.begins (row : Row) (bytes : List UInt8) : Nat :=
  max row.position.byte (markLength bytes) +
    ((bytes.drop (max row.position.byte (markLength bytes))).takeWhile isLineEnd).length

/-- The row has a first byte, which is no line end. -/
def Row.Visible (row : Row) (bytes : List UInt8) : Prop :=
  ∃ b, bytes[row.begins bytes]? = some b ∧ isLineEnd b = false

/-- The line on which the first byte of a row stands. -/
def Row.startLine (row : Row) (bytes : List UInt8) : Nat := lineBehind (bytes.take (row.begins bytes))

section Lines

variable {b : UInt8} {bytes more : List UInt8}

theorem countLines_append_singleton (bytes : List UInt8) (b : UInt8) :
    countLines (bytes ++ [b]) = (countLines bytes).after b := by
  rw [countLines, List.foldl_append]
  rfl

theorem lineBehind_le_append (bytes more : List UInt8) :
    lineBehind bytes ≤ lineBehind (bytes ++ more) := by
  induction more generalizing bytes with
  | nil => exact Nat.le_of_eq (by rw [List.append_nil])
  | cons b more ih =>
    have step : lineBehind bytes ≤ lineBehind (bytes ++ [b]) := by
      rw [lineBehind, lineBehind, countLines_append_singleton, LineCount.after]
      simp only
      split <;> omega
    rw [List.append_cons]
    exact Nat.le_trans step (ih (bytes ++ [b]))

/-- Behind another byte than a carriage return, each line end begins a new line. -/
theorem lineBehind_lineEnd (unreturned : (countLines bytes).returned = false)
    (lineEnd : isLineEnd b = true) : lineBehind (bytes ++ [b]) = lineBehind bytes + 1 := by
  have ends : b = carriageReturn ∨ b = lineFeed ∧ (countLines bytes).returned = false := by
    simpa [isLineEnd, unreturned] using lineEnd
  rw [lineBehind, countLines_append_singleton, LineCount.after, if_pos ends]
  rfl

theorem returned_of_other (other : isLineEnd b = false) (bytes : List UInt8) :
    (countLines (bytes ++ [b])).returned = false := by
  rw [countLines_append_singleton, LineCount.after]
  simp only [isLineEnd, Bool.or_eq_false_iff] at other
  exact other.1

theorem one_le_lineBehind (bytes : List UInt8) : 1 ≤ lineBehind bytes :=
  lineBehind_le_append [] bytes

end Lines

namespace Partial

/-- What a byte does to a row: it is passed over before the row, or it is read into the row, or it
ends the row. A line break is read into a row only inside quotes, and ends it only outside of them.
-/
inductive Moved (p : Partial) (b : UInt8) : Prop
  | skipped (place : p.place = .rowStart) (lineEnd : isLineEnd b = true) (step : p.step b = .more p)
  | read (q : Partial) (visible : p.place = .rowStart → isLineEnd b = false)
      (step : p.step b = .more q) (inside : q.place ≠ .rowStart)
      (unquoted : q.place ≠ .quoted → isLineEnd b = false)
  | ended (inside : p.place ≠ .rowStart) (unquoted : p.place ≠ .quoted)
      (lineEnd : isLineEnd b = true) (step : p.step b = .row p.complete)

theorem outside_cases (p : Partial) (b : UInt8) :
    (isLineEnd b = true ∧ p.outside b = .row p.complete) ∨
    (isLineEnd b = false ∧ ∃ q, p.outside b = .more q ∧ q.place ≠ .rowStart) := by
  unfold outside
  split
  next isComma => exact .inr ⟨isComma ▸ rfl, _, rfl, by simp⟩
  next =>
    split
    next lineEnd => exact .inl ⟨lineEnd, rfl⟩
    next other => exact .inr ⟨Bool.eq_false_iff.2 other, _, rfl, by simp⟩

theorem opening_cases (p : Partial) (b : UInt8) :
    (isLineEnd b = true ∧ p.opening b = .row p.complete) ∨
    (isLineEnd b = false ∧ ∃ q, p.opening b = .more q ∧ q.place ≠ .rowStart) := by
  unfold opening
  split
  next isQuote => exact .inr ⟨isQuote ▸ rfl, _, rfl, by simp⟩
  next => exact p.outside_cases b

variable {p : Partial} {b : UInt8}

theorem Moved.of_outside (inside : p.place ≠ .rowStart) (unquoted : p.place ≠ .quoted)
    (goes : p.step b = p.outside b) : Moved p b := by
  rcases p.outside_cases b with ⟨lineEnd, row⟩ | ⟨visible, q, more, within⟩
  · exact .ended inside unquoted lineEnd (goes.trans row)
  · exact .read q (fun _ => visible) (goes.trans more) within fun _ => visible

theorem Moved.of_opening (visible : p.place = .rowStart → isLineEnd b = false)
    (unquoted : p.place ≠ .quoted) (goes : p.step b = p.opening b) : Moved p b := by
  rcases p.opening_cases b with ⟨lineEnd, row⟩ | ⟨visible, q, more, within⟩
  · have inside : p.place ≠ .rowStart := fun place =>
      Bool.false_ne_true ((visible place).symm.trans lineEnd)
    exact .ended inside unquoted lineEnd (goes.trans row)
  · exact .read q (fun _ => visible) (goes.trans more) within fun _ => visible

theorem moved (p : Partial) (b : UInt8) : Moved p b := by
  cases place : p.place with
  | rowStart =>
    cases lineEnd : isLineEnd b with
    | true => exact .skipped place lineEnd (by simp [step, place, lineEnd])
    | false => exact .of_opening (fun _ => lineEnd) (by simp [place]) (by simp [step, place, lineEnd])
  | fieldStart => exact .of_opening (by simp [place]) (by simp [place]) (by simp [step, place])
  | plain => exact .of_outside (by simp [place]) (by simp [place]) (by simp [step, place])
  | quoted =>
    by_cases isQuote : b = quote
    · exact .read { p with place := .quoteSeen } (by simp [place]) (by simp [step, place, isQuote])
        (by simp) fun _ => isQuote ▸ rfl
    · exact .read { p with field := b :: p.field } (by simp [place])
        (by simp [step, place, isQuote]) (by simp [place]) fun unquoted => absurd place unquoted
  | quoteSeen =>
    by_cases isQuote : b = quote
    · exact .read { p with place := .quoted, field := quote :: p.field } (by simp [place])
        (by simp [step, place, isQuote]) (by simp) fun _ => isQuote ▸ rfl
    · exact .of_outside (by simp [place]) (by simp [place]) (by simp [step, place, isQuote])

end Partial

/-- How far the reading of a row that begins at an offset has come. The bytes in front of its first
byte are known when that byte has been read; until then, all that was read is in front of it. -/
inductive Reading (start : Nat) : Partial → List UInt8 → List UInt8 → Prop
  | before {p : Partial} {earlier gap : List UInt8} (place : p.place = .rowStart)
      (begun : earlier.length = start) (empty : ∀ b ∈ gap, isLineEnd b = true) :
      Reading start p (earlier ++ gap) (earlier ++ gap)
  | inside {p : Partial} {earlier gap body : List UInt8} {first : UInt8} (place : p.place ≠ .rowStart)
      (begun : earlier.length = start) (empty : ∀ b ∈ gap, isLineEnd b = true)
      (visible : isLineEnd first = false)
      (unreturned : p.place ≠ .quoted →
        (countLines (earlier ++ gap ++ first :: body)).returned = false) :
      Reading start p (earlier ++ gap) (earlier ++ gap ++ first :: body)

theorem Row.begins_eq {row : Row} {whole earlier gap rest : List UInt8} {first : UInt8}
    (parts : whole = earlier ++ gap ++ first :: rest)
    (begun : earlier.length = max row.position.byte (markLength whole))
    (empty : ∀ b ∈ gap, isLineEnd b = true) (visible : isLineEnd first = false) :
    row.begins whole = (earlier ++ gap).length := by
  have behind : whole.drop earlier.length = gap ++ first :: rest := by
    rw [parts, List.append_assoc, List.drop_left]
  have skipped : (gap ++ first :: rest).takeWhile isLineEnd = gap := by
    rw [List.takeWhile_append_of_pos empty,
      List.takeWhile_cons_of_neg (by rw [visible]; exact Bool.false_ne_true), List.append_nil]
  rw [begins, ← begun, behind, skipped, List.length_append]

section Scan

variable {whole front done rest : List UInt8} {p q : Partial} {start here : Position} {b : UInt8}

theorem Reading.skip {n : Nat} (reading : Reading n p front done) (place : p.place = .rowStart)
    (lineEnd : isLineEnd b = true) :
    front = done ∧ Reading n p (done ++ [b]) (done ++ [b]) := by
  cases reading with
  | @before earlier gap _ begun empty =>
    refine ⟨rfl, ?_⟩
    rw [List.append_assoc]
    refine .before place begun fun c member => ?_
    rcases List.mem_append.1 member with known | last
    · exact empty c known
    · exact List.mem_singleton.1 last ▸ lineEnd
  | inside other => exact absurd place other

theorem Reading.read {n : Nat} (reading : Reading n p front done)
    (visible : p.place = .rowStart → isLineEnd b = false) (inside : q.place ≠ .rowStart)
    (unquoted : q.place ≠ .quoted → isLineEnd b = false) : Reading n q front (done ++ [b]) := by
  have unreturned : q.place ≠ .quoted → (countLines (done ++ [b])).returned = false :=
    fun outside => returned_of_other (unquoted outside) done
  cases reading with
  | before place begun empty => exact .inside inside begun empty (visible place) unreturned
  | @inside earlier gap body first place begun empty began _ =>
    rw [List.append_assoc, List.cons_append] at unreturned ⊢
    exact .inside inside begun empty began unreturned

theorem Reading.fresh (place : p.place = .rowStart) (done : List UInt8) :
    Reading done.length p done done := by
  have reading : Reading done.length p (done ++ []) (done ++ []) :=
    .before place rfl fun _ none => absurd none List.not_mem_nil
  rwa [List.append_nil] at reading

/-- Once its first byte has been read, it is known where a row begins. -/
theorem Reading.begun {row : Row}
    (reading : Reading (max row.position.byte (markLength whole)) p front done)
    (inside : p.place ≠ .rowStart) (parts : whole = done ++ rest) :
    row.Visible whole ∧ row.startLine whole = lineBehind front := by
  cases reading with
  | before place => exact absurd place inside
  | @inside earlier gap body first _ begun empty visible _ =>
    rw [List.append_assoc, List.cons_append] at parts
    have begins := Row.begins_eq parts begun empty visible
    refine ⟨⟨first, ?_, visible⟩, ?_⟩
    · rw [begins, parts, List.getElem?_append_right (Nat.le_refl _), Nat.sub_self]
      rfl
    · rw [Row.startLine, begins, parts, List.take_left]

/-- A line break that ends a row begins a new line. -/
theorem Reading.lt_lineBehind {n : Nat} (reading : Reading n p front done)
    (inside : p.place ≠ .rowStart) (unquoted : p.place ≠ .quoted) (lineEnd : isLineEnd b = true) :
    lineBehind front < lineBehind (done ++ [b]) := by
  cases reading with
  | before place => exact absurd place inside
  | @inside earlier gap body first _ _ _ _ unreturned =>
    rw [lineBehind_lineEnd (unreturned unquoted) lineEnd]
    exact Nat.lt_succ_of_le (lineBehind_le_append _ _)

/-- Rows that begin with a byte of their own and start on lines further and further down, none of
them above a given line. -/
structure Descending (whole : List UInt8) (line : Nat) (rows : List Row) : Prop where
  visible : ∀ row ∈ rows, row.Visible whole
  low : ∀ row ∈ rows, line ≤ row.startLine whole
  increasing : rows.Pairwise fun row later => row.startLine whole < later.startLine whole

theorem Descending.mono {line line' : Nat} {rows : List Row} (above : line ≤ line')
    (rowsBelow : Descending whole line' rows) : Descending whole line rows :=
  ⟨rowsBelow.visible, fun row member => Nat.le_trans above (rowsBelow.low row member),
    rowsBelow.increasing⟩

theorem Descending.cons {row : Row} {line : Nat} {rows : List Row} (visible : row.Visible whole)
    (above : row.startLine whole < line) (rowsBelow : Descending whole line rows) :
    Descending whole (row.startLine whole) (row :: rows) := by
  refine ⟨List.forall_mem_cons.2 ⟨visible, rowsBelow.visible⟩,
    List.forall_mem_cons.2 ⟨Nat.le_refl _, fun other member => ?_⟩,
    List.pairwise_cons.2 ⟨fun other member => ?_, rowsBelow.increasing⟩⟩
  · exact Nat.le_trans (Nat.le_of_lt above) (rowsBelow.low other member)
  · exact Nat.lt_of_lt_of_le above (rowsBelow.low other member)

/-- The rows that are still to be scanned do not start above the line that is reached in front of the
first of them. -/
theorem descending_scanFrom
    (reading : Reading (max start.byte (markLength whole)) p front done)
    (parts : whole = done ++ rest) (placed : here.byte = done.length)
    (marked : markLength whole ≤ done.length) :
    Descending whole (lineBehind front) (scanFrom p start here [] rest) := by
  induction rest generalizing p start here front done with
  | nil =>
    rw [scanFrom]
    by_cases place : p.place = .rowStart
    · have unfinished : p.finish = none := by rw [Partial.finish, place]
      rw [unfinished]
      exact ⟨by simp, by simp, .nil⟩
    · have finished : p.finish = some p.complete := by
        unfold Partial.finish
        split
        next started => exact absurd started place
        next => rfl
      obtain ⟨visible, line⟩ := @Reading.begun _ _ _ _ _ ⟨p.complete, start⟩ reading place parts
      rw [finished, ← line]
      exact .cons visible (Nat.lt_succ_self _) ⟨by simp, by simp, .nil⟩
  | cons b rest ih =>
    have next : whole = done ++ [b] ++ rest := by rw [parts, List.append_assoc]; rfl
    have placedNext : (here.after b).byte = (done ++ [b]).length := by
      rw [List.length_append, ← placed]
      rfl
    have markedNext : markLength whole ≤ (done ++ [b]).length := by
      rw [List.length_append]
      exact Nat.le_add_right_of_le marked
    rw [scanFrom]
    cases p.moved b with
    | skipped place lineEnd step =>
      obtain ⟨rfl, skipped⟩ := reading.skip place lineEnd
      simp only [step]
      exact (ih skipped next placedNext markedNext).mono (lineBehind_le_append front [b])
    | read q visible step inside unquoted =>
      simp only [step]
      exact ih (reading.read visible inside unquoted) next placedNext markedNext
    | ended inside unquoted lineEnd step =>
      obtain ⟨visible, line⟩ := @Reading.begun _ _ _ _ _ ⟨p.complete, start⟩ reading inside parts
      have above := reading.lt_lineBehind inside unquoted lineEnd
      have begun : (done ++ [b]).length = max (here.after b).byte (markLength whole) := by
        rw [placedNext, Nat.max_eq_left markedNext]
      have fresh := Reading.fresh (p := .start) rfl (done ++ [b])
      rw [begun] at fresh
      let after : Position := { here.after b with row := (here.after b).row + 1 }
      have later := @ih _ _ .start after after fresh next placedNext markedNext
      simp only [step]
      rw [scanFrom_rows, ← line]
      exact .cons visible (line ▸ above) later

/-- The rows of a table start on lines further and further down. -/
theorem descending_scan (bytes : List UInt8) : Descending bytes 1 (scan bytes) := by
  have scanned : ∀ mark rest : List UInt8, bytes = mark ++ rest → markLength bytes = mark.length →
      Descending bytes 1 (scanFrom .start ⟨0, 1, 0⟩ ⟨0, 1, mark.length⟩ [] rest) := by
    intro mark rest parts marked
    have fresh := Reading.fresh (p := .start) rfl mark
    rw [← marked, ← Nat.zero_max (markLength bytes)] at fresh
    have rows := @descending_scanFrom bytes mark mark rest .start ⟨0, 1, 0⟩ ⟨0, 1, mark.length⟩ fresh
      parts rfl (Nat.le_of_eq marked)
    exact rows.mono (one_le_lineBehind mark)
  rw [scan.eq_def]
  split
  next rest => exact scanned [0xEF, 0xBB, 0xBF] rest rfl rfl
  next unmarked =>
    refine scanned [] bytes rfl ?_
    rw [markLength.eq_def]
    split
    next rest => exact absurd rfl (unmarked rest)
    next => rfl

end Scan

end Csv

end TransferLifecycle
