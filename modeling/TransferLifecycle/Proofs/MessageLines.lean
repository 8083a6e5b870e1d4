import TransferLifecycle.Proofs.RowLines

set_option autoImplicit false

/- The number that a message gives to the row which it is about. It is the number of the row in the
table, and the line on which the row starts may be further down: the number is right only where each
line before starts a row. -/
namespace TransferLifecycle

/-- Of numbers that increase from above a base, each is at least as far from the base as its place
tells, and exactly as far if no number is left out below it. -/
theorem Csv.place_lt_of_increasing {lines : List Nat} (increasing : lines.Pairwise (· < ·))
    {base place line : Nat} (low : ∀ line ∈ lines, base < line)
    (found : lines[place]? = some line) :
    base + place + 1 ≤ line ∧
      (base + place + 1 = line ↔ ∀ l, base < l → l < line → l ∈ lines) := by
  induction lines generalizing base place with
  | nil => simp at found
  | cons first rest ih =>
    obtain ⟨above, later⟩ := List.pairwise_cons.1 increasing
    have begun := low first List.mem_cons_self
    cases place with
    | zero =>
      obtain rfl : first = line := by simpa using found
      refine ⟨begun, fun near l more less => by omega, fun all => ?_⟩
      apply Decidable.byContradiction
      intro far
      rcases List.mem_cons.1 (all (base + 1) (by omega) (by omega)) with same | listed
      · omega
      · have := above _ listed
        omega
    | succ place =>
      rw [List.getElem?_cons_succ] at found
      obtain ⟨least, exactly⟩ := ih later above found
      refine ⟨by omega, fun near l more less => ?_, fun all => ?_⟩
      · have here : first = base + 1 := by omega
        by_cases same : l = first
        · exact same ▸ List.mem_cons_self
        · exact List.mem_cons_of_mem _ (exactly.1 (by omega) l (by omega) less)
      · have here : first = base + 1 := by
          rcases List.mem_cons.1 (all (base + 1) (by omega) (by omega)) with same | listed
          · exact same.symm
          · have := above _ listed
            omega
        have filled : first + place + 1 = line := by
          refine exactly.2 fun l more less => ?_
          rcases List.mem_cons.1 (all l (by omega) less) with same | listed
          · omega
          · exact listed
        omega

namespace CommandLog

variable {bytes : List UInt8} {place : Nat}

theorem exists_row_of_item {item : Except ReadError Record} (read : (items bytes)[place]? = some item) :
    ∃ header row, (Csv.scan bytes)[0]? = some header ∧ (Csv.scan bytes)[place + 1]? = some row ∧
      readRow (.ofFields header.fields) row = item := by
  rw [items] at read
  cases scanned : Csv.scan bytes with
  | nil => simp [scanned] at read
  | cons header rows =>
    simp only [scanned, List.getElem?_map, Option.map_eq_some_iff] at read
    obtain ⟨row, known, readAs⟩ := read
    exact ⟨header, row, rfl, known, readAs⟩

/-- The number in a message is that of its row in the table, where the header is the first row. It is
at most the number of the line on which the row starts, and it is that number exactly if there is a
row that starts on each of the lines before: none of them is empty, and none goes on with a row from
above. -/
theorem itemMessage_line {e : ReadError} (failed : (items bytes)[place]? = some (.error e)) :
    ∃ header row, (Csv.scan bytes)[0]? = some header ∧ (Csv.scan bytes)[place + 1]? = some row ∧
      readRow (.ofFields header.fields) row = .error e ∧
      itemMessage place e = "Line " ++ toString (place + 2) ++ ": " ++ e.message ∧
      row.Visible bytes ∧ place + 2 ≤ row.startLine bytes ∧
      (place + 2 = row.startLine bytes ↔ ∀ line, 0 < line → line < row.startLine bytes →
        ∃ earlier ∈ Csv.scan bytes, earlier.startLine bytes = line) := by
  obtain ⟨header, row, first, known, readAs⟩ := exists_row_of_item failed
  obtain ⟨visible, low, increasing⟩ := Csv.descending_scan bytes
  have line : ((Csv.scan bytes).map (·.startLine bytes))[place + 1]? = some (row.startLine bytes) := by
    rw [List.getElem?_map, known]
    rfl
  have positive : ∀ line ∈ (Csv.scan bytes).map (·.startLine bytes), 0 < line := by
    intro line member
    obtain ⟨other, listed, rfl⟩ := List.mem_map.1 member
    exact low other listed
  obtain ⟨least, exactly⟩ := Csv.place_lt_of_increasing (List.pairwise_map.2 increasing) positive line
  rw [Nat.zero_add] at least exactly
  refine ⟨header, row, first, known, readAs, rfl, visible row (List.mem_of_getElem? known), least,
    exactly.trans ?_⟩
  simp only [List.mem_map]

def error? : Except ReadError Record → Option ReadError
  | .error e => some e
  | .ok _ => none

theorem eq_error_of_error? {item : Except ReadError Record} {e : ReadError}
    (failed : error? item = some e) : item = .error e := by
  cases item with
  | error other => exact congrArg Except.error (Option.some.inj failed)
  | ok record => cases failed

/-- The messages of a log, in the order of its rows. -/
def messages (bytes : List UInt8) : List String :=
  (items bytes).zipIdx.filterMap fun (item, place) => (error? item).map (itemMessage place)

/-- Both bytes of each line end, and a carriage return alone, end one line. -/
def returnsLog : List UInt8 :=
  Text.encode "process,command,detail\r\ntp-1,initiate,\rtp-1,pause,\r\n"

theorem itemMessage_line_returns :
    (items returnsLog)[1]? = some (.error (.row (.unknownCommand "pause" "tp-1"))) ∧
      itemMessage 1 (.row (.unknownCommand "pause" "tp-1")) =
        "Line 3: Invalid command: 'pause' for process tp-1" ∧
      ∃ row, (Csv.scan returnsLog)[2]? = some row ∧ row.startLine returnsLog = 3 ∧
        ∀ line, 0 < line → line < 3 →
          ∃ earlier ∈ Csv.scan returnsLog, earlier.startLine returnsLog = line := by
  have failed : (items returnsLog)[1]? = some (.error (.row (.unknownCommand "pause" "tp-1"))) := by
    have known : (items returnsLog)[1]?.map error? =
        some (some (.row (.unknownCommand "pause" "tp-1"))) := by decide +kernel
    obtain ⟨item, read, error⟩ := Option.map_eq_some_iff.1 known
    rw [read, eq_error_of_error? error]
  have lines : ((Csv.scan returnsLog).map (·.startLine returnsLog))[2]? = some 3 := by
    decide +kernel
  obtain ⟨header, row, -, known, -, -, -, -, exactly⟩ := itemMessage_line failed
  have third : row.startLine returnsLog = 3 := by
    rw [List.getElem?_map, known] at lines
    exact Option.some.inj lines
  rw [third] at exactly
  exact ⟨failed, by decide, row, known, third, exactly.1 rfl⟩

def emptyLineLog : List UInt8 := Text.encode "process,command,detail\n\ntp-1,pause,\n"

def quotedBreakLog : List UInt8 :=
  Text.encode "process,command,detail\ntp-1,suspend,\"a\nb\"\ntp-1,pause,\n"

/-- An empty line above a row, or a line break in quotes, and the number is not that of the line. -/
theorem itemMessage_off_line :
    messages emptyLineLog = ["Line 2: Invalid command: 'pause' for process tp-1"] ∧
      (Csv.scan emptyLineLog).map (·.startLine emptyLineLog) = [1, 3] ∧
      messages quotedBreakLog = ["Line 3: Invalid command: 'pause' for process tp-1"] ∧
      (Csv.scan quotedBreakLog).map (·.startLine quotedBreakLog) = [1, 2, 4] := by
  refine ⟨?_, ?_, ?_, ?_⟩ <;> decide +kernel

end CommandLog

end TransferLifecycle
