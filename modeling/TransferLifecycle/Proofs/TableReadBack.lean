import TransferLifecycle.Csv.Quoted
import TransferLifecycle.Csv.Scan

set_option autoImplicit false

/- Scanning undoes writing: of rows that are written one behind the other, whatever is in their
fields, the scanner finds the same rows again. The bytes of one field lead it from the start of a
field to its end, and the byte behind them ends the field or the row. -/
namespace TransferLifecycle.Csv

/-- The rows that are scanned, without their places in the input. -/
def rowsFrom (p : Partial) : List UInt8 → List (List (List UInt8))
  | [] => p.finish.toList
  | b :: rest =>
    match p.step b with
    | .more q => rowsFrom q rest
    | .row fields => fields :: rowsFrom .start rest

theorem fields_scanFrom (p : Partial) (start here : Position) (bytes : List UInt8) :
    (scanFrom p start here [] bytes).map (·.fields) = rowsFrom p bytes := by
  induction bytes generalizing p start here with
  | nil =>
    rw [scanFrom, rowsFrom]
    cases p.finish <;> rfl
  | cons b rest ih =>
    rw [scanFrom, rowsFrom]
    cases p.step b with
    | more q => exact ih q start _
    | row fields =>
      simp only
      rw [scanFrom_rows, List.map_append, ih]
      rfl

/-- No mark stands in front of what begins with another byte. -/
theorem fields_scan {b : UInt8} (unmarked : b ≠ 0xEF) (rest : List UInt8) :
    (scan (b :: rest)).map (·.fields) = rowsFrom .start (b :: rest) := by
  rw [scan]
  · exact fields_scanFrom _ _ _ _
  · intro more marked
    exact unmarked (List.cons.inj marked).1

/-- From `p` the bytes lead to `q`, and no row ends on the way. -/
def Leads (p q : Partial) (bytes : List UInt8) : Prop :=
  ∀ rest, rowsFrom p (bytes ++ rest) = rowsFrom q rest

section Leads

variable {p q r : Partial} {bytes more : List UInt8} {b : UInt8}

theorem Leads.nil (p : Partial) : Leads p p [] := fun _ => rfl

theorem Leads.cons (step : p.step b = .more q) (later : Leads q r bytes) :
    Leads p r (b :: bytes) := by
  intro rest
  rw [List.cons_append, rowsFrom, step]
  exact later rest

theorem Leads.append (first : Leads p q bytes) (second : Leads q r more) :
    Leads p r (bytes ++ more) := by
  intro rest
  rw [List.append_assoc, first, second]

end Leads

variable {place : Place} {fields : List (List UInt8)} {b : UInt8}

/-- A byte with no meaning outside quotes is part of the field. -/
theorem outside_of_plain {p : Partial} (noComma : b ≠ comma) (noEnd : isLineEnd b = false) :
    p.outside b = .more { p with place := .plain, field := b :: p.field } := by
  simp [Partial.outside, noComma, noEnd]

theorem leads_plain {bytes : List UInt8} (plain : ∀ b ∈ bytes, b ≠ comma ∧ isLineEnd b = false)
    (done : List UInt8) (fields : List (List UInt8)) :
    Leads ⟨.plain, done, fields⟩ ⟨.plain, bytes.reverse ++ done, fields⟩ bytes := by
  induction bytes generalizing done with
  | nil => exact .nil _
  | cons b rest ih =>
    obtain ⟨noComma, noEnd⟩ := plain b List.mem_cons_self
    have later := ih (fun c member => plain c (List.mem_cons_of_mem _ member)) (b :: done)
    rw [List.reverse_cons, List.append_assoc]
    exact .cons (outside_of_plain noComma noEnd) later

/-- In quotes each byte stands for itself, and two quotes for one. -/
theorem leads_quoted (bytes done : List UInt8) (fields : List (List UInt8)) :
    Leads ⟨.quoted, done, fields⟩ ⟨.quoted, bytes.reverse ++ done, fields⟩
      (bytes.map quotedByte).flatten := by
  induction bytes generalizing done with
  | nil => exact .nil _
  | cons b rest ih =>
    have later := ih (b :: done)
    rw [List.reverse_cons, List.append_assoc, List.map_cons, List.flatten_cons]
    refine Leads.append ?_ later
    by_cases isQuote : b = quote
    · subst isQuote
      rw [quotedByte, if_pos rfl]
      have first : Partial.step ⟨.quoted, done, fields⟩ quote = .more ⟨.quoteSeen, done, fields⟩ :=
        rfl
      exact .cons first (.cons rfl (.nil _))
    · rw [quotedByte, if_neg isQuote]
      exact .cons (by simp [Partial.step, isQuote]) (.nil _)

theorem plain_of_needsQuotes {field : List UInt8} (plain : needsQuotes field = false) :
    ∀ b ∈ field, b ≠ quote ∧ b ≠ comma ∧ isLineEnd b = false := by
  intro b member
  have none := List.any_eq_false.1 plain b member
  simp only [Bool.or_eq_true, beq_iff_eq, not_or, Bool.not_eq_true] at none
  exact ⟨none.1.2, none.1.1, none.2⟩

/-- At the end of a field: the field is read, and it is not in quotes any more. -/
structure AtEnd (p : Partial) (place : Place) (field : List UInt8) (fields : List (List UInt8)) :
    Prop where
  field : p.field = field.reverse
  fields : p.fields = fields
  place : p.place = place ∨ p.place = .plain ∨ p.place = .quoteSeen

/-- At the start of a field it does not matter whether the row starts there as well. -/
theorem step_of_opens (opens : place = .rowStart ∨ place = .fieldStart)
    (fields : List (List UInt8)) (noEnd : isLineEnd b = false) :
    Partial.step ⟨place, [], fields⟩ b = Partial.opening ⟨place, [], fields⟩ b := by
  rcases opens with rfl | rfl
  · simp [Partial.step, noEnd]
  · rfl

theorem leads_quotedField (opens : place = .rowStart ∨ place = .fieldStart) (field : List UInt8)
    (fields : List (List UInt8)) :
    Leads ⟨place, [], fields⟩ ⟨.quoteSeen, field.reverse, fields⟩
      (quote :: ((field.map quotedByte).flatten ++ [quote])) := by
  have opened : Partial.step ⟨place, [], fields⟩ quote = .more ⟨.quoted, [], fields⟩ := by
    rw [step_of_opens opens fields rfl]
    rfl
  have inside := leads_quoted field [] fields
  rw [List.append_nil] at inside
  have closed : Leads ⟨.quoted, field.reverse, fields⟩ ⟨.quoteSeen, field.reverse, fields⟩
      [quote] := .cons rfl (.nil _)
  exact .cons opened (inside.append closed)

theorem leads_plainField (opens : place = .rowStart ∨ place = .fieldStart) {field : List UInt8}
    (plain : ∀ b ∈ field, b ≠ quote ∧ b ≠ comma ∧ isLineEnd b = false)
    (fields : List (List UInt8)) :
    ∃ p, Leads ⟨place, [], fields⟩ p field ∧ AtEnd p place field fields := by
  cases field with
  | nil => exact ⟨_, .nil _, rfl, rfl, .inl rfl⟩
  | cons b rest =>
    obtain ⟨noQuote, noComma, noEnd⟩ := plain b List.mem_cons_self
    have first : Partial.step ⟨place, [], fields⟩ b = .more ⟨.plain, [b], fields⟩ := by
      rw [step_of_opens opens fields noEnd, Partial.opening, if_neg noQuote,
        outside_of_plain noComma noEnd]
    have behind : ∀ c ∈ rest, c ≠ comma ∧ isLineEnd c = false := fun c member =>
      (plain c (List.mem_cons_of_mem _ member)).2
    have later := leads_plain behind [b] fields
    exact ⟨_, .cons first later, List.reverse_cons.symm, rfl, .inr (.inl rfl)⟩

/-- The bytes of a field lead from its start to its end. -/
theorem leads_field (opens : place = .rowStart ∨ place = .fieldStart) (field : List UInt8)
    (fields : List (List UInt8)) :
    ∃ p, Leads ⟨place, [], fields⟩ p (fieldChunks field).flatten ∧ AtEnd p place field fields := by
  cases quotes : needsQuotes field with
  | true =>
    have written : (fieldChunks field).flatten =
        quote :: ((field.map quotedByte).flatten ++ [quote]) := by simp [fieldChunks, quotes]
    rw [written]
    exact ⟨_, leads_quotedField opens field fields, rfl, rfl, .inr (.inr rfl)⟩
  | false =>
    have written : (fieldChunks field).flatten = field := by
      rw [fieldChunks, quotes, if_neg Bool.false_ne_true]
      exact List.flatMap_singleton' field
    rw [written]
    exact leads_plainField opens (plain_of_needsQuotes quotes) fields

/-- A comma behind a field ends it. -/
theorem AtEnd.step_comma {p : Partial} {field : List UInt8} (atEnd : AtEnd p place field fields)
    (opens : place = .rowStart ∨ place = .fieldStart) :
    p.step comma = .more ⟨.fieldStart, [], field :: fields⟩ := by
  obtain ⟨here, read, others⟩ := p
  obtain ⟨rfl, rfl, ended⟩ := atEnd
  simp only at ended
  rcases opens with rfl | rfl <;> rcases ended with rfl | rfl | rfl <;>
    simp [Partial.step, Partial.opening, Partial.outside, comma, quote, isLineEnd,
      carriageReturn, lineFeed]

/-- A line feed behind a field ends the row, if it is not an empty line. -/
theorem AtEnd.step_lineFeed {p : Partial} {field : List UInt8}
    (atEnd : AtEnd p .fieldStart field fields) :
    p.step lineFeed = .row (field :: fields).reverse := by
  obtain ⟨here, read, others⟩ := p
  obtain ⟨rfl, rfl, ended⟩ := atEnd
  simp only at ended
  rcases ended with rfl | rfl | rfl <;>
    simp [Partial.step, Partial.opening, Partial.outside, Partial.complete, comma, quote,
      isLineEnd, carriageReturn, lineFeed]

theorem flatten_rowChunks_single (last : List UInt8) :
    (rowChunks [last]).flatten = (fieldChunks last).flatten ++ [lineFeed] := by
  rw [rowChunks, List.flatten_append, List.flatten_singleton]

theorem flatten_rowChunks_cons (field next : List UInt8) (row : List (List UInt8)) :
    (rowChunks (field :: next :: row)).flatten =
      (fieldChunks field).flatten ++ comma :: (rowChunks (next :: row)).flatten := by
  simp [rowChunks]

/-- The rest of a row, from the start of a field. -/
theorem rowsFrom_fields (field : List UInt8) (row fields : List (List UInt8)) (rest : List UInt8) :
    rowsFrom ⟨.fieldStart, [], fields⟩ ((rowChunks (field :: row)).flatten ++ rest) =
      (fields.reverse ++ field :: row) :: rowsFrom .start rest := by
  induction row generalizing field fields with
  | nil =>
    obtain ⟨p, leads, atEnd⟩ := leads_field (.inr rfl) field fields
    rw [flatten_rowChunks_single, List.append_assoc, leads, List.singleton_append, rowsFrom,
      atEnd.step_lineFeed, List.reverse_cons]
  | cons next row ih =>
    obtain ⟨p, leads, atEnd⟩ := leads_field (.inr rfl) field fields
    rw [flatten_rowChunks_cons, List.append_assoc, leads, List.cons_append, rowsFrom,
      atEnd.step_comma (.inr rfl)]
    simp only
    rw [ih, List.reverse_cons, List.append_assoc, List.singleton_append]

/-- A row of two fields or more is found again. -/
theorem rowsFrom_row {row : List (List UInt8)} (wide : 2 ≤ row.length) (rest : List UInt8) :
    rowsFrom .start ((rowChunks row).flatten ++ rest) = row :: rowsFrom .start rest := by
  match row, wide with
  | field :: next :: row, _ =>
    obtain ⟨p, leads, atEnd⟩ := leads_field (.inl rfl) field []
    rw [Partial.start, flatten_rowChunks_cons, List.append_assoc, leads, List.cons_append, rowsFrom,
      atEnd.step_comma (.inl rfl)]
    exact rowsFrom_fields next row [field] rest

/-- So is a table of such rows. -/
theorem rowsFrom_table {rows : List (List (List UInt8))} (wide : ∀ row ∈ rows, 2 ≤ row.length) :
    rowsFrom .start (rows.flatMap rowChunks).flatten = rows := by
  induction rows with
  | nil => rfl
  | cons row rows ih =>
    rw [List.flatMap_cons, List.flatten_append, rowsFrom_row (wide row List.mem_cons_self),
      ih fun other member => wide other (List.mem_cons_of_mem _ member)]

example :
    rowsFrom .start (rowChunks [[], [comma, quote], [quote, carriageReturn, lineFeed]]).flatten =
      [[[], [comma, quote], [quote, carriageReturn, lineFeed]]] := by decide

end TransferLifecycle.Csv
