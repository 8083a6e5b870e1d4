import TransferLifecycle.Csv.Symbol

set_option autoImplicit false

/- Cuts bytes into the rows and fields of a table. A field in quotes may hold commas and line
breaks, and two quotes in it stand for one; empty lines are no rows; the end of the input ends the
last row. No input is refused. -/
namespace TransferLifecycle.Csv

inductive Place where
  | rowStart
  | fieldStart
  | plain
  | quoted
  | quoteSeen
  deriving DecidableEq, Repr

/-- A row that is being read. The bytes and the fields are kept backwards. -/
structure Partial where
  place : Place
  field : List UInt8
  fields : List (List UInt8)
  deriving DecidableEq, Repr

inductive Step where
  | more (p : Partial)
  | row (fields : List (List UInt8))
  deriving DecidableEq, Repr

namespace Partial

def start : Partial := ⟨.rowStart, [], []⟩

def complete (p : Partial) : List (List UInt8) := (p.field.reverse :: p.fields).reverse

/-- A byte outside quotes. -/
def outside (p : Partial) (b : UInt8) : Step :=
  if b = comma then .more ⟨.fieldStart, [], p.field.reverse :: p.fields⟩
  else if isLineEnd b then .row p.complete
  else .more { p with place := .plain, field := b :: p.field }

/-- The first byte of a field: only here does a quote open a quoted field. -/
def opening (p : Partial) (b : UInt8) : Step :=
  if b = quote then .more { p with place := .quoted } else p.outside b

def step (p : Partial) (b : UInt8) : Step :=
  match p.place with
  | .rowStart => if isLineEnd b then .more p else p.opening b
  | .fieldStart => p.opening b
  | .plain => p.outside b
  | .quoted =>
    if b = quote then .more { p with place := .quoteSeen }
    else .more { p with field := b :: p.field }
  | .quoteSeen =>
    if b = quote then .more { p with place := .quoted, field := quote :: p.field }
    else p.outside b

def finish (p : Partial) : Option (List (List UInt8)) :=
  match p.place with
  | .rowStart => none
  | _ => some p.complete

end Partial

/-- A place in the input: how many rows ended before it, its line counted by line feeds from one,
and its offset in bytes. -/
structure Position where
  row : Nat
  line : Nat
  byte : Nat
  deriving DecidableEq, Repr

def Position.after (p : Position) (b : UInt8) : Position :=
  { p with line := if b = lineFeed then p.line + 1 else p.line, byte := p.byte + 1 }

/-- A row and the place where reading it began: right behind the byte that ended the row before. -/
structure Row where
  fields : List (List UInt8)
  position : Position
  deriving DecidableEq, Repr

/-- The rows are gathered backwards in `rows`. -/
def scanFrom (p : Partial) (start here : Position) (rows : List Row) : List UInt8 → List Row
  | [] =>
    match p.finish with
    | none => rows.reverse
    | some fields => (⟨fields, start⟩ :: rows).reverse
  | b :: rest =>
    let next := here.after b
    match p.step b with
    | .more p => scanFrom p start next rows rest
    | .row fields =>
      let next := { next with row := next.row + 1 }
      scanFrom .start next next (⟨fields, start⟩ :: rows) rest

/-- A byte order mark in front is passed over, but its bytes count for positions. -/
def scan : List UInt8 → List Row
  | 0xEF :: 0xBB :: 0xBF :: rest => scanFrom .start ⟨0, 1, 0⟩ ⟨0, 1, 3⟩ [] rest
  | bytes => scanFrom .start ⟨0, 1, 0⟩ ⟨0, 1, 0⟩ [] bytes

theorem scanFrom_rows (p : Partial) (start here : Position) (rows : List Row)
    (bytes : List UInt8) :
    scanFrom p start here rows bytes = rows.reverse ++ scanFrom p start here [] bytes := by
  induction bytes generalizing p start here rows with
  | nil => rw [scanFrom, scanFrom]; cases p.finish <;> simp
  | cons b rest ih =>
    rw [scanFrom, scanFrom]
    cases p.step b with
    | more p => exact ih p start _ rows
    | row fields =>
      simp only
      rw [ih, ih _ _ _ [_]]
      simp

end TransferLifecycle.Csv
