import TransferLifecycle.CommandLog.Header
import TransferLifecycle.Csv.Scan
import TransferLifecycle.Machine
import TransferLifecycle.Outcome

set_option autoImplicit false

/- A command log is a table whose rows become records. A row that does not is passed over by a
replay; a reader that goes row by row can say what is wrong with it. -/
namespace TransferLifecycle.CommandLog

inductive ReadError where
  | notText (position : Csv.Position) (field validLength : Nat)
  | shape (position : Csv.Position) (error : ShapeError)
  | row (error : RowError)
  deriving DecidableEq, Repr

def ReadError.message : ReadError → String
  | notText p field valid =>
    s!"CSV parse error: CSV parse error: record {p.row} (line {p.line}, field: {field}, " ++
      s!"byte: {p.byte}): invalid utf-8: invalid UTF-8 in field {field} near byte index {valid}"
  | shape p e =>
    s!"CSV parse error: CSV deserialize error: record {p.row} (line: {p.line}, " ++
      s!"byte: {p.byte}): {e.message}"
  | row e => e.message

def isAsciiBlank (b : UInt8) : Bool :=
  b == 0x20 || b == 0x09 || b == 0x0A || b == 0x0C || b == 0x0D

def trimBytes (bytes : List UInt8) : List UInt8 :=
  ((bytes.dropWhile isAsciiBlank).reverse.dropWhile isAsciiBlank).reverse

/-- The fields as trimmed texts, or the first that is no text, by its number from `place` on. -/
def fieldTexts (position : Csv.Position) (place : Nat) :
    List (List UInt8) → Except ReadError (List String)
  | [] => .ok []
  | field :: rest =>
    let bytes := trimBytes field
    match Text.decode? bytes with
    | none => .error (.notText position place (Text.validLength bytes))
    | some text => (fieldTexts position (place + 1) rest).map (Text.trim text :: ·)

def readRow (header : Header) (row : Csv.Row) : Except ReadError Record :=
  match fieldTexts row.position 0 row.fields with
  | .error e => .error e
  | .ok texts =>
    match header.toRow texts with
    | .error e => .error (.shape row.position e)
    | .ok r =>
      match r.toRecord with
      | .error e => .error (.row e)
      | .ok record => .ok record

/-- What each row after the header reads as. -/
def items (bytes : List UInt8) : List (Except ReadError Record) :=
  match Csv.scan bytes with
  | [] => []
  | header :: rows => rows.map (readRow (Header.ofFields header.fields))

def records (bytes : List UInt8) : List Record := (items bytes).filterMap Except.toOption

/-- The number that a message gives to the row at a place of the items: the header is the first, and
rows are counted, not lines. -/
def rowNumber (place : Nat) : Nat := place + 2

def itemMessage (place : Nat) (e : ReadError) : String :=
  s!"Line {rowNumber place}: {e.message}"

/-- The bytes that a batch reserves for each record. -/
def recordSize : Nat := 56

/-- Takes records until the batch is full, passing over rows that are none, and keeps what is left
to be read. The records taken so far are kept backwards in `taken`. -/
def takeBatch (taken : List Record) :
    Nat → List (Except ReadError Record) → List Record × List (Except ReadError Record)
  | 0, items => (taken.reverse, items)
  | _ + 1, [] => (taken.reverse, [])
  | size + 1, .error _ :: rest => takeBatch taken (size + 1) rest
  | size + 1, .ok record :: rest => takeBatch (record :: taken) size rest

theorem takeBatch_length (taken : List Record) (size : Nat)
    (items : List (Except ReadError Record)) :
    (takeBatch taken size items).1.length + (takeBatch taken size items).2.length ≤
      taken.length + items.length := by
  fun_induction takeBatch taken size items with
  | case1 => simp
  | case2 => simp
  | case3 => simp; omega
  | case4 => simp at *; omega

/-- Reads a batch of up to `size` records. The batch is reserved in full before the first is read.
-/
def readBatch (machine : Machine) (size : Nat) (items : List (Except ReadError Record)) :
    Except Shortage (List Record × List (Except ReadError Record)) :=
  match machine.reserve size recordSize with
  | .error s => .error s
  | .ok () => .ok (takeBatch [] size items)

end TransferLifecycle.CommandLog
