import TransferLifecycle.CommandLog.Row
import TransferLifecycle.Text.Utf8

set_option autoImplicit false

/- The header of a command log says which column is which; other columns are passed over. A header
that is not text leaves the columns to their order. -/
namespace TransferLifecycle.CommandLog

inductive Header where
  | named (columns : List String)
  | positional
  deriving DecidableEq, Repr

def Header.ofFields (fields : List (List UInt8)) : Header :=
  match fields.mapM Text.decode? with
  | some columns => .named (columns.map Text.trim)
  | none => .positional

/-- Why the fields of a row do not make up the columns of the log. -/
inductive ShapeError where
  | endOfRow
  | missingColumn (name : String)
  | duplicateColumn (name : String)
  | tooFewFields (count : Nat)
  deriving DecidableEq, Repr

def ShapeError.message : ShapeError → String
  | endOfRow => "expected field, but got end of row"
  | missingColumn name => s!"missing field `{name}`"
  | duplicateColumn name => s!"duplicate field `{name}`"
  | tooFewFields count =>
    s!"invalid length {count}, expected struct CsvCommandRecord with 3 elements"

/-- The columns met so far. -/
structure Columns where
  process : Option String
  command : Option String
  detail : Option (Option String)
  deriving DecidableEq, Repr

namespace Columns

def none : Columns := ⟨.none, .none, .none⟩

def detailOf (field : String) : Option String := if field = "" then .none else some field

/-- Goes along the header. A row may end at its detail column, but not at any other. -/
def fill (c : Columns) : List String → List String → Except ShapeError Columns
  | [], _ => .ok c
  | name :: names, fields =>
    if name = "process" then
      if c.process.isSome then .error (.duplicateColumn name)
      else
        match fields with
        | [] => .error .endOfRow
        | field :: rest => fill { c with process := some field } names rest
    else if name = "command" then
      if c.command.isSome then .error (.duplicateColumn name)
      else
        match fields with
        | [] => .error .endOfRow
        | field :: rest => fill { c with command := some field } names rest
    else if name = "detail" then
      if c.detail.isSome then .error (.duplicateColumn name)
      else
        match fields with
        | [] => fill { c with detail := some .none } names []
        | field :: rest => fill { c with detail := some (detailOf field) } names rest
    else
      match fields with
      | [] => .error .endOfRow
      | _ :: rest => fill c names rest

def toRow (c : Columns) : Except ShapeError Row :=
  match c.process, c.command with
  | .none, _ => .error (.missingColumn "process")
  | some _, .none => .error (.missingColumn "command")
  | some process, some command => .ok ⟨process, command, c.detail.join⟩

end Columns

def Header.toRow (header : Header) (fields : List String) : Except ShapeError Row :=
  match header with
  | .named columns =>
    match Columns.none.fill columns fields with
    | .error e => .error e
    | .ok c => c.toRow
  | .positional =>
    match fields with
    | process :: command :: detail :: _ => .ok ⟨process, command, Columns.detailOf detail⟩
    | few => .error (.tooFewFields few.length)

end TransferLifecycle.CommandLog
