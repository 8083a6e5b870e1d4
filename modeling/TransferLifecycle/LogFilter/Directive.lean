import TransferLifecycle.LogFilter.Pattern
import TransferLifecycle.Text.Utf8

set_option autoImplicit false

/- A directive says what is logged, as in `target[span{field=value}]=level` or a part of it. It is
read without the blanks around it, but its parts are cut from the text with the blanks, at the same
bytes. So behind leading blanks a part can begin or end inside a character, and is torn. -/
namespace TransferLifecycle.LogFilter

/-- Why a directive is not taken: it has another form, or a part of it is no text. -/
inductive Defect where
  | malformed
  | torn
  deriving DecidableEq, Repr

namespace Directive

/-- The part that is being read, and the byte it begins at. A target begins with the directive. -/
inductive Stage where
  | start
  | target
  | span (first : Nat)
  | field (first : Nat)
  | fields
  | closed
  | level (first : Nat)
  deriving DecidableEq, Repr

def part (text : List Char) (first stop : Nat) : Except Defect (List Char) :=
  match Text.slice? first stop text with
  | some cs => .ok cs
  | none => .error .torn

def isTargetStart (c : Char) : Bool := ['-', ':', '_'].contains c || Text.isAlphanumeric c

/-- A number with a plus sign, which is no pattern. -/
def isPlusNumber : List Char → Bool
  | '+' :: rest =>
    let whole := rest.takeWhile Char.isDigit
    let behind := rest.dropWhile Char.isDigit
    let fraction := if behind.head? = some '.' then (behind.drop 1).takeWhile Char.isDigit else []
    let scale := if behind.head? = some '.' then (behind.drop 1).dropWhile Char.isDigit else behind
    ["inf", "infinity", "nan"].contains (String.ofList (rest.map Char.toLower)) ||
      !(whole ++ fraction).isEmpty &&
        match scale with
        | [] => true
        | e :: power =>
          let digits := if power.head? = some '-' ∨ power.head? = some '+' then power.drop 1
            else power
          e.toLower = 'e' && !digits.isEmpty && digits.all Char.isDigit
  | _ => false

/-- The value of a field stands behind its first equals sign and ends at the next. -/
def value (field : List Char) : List Char :=
  ((field.dropWhile (· != '=')).drop 1).takeWhile (· != '=')

def checkField (field : List Char) : Except Defect Unit :=
  if field ≠ [] ∧ (isPlusNumber (value field) || Pattern.isPattern (value field)) then .ok ()
  else .error .malformed

/-- Reads the character at a byte of the trimmed text. -/
def step (text : List Char) (stage : Stage) (byte : Nat) (c : Char) : Except Defect Stage :=
  match stage, c with
  | .start, '[' => .ok (.span (byte + 1))
  | .start, c => if isTargetStart c then .ok .target else .error .malformed
  | .target, '=' => (part text 0 byte).map fun _ => .level (byte + 1)
  | .target, '[' => (part text 0 byte).map fun _ => .span (byte + 1)
  | .span first, ']' => (part text first byte).map fun _ => .closed
  | .span first, '\x7b' => (part text first byte).map fun _ => .field (byte + 1)
  | .field first, '\x7d' =>
    match (part text first byte).bind checkField with
    | .error d => .error d
    | .ok () => .ok .fields
  | .fields, ']' => .ok .closed
  | .closed, '=' => .ok (.level (byte + 1))
  | .fields, _ | .closed, _ => .error .malformed
  | stage, _ => .ok stage

/-- An unknown level makes no difference: a directive with it is passed over like any malformed one.
-/
def finish (text : List Char) : Stage → Except Defect Unit
  | .target | .closed => .ok ()
  | .level first => (part text first (Text.byteCount text)).map fun _ => ()
  | .start | .span _ | .field _ | .fields => .error .malformed

def checkFrom (text : List Char) (stage : Stage) (byte : Nat) : List Char → Except Defect Unit
  | [] => finish text stage
  | c :: rest =>
    match step text stage byte c with
    | .error d => .error d
    | .ok next => checkFrom text next (byte + c.utf8Size) rest

def check (text : List Char) : Except Defect Unit :=
  checkFrom text .start 0 (Text.trimChars text)

def isTorn (text : List Char) : Bool :=
  match check text with
  | .error .torn => true
  | .error .malformed | .ok () => false

end Directive

end TransferLifecycle.LogFilter
