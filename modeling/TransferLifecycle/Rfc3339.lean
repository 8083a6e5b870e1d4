import TransferLifecycle.Instant
import TransferLifecycle.Instant.Calendar
import TransferLifecycle.Text.Blank

set_option autoImplicit false

/- Instants as text in the form of RFC 3339. They are written in UTC with as few groups of three
fraction digits as show them exactly; they are read with any offset, and blanks are let pass between
the parts. -/
namespace TransferLifecycle.Rfc3339

def digitChar (n : Nat) : Char := Char.ofNat (48 + n % 10)

/-- The last digits of a number, as many as the width says. -/
def padded : Nat → Nat → List Char
  | 0, _ => []
  | width + 1, n => padded width (n / 10) ++ [digitChar n]

theorem padded_length (width n : Nat) : (padded width n).length = width := by
  induction width generalizing n with
  | zero => rfl
  | succ width ih => simp [padded, ih]

/-- A year of up to four digits is filled up to four; any other has a sign. -/
def yearText (year : Int) : List Char :=
  let width := max 4 (toString year.natAbs).length
  if 0 ≤ year ∧ year ≤ 9999 then padded 4 year.toNat
  else (if year < 0 then '-' else '+') :: padded width year.natAbs

def fractionText (nanoseconds : Nat) : List Char :=
  if nanoseconds = 0 then []
  else if nanoseconds % 1000000 = 0 then '.' :: padded 3 (nanoseconds / 1000000)
  else if nanoseconds % 1000 = 0 then '.' :: padded 6 (nanoseconds / 1000)
  else '.' :: padded 9 nanoseconds

def secondsPerDay : Int := 86400

/-- A leap second shows as second 60. -/
def write (t : Instant) : List Char :=
  let date := Date.ofDays (t.seconds / secondsPerDay)
  let second := (t.seconds % secondsPerDay).toNat
  let leap := t.nanoseconds / 1000000000
  yearText date.year ++ '-' :: padded 2 date.month ++ '-' :: padded 2 date.day ++
    'T' :: padded 2 (second / 3600) ++ ':' :: padded 2 (second / 60 % 60) ++
    ':' :: padded 2 (second % 60 + leap) ++ fractionText (t.nanoseconds % 1000000000) ++ ['Z']

/-- A parser takes a value off the front of a text. -/
abbrev Parser (α : Type) := List Char → Option (α × List Char)

def skipBlanks (cs : List Char) : List Char := Text.trimStartChars cs

def digitValue (c : Char) : Nat := c.toNat - 48

/-- Takes up to `limit` digits on top of a number read so far. -/
def moreDigits : Nat → Nat → List Char → Nat × List Char
  | 0, n, cs => (n, cs)
  | _ + 1, n, [] => (n, [])
  | limit + 1, n, c :: cs =>
    if c.isDigit then moreDigits limit (10 * n + digitValue c) cs else (n, c :: cs)

/-- At least one and at most `limit` digits. -/
def digits (limit : Nat) : Parser Nat
  | [] => none
  | c :: cs => if c.isDigit then some (moreDigits limit 0 (c :: cs)) else none

/-- A number of up to two digits, blanks in front of it allowed, no less and no more than given. -/
def twoDigits (least most : Nat) : Parser Nat := fun cs => do
  let (n, rest) ← digits 2 (skipBlanks cs)
  if least ≤ n ∧ n ≤ most then some (n, rest) else none

/-- A year has up to four digits, or any number of them after a sign. -/
def year : Parser Int := fun cs =>
  match skipBlanks cs with
  | '-' :: rest => (digits rest.length rest).map fun (n, rest) => (-(n : Int), rest)
  | '+' :: rest => (digits rest.length rest).map fun (n, rest) => ((n : Int), rest)
  | cs => (digits 4 cs).map fun (n, rest) => ((n : Int), rest)

/-- One given character, blanks in front of it allowed. -/
def mark (c : Char) : List Char → Option (List Char) := fun cs =>
  match skipBlanks cs with
  | d :: rest => if d = c then some rest else none
  | [] => none

/-- The value of the first nine digits as nanoseconds; further digits are dropped. -/
def nanoseconds (cs : List Char) : Option (Nat × List Char) := do
  let (n, rest) ← digits 9 cs
  some (n * Nat.pow 10 (9 - (cs.length - rest.length)), rest.dropWhile Char.isDigit)

def fraction : Parser Nat
  | '.' :: cs => nanoseconds cs
  | cs => some (0, cs)

def dateTimeMark : List Char → Option (List Char)
  | c :: cs => if c = 'T' ∨ c = 't' ∨ c = ' ' then some cs else none
  | [] => none

def minusSign : Char := '\u2212'

def isColonOrBlank (c : Char) : Bool := c == ':' || Text.isBlankChar c

/-- Hours and minutes of an offset: two digits each, apart or not. -/
def offsetTime : Parser Nat
  | h :: i :: cs =>
    match cs.dropWhile isColonOrBlank with
    | m :: n :: rest =>
      if h.isDigit ∧ i.isDigit ∧ m.isDigit ∧ m ≤ '5' ∧ n.isDigit then
        some (3600 * (10 * digitValue h + digitValue i) + 60 * (10 * digitValue m + digitValue n),
          rest)
      else none
    | _ => none
  | _ => none

def isUtc (a b c : Char) : Bool := [a, b, c].map Char.toUpper == ['U', 'T', 'C']

/-- The offset from UTC in seconds. -/
def offset : Parser Int
  | 'Z' :: cs | 'z' :: cs => some (0, cs)
  | '+' :: cs => (offsetTime cs).map fun (n, rest) => ((n : Int), rest)
  | '-' :: cs => (offsetTime cs).map fun (n, rest) => (-(n : Int), rest)
  | a :: cs =>
    if a = minusSign then (offsetTime cs).map fun (n, rest) => (-(n : Int), rest)
    else
      match cs with
      | b :: c :: rest => if isUtc a b c then some (0, rest) else none
      | _ => none
  | [] => none

def date : Parser Date := fun cs => do
  let (year, cs) ← year cs
  let cs ← mark '-' cs
  let (month, cs) ← twoDigits 1 12 cs
  let cs ← mark '-' cs
  let (day, cs) ← twoDigits 1 31 cs
  if Date.isValid ⟨year, month, day⟩ then some (⟨year, month, day⟩, cs) else none

/-- The time of day in seconds and nanoseconds. Second 60 counts as a leap second. -/
def timeOfDay : Parser (Nat × Nat) := fun cs => do
  let (hour, cs) ← twoDigits 0 23 cs
  let cs ← mark ':' cs
  let (minute, cs) ← twoDigits 0 59 cs
  let cs ← mark ':' cs
  let (second, cs) ← twoDigits 0 60 cs
  let (nanos, cs) ← fraction cs
  let seconds := 3600 * hour + 60 * minute
  if second = 60 then some ((seconds + 59, 1000000000 + nanos), cs)
  else some ((seconds + second, nanos), cs)

def read? (cs : List Char) : Option Instant := do
  let (date, cs) ← date cs
  let cs ← dateTimeMark cs
  let ((seconds, nanos), cs) ← timeOfDay cs
  let (offset, cs) ← offset (skipBlanks cs)
  let utc := date.toDays * secondsPerDay + seconds - offset
  if skipBlanks cs = [] ∧ offset.natAbs < 86400 ∧
      (Date.ofDays (utc / secondsPerDay)).isValid then some ⟨utc, nanos⟩
  else none

end TransferLifecycle.Rfc3339

namespace TransferLifecycle.Instant

def text (t : Instant) : String := String.ofList (Rfc3339.write t)

def ofText? (text : String) : Option Instant := Rfc3339.read? text.toList

end TransferLifecycle.Instant
