import TransferLifecycle.Text.Alphanumeric
import TransferLifecycle.Text.Blank

set_option autoImplicit false

/- Which texts are patterns for the value of a field: regular expressions over characters, where the
classes that need a Unicode table are not to be had, of a limited height. A value holds no comma or
equals sign and no closing brace behind an opening one, so whatever needs them is unfinished. -/
namespace TransferLifecycle.LogFilter.Pattern

/-- What the flags of a pattern decide: whether it is about characters or bytes, whether the case of
letters counts, and whether blanks and comments are passed over. -/
structure Mode where
  unicode : Bool
  caseless : Bool
  spaced : Bool
  deriving DecidableEq, Repr

namespace Mode

def default : Mode := ⟨true, false, false⟩

def allFlags : List Char := ['i', 'm', 's', 'U', 'u', 'x', 'R']

/-- Flags stand once each. Those behind a dash are switched off, and the dash is not the last. -/
def areFlags (flags : List Char) : Bool :=
  flags.all (fun c => c = '-' || allFlags.contains c) && decide flags.Nodup &&
    flags.getLast? != some '-'

def setFlag (flags : List Char) (flag : Char) (before : Bool) : Bool :=
  if (flags.takeWhile (· != '-')).contains flag then true
  else if flags.contains flag then false
  else before

def set (m : Mode) (flags : List Char) : Mode :=
  ⟨setFlag flags 'u' m.unicode, setFlag flags 'i' m.caseless, setFlag flags 'x' m.spaced⟩

/-- Letters of Unicode have no known case. -/
def knowsCase (m : Mode) : Bool := !(m.unicode && m.caseless)

def skipBlanks (inComment : Bool) : List Char → List Char
  | [] => []
  | c :: rest =>
    if inComment then skipBlanks (c != '\n') rest
    else if c = '#' then skipBlanks true rest
    else if Text.isBlankChar c then skipBlanks false rest
    else c :: rest

def skip (m : Mode) (cs : List Char) : List Char :=
  if m.spaced then skipBlanks false cs else cs

/-- The next character behind blanks and the mark of a comment, even inside that comment. -/
def peek? (m : Mode) (cs : List Char) : Option Char :=
  if m.spaced then
    match cs.dropWhile Text.isBlankChar with
    | '#' :: rest => (rest.dropWhile Text.isBlankChar).head?
    | rest => rest.head?
  else cs.head?

end Mode

/-- The height of parts in a row. A part by itself makes no row, and no part has no height. -/
def rowHeight : List Nat → Nat
  | [] => 0
  | [height] => height
  | heights => 1 + heights.foldl max 0

def maxHeight : Nat := 250

/-- What an escape stands for: a character, also one written as a byte, a set of characters, or a
position between them. -/
inductive Escape where
  | char (c : Char)
  | byte (c : Char)
  | set
  | position
  deriving DecidableEq, Repr

def hexValue? (c : Char) : Option Nat :=
  if c.isDigit then some (c.toNat - '0'.toNat)
  else if 'a' ≤ c ∧ c ≤ 'f' then some (c.toNat - 'a'.toNat + 10)
  else if 'A' ≤ c ∧ c ≤ 'F' then some (c.toNat - 'A'.toNat + 10)
  else none

/-- The character with the code that so many digits give. -/
def ofHex? (m : Mode) : Nat → Nat → List Char → Option (Char × List Char)
  | 0, code, cs => if code.isValidChar then some (Char.ofNat code, cs) else none
  | n + 1, code, cs =>
    match m.skip cs with
    | [] => none
    | c :: rest =>
      match hexValue? c with
      | none => none
      | some digit => ofHex? m n (16 * code + digit) rest

def controls : List (Char × Char) :=
  [('a', '\x07'), ('f', '\x0c'), ('n', '\n'), ('r', '\r'), ('t', '\t'), ('v', '\x0b')]

/-- Reads what stands behind a backslash. Digits, blanks and words are sets of bytes only; their
complements, and the edges of words between characters, are not to be had. -/
def escape? (m : Mode) : List Char → Option (Escape × List Char)
  | [] => none
  | 'x' :: rest => (ofHex? m 2 0 rest).map fun (c, after) => (.byte c, after)
  | 'u' :: rest => (ofHex? m 4 0 rest).map fun (c, after) => (.char c, after)
  | 'U' :: rest => (ofHex? m 8 0 rest).map fun (c, after) => (.char c, after)
  | c :: rest =>
    if ['A', 'z'].contains c then some (.position, rest)
    else if ['d', 's', 'w'].contains c then if m.unicode then none else some (.set, rest)
    else if ['b', 'B', '<', '>'].contains c then if m.unicode then none else some (.position, rest)
    else
      match controls.lookup c with
      | some control => some (.char control, rest)
      | none => if c.toNat < 0x80 ∧ !c.isAlphanum then some (.char c, rest) else none

/-- Whether an escape can stand outside a bracketed class. A byte that is no text cannot. -/
def Escape.stands (m : Mode) : Escape → Bool
  | char _ => m.knowsCase
  | byte c => m.knowsCase && (m.unicode || c.toNat < 0x80)
  | set | position => true

/-- A member of a bracketed class, either a character or a set. -/
def member? (m : Mode) (cs : List Char) : Option (Option Char × List Char) :=
  let single (c : Char) (rest : List Char) :=
    if m.unicode ∨ c.toNat < 0x80 then some (some c, rest) else none
  match cs with
  | [] => none
  | '\\' :: rest =>
    match escape? m rest with
    | some (.char c, after) | some (.byte c, after) => single c after
    | some (.set, after) => some (none, after)
    | _ => none
  | c :: rest => single c rest

def classNames : List String :=
  ["alnum", "alpha", "ascii", "blank", "cntrl", "digit", "graph", "lower", "print", "punct",
    "space", "upper", "word", "xdigit"]

/-- A named class behind its opening bracket, and whether it is negated. -/
def namedClass? : List Char → Option (Bool × List Char)
  | ':' :: rest =>
    let negated := rest.head? = some '^'
    let body := if negated then rest.drop 1 else rest
    match body.dropWhile (· != ':') with
    | ':' :: ']' :: after =>
      if classNames.contains (String.ofList (body.takeWhile (· != ':'))) then some (negated, after)
      else none
    | _ => none
  | _ => none

/-- A member or a range of members, where a dash before a bracket or another dash is no range. -/
def range? (m : Mode) (cs : List Char) : Option (List Char) :=
  match member? m cs with
  | none => none
  | some (first, rest) =>
    match m.skip rest with
    | '-' :: after =>
      if m.peek? after = some ']' ∨ m.peek? after = some '-' then some ('-' :: after)
      else
        match first, member? m (m.skip after) with
        | some low, some (some high, left) => if low ≤ high then some left else none
        | _, _ => none
    | left => some left

/-- An operator between sets is written twice. -/
def isOperator (c : Char) : Bool := ['&', '-', '~'].contains c

/-- A bracketed class as far as it was read: the heights of the members behind the last operator,
and the height of all that is before it. -/
structure Bracket where
  members : List Nat
  left : Option Nat
  deriving DecidableEq, Repr

namespace Bracket

def empty : Bracket := ⟨[], none⟩

def add (b : Bracket) (height : Nat) : Bracket := { b with members := height :: b.members }

def height (b : Bracket) : Nat :=
  match b.left with
  | none => rowHeight b.members
  | some left => 1 + max left (rowHeight b.members)

def operate (b : Bracket) : Bracket := ⟨[], some b.height⟩

end Bracket

/-- How much of the opening of a bracketed class was read: nothing but the bracket, its negation, or
dashes that stand for themselves. -/
inductive Opening where
  | bracket
  | negation
  | dashes
  | done
  deriving DecidableEq, Repr

/-- The height of a bracketed class and what follows it, where `b` is the innermost open class and
`outer` are those around it. The case of its members has to be known, and a negated class has
members that are no bytes of text. -/
def bracketed? (m : Mode) :
    Nat → Opening → Bracket → List Bracket → List Char → Option (Nat × List Char)
  | 0, _, _, _, _ => none
  | fuel + 1, opening, b, outer, cs =>
    let insert (next : Opening) (rest : List Char) :=
      if m.knowsCase then bracketed? m fuel next (b.add 0) outer rest else none
    match opening, m.skip cs with
    | _, [] => none
    | .bracket, '^' :: rest =>
      if m.unicode then bracketed? m fuel .negation b outer rest else none
    | .bracket, ']' :: rest | .negation, ']' :: rest => insert .done rest
    | .bracket, '-' :: rest | .negation, '-' :: rest | .dashes, '-' :: rest => insert .dashes rest
    | _, '[' :: rest =>
      match namedClass? rest with
      | some (negated, after) => if m.unicode ∨ !negated then insert .done after else none
      | none => bracketed? m fuel .bracket .empty (b :: outer) rest
    | _, ']' :: rest =>
      match outer with
      | [] => some (1 + b.height, rest)
      | around :: others => bracketed? m fuel .done (around.add (1 + b.height)) others rest
    | _, c :: rest =>
      if isOperator c ∧ rest.head? = some c then
        bracketed? m fuel .done b.operate outer (rest.drop 1)
      else
        match range? m (c :: rest) with
        | some left => insert .done left
        | none => none

/-- A group as far as it was read: its mode, the heights of the items behind its last bar, and those
of the alternatives before, each with the last one first. -/
structure Level where
  mode : Mode
  items : List Nat
  branches : List Nat
  deriving DecidableEq, Repr

namespace Level

def start (mode : Mode) : Level := ⟨mode, [], []⟩

def add (l : Level) (height : Nat) : Level := { l with items := height :: l.items }

def split (l : Level) : Level := ⟨l.mode, [], rowHeight l.items :: l.branches⟩

/-- A repetition is one higher than what it repeats. -/
def raiseLast (l : Level) : Level := { l with items := l.items.modifyHead (· + 1) }

def height (l : Level) : Nat := rowHeight (rowHeight l.items :: l.branches)

end Level

/-- A place in a pattern: the innermost open group, the groups around it, the names given so far,
and whether something stands before the place that can be repeated. -/
structure Place where
  level : Level
  outer : List Level
  names : List (List Char)
  repeatable : Bool
  deriving DecidableEq, Repr

namespace Place

def start : Place := ⟨.start .default, [], [], false⟩

def mode (p : Place) : Mode := p.level.mode

def enter (p : Place) (mode : Mode) : Place :=
  ⟨.start mode, p.level :: p.outer, p.names, false⟩

def leave? (p : Place) : Option Place :=
  match p.outer with
  | [] => none
  | around :: outer => some ⟨around.add (1 + p.level.height), outer, p.names, true⟩

def isName : List Char → Bool
  | [] => false
  | c :: rest =>
    (c = '_' || Text.isAlphabetic c) &&
      rest.all fun d => ['_', '.', '[', ']'].contains d || Text.isAlphanumeric d

/-- Enters a group with a name, which no group before it has. -/
def enterNamed (p : Place) (cs : List Char) : Option (Place × List Char) :=
  let name := cs.takeWhile (· != '>')
  match cs.dropWhile (· != '>') with
  | [] => none
  | _ :: rest =>
    if isName name ∧ !p.names.contains name then
      some ({ p.enter p.mode with names := name :: p.names }, rest)
    else none

/-- Reads flags, which hold for the rest of the group they stand in or for a group of their own. -/
def readFlags (p : Place) (cs : List Char) : Option (Place × List Char) :=
  let isEnd (c : Char) := c = ':' || c = ')'
  let flags := cs.takeWhile (!isEnd ·)
  if !Mode.areFlags flags then none
  else
    match cs.dropWhile (!isEnd ·) with
    | ':' :: rest => some (p.enter (p.mode.set flags), rest)
    | ')' :: rest =>
      if flags = [] then none
      else
        let level := { p.level.add 0 with mode := p.mode.set flags }
        some ({ p with level, repeatable := false }, rest)
    | _ => none

def openGroup (p : Place) (cs : List Char) : Option (Place × List Char) :=
  match p.mode.skip cs with
  | '?' :: 'P' :: '<' :: rest | '?' :: '<' :: rest => p.enterNamed rest
  | '?' :: rest => p.readFlags rest
  | rest => some (p.enter p.mode, rest)

/-- The place behind what begins with `c`. -/
def step (p : Place) (c : Char) (rest : List Char) : Option (Place × List Char) :=
  let item (stands : Bool) (after : List Char) :=
    if stands then some ({ p with level := p.level.add 0, repeatable := true }, after) else none
  match c with
  | '(' => p.openGroup rest
  | ')' => p.leave?.map fun next => (next, rest)
  | '|' => some ({ p with level := p.level.split, repeatable := false }, rest)
  | '?' | '*' | '+' =>
    let after := if rest.head? = some '?' then rest.drop 1 else rest
    if p.repeatable then some ({ p with level := p.level.raiseLast }, after) else none
  | '\x7b' => none
  | '.' => item p.mode.unicode rest
  | '^' | '$' => item true rest
  | '\\' =>
    match escape? p.mode rest with
    | none => none
    | some (e, after) => item (e.stands p.mode) after
  | '[' =>
    match bracketed? p.mode (rest.length + 1) .bracket .empty [] rest with
    | none => none
    | some (height, after) =>
      some ({ p with level := p.level.add height, repeatable := true }, after)
  | _ => item p.mode.knowsCase rest

/-- Whether the rest of a pattern can be read; each step reads a character or more. -/
def accepts : Nat → Place → List Char → Bool
  | 0, _, _ => false
  | fuel + 1, p, cs =>
    match p.mode.skip cs with
    | [] => p.outer.isEmpty && p.level.height ≤ maxHeight
    | c :: rest =>
      match p.step c rest with
      | none => false
      | some (next, left) => accepts fuel next left

end Place

def isPattern (cs : List Char) : Bool := Place.start.accepts (cs.length + 1) cs

end TransferLifecycle.LogFilter.Pattern
