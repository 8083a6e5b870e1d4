set_option autoImplicit false

/- Values of JSON, as far as they matter for reading: a number is an integer or it is not. -/
namespace TransferLifecycle

inductive Json where
  | null
  | bool (value : Bool)
  | integer (value : Int)
  | fraction
  | string (value : String)
  | array (items : List Json)
  | object (fields : List (String × Json))
  deriving Inhabited

namespace Json

def lookup (fields : List (String × Json)) (key : String) : Option Json :=
  (fields.find? (·.1 == key)).map (·.2)

def string? : Json → Option String
  | string s => some s
  | _ => none

/-- A text or null; a field that is not there counts as null. -/
def optionalString? : Option Json → Option (Option String)
  | none | some null => some none
  | some (string s) => some (some s)
  | some _ => none

def ofOptional (text : Option String) : Json := text.elim null string

/-- A number of 32 bits without sign. -/
def word? : Json → Option UInt32
  | integer n => if 0 ≤ n ∧ n ≤ 0xFFFFFFFF then some n.toNat.toUInt32 else none
  | _ => none

/-- One of several names: as a string, or as the only key of an object that holds null. -/
def oneOf? {α : Type} (ofName? : String → Option α) : Json → Option α
  | string name => ofName? name
  | object [(name, null)] => ofName? name
  | _ => none

end Json

end TransferLifecycle
