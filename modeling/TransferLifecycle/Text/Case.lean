set_option autoImplicit false

/- Letter case where only ASCII words are recognised. A letter outside ASCII can lower to an ASCII
letter in one case only, the Kelvin sign. -/
namespace TransferLifecycle.Text

def kelvinSign : Char := '\u212A'

/-- The lower case of a character as far as it can spell an ASCII word. -/
def lowerChar (c : Char) : Char := if c = kelvinSign then 'k' else c.toLower

def lower (text : String) : String := String.ofList (text.toList.map lowerChar)

/-- Equality up to the case of the letters A to Z. -/
def sameLetters (a b : String) : Bool :=
  a.toList.map Char.toLower == b.toList.map Char.toLower

end TransferLifecycle.Text
