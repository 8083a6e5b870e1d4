set_option autoImplicit false

/- Blank characters are those of the Unicode property White_Space. Trimming drops them at both
ends of a text, and a text is blank when nothing is left. -/
namespace TransferLifecycle.Text

def isBlankChar (c : Char) : Bool :=
  let n := c.toNat
  (0x09 ≤ n && n ≤ 0x0D) || n == 0x20 || n == 0x85 || n == 0xA0 || n == 0x1680 ||
    (0x2000 ≤ n && n ≤ 0x200A) || n == 0x2028 || n == 0x2029 || n == 0x202F || n == 0x205F ||
    n == 0x3000

def trimStartChars (cs : List Char) : List Char := cs.dropWhile isBlankChar

def trimChars (cs : List Char) : List Char :=
  (trimStartChars (trimStartChars cs).reverse).reverse

def trim (text : String) : String := String.ofList (trimChars text.toList)

def isBlank (text : String) : Bool := text.toList.all isBlankChar

theorem trimStartChars_eq_nil_iff (cs : List Char) :
    trimStartChars cs = [] ↔ cs.all isBlankChar = true := by
  induction cs with
  | nil => simp [trimStartChars]
  | cons c rest ih =>
    cases h : isBlankChar c <;> simp_all [trimStartChars]

theorem trimChars_eq_nil_iff (cs : List Char) : trimChars cs = [] ↔ cs.all isBlankChar = true := by
  rw [trimChars, List.reverse_eq_nil_iff, trimStartChars_eq_nil_iff, List.all_reverse]
  constructor
  · intro h
    cases hs : trimStartChars cs with
    | nil => exact (trimStartChars_eq_nil_iff cs).1 hs
    | cons c rest =>
      have head : isBlankChar c = false := by
        have := List.head?_dropWhile_not isBlankChar cs
        simp [trimStartChars] at hs
        simpa [hs] using this
      simp [hs, head] at h
  · intro h
    rw [(trimStartChars_eq_nil_iff cs).2 h]
    rfl

theorem isBlank_iff_trim (text : String) : isBlank text = true ↔ trim text = "" := by
  rw [isBlank, ← trimChars_eq_nil_iff, trim]
  constructor
  · intro h; simp [h]
  · intro h
    have := congrArg String.toList h
    simpa using this

end TransferLifecycle.Text
