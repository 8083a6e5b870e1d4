import TransferLifecycle.CommandKind

set_option autoImplicit false

/- Trimmed texts and lowered ones. Trimming leaves no blank at either end, so a second time it does
nothing. Lowering finds a word of small letters just where the text is the word up to the case of
the letters A to Z, whatever it makes of the other characters, as long as that is not ASCII. -/
namespace TransferLifecycle

namespace Text

/-- There is no blank at either end. -/
structure Trimmed (cs : List Char) : Prop where
  first : ∀ c ∈ cs.head?, isBlankChar c = false
  last : ∀ c ∈ cs.getLast?, isBlankChar c = false

theorem trimStartChars_of_first {cs : List Char} (first : ∀ c ∈ cs.head?, isBlankChar c = false) :
    trimStartChars cs = cs := by
  cases cs with
  | nil => rfl
  | cons c rest =>
    have plain : isBlankChar c = false := first c rfl
    rw [trimStartChars, List.dropWhile_cons, if_neg (by rw [plain]; exact Bool.false_ne_true)]

theorem first_trimStartChars (cs : List Char) :
    ∀ c ∈ (trimStartChars cs).head?, isBlankChar c = false := by
  intro c first
  have plain := List.head?_dropWhile_not isBlankChar cs
  rw [← trimStartChars, Option.mem_def.1 first] at plain
  simpa using plain

theorem trimmed_trimChars (cs : List Char) : Trimmed (trimChars cs) := by
  have start : (trimChars cs) <+: trimStartChars cs := by
    rw [← List.reverse_suffix, trimChars, List.reverse_reverse]
    exact List.dropWhile_suffix isBlankChar
  refine ⟨fun c first => ?_, fun c last => ?_⟩
  · obtain ⟨blanks, whole⟩ := start
    apply first_trimStartChars cs c
    rw [← whole, List.head?_append, Option.mem_def.1 first]
    rfl
  · rw [trimChars, List.getLast?_reverse] at last
    exact first_trimStartChars _ c last

theorem trimChars_of_trimmed {cs : List Char} (trimmed : Trimmed cs) : trimChars cs = cs := by
  have last : ∀ c ∈ cs.reverse.head?, isBlankChar c = false := by
    simpa only [List.head?_reverse] using trimmed.last
  rw [trimChars, trimStartChars_of_first trimmed.first, trimStartChars_of_first last,
    List.reverse_reverse]

theorem trim_trim (text : String) : trim (trim text) = trim text := by
  have again := trimChars_of_trimmed (trimmed_trimChars text.toList)
  rw [trim, trim, String.toList_ofList, again]

theorem isBlank_trim (text : String) : isBlank (trim text) = isBlank text := by
  rw [Bool.eq_iff_iff, isBlank_iff_trim, isBlank_iff_trim, trim_trim]

def isAscii (c : Char) : Bool := c.toNat < 128

/-- What lowering can make of characters: of an ASCII letter the small one, of the Kelvin sign a k,
and of any other character outside ASCII nothing that is ASCII altogether. It may depend on the
characters around. -/
inductive Lowers : List Char → List Char → Prop
  | nil : Lowers [] []
  | ascii {c : Char} {cs ds : List Char} (plain : isAscii c = true) (rest : Lowers cs ds) :
      Lowers (c :: cs) (c.toLower :: ds)
  | kelvin {cs ds : List Char} (rest : Lowers cs ds) : Lowers (kelvinSign :: cs) ('k' :: ds)
  | wide {c : Char} {part cs ds : List Char} (outside : isAscii c = false) (other : c ≠ kelvinSign)
      (stays : ∃ d ∈ part, isAscii d = false) (rest : Lowers cs ds) :
      Lowers (c :: cs) (part ++ ds)

theorem toLower_of_wide {c : Char} (wide : isAscii c = false) : c.toLower = c := by
  have large : ¬ c.toNat < 128 := by simpa [isAscii] using wide
  have lowercase : ¬ (65 ≤ c.val ∧ c.val ≤ 90) := by
    rintro ⟨-, small⟩
    have bound : c.toNat ≤ 90 := UInt32.le_iff_toNat_le.1 small
    omega
  exact dif_neg lowercase

theorem lowers_lower (text : String) : Lowers text.toList (lower text).toList := by
  rw [lower, String.toList_ofList]
  induction text.toList with
  | nil => exact .nil
  | cons c rest ih =>
    rw [List.map_cons]
    by_cases sign : c = kelvinSign
    · subst sign
      exact .kelvin ih
    · have same : lowerChar c = c.toLower := if_neg sign
      rw [same]
      cases plain : isAscii c with
      | true => exact .ascii plain ih
      | false =>
        have stays : ∃ d ∈ [c], isAscii d = false := ⟨c, List.mem_singleton_self c, plain⟩
        rw [toLower_of_wide plain]
        exact .wide plain sign stays ih

/-- A small letter that only A to Z lower to. -/
def isPlainLetter (c : Char) : Bool := isAscii c && c.toLower == c && c != 'k'

theorem Lowers.eq_iff {cs ds word : List Char} (lowered : Lowers cs ds)
    (plain : ∀ w ∈ word, isPlainLetter w = true) :
    ds = word ↔ cs.map Char.toLower = word.map Char.toLower := by
  have small : ∀ w ∈ word, isAscii w = true ∧ w.toLower = w ∧ w ≠ 'k' := by
    intro w member
    simpa [isPlainLetter, and_assoc] using plain w member
  clear plain
  -- By the letters that were lowered; a letter that is not ASCII fits no letter of the word.
  induction lowered generalizing word with
  | nil => cases word <;> simp
  | ascii plain rest ih =>
    cases word with
    | nil => simp
    | cons w others =>
      have own := small w List.mem_cons_self
      have later := ih fun v member => small v (List.mem_cons_of_mem _ member)
      rw [List.map_cons, List.map_cons, List.cons.injEq, List.cons.injEq, own.2.1]
      exact and_congr_right fun _ => later
  | kelvin rest ih =>
    cases word with
    | nil => simp
    | cons w others =>
      obtain ⟨plain, same, other⟩ := small w List.mem_cons_self
      have outside : kelvinSign.toLower ≠ w.toLower := by
        rw [same]
        rintro rfl
        exact absurd plain (by decide)
      rw [List.map_cons, List.map_cons, List.cons.injEq, List.cons.injEq]
      exact iff_of_false (fun eq => other eq.1.symm) (fun eq => outside eq.1)
  | @wide c part cs ds wide sign stays rest ih =>
    obtain ⟨d, member, outside⟩ := stays
    have apart : part ++ ds ≠ word := by
      rintro rfl
      have plain := (small d (List.mem_append_left _ member)).1
      rw [outside] at plain
      cases plain
    refine iff_of_false apart fun eq => ?_
    cases word with
    | nil => cases eq
    | cons w others =>
      obtain ⟨plain, same, -⟩ := small w List.mem_cons_self
      rw [List.map_cons, List.map_cons, List.cons.injEq, same, toLower_of_wide wide] at eq
      rw [← eq.1, wide] at plain
      cases plain

/-- A lowered text is a word of small letters just where the text spells the word in any case. -/
theorem Lowers.spells_iff {text lowered word : String} (lowers : Lowers text.toList lowered.toList)
    (plain : word.toList.all isPlainLetter = true) :
    lowered = word ↔ sameLetters text word = true := by
  rw [sameLetters, beq_iff_eq, ← lowers.eq_iff (List.all_eq_true.1 plain), String.toList_inj]

end Text

end TransferLifecycle
