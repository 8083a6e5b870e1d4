import Mathlib.Tactic.Ring
import TransferLifecycle.Proofs.CalendarDays
import TransferLifecycle.Rfc3339

set_option autoImplicit false

/- An instant is read back from its text, if its year has four digits and it is not inside a leap
second. The number of digits of a part tells the reader where the part ends; the digits of a fraction
end with the mark of UTC behind them. -/
namespace TransferLifecycle

namespace Rfc3339

variable {width more n : Nat} {c : Char} {rest : List Char}

theorem digitChar_cases (n : Nat) :
    (digitChar n).isDigit = true ∧ digitValue (digitChar n) = n % 10 ∧
      Text.isBlankChar (digitChar n) = false := by
  have all : ∀ d, d < 10 → (Char.ofNat (48 + d)).isDigit = true ∧
      digitValue (Char.ofNat (48 + d)) = d ∧ Text.isBlankChar (Char.ofNat (48 + d)) = false := by
    decide
  exact all (n % 10) (Nat.mod_lt n (by decide))

theorem padded_succ (width n : Nat) :
    padded (width + 1) n = digitChar (n / 10 ^ width) :: padded width n := by
  induction width generalizing n with
  | zero => simp [padded]
  | succ width ih =>
    rw [padded, ih, List.cons_append, padded, Nat.div_div_eq_div_mul, Nat.pow_succ']

/-- The digits that are read are put behind those of the number so far. -/
theorem moreDigits_padded (width more k n : Nat) (rest : List Char) :
    moreDigits (width + more) k (padded width n ++ rest) =
      moreDigits more (10 ^ width * k + n % 10 ^ width) rest := by
  induction width generalizing k with
  | zero => simp [padded, Nat.mod_one]
  | succ width ih =>
    obtain ⟨digit, value, -⟩ := digitChar_cases (n / 10 ^ width)
    have first : n % 10 ^ (width + 1) = n % 10 ^ width + 10 ^ width * (n / 10 ^ width % 10) :=
      Nat.mod_pow_succ
    have joined : 10 ^ width * (10 * k + n / 10 ^ width % 10) + n % 10 ^ width =
        10 ^ (width + 1) * k + n % 10 ^ (width + 1) := by
      rw [first, Nat.pow_succ]
      ring
    have limit : width + 1 + more = width + more + 1 := by omega
    rw [padded_succ, List.cons_append, limit, moreDigits, if_pos digit, value, ih, joined]

/-- The digits end: there may be no more of them, or another character follows. -/
def Ends (more : Nat) (rest : List Char) : Prop :=
  more = 0 ∨ ∃ c cs, rest = c :: cs ∧ c.isDigit = false

theorem moreDigits_of_ends (ends : Ends more rest) (k : Nat) :
    moreDigits more k rest = (k, rest) := by
  rcases ends with rfl | ⟨c, cs, rfl, other⟩
  · rw [moreDigits]
  · cases more with
    | zero => rw [moreDigits]
    | succ more => rw [moreDigits, other, if_neg Bool.false_ne_true]

theorem digits_padded (fits : n < 10 ^ (width + 1)) (ends : Ends more rest) :
    digits (width + 1 + more) (padded (width + 1) n ++ rest) = some (n, rest) := by
  have read : moreDigits (width + 1 + more) 0 (padded (width + 1) n ++ rest) = (n, rest) := by
    rw [moreDigits_padded, Nat.mul_zero, Nat.zero_add, Nat.mod_eq_of_lt fits,
      moreDigits_of_ends ends]
  rw [padded_succ, List.cons_append] at read ⊢
  rw [digits, if_pos (digitChar_cases _).1, read]

theorem skipBlanks_of_first (visible : Text.isBlankChar c = false) :
    skipBlanks (c :: rest) = c :: rest := by
  rw [skipBlanks, Text.trimStartChars, List.dropWhile_cons, visible, if_neg Bool.false_ne_true]

theorem skipBlanks_padded (width n : Nat) (rest : List Char) :
    skipBlanks (padded (width + 1) n ++ rest) = padded (width + 1) n ++ rest := by
  rw [padded_succ, List.cons_append, skipBlanks_of_first (digitChar_cases _).2.2]

theorem mark_of_first (visible : Text.isBlankChar c = false) : mark c (c :: rest) = some rest := by
  rw [mark, skipBlanks_of_first visible]
  exact if_pos rfl

theorem twoDigits_padded {least most : Nat} (lower : least ≤ n) (upper : n ≤ most)
    (small : most < 100) (rest : List Char) :
    twoDigits least most (padded 2 n ++ rest) = some (n, rest) := by
  have read : digits 2 (padded 2 n ++ rest) = some (n, rest) :=
    digits_padded (by omega) (.inl rfl)
  simp only [twoDigits, skipBlanks_padded, read, Option.bind_eq_bind, Option.bind_some]
  exact if_pos ⟨lower, upper⟩

/-- A year of four digits is read as it is written, without a sign. -/
theorem year_yearText {y : Int} (least : 0 ≤ y) (most : y ≤ 9999) (rest : List Char) :
    year (yearText y ++ rest) = some (y, rest) := by
  have written : yearText y = padded 4 y.toNat := if_pos ⟨least, most⟩
  have read : digits 4 (padded 4 y.toNat ++ rest) = some (y.toNat, rest) :=
    digits_padded (by omega) (.inl rfl)
  have unsigned : ∀ sign more, sign.isDigit = false → padded 4 y.toNat ++ rest ≠ sign :: more := by
    intro sign more other same
    rw [padded_succ, List.cons_append] at same
    have digit := (digitChar_cases (y.toNat / 10 ^ 3)).1
    rw [(List.cons.inj same).1, other] at digit
    exact Bool.false_ne_true digit
  rw [year, written, skipBlanks_padded]
  split
  next more same => exact absurd same (unsigned _ _ rfl)
  next more same => exact absurd same (unsigned _ _ rfl)
  next =>
    have value : ((y.toNat : Nat) : Int) = y := Int.toNat_of_nonneg least
    rw [read, Option.map_some]
    simp only [value]

/-- Zeros at the end of a fraction may be left out. -/
theorem fraction_padded (width more : Nat) (nine : width + 1 + more = 9) (fits : n < 10 ^ 9)
    (zeros : n % 10 ^ more = 0) :
    fraction ('.' :: padded (width + 1) (n / 10 ^ more) ++ ['Z']) = some (n, ['Z']) := by
  have small : n / 10 ^ more < 10 ^ (width + 1) := by
    rw [Nat.div_lt_iff_lt_mul (Nat.pow_pos (by decide)), ← Nat.pow_add, nine]
    exact fits
  have read : digits 9 (padded (width + 1) (n / 10 ^ more) ++ ['Z']) =
      some (n / 10 ^ more, ['Z']) :=
    nine ▸ digits_padded small (.inr ⟨'Z', [], rfl, rfl⟩)
  have left : 9 - ((padded (width + 1) (n / 10 ^ more) ++ ['Z']).length - ['Z'].length) = more := by
    rw [List.length_append, padded_length]
    omega
  have value : n / 10 ^ more * Nat.pow 10 more = n :=
    Nat.div_mul_cancel (Nat.dvd_of_mod_eq_zero zeros)
  rw [List.cons_append, fraction]
  simp only [nanoseconds, read, Option.bind_eq_bind, Option.bind_some, left, value]
  rfl

theorem fraction_fractionText (fits : n < 10 ^ 9) :
    fraction (fractionText n ++ ['Z']) = some (n, ['Z']) := by
  unfold fractionText
  split
  next none => rw [none]; rfl
  next =>
    split
    next millis => exact fraction_padded 2 6 rfl fits millis
    next =>
      split
      next micros => exact fraction_padded 5 3 rfl fits micros
      next =>
        have read := fraction_padded 8 0 rfl fits (Nat.mod_one n)
        rwa [Nat.pow_zero, Nat.div_one] at read

theorem timeOfDay_write {hour minute second : Nat} (hours : hour ≤ 23) (minutes : minute ≤ 59)
    (seconds : second ≤ 59) (fits : n < 10 ^ 9) :
    timeOfDay (padded 2 hour ++ ':' :: padded 2 minute ++ ':' :: padded 2 second ++
        fractionText n ++ ['Z']) =
      some ((3600 * hour + 60 * minute + second, n), ['Z']) := by
  have notLeap : second ≠ 60 := by omega
  simp only [List.append_assoc, List.cons_append, timeOfDay, Option.bind_eq_bind, Option.bind_some,
    twoDigits_padded (Nat.zero_le hour) hours (by decide),
    twoDigits_padded (Nat.zero_le minute) minutes (by decide),
    twoDigits_padded (Nat.zero_le second) (Nat.le_succ_of_le seconds) (by decide),
    mark_of_first (c := ':') rfl, fraction_fractionText fits, notLeap, if_false]

theorem date_write {d : Date} (valid : d.isValid = true) (least : 0 ≤ d.year)
    (most : d.year ≤ 9999) (rest : List Char) :
    date (yearText d.year ++ '-' :: padded 2 d.month ++ '-' :: padded 2 d.day ++ rest) =
      some (d, rest) := by
  obtain ⟨⟨january, december⟩, first, last⟩ := Date.bounds_of_isValid valid
  simp only [List.append_assoc, List.cons_append, date, Option.bind_eq_bind, Option.bind_some,
    year_yearText least most, mark_of_first (c := '-') rfl,
    twoDigits_padded january december (by decide), twoDigits_padded first last (by decide)]
  exact if_pos valid

end Rfc3339

/-- The year in UTC. -/
def Instant.year (t : Instant) : Int := (Date.ofDays (t.seconds / Rfc3339.secondsPerDay)).year

/-- The year has four digits, and the instant is not inside a leap second. -/
structure Instant.Plain (t : Instant) : Prop where
  year_nonneg : 0 ≤ t.year
  year_le : t.year ≤ 9999
  nanoseconds_lt : t.nanoseconds < 1000000000

namespace Rfc3339

theorem exists_second (t : Instant) :
    ∃ second : Nat, t.seconds % secondsPerDay = second ∧ second < 86400 ∧
      t.seconds / secondsPerDay * secondsPerDay + second = t.seconds := by
  have positive := Int.emod_nonneg t.seconds (b := secondsPerDay) (by decide)
  have below := Int.emod_lt_of_pos t.seconds (b := secondsPerDay) (by decide)
  have whole := Int.mul_ediv_add_emod t.seconds secondsPerDay
  have inDay : t.seconds % secondsPerDay = (t.seconds % secondsPerDay).toNat :=
    (Int.toNat_of_nonneg positive).symm
  refine ⟨(t.seconds % secondsPerDay).toNat, inDay, ?_, ?_⟩
  · unfold secondsPerDay at *
    omega
  · rw [← inDay, Int.mul_comm, whole]

/-- A plain instant is read back from its text. -/
theorem read?_write {t : Instant} (plain : t.Plain) : read? (write t) = some t := by
  obtain ⟨least, most, fits⟩ := plain
  have valid : (Date.ofDays (t.seconds / secondsPerDay)).isValid = true :=
    Date.isValid_ofDays (Int.le_trans (by decide) least) (Int.le_trans most (by decide))
  obtain ⟨second, inDay, below, whole⟩ := exists_second t
  have written : write t =
      yearText (Date.ofDays (t.seconds / secondsPerDay)).year ++
        '-' :: padded 2 (Date.ofDays (t.seconds / secondsPerDay)).month ++
        '-' :: padded 2 (Date.ofDays (t.seconds / secondsPerDay)).day ++
        'T' :: (padded 2 (second / 3600) ++ ':' :: padded 2 (second / 60 % 60) ++
          ':' :: padded 2 (second % 60) ++ fractionText t.nanoseconds ++ ['Z']) := by
    simp only [write, inDay, Int.toNat_natCast, Nat.div_eq_of_lt fits, Nat.mod_eq_of_lt fits,
      Nat.add_zero, List.append_assoc, List.cons_append]
  have time := timeOfDay_write (by omega : second / 3600 ≤ 23)
    (by omega : second / 60 % 60 ≤ 59) (by omega : second % 60 ≤ 59) fits
  have parts : 3600 * (second / 3600) + 60 * (second / 60 % 60) + second % 60 = second := by omega
  have utc : offset (skipBlanks ['Z']) = some (0, []) := rfl
  have ended : skipBlanks [] = [] := rfl
  rw [parts] at time
  simp only [read?, written, date_write valid least most, dateTimeMark, time, utc, ended,
    Option.bind_eq_bind, Option.bind_some, true_or, if_true, Date.toDays_ofDays, whole,
    Int.sub_zero, valid]
  rfl

end Rfc3339

theorem Instant.ofText?_text {t : Instant} (plain : t.Plain) : ofText? t.text = some t := by
  rw [ofText?, text, String.toList_ofList, Rfc3339.read?_write plain]

end TransferLifecycle
