import Mathlib.Data.Nat.Log
import RestaurantOS.Core.Decimal
import RestaurantOS.Lib.Numerals

/-!
# The texts of decimal numbers

`Decimal(text)` and `format(value, "f")`. A text is stripped of white space, its underscores are
dropped, and what is left is a signed numeral, an infinity or a NaN in any case. A numeral beyond the
limits of the implementation is refused (`within_limits`), also where it stands for zero. White space
and digits outside ASCII are given by `Unicode`.
-/

namespace RestaurantOS

open Numerals

/-- The properties of the characters outside ASCII. What holds of ASCII is defined here, and the
rest is left to this. -/
structure Unicode where
  /-- The value of a decimal digit. -/
  other_digit : Char → Option ℕ
  /-- `str.isspace`. -/
  other_space : Char → Bool

namespace Unicode

variable (unicode : Unicode)

/-- `str.isspace` of one character. Outside ASCII the database of Unicode decides. -/
def isspace (c : Char) : Bool :=
  if c.toNat < 128 then decide (9 ≤ c.toNat ∧ c.toNat ≤ 13 ∨ 28 ≤ c.toNat ∧ c.toNat ≤ 32)
  else unicode.other_space c

/-- `str.strip`. Spaces inside the text stay. -/
def strip (text : List Char) : List Char :=
  ((text.dropWhile unicode.isspace).reverse.dropWhile unicode.isspace).reverse

/-- A text without white space is stripped of nothing. Neither end of it is white space. -/
theorem strip_eq_self {text : List Char} (h : ∀ c ∈ text, unicode.isspace c = false) :
    unicode.strip text = text := by
  have hdrop : ∀ l : List Char, (∀ c ∈ l, unicode.isspace c = false) →
      l.dropWhile unicode.isspace = l := by
    intro l hl
    cases l with
    | nil => rfl
    | cons c l => rw [List.dropWhile_cons, if_neg (by rw [hl c List.mem_cons_self]; decide)]
  rw [strip, hdrop text h, hdrop text.reverse (fun c hc => h c (List.mem_reverse.mp hc)),
    List.reverse_reverse]

end Unicode

namespace Decimal

variable (unicode : Unicode)

/-- The texts of a NaN: `nan` or `snan` and digits. -/
def nan_text (text : List Char) : Bool :=
  let body := if text.head? = some 's' then text.tail else text
  (body.take 3 == "nan".toList) && (body.drop 3).all (is_digit unicode.other_digit)

/-- `decimal.MAX_PREC`: the most digits of a coefficient. A text with more digits is refused. -/
def MAX_PREC : ℕ := 999999999999999999

/-- `decimal.MAX_EMAX`: the greatest exponent of the first digit. -/
def MAX_EMAX : ℤ := 999999999999999999

/-- `decimal.MIN_ETINY`: the least exponent of the last digit. -/
def MIN_ETINY : ℤ := -1999999999999999997

/-- The implementation represents the number exactly. A zero has one digit. -/
def within_limits (coefficient : ℕ) (exponent : ℤ) : Bool :=
  decide (Nat.log 10 coefficient < MAX_PREC ∧ MIN_ETINY ≤ exponent ∧
    exponent + Nat.log 10 coefficient ≤ MAX_EMAX)

/-- A number that is a `Decimal`. Coefficient and exponent are within the limits of `decimal`. -/
def representable : Decimal → Bool
  | .finite _ coefficient exponent => within_limits coefficient exponent
  | .infinite _ | .nan => true

/-- `Decimal(text)`; `none` is its `InvalidOperation`. Blanks at the ends and underscores are
ignored, and digits may be those of any script. -/
def of_text (text : String) : Option Decimal :=
  let (negative, unsigned) := read_sign ((unicode.strip text.toList).filter (· ≠ '_'))
  let lower := unsigned.map Char.toLower
  if lower = "inf".toList ∨ lower = "infinity".toList then some (.infinite negative)
  else if nan_text unicode lower then some .nan
  else
    (read_numeral unicode.other_digit unsigned).bind fun (coefficient, exponent) =>
      if within_limits coefficient exponent then some (.finite negative coefficient exponent) else none

/-- The number without a positive exponent, as positional notation writes it. -/
def fixed : Decimal → Decimal
  | .finite negative coefficient exponent =>
    if 0 ≤ exponent then .finite negative (coefficient * 10 ^ exponent.toNat) 0
    else .finite negative coefficient exponent
  | value => value

/-- `format(value, "f")`. No exponent is written, whatever the number is. -/
def format_f : Decimal → String
  | .finite negative coefficient exponent =>
    let digits := if 0 ≤ exponent then positional (coefficient * 10 ^ exponent.toNat) 0
      else positional coefficient (-exponent).toNat
    String.ofList (if negative then '-' :: digits else digits)
  | .infinite negative => if negative then "-Infinity" else "Infinity"
  | .nan => "NaN"

/-- Writing in positional notation keeps the number. -/
theorem fixed_value (value : Decimal) : value.fixed.value = value.value := by
  cases value with
  | finite negative coefficient exponent =>
    by_cases h : 0 ≤ exponent
    · simp [fixed, Decimal.value, h]
    · simp [fixed, Decimal.value, h]
  | infinite => rfl
  | nan => rfl

/-- A number without a positive exponent stays as it is. -/
theorem fixed_fixed (value : Decimal) : value.fixed.fixed = value.fixed := by
  cases value with
  | finite negative coefficient exponent =>
    by_cases h : 0 ≤ exponent
    · simp [fixed, h]
    · simp [fixed, h]
  | infinite => rfl
  | nan => rfl

/-- A `Decimal` is within the limits. A numeral beyond them is refused, and so is one with too many
digits. -/
theorem of_text_representable {text : String} {value : Decimal}
    (h : of_text unicode text = some value) : value.representable = true := by
  unfold of_text at h
  dsimp only at h
  split_ifs at h
  · rw [← Option.some.inj h]
    rfl
  · rw [← Option.some.inj h]
    rfl
  · obtain ⟨⟨coefficient, exponent⟩, -, hlimits⟩ := Option.bind_eq_some_iff.mp h
    dsimp only at hlimits
    split_ifs at hlimits with hwithin
    rw [← Option.some.inj hlimits]
    exact hwithin

/-- A coefficient with few digits is within the limits under every exponent that has a number of decimal
places below 10^18. -/
theorem within_limits_of_lt {coefficient : ℕ} {exponent : ℤ} (hcoefficient : coefficient < 10 ^ 28)
    (hlow : -1000000000000000000 ≤ exponent) (hhigh : exponent ≤ 0) :
    within_limits coefficient exponent = true := by
  have hlog : Nat.log 10 coefficient < 28 := by
    rcases Nat.eq_zero_or_pos coefficient with rfl | hpos
    · decide
    · exact Nat.log_lt_of_lt_pow hpos.ne' hcoefficient
  refine decide_eq_true ⟨?_, ?_, ?_⟩
  · unfold MAX_PREC
    omega
  · unfold MIN_ETINY
    omega
  · unfold MAX_EMAX
    omega

/-! ## Reading what was written -/

/-- A digit of ASCII is between `0` and `9`. -/
theorem isDigit_toNat {c : Char} (h : c.isDigit) : 48 ≤ c.toNat ∧ c.toNat ≤ 57 :=
  Char.isDigit_iff_toNat.mp h

/-- A digit of ASCII is not a given character outside that range. -/
theorem ne_of_isDigit {c d : Char} (h : c.isDigit) (hd : d.isDigit = false) : c ≠ d := by
  rintro rfl
  rw [h] at hd
  cases hd

/-- A digit has no other case. -/
theorem toLower_of_isDigit {c : Char} (h : c.isDigit) : c.toLower = c := by
  have hle := (isDigit_toNat h).2
  unfold Char.toLower
  rw [dif_neg]
  rintro ⟨hA, -⟩
  have : 65 ≤ c.toNat := UInt32.le_iff_toNat_le.mp hA
  omega

/-- The characters of a written number are neither white space nor underscores. -/
theorem plain_of_numeral {c : Char} (h : c.isDigit ∨ c ∈ ['.', 'E', '+', '-']) :
    unicode.isspace c = false ∧ c ≠ '_' := by
  rcases h with h | h
  · obtain ⟨hge, hle⟩ := isDigit_toNat h
    refine ⟨?_, ne_of_isDigit h rfl⟩
    rw [Unicode.isspace, if_pos (by omega), decide_eq_false_iff_not]
    omega
  · simp only [List.mem_cons, List.not_mem_nil, or_false] at h
    rcases h with rfl | rfl | rfl | rfl
    · exact ⟨rfl, by decide⟩
    · exact ⟨rfl, by decide⟩
    · exact ⟨rfl, by decide⟩
    · exact ⟨rfl, by decide⟩

/-- A text that begins with a digit has no sign. -/
theorem read_sign_digit {c : Char} {rest : List Char} (h : c.isDigit) :
    read_sign (c :: rest) = (false, c :: rest) := by
  unfold read_sign
  split
  · rename_i heq
    cases heq
    cases h
  · rename_i heq
    cases heq
    cases h
  · rfl

/-- A text that begins with a digit is no special value. -/
theorem not_special {c : Char} {rest : List Char} (h : c.isDigit) :
    ((c :: rest).map Char.toLower ≠ "inf".toList ∧
      (c :: rest).map Char.toLower ≠ "infinity".toList) ∧
      nan_text unicode ((c :: rest).map Char.toLower) = false := by
  rw [List.map_cons, toLower_of_isDigit h]
  have hi : c ≠ 'i' := ne_of_isDigit h rfl
  have hn : c ≠ 'n' := ne_of_isDigit h rfl
  have hs : c ≠ 's' := ne_of_isDigit h rfl
  refine ⟨⟨fun heq => hi (List.cons.inj heq).1, fun heq => hi (List.cons.inj heq).1⟩, ?_⟩
  simp [nan_text, hs, hn]

/-- A signed numeral within the limits that begins with a digit reads as what the numeral denotes.
Its characters are none that are stripped or left out, and it is not the text of a special value. -/
theorem of_text_numeral (negative : Bool) {c : Char} {rest : List Char} {coefficient : ℕ}
    {exponent : ℤ} (hc : c.isDigit)
    (hmem : ∀ x ∈ c :: rest, x.isDigit ∨ x ∈ ['.', 'E', '+', '-'])
    (hread : read_numeral unicode.other_digit (c :: rest) = some (coefficient, exponent))
    (hlimits : within_limits coefficient exponent = true) :
    of_text unicode (String.ofList (if negative then '-' :: c :: rest else c :: rest)) =
      some (.finite negative coefficient exponent) := by
  generalize htext : (if negative then '-' :: c :: rest else c :: rest) = text
  have hplain : ∀ x ∈ text, unicode.isspace x = false ∧ x ≠ '_' := by
    intro x hx
    refine plain_of_numeral unicode ?_
    rw [← htext] at hx
    split_ifs at hx
    · rcases List.mem_cons.mp hx with rfl | hx
      · exact Or.inr (by decide)
      · exact hmem x hx
    · exact hmem x hx
  -- Stripping and leaving out underscores changes nothing.
  have hclean : (unicode.strip text).filter (· ≠ '_') = text := by
    rw [unicode.strip_eq_self fun x hx => (hplain x hx).1]
    exact List.filter_eq_self.mpr fun x hx => decide_eq_true (hplain x hx).2
  have hsign : read_sign text = (negative, c :: rest) := by
    rw [← htext]
    cases negative with
    | true => rfl
    | false => exact read_sign_digit hc
  -- A text that begins with a digit is no infinity and no NaN.
  obtain ⟨⟨hinf, hinfinity⟩, hnan⟩ := not_special unicode hc
  unfold of_text
  simp only [String.toList_ofList, hclean, hsign]
  rw [if_neg (not_or.mpr ⟨hinf, hinfinity⟩), hnan, hread, if_neg Bool.false_ne_true,
    Option.bind_some]
  exact if_pos hlimits

/-- A signed numeral in positional notation reads as what was written. -/
theorem of_text_positional (negative : Bool) {coefficient places : ℕ}
    (hlimits : within_limits coefficient (-(places : ℤ)) = true) :
    of_text unicode (String.ofList (if negative then '-' :: positional coefficient places
      else positional coefficient places)) =
        some (.finite negative coefficient (-(places : ℤ))) := by
  obtain ⟨c, rest, hpositional, hc⟩ := positional_head coefficient places
  have hread := read_numeral_positional unicode.other_digit coefficient places
  have hmem := positional_mem coefficient places
  rw [hpositional] at hread hmem ⊢
  refine of_text_numeral unicode negative hc (fun x hx => ?_) hread hlimits
  rcases hmem x hx with hdigit | rfl
  · exact Or.inl hdigit
  · exact Or.inr List.mem_cons_self

/-- A finite number in positional notation reads as the number without a positive exponent, if that is
within the limits. -/
theorem of_text_format_f {negative : Bool} {coefficient : ℕ} {exponent : ℤ}
    (hlimits : (fixed (.finite negative coefficient exponent)).representable = true) :
    of_text unicode (format_f (.finite negative coefficient exponent)) =
      some (fixed (.finite negative coefficient exponent)) := by
  unfold fixed at hlimits
  dsimp only at hlimits
  unfold format_f fixed
  by_cases h : 0 ≤ exponent
  · rw [if_pos h] at hlimits
    simpa [h] using @of_text_positional unicode negative _ 0 hlimits
  · have hplaces : -((-exponent).toNat : ℤ) = exponent := by omega
    rw [if_neg h] at hlimits
    have hread := of_text_positional unicode negative (hplaces.symm ▸ hlimits)
    rw [hplaces] at hread
    simpa [h] using hread

end Decimal

end RestaurantOS
