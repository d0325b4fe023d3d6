import Mathlib.Algebra.Order.Group.Nat
import Mathlib.Data.List.TakeWhile

/-!
# Decimal numerals

The text of a number in positional notation and the reading of such texts. A numeral has digits, an
optional fraction and an optional exponent; what it denotes is a coefficient and a power of ten.
`positional` writes a coefficient with a number of decimal places, `scientific` with an exponent where
it needs one, `read_numeral` reads any numeral, and `read_numeral_positional` and
`read_numeral_scientific` say that reading undoes writing. A reader may know further digits than
the ten of ASCII: they are the argument `other`.
-/

namespace Numerals

variable (other : Char → Option ℕ)

/-! ## Digits -/

/-- The value of a digit: one of the ten of ASCII, or another one outside ASCII. -/
def digit_value (c : Char) : Option ℕ :=
  if c.isDigit then some (c.toNat - '0'.toNat) else if c.toNat < 128 then none else other c

/-- The number that a list of digits denotes after the number `init`. -/
def digits_value (init : ℕ) (text : List Char) : Option ℕ :=
  text.foldlM (fun n c => (digit_value other c).map (10 * n + ·)) init

/-- Whether a character is a digit. It may be one of any script. -/
def is_digit (c : Char) : Bool := (digit_value other c).isSome

/-- A digit of ASCII has its usual value. -/
theorem digit_value_ascii {c : Char} (h : c.isDigit) :
    digit_value other c = some (c.toNat - '0'.toNat) := if_pos h

/-- A digit of ASCII is a digit. -/
theorem is_digit_ascii {c : Char} (h : c.isDigit) : is_digit other c = true := by
  rw [is_digit, digit_value_ascii other h]
  rfl

/-- A point is no digit. -/
theorem is_digit_point : is_digit other '.' = false := rfl

/-- Digits of ASCII denote what the core library reads from them. -/
theorem digits_value_ascii {text : List Char} (h : ∀ c ∈ text, c.isDigit) (init : ℕ) :
    digits_value other init text = some (Nat.ofDigitChars 10 text init) := by
  induction text generalizing init with
  | nil => rfl
  | cons c text ih =>
    have hc : digit_value other c = some (c.toNat - '0'.toNat) :=
      digit_value_ascii other (h c List.mem_cons_self)
    have hrest := ih (fun d hd => h d (List.mem_cons_of_mem c hd)) (10 * init + (c.toNat - '0'.toNat))
    rw [Nat.ofDigitChars_cons, ← hrest]
    simp [digits_value, List.foldlM_cons, hc]

/-- The numeral of a number is read as the number. -/
theorem digits_value_repr (n : ℕ) : digits_value other 0 n.repr.toList = some n := by
  have hdigits : ∀ c ∈ Nat.toDigits 10 n, c.isDigit := fun c hc =>
    Nat.isDigit_of_mem_toDigits (by decide) (by decide) hc
  rw [Nat.toList_repr, digits_value_ascii other hdigits, Nat.ofDigitChars_ten_toDigits]

/-! ## Writing -/

/-- Different numbers have different numerals. -/
theorem toDigits_injective : Function.Injective (Nat.toDigits 10) := by
  intro n n' h
  rw [← @Nat.ofDigitChars_ten_toDigits n, h, Nat.ofDigitChars_ten_toDigits]

/-- The symbols of a numeral are digits. -/
theorem isDigit_of_mem_toDigits {n : ℕ} {c : Char} (h : c ∈ Nat.toDigits 10 n) : c.isDigit = true :=
  Nat.isDigit_of_mem_toDigits (by decide) (by decide) h

/-- The digits of a coefficient, with leading zeros up to one more than `places`. -/
def padded (coefficient places : ℕ) : List Char :=
  List.replicate (places + 1 - (Nat.toDigits 10 coefficient).length) '0' ++ Nat.toDigits 10 coefficient

/-- A coefficient written with `places` decimal places. There is at least one digit before the
point. -/
def positional (coefficient places : ℕ) : List Char :=
  let digits := padded coefficient places
  let whole := digits.take (digits.length - places)
  if places = 0 then whole else whole ++ '.' :: digits.drop (digits.length - places)

/-- The padded digits are digits of ASCII. -/
theorem padded_digits (coefficient places : ℕ) : ∀ c ∈ padded coefficient places, c.isDigit := by
  intro c hc
  rcases List.mem_append.mp hc with hc | hc
  · rw [(List.mem_replicate.mp hc).2]
    rfl
  · exact Nat.isDigit_of_mem_toDigits (by decide) (by decide) hc

/-- There is a digit before the decimal places. -/
theorem padded_length (coefficient places : ℕ) : places < (padded coefficient places).length := by
  rw [padded, List.length_append, List.length_replicate]
  have := @Nat.length_toDigits_pos 10 coefficient
  omega

/-- The padded digits denote the coefficient. -/
theorem padded_value (coefficient places : ℕ) :
    digits_value other 0 (padded coefficient places) = some coefficient := by
  rw [digits_value_ascii other (padded_digits coefficient places), padded, Nat.ofDigitChars_append,
    Nat.ofDigitChars_replicate_zero, Nat.mul_zero, Nat.ofDigitChars_ten_toDigits]

/-- A written number begins with a digit. There is always one in front of the point. -/
theorem positional_head (coefficient places : ℕ) :
    ∃ c text, positional coefficient places = c :: text ∧ c.isDigit := by
  have hlength : places < (padded coefficient places).length := padded_length coefficient places
  have hdigits := padded_digits coefficient places
  unfold positional
  generalize padded coefficient places = digits at *
  cases digits with
  | nil => exact absurd hlength (Nat.not_lt_zero places)
  | cons c digits =>
    have htake : (c :: digits).take ((c :: digits).length - places) =
        c :: digits.take (digits.length - places) := by
      rw [List.length_cons, Nat.succ_sub (Nat.le_of_lt_succ hlength), List.take_succ_cons]
    dsimp only
    rw [htake]
    split_ifs
    · exact ⟨c, _, rfl, hdigits c List.mem_cons_self⟩
    · exact ⟨c, _, rfl, hdigits c List.mem_cons_self⟩

/-- A written number has digits and a point. There is no sign and no exponent in it. -/
theorem positional_mem (coefficient places : ℕ) :
    ∀ c ∈ positional coefficient places, c.isDigit ∨ c = '.' := by
  intro c hc
  have hdigits := padded_digits coefficient places
  unfold positional at hc
  dsimp only at hc
  split_ifs at hc
  · exact Or.inl (hdigits c (List.mem_of_mem_take hc))
  · rcases List.mem_append.mp hc with hc | hc
    · exact Or.inl (hdigits c (List.mem_of_mem_take hc))
    · rcases List.mem_cons.mp hc with rfl | hc
      · exact Or.inr rfl
      · exact Or.inl (hdigits c (List.mem_of_mem_drop hc))

/-! ## Reading -/

/-- An optional sign: whether it is a minus, and the text after it. -/
def read_sign : List Char → Bool × List Char
  | '-' :: text => (true, text)
  | '+' :: text => (false, text)
  | text => (false, text)

/-- A non-empty list of digits and nothing else. -/
def read_digits (text : List Char) : Option ℕ :=
  if text = [] then none else digits_value other 0 text

/-- The exponent of a numeral: nothing, or `E` with an optional sign and digits. -/
def read_exponent : List Char → Option ℤ
  | [] => some 0
  | e :: text =>
    if e = 'e' ∨ e = 'E' then
      let (negative, digits) := read_sign text
      (read_digits other digits).map fun n => if negative then -(n : ℤ) else n
    else none

/-- The fraction of a numeral: the digits after a point, and the text after them. -/
def read_fraction : List Char → List Char × List Char
  | '.' :: text => (text.takeWhile (is_digit other), text.dropWhile (is_digit other))
  | text => ([], text)

/-- An unsigned numeral: its coefficient and its exponent. There is a digit before or after the
point. -/
def read_numeral (text : List Char) : Option (ℕ × ℤ) :=
  let whole := text.takeWhile (is_digit other)
  let (fraction, rest) := read_fraction other (text.dropWhile (is_digit other))
  if whole ++ fraction = [] then none
  else
    match digits_value other 0 (whole ++ fraction), read_exponent other rest with
    | some coefficient, some exponent => some (coefficient, exponent - fraction.length)
    | _, _ => none

/-! ## Reading what was written -/

/-- A list of digits up to something that is none. -/
theorem takeWhile_digits {digits rest : List Char} (h : ∀ c ∈ digits, c.isDigit)
    (hrest : ∀ c ∈ rest.head?, is_digit other c = false) :
    (digits ++ rest).takeWhile (is_digit other) = digits ∧
      (digits ++ rest).dropWhile (is_digit other) = rest := by
  have hdigits : ∀ c ∈ digits, is_digit other c = true := fun c hc => is_digit_ascii other (h c hc)
  cases rest with
  | nil =>
    rw [List.append_nil]
    exact ⟨List.takeWhile_eq_self_iff.mpr hdigits, List.dropWhile_eq_nil_iff.mpr hdigits⟩
  | cons c rest =>
    have hc : is_digit other c = false := hrest c rfl
    rw [List.takeWhile_append_of_pos hdigits, List.dropWhile_append_of_pos hdigits]
    simp [hc]

/-- A numeral that is put together from its digits, possibly with a point among them, and possibly
an exponent. Every way of writing a number is an instance, so that each of them is read back by one
lemma. -/
theorem read_numeral_parts {whole fraction rest text : List Char} {exponent : ℤ}
    (hwhole : ∀ c ∈ whole, c.isDigit) (hfraction : ∀ c ∈ fraction, c.isDigit)
    (hne : whole ++ fraction ≠ []) (hrest : rest = [] ∨ rest.head? = some 'E')
    (hexponent : read_exponent other rest = some exponent)
    (htext : (fraction = [] ∧ text = whole ++ rest) ∨ text = whole ++ '.' :: (fraction ++ rest))
    {coefficient : ℕ} (hvalue : digits_value other 0 (whole ++ fraction) = some coefficient) :
    read_numeral other text = some (coefficient, exponent - fraction.length) := by
  -- What follows the digits is nothing or the mark of an exponent, so the digits end there.
  have hend : ∀ c ∈ rest.head?, is_digit other c = false := by
    intro c hc
    rcases hrest with rfl | hE
    · exact absurd hc (Option.not_mem_none c)
    · rw [hE] at hc
      cases hc
      rfl
  unfold read_numeral
  rcases htext with ⟨rfl, rfl⟩ | rfl
  · -- Without a point there is no fraction, and what follows is the exponent.
    obtain ⟨htake, hdrop⟩ := @takeWhile_digits other whole rest hwhole hend
    have hfraction : read_fraction other rest = ([], rest) := by
      rcases hrest with rfl | hE
      · rfl
      · cases rest with
        | nil => cases hE
        | cons c rest =>
          cases hE
          rfl
    rw [htake, hdrop, hfraction]
    dsimp only
    rw [if_neg hne, hvalue, hexponent]
  · -- With a point the digits after it are the fraction.
    obtain ⟨htake, hdrop⟩ := @takeWhile_digits other whole ('.' :: (fraction ++ rest)) hwhole
      (fun c hc => by cases hc; exact is_digit_point other)
    obtain ⟨hftake, hfdrop⟩ := @takeWhile_digits other fraction rest hfraction hend
    rw [htake, hdrop, read_fraction, hftake, hfdrop]
    dsimp only
    rw [if_neg hne, hvalue, hexponent]

/-- A written number reads as its coefficient and its decimal places. This is how PostgreSQL writes
a `numeric` of a given scale. -/
theorem read_numeral_positional (coefficient places : ℕ) :
    read_numeral other (positional coefficient places) = some (coefficient, -(places : ℤ)) := by
  have hlength : places < (padded coefficient places).length := padded_length coefficient places
  have hvalue : digits_value other 0 (padded coefficient places) = some coefficient :=
    padded_value other coefficient places
  have hdigits := padded_digits coefficient places
  unfold positional
  generalize padded coefficient places = digits at *
  dsimp only
  -- The digits behind the point are as many as there are decimal places.
  have hdrop : (digits.drop (digits.length - places)).length = places := by
    rw [List.length_drop]
    omega
  have hread := @read_numeral_parts other (digits.take (digits.length - places))
    (digits.drop (digits.length - places)) []
    (if places = 0 then digits.take (digits.length - places)
      else digits.take (digits.length - places) ++ '.' :: digits.drop (digits.length - places))
    0 (fun c hc => hdigits c (List.mem_of_mem_take hc))
    (fun c hc => hdigits c (List.mem_of_mem_drop hc))
    (by rw [List.take_append_drop]; exact List.ne_nil_of_length_pos (by omega)) (Or.inl rfl) rfl
    (by
      rw [List.append_nil, List.append_nil]
      split_ifs with hplaces
      · exact Or.inl ⟨List.length_eq_zero_iff.mp (hdrop.trans hplaces), rfl⟩
      · exact Or.inr rfl)
    coefficient (by rw [List.take_append_drop]; exact hvalue)
  rw [hread, hdrop, Int.zero_sub]

/-! ## Scientific notation -/

/-- An exponent with its sign. The sign is always written. -/
def signed (n : ℤ) : List Char := (if n < 0 then '-' else '+') :: Nat.toDigits 10 n.natAbs

/-- A coefficient and an exponent in scientific notation, or without an exponent if that is not
positive and the number not too small. -/
def scientific (coefficient : ℕ) (exponent : ℤ) : List Char :=
  let digits := Nat.toDigits 10 coefficient
  let leftdigits := exponent + digits.length
  let dotplace := if exponent ≤ 0 ∧ -6 < leftdigits then leftdigits else 1
  let mantissa :=
    if dotplace ≤ 0 then '0' :: '.' :: (List.replicate (-dotplace).toNat '0' ++ digits)
    else if digits.length ≤ dotplace then
      digits ++ List.replicate (dotplace - digits.length).toNat '0'
    else digits.take dotplace.toNat ++ '.' :: digits.drop dotplace.toNat
  mantissa ++ if leftdigits = dotplace then [] else 'E' :: signed (leftdigits - dotplace)

/-- An exponent reads as itself. The sign is always written, and no other notation is tried. -/
theorem read_exponent_signed (n : ℤ) : read_exponent other ('E' :: signed n) = some n := by
  have hdigits : read_digits other (Nat.toDigits 10 n.natAbs) = some n.natAbs := by
    rw [read_digits, if_neg (List.ne_nil_of_length_pos Nat.length_toDigits_pos),
      digits_value_ascii other (fun c => isDigit_of_mem_toDigits), Nat.ofDigitChars_ten_toDigits]
  have hsign : read_sign (signed n) = (decide (n < 0), Nat.toDigits 10 n.natAbs) := by
    unfold signed
    split_ifs with h
    · rw [read_sign, decide_eq_true h]
    · rw [read_sign, decide_eq_false h]
  rw [read_exponent, if_pos (Or.inr rfl), hsign]
  dsimp only
  rw [hdigits]
  show some (if decide (n < 0) = true then -(n.natAbs : ℤ) else n.natAbs) = some n
  congr 1
  by_cases h : n < 0
  · rw [decide_eq_true h, if_pos rfl]
    omega
  · rw [decide_eq_false h, if_neg (by decide)]
    omega

/-- A number in scientific notation begins with a digit. So neither a sign nor a special value is
taken for one. -/
theorem scientific_head (coefficient : ℕ) (exponent : ℤ) :
    ∃ c text, scientific coefficient exponent = c :: text ∧ c.isDigit := by
  have hpos : 0 < (Nat.toDigits 10 coefficient).length := Nat.length_toDigits_pos
  have hdigits : ∀ c ∈ Nat.toDigits 10 coefficient, c.isDigit := fun c => isDigit_of_mem_toDigits
  unfold scientific
  generalize Nat.toDigits 10 coefficient = digits at *
  cases digits with
  | nil => exact absurd hpos (lt_irrefl 0)
  | cons c digits =>
    have hc : c.isDigit := hdigits c List.mem_cons_self
    dsimp only
    generalize (if exponent ≤ 0 ∧ -6 < exponent + ((c :: digits).length : ℤ) then
      exponent + ((c :: digits).length : ℤ) else 1) = dotplace
    -- The point is not before the digits, so the first of them is the first character.
    split
    · exact ⟨'0', _, rfl, rfl⟩
    · rename_i hle
      split
      · exact ⟨c, _, rfl, hc⟩
      · obtain ⟨n, hn⟩ := Int.eq_ofNat_of_zero_le (show 0 ≤ dotplace - 1 by omega)
        rw [show dotplace.toNat = n + 1 by omega, List.take_succ_cons]
        exact ⟨c, _, rfl, hc⟩

/-- A number in scientific notation has digits, a point, the mark of an exponent and its sign. So
nothing is stripped from it and it holds no underscore. -/
theorem scientific_mem (coefficient : ℕ) (exponent : ℤ) :
    ∀ c ∈ scientific coefficient exponent, c.isDigit ∨ c ∈ ['.', 'E', '+', '-'] := by
  have hdigits : ∀ c ∈ Nat.toDigits 10 coefficient, c.isDigit := fun c => isDigit_of_mem_toDigits
  have hzeros : ∀ (n : ℕ), ∀ c ∈ List.replicate n '0', c.isDigit := fun n c hc =>
    (List.eq_of_mem_replicate hc) ▸ rfl
  have hsigned : ∀ n : ℤ, ∀ c ∈ signed n, c.isDigit ∨ c ∈ ['.', 'E', '+', '-'] := by
    intro n c hc
    rcases List.mem_cons.mp hc with rfl | hc
    · split_ifs
      · exact Or.inr (by decide)
      · exact Or.inr (by decide)
    · exact Or.inl (isDigit_of_mem_toDigits hc)
  intro c hc
  unfold scientific at hc
  dsimp only at hc
  generalize (if exponent ≤ 0 ∧ -6 < exponent + ((Nat.toDigits 10 coefficient).length : ℤ) then
    exponent + ((Nat.toDigits 10 coefficient).length : ℤ) else 1) = dotplace at hc
  -- Before the exponent there are digits, zeros and at most one point; the exponent is signed.
  rcases List.mem_append.mp hc with hc | hc
  · split_ifs at hc
    · simp only [List.mem_cons, List.mem_append] at hc
      rcases hc with rfl | rfl | hc | hc
      · exact Or.inl rfl
      · exact Or.inr (by decide)
      · exact Or.inl (hzeros _ c hc)
      · exact Or.inl (hdigits c hc)
    · rcases List.mem_append.mp hc with hc | hc
      · exact Or.inl (hdigits c hc)
      · exact Or.inl (hzeros _ c hc)
    · simp only [List.mem_cons, List.mem_append] at hc
      rcases hc with hc | rfl | hc
      · exact Or.inl (hdigits c (List.mem_of_mem_take hc))
      · exact Or.inr (by decide)
      · exact Or.inl (hdigits c (List.mem_of_mem_drop hc))
  · split_ifs at hc
    · exact absurd hc List.not_mem_nil
    · rcases List.mem_cons.mp hc with rfl | hc
      · exact Or.inr (by decide)
      · exact hsigned _ c hc

/-- A number in scientific notation reads as its coefficient and its exponent. This is `str` of a
`Decimal`, in each of the three ways in which it writes one. -/
theorem read_numeral_scientific (coefficient : ℕ) (exponent : ℤ) :
    read_numeral other (scientific coefficient exponent) = some (coefficient, exponent) := by
  have hdigits : ∀ c ∈ Nat.toDigits 10 coefficient, c.isDigit := fun c => isDigit_of_mem_toDigits
  have hpos : 0 < (Nat.toDigits 10 coefficient).length := Nat.length_toDigits_pos
  have hvalue : digits_value other 0 (Nat.toDigits 10 coefficient) = some coefficient := by
    rw [digits_value_ascii other hdigits, Nat.ofDigitChars_ten_toDigits]
  unfold scientific
  generalize Nat.toDigits 10 coefficient = digits at *
  dsimp only
  generalize hleft : exponent + (digits.length : ℤ) = leftdigits
  generalize hdot : (if exponent ≤ 0 ∧ -6 < leftdigits then leftdigits else 1) = dotplace
  -- The place of the point is where the exponent ends, or after the first digit.
  have hcases : (exponent ≤ 0 ∧ dotplace = leftdigits) ∨ dotplace = 1 := by
    split_ifs at hdot with h
    · exact Or.inl ⟨h.1, hdot.symm⟩
    · exact Or.inr hdot.symm
  have hsmall : dotplace = 1 → leftdigits = 1 → digits.length = 1 → exponent = 0 := by omega
  generalize hrest :
    (if leftdigits = dotplace then [] else 'E' :: signed (leftdigits - dotplace)) = rest
  have hexponent : read_exponent other rest = some (leftdigits - dotplace) := by
    rw [← hrest]
    split_ifs with h
    · rw [h, Int.sub_self]
      rfl
    · exact read_exponent_signed other _
  have hhead : rest = [] ∨ rest.head? = some 'E' := by
    rw [← hrest]
    split_ifs
    · exact Or.inl rfl
    · exact Or.inr rfl
  split_ifs with hle hlong
  · -- The point is before the digits, after a zero and before further ones.
    have hzeros : ∀ c ∈ List.replicate (-dotplace).toNat '0' ++ digits, c.isDigit := by
      intro c hc
      rcases List.mem_append.mp hc with hc | hc
      · rw [(List.mem_replicate.mp hc).2]
        rfl
      · exact hdigits c hc
    have hread := @read_numeral_parts other ['0'] (List.replicate (-dotplace).toNat '0' ++ digits) rest
      _ _ (by simp) hzeros (by simp) hhead hexponent (Or.inr rfl) coefficient ?_
    · have hlength : (List.replicate (-dotplace).toNat '0' ++ digits).length =
          (-dotplace).toNat + digits.length := by rw [List.length_append, List.length_replicate]
      rw [hlength, show leftdigits - dotplace - (((-dotplace).toNat + digits.length : ℕ) : ℤ) = exponent
        by omega] at hread
      exact hread
    · have hall : ∀ c ∈ ['0'] ++ (List.replicate (-dotplace).toNat '0' ++ digits), c.isDigit :=
        List.forall_mem_append.mpr ⟨by simp, hzeros⟩
      rw [digits_value_ascii other hall, ← List.append_assoc, Nat.ofDigitChars_append,
        ← List.replicate_one, List.replicate_append_replicate, Nat.ofDigitChars_replicate_zero,
        Nat.mul_zero, ← digits_value_ascii other hdigits]
      exact hvalue
  · -- There is no point: the number is whole, or has one digit and an exponent.
    have hnone : List.replicate (dotplace - digits.length).toNat '0' = [] := by
      rw [show (dotplace - digits.length).toNat = 0 by omega]
      rfl
    have hread := @read_numeral_parts other digits [] rest _ _ hdigits (by simp)
      (by rw [List.append_nil]; exact List.ne_nil_of_length_pos hpos) hhead hexponent
      (Or.inl ⟨rfl, rfl⟩) coefficient (by rw [List.append_nil]; exact hvalue)
    rw [show leftdigits - dotplace - (([] : List Char).length : ℤ) = exponent by
      rw [List.length_nil]; omega] at hread
    rw [hnone, List.append_nil]
    exact hread
  · -- The point is among the digits.
    have hread := @read_numeral_parts other (digits.take dotplace.toNat) (digits.drop dotplace.toNat)
      rest _ _ (fun c hc => hdigits c (List.mem_of_mem_take hc))
      (fun c hc => hdigits c (List.mem_of_mem_drop hc))
      (by rw [List.take_append_drop]; exact List.ne_nil_of_length_pos hpos) hhead hexponent
      (Or.inr rfl) coefficient (by rw [List.take_append_drop]; exact hvalue)
    rw [List.length_drop, show leftdigits - dotplace - ((digits.length - dotplace.toNat : ℕ) : ℤ) =
      exponent by omega] at hread
    rw [List.append_assoc]
    exact hread

/-! ## Numbers of a fixed width -/

/-- The last `width` digits of a number. Shorter ones are filled with zeros on the left. -/
def fixed_width : ℕ → ℕ → List Char
  | 0, _ => []
  | width + 1, n => fixed_width width (n / 10) ++ [(n % 10).digitChar]

/-- A number of `width` digits of ASCII, and the text after it. -/
def read_fixed_width (width : ℕ) (text : List Char) : Option (ℕ × List Char) :=
  let digits := text.take width
  if digits.length = width ∧ digits.all Char.isDigit then
    some (Nat.ofDigitChars 10 digits 0, text.drop width)
  else none

/-- A number of fixed width has its width. -/
theorem fixed_width_length (width n : ℕ) : (fixed_width width n).length = width := by
  induction width generalizing n with
  | zero => rfl
  | succ width ih => rw [fixed_width, List.length_append, ih, List.length_singleton]

/-- Its characters are digits. The padding is made of zeros. -/
theorem fixed_width_digits (width n : ℕ) : ∀ c ∈ fixed_width width n, c.isDigit := by
  induction width generalizing n with
  | zero => exact fun c hc => absurd hc List.not_mem_nil
  | succ width ih =>
    intro c hc
    rcases List.mem_append.mp hc with hc | hc
    · exact ih _ c hc
    · rw [List.mem_singleton.mp hc, Nat.isDigit_digitChar]
      exact decide_eq_true (Nat.mod_lt n (by decide))

/-- They denote the number, if it has no more digits. -/
theorem fixed_width_value {width n : ℕ} (h : n < 10 ^ width) :
    Nat.ofDigitChars 10 (fixed_width width n) 0 = n := by
  induction width generalizing n with
  | zero =>
    rw [pow_zero, Nat.lt_one_iff] at h
    rw [h]
    rfl
  | succ width ih =>
    have hlt : n % 10 < 10 := Nat.mod_lt n (by decide)
    rw [pow_succ] at h
    rw [fixed_width, Nat.ofDigitChars_append, ih (by omega),
      Nat.ofDigitChars_cons_digitChar_of_lt_ten hlt, Nat.ofDigitChars_nil]
    omega

/-- A number of fixed width reads as itself. What follows it is left to the next reader. -/
theorem read_fixed_width_append {width n : ℕ} (h : n < 10 ^ width) (rest : List Char) :
    read_fixed_width width (fixed_width width n ++ rest) = some (n, rest) := by
  have htake : (fixed_width width n ++ rest).take width = fixed_width width n :=
    List.take_left' (fixed_width_length width n)
  have hdrop : (fixed_width width n ++ rest).drop width = rest :=
    List.drop_left' (fixed_width_length width n)
  have hall : (fixed_width width n).all Char.isDigit := List.all_eq_true.mpr (fixed_width_digits width n)
  unfold read_fixed_width
  rw [htake, hdrop, if_pos ⟨fixed_width_length width n, hall⟩, fixed_width_value h]

end Numerals
