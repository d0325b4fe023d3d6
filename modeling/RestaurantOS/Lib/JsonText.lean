import Mathlib.Data.Char
import Mathlib.Data.List.Sort
import RestaurantOS.Lib.Numerals
import RestaurantOS.Lib.SelfDelimiting

/-!
# JSON texts

How serializers write strings and numbers. A character is written as it is, or as a short escape, or
by its code point: four hexadecimal digits, or two surrogates of four digits each. Which characters
are written as they are is the argument `plain`: `JSON.stringify` and `json.dumps` differ in it. A
written character can be read back with whatever follows it (`read_character_append`), so a quoted
string is self-delimiting, and so is a number with the symbol after it. A flat object has its members
between braces.
-/

namespace JsonText

open SelfDelimiting Numerals

/-! ## Hexadecimal digits -/

/-- The four hexadecimal digits of a number below `0x10000`. -/
def hex4 (n : ℕ) : List Char :=
  [(n / 4096 % 16).digitChar, (n / 256 % 16).digitChar, (n / 16 % 16).digitChar, (n % 16).digitChar]

/-- The value of a hexadecimal digit, as a serializer writes it. -/
def hex_value (c : Char) : ℕ :=
  if c.isDigit then c.toNat - '0'.toNat else c.toNat - 'a'.toNat + 10

/-- Four hexadecimal digits, and the text after them. -/
def read_hex4 : List Char → Option (ℕ × List Char)
  | a :: b :: c :: d :: rest =>
    some (hex_value a * 4096 + hex_value b * 256 + hex_value c * 16 + hex_value d, rest)
  | _ => none

/-- A hexadecimal digit has its value. -/
theorem hex_value_digitChar : ∀ d < 16, hex_value d.digitChar = d := by decide

/-- Four digits read as the number. -/
theorem read_hex4_append {n : ℕ} (h : n < 65536) (rest : List Char) :
    read_hex4 (hex4 n ++ rest) = some (n, rest) := by
  have hvalue : n / 4096 % 16 * 4096 + n / 256 % 16 * 256 + n / 16 % 16 * 16 + n % 16 = n := by omega
  show some (_, rest) = some (n, rest)
  rw [hex_value_digitChar _ (Nat.mod_lt _ (by decide)), hex_value_digitChar _ (Nat.mod_lt _ (by decide)),
    hex_value_digitChar _ (Nat.mod_lt _ (by decide)), hex_value_digitChar _ (Nat.mod_lt _ (by decide)),
    hvalue]

/-! ## Characters -/

/-- The letter of a short escape. It is `none` for a character that has no short escape. -/
def short_escape (c : Char) : Option Char :=
  if c = '"' then some '"'
  else if c = '\\' then some '\\'
  else if c = '\n' then some 'n'
  else if c = '\r' then some 'r'
  else if c = '\t' then some 't'
  else if c = Char.ofNat 12 then some 'f'
  else if c = Char.ofNat 8 then some 'b'
  else none

/-- A character by its code point. Beyond the first plane it is written as a surrogate pair. -/
def code_point_escape (c : Char) : List Char :=
  if c.toNat < 65536 then '\\' :: 'u' :: hex4 c.toNat
  else '\\' :: 'u' :: hex4 (55296 + (c.toNat - 65536) / 1024) ++
    '\\' :: 'u' :: hex4 (56320 + (c.toNat - 65536) % 1024)

/-- A character in a string. Short escapes come first, and `plain` decides what is not escaped at
all. -/
def character (plain : Char → Bool) (c : Char) : List Char :=
  match short_escape c with
  | some letter => ['\\', letter]
  | none => if plain c then [c] else code_point_escape c

/-- What a short escape stands for. It is the inverse of `short_escape` on its letters. -/
def read_short (letter : Char) : Char :=
  if letter = 'n' then '\n'
  else if letter = 'r' then '\r'
  else if letter = 't' then '\t'
  else if letter = 'f' then Char.ofNat 12
  else if letter = 'b' then Char.ofNat 8
  else letter

/-- The character of a code point, possibly of two surrogates, and the text after it. -/
def read_code_point (text : List Char) : Option (Char × List Char) :=
  match read_hex4 text with
  | some (n, rest) =>
    if 55296 ≤ n ∧ n < 56320 then
      (read_hex4 (rest.drop 2)).map fun (m, rest) =>
        (Char.ofNat (65536 + (n - 55296) * 1024 + (m - 56320)), rest)
    else some (Char.ofNat n, rest)
  | none => none

/-- A character of a string, and the text after it. -/
def read_character : List Char → Option (Char × List Char)
  | '\\' :: 'u' :: rest => read_code_point rest
  | '\\' :: letter :: rest => some (read_short letter, rest)
  | c :: rest => some (c, rest)
  | [] => none

/-- The code point of a character, outside the surrogates. -/
theorem toNat_range (c : Char) : c.toNat < 55296 ∨ (57343 < c.toNat ∧ c.toNat < 1114112) := c.valid

/-- A code point outside the surrogates reads as itself. -/
theorem read_code_point_basic {n : ℕ} (h : n < 65536) (hsurrogate : ¬(55296 ≤ n ∧ n < 56320))
    (rest : List Char) : read_code_point (hex4 n ++ rest) = some (Char.ofNat n, rest) := by
  rw [read_code_point, read_hex4_append h]
  dsimp only
  rw [if_neg hsurrogate]

/-- Two surrogates read as the code point that they share. -/
theorem read_code_point_pair {high low : ℕ} (hhigh : high < 1024) (hlow : low < 1024)
    (rest : List Char) :
    read_code_point (hex4 (55296 + high) ++ '\\' :: 'u' :: (hex4 (56320 + low) ++ rest)) =
      some (Char.ofNat (65536 + high * 1024 + low), rest) := by
  rw [read_code_point, read_hex4_append (by omega)]
  dsimp only
  rw [if_pos (by omega), List.drop_succ_cons, List.drop_succ_cons, List.drop_zero,
    read_hex4_append (by omega), Option.map_some]
  dsimp only
  rw [Nat.add_sub_cancel_left, Nat.add_sub_cancel_left]

/-- A character that is written by its code point reads as itself. -/
theorem read_code_point_escape (c : Char) (rest : List Char) :
    read_character (code_point_escape c ++ rest) = some (c, rest) := by
  have hrange := toNat_range c
  unfold code_point_escape
  split_ifs with hbasic
  · rw [List.cons_append, List.cons_append, read_character,
      read_code_point_basic hbasic (by omega), Char.ofNat_toNat]
  · have hpoint : 65536 + (c.toNat - 65536) / 1024 * 1024 + (c.toNat - 65536) % 1024 = c.toNat := by
      omega
    rw [List.append_assoc, List.cons_append, List.cons_append, List.cons_append, List.cons_append,
      read_character, read_code_point_pair (by omega) (by omega), hpoint, Char.ofNat_toNat]

/-- A short escape reads as its character. -/
theorem read_short_escape {c letter : Char} (h : short_escape c = some letter) (rest : List Char) :
    read_character ('\\' :: letter :: rest) = some (c, rest) := by
  unfold short_escape at h
  split_ifs at h with h1 h2 h3 h4 h5 h6 h7
  all_goals
    obtain rfl := Option.some.inj h
    subst_vars
    rfl

/-- A written character reads as itself, with whatever follows it. There are three ways in which it
is written: a short escape, as it is, or by its code point. -/
theorem read_character_append (plain : Char → Bool) (c : Char) (rest : List Char) :
    read_character (character plain c ++ rest) = some (c, rest) := by
  unfold character
  cases hshort : short_escape c with
  | some letter => exact read_short_escape hshort rest
  | none =>
    dsimp only
    split_ifs
    · -- A character that is written as it is begins no escape.
      have hc : c ≠ '\\' := by
        rintro rfl
        cases hshort
      show read_character (c :: rest) = some (c, rest)
      unfold read_character
      split
      · rename_i heq
        exact absurd (List.cons.inj heq).1 hc
      · rename_i heq
        exact absurd (List.cons.inj heq).1 hc
      · rename_i heq
        obtain ⟨rfl, rfl⟩ := List.cons.inj heq
        rfl
      · rename_i heq
        cases heq
    · exact read_code_point_escape c rest

/-- No written character begins with a quote. A quote that is written stands behind a backslash. -/
theorem character_head (plain : Char → Bool) (c : Char) :
    ∃ s word, character plain c = s :: word ∧ s ≠ '"' := by
  unfold character
  cases hshort : short_escape c with
  | some letter => exact ⟨'\\', _, rfl, by decide⟩
  | none =>
    dsimp only
    split_ifs
    · refine ⟨c, [], rfl, ?_⟩
      rintro rfl
      cases hshort
    · unfold code_point_escape
      split_ifs
      · exact ⟨'\\', _, rfl, by decide⟩
      · exact ⟨'\\', _, rfl, by decide⟩

/-! ## Strings and numbers -/

/-- A string in quotes. It is what `json.dumps` writes for a string. -/
def quoted (plain : Char → Bool) (s : String) : List Char :=
  '"' :: (s.toList.flatMap (character plain) ++ ['"'])

/-- A quoted string ends at its closing quote. -/
theorem quoted_selfDelimiting (plain : Char → Bool) : SelfDelimiting (quoted plain) :=
  ((of_read read_character (read_character_append plain)).closed
    (character_head plain)).comp (fun _ _ => String.toList_inj.mp) |>.const_append ['"']

/-- A number in decimal notation. It is what `json.dumps` writes for an integer. -/
def number (n : ℤ) : List Char :=
  if n < 0 then '-' :: Nat.toDigits 10 n.natAbs else Nat.toDigits 10 n.natAbs

/-- A number or `null`. It is what `json.dumps` writes for an optional integer. -/
def optional_number : Option ℤ → List Char
  | none => "null".toList
  | some n => number n

/-- A number begins with a sign exactly if it is negative. -/
theorem number_head (n : ℤ) : ∃ c word, number n = c :: word ∧ (c = '-' ↔ n < 0) ∧
    (c = '-' ∨ c.isDigit = true) := by
  unfold number
  split_ifs with h
  · exact ⟨'-', _, rfl, iff_of_true rfl h, Or.inl rfl⟩
  · cases hdigits : Nat.toDigits 10 n.natAbs with
    | nil =>
      have hpos := @Nat.length_toDigits_pos 10 n.natAbs
      rw [hdigits] at hpos
      exact absurd hpos (lt_irrefl 0)
    | cons c word =>
      have hc : c.isDigit = true := isDigit_of_mem_toDigits (hdigits ▸ List.mem_cons_self)
      refine ⟨c, word, rfl, iff_of_false ?_ h, Or.inr hc⟩
      rintro rfl
      cases hc

/-- Different numbers are written differently. Their digits are, and so is the sign. -/
theorem number_injective : Function.Injective number := by
  intro n n' h
  obtain ⟨c, word, hn, hsign, -⟩ := number_head n
  obtain ⟨c', word', hn', hsign', -⟩ := number_head n'
  have hc : c = c' := (List.cons.inj (hn.symm.trans (h.trans hn'))).1
  have hnegative : n < 0 ↔ n' < 0 := hsign.symm.trans ((by rw [hc]) : c = '-' ↔ c' = '-') |>.trans hsign'
  unfold number at h
  by_cases hlt : n < 0
  · rw [if_pos hlt, if_pos (hnegative.mp hlt)] at h
    have habs := toDigits_injective (List.cons.inj h).2
    have := hnegative.mp hlt
    omega
  · rw [if_neg hlt, if_neg fun h' => hlt (hnegative.mpr h')] at h
    have habs := toDigits_injective h
    have := mt hnegative.mpr hlt
    omega

/-- Different numbers are written differently, and differently from `null`. A number never begins
with the letter of `null`. -/
theorem optional_number_injective : Function.Injective optional_number := by
  have hnull : ∀ n, optional_number none ≠ number n := by
    intro n h
    obtain ⟨c, word, hn, -, hc⟩ := number_head n
    rw [hn] at h
    obtain rfl : 'n' = c := (List.cons.inj h).1
    revert hc
    decide
  intro n n' h
  cases n with
  | none =>
    cases n' with
    | none => rfl
    | some n' => exact absurd h (hnull n')
  | some n =>
    cases n' with
    | none => exact absurd h.symm (hnull n)
    | some n' => rw [number_injective h]

/-- The symbols of a number are digits and a sign. -/
theorem number_mem {n : ℤ} {c : Char} (h : c ∈ number n) : c = '-' ∨ c.isDigit = true := by
  unfold number at h
  split_ifs at h
  · rcases List.mem_cons.mp h with rfl | h
    · exact Or.inl rfl
    · exact Or.inr (isDigit_of_mem_toDigits h)
  · exact Or.inr (isDigit_of_mem_toDigits h)

/-- A number or `null` ends at a symbol that is none of its own. -/
theorem optional_number_selfDelimiting {terminator : Char}
    (h : terminator ∉ "-null".toList ∧ terminator.isDigit = false) :
    SelfDelimiting fun n => optional_number n ++ [terminator] := by
  refine terminated optional_number_injective fun n hmem => ?_
  cases n with
  | none => exact h.1 (List.mem_cons_of_mem '-' hmem)
  | some n =>
    rcases number_mem hmem with rfl | hdigit
    · exact h.1 List.mem_cons_self
    · rw [hdigit] at h
      cases h.2

/-! ## Flat objects -/

/-- A value of a flat object. Nested values do not occur in a flat object. -/
inductive Value
  | text (s : String)
  | number (n : Option ℤ)

/-- A value, with some characters as they are. -/
def value (plain : Char → Bool) : Value → List Char
  | .text s => quoted plain s
  | .number n => optional_number n

/-- The members of an object, with commas between them. -/
def members (plain : Char → Bool) : List (String × Value) → List Char
  | [] => []
  | [(key, v)] => quoted plain key ++ (": ".toList ++ value plain v)
  | (key, v) :: rest =>
    quoted plain key ++ (": ".toList ++ (value plain v ++ (", ".toList ++ members plain rest)))

/-- An object, as `json.dumps` writes it. The members are separated by a comma and a blank. -/
def object (plain : Char → Bool) (payload : List (String × Value)) : List Char :=
  '\x7b' :: (members plain payload ++ ['\x7d'])

/-- The members in the order of their keys. -/
def sort_keys (payload : List (String × Value)) : List (String × Value) :=
  payload.insertionSort fun a b => a.1 ≤ b.1

end JsonText
