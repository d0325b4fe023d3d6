import RestaurantOS.Core.DecimalNormal
import RestaurantOS.Inventory.Idempotency
import RestaurantOS.Lib.JsonText

/-!
# The fingerprint of an inventory request

`fingerprint` hashes the text of a command without its key: an object with sorted keys in which a
quantity is the text of its normal form. A valid quantity has at most twelve digits, so the context of
the normal form rounds nothing but zeros away, and the text is the same exactly for the same number.
The other fields are read back from the text.
-/

namespace RestaurantOS.Inventory

open JsonText SelfDelimiting Fallible

/-! ## The text that is hashed -/

/-- The characters that `json.dumps` writes as they are, apart from its short escapes. -/
def ascii (c : Char) : Bool := decide (32 ≤ c.toNat ∧ c.toNat ≤ 126)

/-- A quantity in the payload. A finite number is no signaling NaN, so it has a normal form. -/
def quantity_text (value : Decimal) : String :=
  if value.is_zero then "0"
  else if value.is_finite then value.normalize.str
  else value.str

/-- `asdict(data)` without the key, and with the texts of the quantities. -/
def CreateIngredient.payload (data : CreateIngredient) : List (String × Value) :=
  [("name", .text data.name), ("unit", .text data.unit),
    ("reorder_threshold", .text (quantity_text data.reorder_threshold)),
    ("opening_quantity", .text (quantity_text data.opening_quantity))]

/-- `asdict(data)` without the key, and with the text of the quantity. -/
def ChangeStock.payload (data : ChangeStock) : List (String × Value) :=
  [("kind", .text data.kind), ("quantity", .text (quantity_text data.quantity)),
    ("reason", .text data.reason), ("expected_version", .number data.expected_version)]

/-- `json.dumps(payload, sort_keys=True)`, which `fingerprint` hashes. The keys of the object are
sorted, and other characters are escaped. -/
def fingerprint_text (payload : List (String × Value)) : List Char :=
  object ascii (sort_keys payload)

/-! ## Quantities -/

/-- A number with three decimal places is a whole number of thousandths. -/
theorem thousandths {number : ℚ} (hnonneg : 0 ≤ number) (hmax : number ≤ MAX_QUANTITY)
    (hplaces : has_decimal_places 3 number) : ∃ m : ℕ, m < 10 ^ 12 ∧ number = m / 1000 := by
  have hscaled : ((number * 10 ^ 3).num : ℚ) = number * 10 ^ 3 := by
    have hden : (number * 10 ^ 3).den = 1 := hplaces
    have hnum := Rat.num_div_den (number * 10 ^ 3)
    rw [hden, Nat.cast_one, div_one] at hnum
    exact hnum
  have hge : 0 ≤ (number * 10 ^ 3).num := Rat.num_nonneg.mpr (by positivity)
  obtain ⟨m, hm⟩ := Int.eq_ofNat_of_zero_le hge
  have hvalue : (m : ℚ) = number * 10 ^ 3 := by
    rw [← hscaled, hm]
    rfl
  have hnumber : number = m / 1000 := by
    rw [hvalue]
    ring
  refine ⟨m, ?_, hnumber⟩
  have hlt : (m : ℚ) < 10 ^ 12 := by
    unfold MAX_QUANTITY at hmax
    rw [hvalue]
    linarith
  exact_mod_cast hlt

/-- The text of a valid quantity is `0`, or the one with its stripped coefficient: zero is written
apart, and any other number is normalized before `str`, which takes away its trailing zeros. -/
theorem quantity_text_spec {value : Decimal} {positive : Bool} {number : ℚ}
    (h : quantity value positive = .ok number) :
    (number = 0 ∧ quantity_text value = "0") ∨
      ∃ coefficient exponent, Decimal.Stripped coefficient ∧
        (coefficient : ℚ) * 10 ^ exponent = number ∧
        quantity_text value = Decimal.str (.finite false coefficient exponent) := by
  have hvalue := quantity_value h
  obtain ⟨hnonneg, hmax, hplaces⟩ :
      0 ≤ number ∧ number ≤ MAX_QUANTITY ∧ has_decimal_places 3 number := by
    unfold quantity at h
    rw [hvalue] at h
    obtain ⟨_, hensure, -⟩ := bind_eq_ok.mp h
    obtain ⟨hnonneg, hmax, hplaces, -⟩ := ensure_eq_ok.mp hensure
    exact ⟨hnonneg, hmax, hplaces⟩
  -- A valid quantity has at most twelve digits and three decimal places, so it is not rounded.
  obtain ⟨m, hm, hnumber⟩ := thousandths hnonneg hmax hplaces
  cases value with
  | infinite => cases hvalue
  | nan => cases hvalue
  | finite negative coefficient exponent =>
    rw [Decimal.value_finite, Option.some.injEq] at hvalue
    -- The zero, and any positive quantity.
    rcases Nat.eq_zero_or_pos coefficient with rfl | hpos
    · left
      refine ⟨?_, rfl⟩
      rw [← hvalue]
      simp
    · right
      have hpower : 0 < (coefficient : ℚ) * 10 ^ exponent := by positivity
      -- Only a zero may be negative.
      have hsign : negative = false := by
        cases negative with
        | false => rfl
        | true =>
          rw [if_pos rfl] at hvalue
          linarith
      rw [hsign, if_neg (by decide)] at hvalue
      have hround := Decimal.round_exact hm (hvalue.trans hnumber)
      have hrounded : 0 < (Decimal.round coefficient exponent).1 := by
        refine Nat.pos_of_ne_zero fun hzero => ?_
        rw [hzero, Nat.cast_zero, zero_mul] at hround
        exact hpower.ne hround
      obtain ⟨hstripped, hkept⟩ :=
        Decimal.strip_zeros_spec hrounded (Decimal.round coefficient exponent).2
      refine ⟨_, _, hstripped, hkept.trans (hround.trans hvalue), ?_⟩
      have hnonzero : Decimal.is_zero (.finite negative coefficient exponent) = false :=
        decide_eq_false hpos.ne'
      rw [quantity_text, hnonzero, hsign]
      simp only [Decimal.is_finite, Decimal.normalize, if_neg hpos.ne']
      rfl

/-- Valid quantities have one text exactly if they are the same number. So the fingerprint does not
depend on how the client has written a quantity. -/
theorem quantity_text_eq_iff {value value' : Decimal} {positive positive' : Bool} {number number' : ℚ}
    (h : quantity value positive = .ok number) (h' : quantity value' positive' = .ok number') :
    quantity_text value = quantity_text value' ↔ number = number' := by
  have hzero : ∀ {coefficient : ℕ} {exponent : ℤ}, Decimal.Stripped coefficient →
      "0" ≠ Decimal.str (.finite false coefficient exponent) := fun hstripped heq => by
    have hread : Decimal.str (.finite false 0 0) = "0" := by decide +kernel
    exact hstripped.1.ne (Decimal.str_injective (hread.trans heq)).2.1
  have hvalue : ∀ {coefficient : ℕ} {exponent : ℤ}, Decimal.Stripped coefficient →
      (coefficient : ℚ) * 10 ^ exponent ≠ 0 := fun hstripped => by
    have := hstripped.1
    positivity
  -- A zero against a positive number, or two stripped forms of one number.
  rcases quantity_text_spec h with ⟨hnumber, htext⟩ | ⟨c, e, hstripped, hnumber, htext⟩
  · rcases quantity_text_spec h' with ⟨hnumber', htext'⟩ | ⟨c', e', hstripped', hnumber', htext'⟩
    · exact iff_of_true (htext.trans htext'.symm) (hnumber.trans hnumber'.symm)
    · rw [htext, htext', hnumber, ← hnumber']
      exact iff_of_false (hzero hstripped') (hvalue hstripped').symm
  · rcases quantity_text_spec h' with ⟨hnumber', htext'⟩ | ⟨c', e', hstripped', hnumber', htext'⟩
    · rw [htext, htext', hnumber', ← hnumber]
      exact iff_of_false (hzero hstripped).symm (hvalue hstripped)
    · rw [htext, htext', ← hnumber, ← hnumber']
      constructor
      · intro heq
        obtain ⟨-, rfl, rfl⟩ := Decimal.str_injective heq
        rfl
      · intro heq
        obtain ⟨rfl, rfl⟩ := hstripped.unique hstripped' heq
        rfl

/-- One and twelve hundred, in several forms. -/
example : quantity_text (.finite false 1000 (-3)) = "1" ∧ quantity_text (.finite false 1 0) = "1" ∧
    quantity_text (.finite true 0 5) = "0" ∧ quantity_text (.finite false 1200000 (-3)) = "1.2E+3" := by
  decide +kernel

/-! ## Commands -/

/-- The text of the creation of an ingredient. Its fields are in the order of their names, as
`sort_keys` says. -/
theorem create_text (data : CreateIngredient) :
    fingerprint_text data.payload =
      "\x7b\"name\": ".toList ++ (quoted ascii data.name ++
        (", \"opening_quantity\": ".toList ++ (quoted ascii (quantity_text data.opening_quantity) ++
        (", \"reorder_threshold\": ".toList ++ (quoted ascii (quantity_text data.reorder_threshold) ++
        (", \"unit\": ".toList ++ (quoted ascii data.unit ++ ['\x7d']))))))) := by
  have hsorted : sort_keys data.payload =
      [("name", .text data.name), ("opening_quantity", .text (quantity_text data.opening_quantity)),
        ("reorder_threshold", .text (quantity_text data.reorder_threshold)),
        ("unit", .text data.unit)] := by
    simp +decide [sort_keys, CreateIngredient.payload, List.insertionSort, List.orderedInsert]
  have hname : "\x7b\"name\": ".toList = '\x7b' :: (quoted ascii "name" ++ ": ".toList) := by
    decide +kernel
  have hopening : ", \"opening_quantity\": ".toList =
      ", ".toList ++ (quoted ascii "opening_quantity" ++ ": ".toList) := by decide +kernel
  have hthreshold : ", \"reorder_threshold\": ".toList =
      ", ".toList ++ (quoted ascii "reorder_threshold" ++ ": ".toList) := by decide +kernel
  have hunit : ", \"unit\": ".toList = ", ".toList ++ (quoted ascii "unit" ++ ": ".toList) := by
    decide +kernel
  rw [fingerprint_text, hsorted, hname, hopening, hthreshold, hunit]
  simp only [object, members, value, List.append_assoc, List.cons_append]

/-- The text of a stock change. Its fields are in the order of their names, and the version may be
`null`. -/
theorem change_text (data : ChangeStock) :
    fingerprint_text data.payload =
      "\x7b\"expected_version\": ".toList ++ ((optional_number data.expected_version ++ [',']) ++
        (" \"kind\": ".toList ++ (quoted ascii data.kind ++
        (", \"quantity\": ".toList ++ (quoted ascii (quantity_text data.quantity) ++
        (", \"reason\": ".toList ++ (quoted ascii data.reason ++ ['\x7d']))))))) := by
  have hsorted : sort_keys data.payload =
      [("expected_version", .number data.expected_version), ("kind", .text data.kind),
        ("quantity", .text (quantity_text data.quantity)), ("reason", .text data.reason)] := by
    simp +decide [sort_keys, ChangeStock.payload, List.insertionSort, List.orderedInsert]
  have hversion : "\x7b\"expected_version\": ".toList =
      '\x7b' :: (quoted ascii "expected_version" ++ ": ".toList) := by decide +kernel
  have hkind : " \"kind\": ".toList = ' ' :: (quoted ascii "kind" ++ ": ".toList) := by decide +kernel
  have hquantity : ", \"quantity\": ".toList =
      ", ".toList ++ (quoted ascii "quantity" ++ ": ".toList) := by decide +kernel
  have hreason : ", \"reason\": ".toList =
      ", ".toList ++ (quoted ascii "reason" ++ ": ".toList) := by decide +kernel
  have hcomma : ", ".toList = [',', ' '] := by decide +kernel
  rw [fingerprint_text, hsorted, hversion, hkind, hquantity, hreason]
  simp only [object, members, value, List.append_assoc, List.cons_append, hcomma, List.nil_append]

/-- The fields of a creation can be read from its text. -/
theorem create_selfDelimiting :
    SelfDelimiting fun p : String × String × String × String =>
      "\x7b\"name\": ".toList ++ (quoted ascii p.1 ++
        (", \"opening_quantity\": ".toList ++ (quoted ascii p.2.1 ++
        (", \"reorder_threshold\": ".toList ++ (quoted ascii p.2.2.1 ++
        (", \"unit\": ".toList ++ (quoted ascii p.2.2.2 ++ ['\x7d']))))))) := by
  have hquoted := quoted_selfDelimiting ascii
  have hunit := (hquoted.append_const ['\x7d']).const_append ", \"unit\": ".toList
  have hthreshold := (hquoted.append hunit).const_append ", \"reorder_threshold\": ".toList
  have hopening := (hquoted.append hthreshold).const_append ", \"opening_quantity\": ".toList
  exact (hquoted.append hopening).const_append "\x7b\"name\": ".toList

/-- The fields of a stock change can be read from its text. -/
theorem change_selfDelimiting :
    SelfDelimiting fun p : Option ℤ × String × String × String =>
      "\x7b\"expected_version\": ".toList ++ ((optional_number p.1 ++ [',']) ++
        (" \"kind\": ".toList ++ (quoted ascii p.2.1 ++
        (", \"quantity\": ".toList ++ (quoted ascii p.2.2.1 ++
        (", \"reason\": ".toList ++ (quoted ascii p.2.2.2 ++ ['\x7d']))))))) := by
  have hquoted := quoted_selfDelimiting ascii
  have hcomma := @optional_number_selfDelimiting ',' ⟨by decide, rfl⟩
  have hreason := (hquoted.append_const ['\x7d']).const_append ", \"reason\": ".toList
  have hquantity := (hquoted.append hreason).const_append ", \"quantity\": ".toList
  have hkind := (hquoted.append hquantity).const_append " \"kind\": ".toList
  exact (hcomma.append hkind).const_append "\x7b\"expected_version\": ".toList

/-- The text of a creation is not that of a stock change: they differ in the first key. -/
theorem create_text_ne_change_text (data : CreateIngredient) (data' : ChangeStock) :
    fingerprint_text data.payload ≠ fingerprint_text data'.payload := by
  have htake : (fingerprint_text data.payload).take 3 = ['\x7b', '"', 'n'] := by
    have hlength : 3 ≤ "\x7b\"name\": ".toList.length := by decide +kernel
    rw [create_text, List.take_append_of_le_length hlength]
    decide +kernel
  have htake' : (fingerprint_text data'.payload).take 3 = ['\x7b', '"', 'e'] := by
    have hlength : 3 ≤ "\x7b\"expected_version\": ".toList.length := by decide +kernel
    rw [change_text, List.take_append_of_le_length hlength]
    decide +kernel
  intro heq
  rw [heq, htake'] at htake
  exact absurd htake (by decide)

/-- The texts of two valid creations agree exactly if the creations do, but for the key, where
quantities count as numbers. -/
theorem create_text_eq_iff {text : Text} {data data' : CreateIngredient} (h : data.Valid text)
    (h' : data'.Valid text) :
    fingerprint_text data.payload = fingerprint_text data'.payload ↔ data.Same data' := by
  obtain ⟨opening, hopening⟩ := h.opening
  obtain ⟨opening', hopening'⟩ := h'.opening
  obtain ⟨threshold, hthreshold⟩ := h.threshold
  obtain ⟨threshold', hthreshold'⟩ := h'.threshold
  have hopening_iff := quantity_text_eq_iff hopening hopening'
  have hthreshold_iff := quantity_text_eq_iff hthreshold hthreshold'
  constructor
  · intro heq
    rw [create_text, create_text] at heq
    have hfields := @SelfDelimiting.injective _ _ _ create_selfDelimiting (_, _, _, _) (_, _, _, _) heq
    obtain ⟨hname, hfields⟩ := Prod.mk.inj hfields
    obtain ⟨hopening_text, hfields⟩ := Prod.mk.inj hfields
    obtain ⟨hthreshold_text, hunit⟩ := Prod.mk.inj hfields
    refine ⟨hname.symm, hunit.symm, ?_, ?_⟩
    · rw [quantity_value hthreshold, quantity_value hthreshold', hthreshold_iff.mp hthreshold_text]
    · rw [quantity_value hopening, quantity_value hopening', hopening_iff.mp hopening_text]
  · rintro ⟨hname, hunit, hthreshold_value, hopening_value⟩
    rw [quantity_value hthreshold, quantity_value hthreshold', Option.some.injEq] at hthreshold_value
    rw [quantity_value hopening, quantity_value hopening', Option.some.injEq] at hopening_value
    rw [create_text, create_text, hname, hunit, hopening_iff.mpr hopening_value.symm,
      hthreshold_iff.mpr hthreshold_value.symm]

/-- So do the texts of two valid stock changes. The kind, the quantity, the reason and the expected
version can be read back from it. -/
theorem change_text_eq_iff {text : Text} {data data' : ChangeStock} {kind kind' : MovementKind}
    (h : data.Valid text kind) (h' : data'.Valid text kind') :
    fingerprint_text data.payload = fingerprint_text data'.payload ↔ data.Same data' := by
  obtain ⟨amount, hamount⟩ := h.amount
  obtain ⟨amount', hamount'⟩ := h'.amount
  have hamount_iff := quantity_text_eq_iff hamount hamount'
  constructor
  · intro heq
    rw [change_text, change_text] at heq
    have hfields := @SelfDelimiting.injective _ _ _ change_selfDelimiting (_, _, _, _) (_, _, _, _) heq
    obtain ⟨hversion, hfields⟩ := Prod.mk.inj hfields
    obtain ⟨hkind, hfields⟩ := Prod.mk.inj hfields
    obtain ⟨hamount_text, hreason⟩ := Prod.mk.inj hfields
    refine ⟨hkind.symm, ?_, hreason.symm, hversion.symm⟩
    rw [quantity_value hamount, quantity_value hamount', hamount_iff.mp hamount_text]
  · rintro ⟨hkind, hamount_value, hreason, hversion⟩
    rw [quantity_value hamount, quantity_value hamount', Option.some.injEq] at hamount_value
    rw [change_text, change_text, hkind, hreason, hversion, hamount_iff.mpr hamount_value.symm]

/-- The text that is hashed for a valid command is the same for two commands of one kind exactly if they
agree in every field but the key, where quantities count as numbers, and never for a creation and a
stock change. -/
theorem fingerprint_canonical (text : Text) :
    (∀ data data' : {data : CreateIngredient // data.Valid text},
      fingerprint_text data.1.payload = fingerprint_text data'.1.payload ↔ data.1.Same data'.1) ∧
    (∀ data data' : {data : ChangeStock // ∃ kind, data.Valid text kind},
      fingerprint_text data.1.payload = fingerprint_text data'.1.payload ↔ data.1.Same data'.1) ∧
    ∀ (data : CreateIngredient) (data' : ChangeStock),
      fingerprint_text data.payload ≠ fingerprint_text data'.payload := by
  refine ⟨fun ⟨data, h⟩ ⟨data', h'⟩ => create_text_eq_iff h h', ?_, create_text_ne_change_text⟩
  rintro ⟨data, kind, h⟩ ⟨data', kind', h'⟩
  exact change_text_eq_iff h h'

end RestaurantOS.Inventory
