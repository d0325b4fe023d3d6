import Mathlib.Data.List.Basic
import RestaurantOS.Core.DecimalText
import RestaurantOS.Core.IsoTime
import RestaurantOS.Events.Contracts

/-!
# Validators

The values that reach a contract model and the validators that the models are made of. A model
validates every one of its fields, in the order of their declaration, and collects the errors; a
`ValueError` of a validator is such an error, and any other exception ends the validation at once. So
fields are combined by an applicative functor, in which an exception outweighs an error and an error
a value, and a validator that runs after another one by `Validation.after`.

`Pydantic` is the library that the models are written with: its lax conversions and the texts that it
writes for identifiers. `Pydantic.Lawful` says of it that a value of the right type is accepted as it
is, that the text of an identifier reads as the identifier, and that an ISO 8601 text reads as its
time.
-/

namespace RestaurantOS.Events

/-! ## Values -/

/-- What a field can hold: a value of JSON, or one that a producer or a column supplies. A tuple is a
list, and a `Decimal` is within the limits of its implementation. -/
inductive Value
  | none
  | bool (value : Bool)
  | int (value : ℤ)
  | float (value : ℚ)
  | str (value : String)
  | list (items : List Value)
  | dict (entries : List (String × Value))
  | uuid (value : UUID)
  | datetime (value : Datetime)
  | decimal (value : {value : Decimal // value.representable = true})

/-- A dictionary with text keys. The order is that of the text, and a key occurs once. -/
abbrev Fields := List (String × Value)

/-- What the contract models use of their library. -/
structure Pydantic where
  /-- White space and digits outside ASCII. -/
  unicode : Unicode
  /-- The lax conversion to an `int`. -/
  int : Value → Option ℤ
  /-- The lax conversion to a `bool`. -/
  bool : Value → Option Bool
  /-- The lax conversion to a `UUID`. -/
  uuid : Value → Option UUID
  /-- The lax conversion to a `datetime`. -/
  datetime : Value → Option Datetime
  /-- Whether `Literal[1]` accepts a value that equals 1. -/
  literal_one : Value → Bool
  /-- The text of a `UUID` in JSON. -/
  str_uuid : UUID → String
  /-- What `uuid4` returns. -/
  uuid4 : UUID

/-- What the codec relies on: values of the right type are accepted, and texts read as what they stand
for. -/
structure Pydantic.Lawful (py : Pydantic) : Prop where
  /-- An `int` is one. -/
  int_int : ∀ value, py.int (.int value) = some value
  /-- A `bool` is one. -/
  bool_bool : ∀ value, py.bool (.bool value) = some value
  /-- A `UUID` is one. -/
  uuid_uuid : ∀ value, py.uuid (.uuid value) = some value
  /-- The text of a `UUID` reads as it. -/
  uuid_str : ∀ value, py.uuid (.str (py.str_uuid value)) = some value
  /-- A `datetime` is one. -/
  datetime_datetime : ∀ value, py.datetime (.datetime value) = some value
  /-- The ISO 8601 text of a `datetime` reads as it. -/
  datetime_iso : ∀ text value, IsoTime.read_iso text = some value →
    py.datetime (.str text) = some value
  /-- The number 1 is the literal. -/
  literal_one : py.literal_one (.int 1) = true

/-- A library with the documented behaviour. Its inhabitant is `Pydantic.strict`. -/
abbrev LawfulPydantic := {py : Pydantic // py.Lawful}

/-- The library without any conversion: values of the right type, numerals for identifiers and ISO 8601
texts for times. -/
def Pydantic.strict : LawfulPydantic where
  val :=
    { unicode := ⟨fun _ => none, fun _ => false⟩
      int := fun value => match value with | .int n => some n | _ => none
      bool := fun value => match value with | .bool b => some b | _ => none
      uuid := fun value => match value with
        | .uuid id => some id
        | .str text => Numerals.digits_value (fun _ => none) 0 text.toList
        | _ => none
      datetime := fun value => match value with
        | .datetime time => some time
        | .str text => IsoTime.read_iso text
        | _ => none
      literal_one := fun value => match value with | .int n => n = 1 | _ => false
      str_uuid := Nat.repr
      uuid4 := 0 }
  property :=
    { int_int := fun _ => rfl
      bool_bool := fun _ => rfl
      uuid_uuid := fun _ => rfl
      uuid_str := fun id => Numerals.digits_value_repr _ id
      datetime_datetime := fun _ => rfl
      datetime_iso := fun _ _ h => h
      literal_one := rfl }

/-! ## Outcomes -/

namespace Validation

variable {α β : Type}

/-- The outcome of two validations that both run. -/
protected def seq (f : Validation (α → β)) (x : Validation α) : Validation β :=
  match f, x with
  | .raised, _ => .raised
  | _, .raised => .raised
  | .valid f, .valid x => .valid (f x)
  | _, _ => .validation_error

/-- Validators are combined field by field: the first that raises ends the validation. -/
instance : Applicative Validation where
  pure := .valid
  seq f x := Validation.seq f (x ())

/-- A validator that runs on the value of another one. -/
def after (x : Validation α) (validator : α → Validation β) : Validation β :=
  match x with
  | .valid x => validator x
  | .validation_error => .validation_error
  | .raised => .raised

/-- A conversion that may fail. Pydantic reports its failure as a validation error. -/
def of_option : Option α → Validation α
  | some x => .valid x
  | none => .validation_error

/-- A check of a value. Pydantic reports a `ValueError` of it as a validation error. -/
def check (p : Prop) [Decidable p] (x : α) : Validation α :=
  if p then .valid x else .validation_error

/-- A pure value is valid. -/
@[simp] theorem pure_eq (x : α) : (pure x : Validation α) = .valid x := rfl

/-- A valid function of a valid value. -/
@[simp] theorem seq_valid (f : α → β) (x : α) :
    ((Validation.valid f : Validation (α → β)) <*> (.valid x : Validation α)) = .valid (f x) := rfl

/-- A function of a valid value. -/
@[simp] theorem map_valid (f : α → β) (x : α) :
    (f <$> (Validation.valid x : Validation α)) = .valid (f x) := rfl

/-- A conversion that succeeds. -/
@[simp] theorem of_option_some (x : α) : of_option (some x) = .valid x := rfl

/-- A validator after a valid value sees that value. -/
@[simp] theorem valid_after (x : α) (validator : α → Validation β) :
    (Validation.valid x).after validator = validator x := rfl

/-- An exception of either of two validations is one of both. -/
@[simp] theorem seq_eq_raised {f : Validation (α → β)} {x : Validation α} :
    (f <*> x) = .raised ↔ f = .raised ∨ x = .raised := by
  show Validation.seq f x = .raised ↔ _
  cases f <;> cases x <;> simp [Validation.seq]

/-- A changed value raises as the value does. -/
@[simp] theorem map_eq_raised {f : α → β} {x : Validation α} :
    (f <$> x) = .raised ↔ x = .raised := by
  show Validation.seq (.valid f) x = .raised ↔ _
  cases x <;> simp [Validation.seq]

/-- A validator that runs after another one raises, or the other one does. -/
@[simp] theorem after_eq_raised {x : Validation α} {validator : α → Validation β} :
    x.after validator = .raised ↔
      x = .raised ∨ ∃ value, x = .valid value ∧ validator value = .raised := by
  cases x <;> simp [after]

/-- A conversion does not raise. -/
@[simp] theorem of_option_eq_raised (x : Option α) : of_option x = .raised ↔ False := by
  cases x <;> simp [of_option]

/-- A check does not raise. -/
@[simp] theorem check_eq_raised (p : Prop) [Decidable p] (x : α) :
    check p x = .raised ↔ False := by
  unfold check
  split_ifs <;> simp

/-- Two validations give a value exactly if both do. -/
theorem seq_eq_valid {f : Validation (α → β)} {x : Validation α} {y : β} :
    (f <*> x) = .valid y ↔ ∃ g a, f = .valid g ∧ x = .valid a ∧ g a = y := by
  show Validation.seq f x = .valid y ↔ _
  cases f <;> cases x <;> simp [Validation.seq]

/-- A changed value comes from a value. -/
theorem map_eq_valid {f : α → β} {x : Validation α} {y : β} :
    (f <$> x) = .valid y ↔ ∃ a, x = .valid a ∧ f a = y := by
  show Validation.seq (.valid f) x = .valid y ↔ _
  cases x <;> simp [Validation.seq]

/-- A validator that runs after another one gives a value exactly if both do. -/
theorem after_eq_valid {x : Validation α} {validator : α → Validation β} {y : β} :
    x.after validator = .valid y ↔ ∃ a, x = .valid a ∧ validator a = .valid y := by
  cases x <;> simp [after]

/-- A conversion gives its value. -/
@[simp] theorem of_option_eq_valid {x : Option α} {a : α} : of_option x = .valid a ↔ x = some a := by
  cases x <;> simp [of_option]

/-- A check gives the value it checks. -/
@[simp] theorem check_eq_valid {p : Prop} [Decidable p] {x y : α} :
    check p x = .valid y ↔ p ∧ x = y := by
  unfold check
  split_ifs with h <;> simp [h]

end Validation

open Validation

/-! ## Fields -/

/-- A required field. A missing field is a validation error. -/
def field {α : Type} (fields : Fields) (name : String) (validator : Value → Validation α) :
    Validation α :=
  match fields.lookup name with
  | some value => validator value
  | none => .validation_error

/-- A field with a default, which is not validated. -/
def field_default {α : Type} (fields : Fields) (name : String) (default : α)
    (validator : Value → Validation α) : Validation α :=
  match fields.lookup name with
  | some value => validator value
  | none => .valid default

/-- `extra="forbid"`: every key is the name of a field. -/
def extra_forbid (fields : Fields) (names : List String) : Validation Unit :=
  check (∀ entry ∈ fields, entry.1 ∈ names) ()

/-- A field of an optional type. `None` is valid, and anything else goes to the validator. -/
def nullable {α : Type} (validator : Value → Validation α) : Value → Validation (Option α)
  | .none => .valid none
  | value => some <$> validator value

/-- `Literal`: one of some texts. Another text is a validation error. -/
def literal {α : Type} (options : List α) (text : α → String) : Value → Validation α
  | .str value => of_option (options.find? fun option => text option = value)
  | _ => .validation_error

/-- `str`. In strict mode nothing else is converted to a text. -/
def string : Value → Validation String
  | .str value => .valid value
  | _ => .validation_error

/-- `Field(min_length=..., max_length=...)`. Characters are counted, and not bytes. -/
def text_length (min_length max_length : ℕ) (value : String) : Validation String :=
  check (min_length ≤ value.length ∧ value.length ≤ max_length) value

namespace Pydantic

variable (py : Pydantic)

/-- `int = Field(gt=bound)`. The conversion comes before the comparison. -/
def int_gt (bound : ℤ) (value : Value) : Validation ℤ :=
  (of_option (py.int value)).after fun n => check (bound < n) n

/-- `int = Field(ge=bound)`. The conversion comes before the comparison. -/
def int_ge (bound : ℤ) (value : Value) : Validation ℤ :=
  (of_option (py.int value)).after fun n => check (bound ≤ n) n

/-- `tuple[int, ...]`. In JSON it is a list. -/
def int_tuple : Value → Validation (List ℤ)
  | .list items => of_option (items.mapM py.int)
  | _ => .validation_error

/-! ## Decimals -/

/-- `is_finite`, as the check of a parsed number. -/
def finite (value : Decimal) : Validation Decimal := check value.value.isSome value

/-- `_decimal_from_lossless_value`. An error of `Decimal` becomes a `ValueError`. -/
def decimal_from_lossless_value : Value → Validation Decimal
  | .decimal value => finite value.1
  | .str text => (of_option (Decimal.of_text py.unicode text)).after finite
  | _ => .validation_error

/-- `value.quantize(Decimal(10) ** -places)` of a number: rounded half to even; `none` is the
`InvalidOperation` for a coefficient of more than 28 digits. -/
def quantize (places : ℕ) (value : ℚ) : Option ℚ :=
  let coefficient := round_half_even (value * 10 ^ places)
  if coefficient.natAbs < 10 ^ 28 then some ((coefficient : ℚ) / 10 ^ places) else none

/-- The check that `_money_value` and `_quantity_value` make: bounds first, then decimal places.
Comparing a NaN raises, and an infinity is out of bounds. -/
def bounded_value (maximum : ℚ) (places : ℕ) (value : Decimal) : Validation Decimal :=
  match value, value.value with
  | _, some number =>
    if number < 0 ∨ maximum < number then .validation_error
    else
      match quantize places number with
      | none => .raised
      | some rounded => check (number = rounded) value
  | .nan, none => .raised
  | _, none => .validation_error

/-- `_money_value`. It is the bound of a money column. -/
def money_value (value : Decimal) : Validation Decimal := bounded_value (9999999999 / 100) 2 value

/-- `_quantity_value`. It is the bound of a quantity column. -/
def quantity_value (value : Decimal) : Validation Decimal := bounded_value (999999999999 / 1000) 3 value

/-- `Field(ge=0)` of a number. What is no number passes here. -/
def ge_zero (value : Decimal) : Validation Decimal := check (∀ number ∈ value.value, 0 ≤ number) value

/-- `MoneyString = Field(ge=0)`. The text is read without loss, then bounded. -/
def money_string (value : Value) : Validation Decimal :=
  ((py.decimal_from_lossless_value value).after money_value).after ge_zero

/-- `QuantityString = Field(ge=0)`. The text is read without loss, then bounded. -/
def quantity_string (value : Value) : Validation Decimal :=
  ((py.decimal_from_lossless_value value).after quantity_value).after ge_zero

/-! ## Times -/

/-- `value.astimezone(UTC)`, whose `OverflowError` is no `ValueError`. The instant may lie outside
the years of `datetime`. -/
def astimezone (value : Datetime) (offset : Timedelta) : Validation UtcDatetime :=
  match value.astimezone_utc offset with
  | none => .raised
  | some instant => .valid instant

/-- `_utc_timestamp`. A naive time is a validation error. -/
def utc_timestamp (value : Datetime) : Validation UtcDatetime :=
  match value.utcoffset with
  | none => .validation_error
  | some offset => astimezone value offset

/-- `_order_creation_timestamp`: a naive time is read as UTC. -/
def order_creation_timestamp (value : Datetime) : Validation UtcDatetime :=
  match value.utcoffset with
  | none => .valid value.replace_utc
  | some offset => astimezone value offset

/-- A field that `_utc_timestamp` normalizes. It is aware and becomes UTC. -/
def utc_time (value : Value) : Validation UtcDatetime :=
  (of_option (py.datetime value)).after utc_timestamp

/-- A field that `_order_creation_timestamp` normalizes. A naive time is taken as UTC. -/
def creation_time (value : Value) : Validation UtcDatetime :=
  (of_option (py.datetime value)).after order_creation_timestamp

end Pydantic

end RestaurantOS.Events
