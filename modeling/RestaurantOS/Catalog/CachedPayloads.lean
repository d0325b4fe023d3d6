import RestaurantOS.Catalog.Changes
import RestaurantOS.Catalog.MenuCache
import RestaurantOS.Core.DecimalNormal
import RestaurantOS.Events.RoundTrip

/-!
# The JSON of the cached payloads

`store` writes the JSON of a payload model, and a lookup validates what it reads as one. A value in
Redis is a value of JSON here; that the text of a value reads as the value is left to the serializer.
The keys of cached rows are natural numbers, so a negative one is no key. A price is the text of its
number with two decimal places, as the column holds it.

What a payload model dumps is read as the payload, provided that the prices are prices of the column
(`decode_menu_list`, `decode_menu_item_list`), so a list survives the cache field by field.
-/

namespace RestaurantOS.Catalog.MenuCache

open Events Validation

/-! ## The library -/

/-- What the payload models use of their library beside what the contract models do. -/
structure PayloadLibrary extends Pydantic where
  /-- The lax conversion to a `float`; an infinity or a NaN is `some none`. -/
  float : Events.Value → Option (Option ℚ)
  /-- The conversion of a JSON value to a `Decimal`. -/
  decimal : Events.Value → Option Decimal

/-- What the cache relies on. It is what the standard library documents of numbers read from JSON.
-/
structure PayloadLibrary.Lawful (library : PayloadLibrary) : Prop extends
    library.toPydantic.Lawful where
  /-- A `float` is one. -/
  float_float : ∀ value, library.float (.float value) = some (some value)
  /-- A text is read by `Decimal`. -/
  decimal_str : ∀ text, library.decimal (.str text) = Decimal.of_text library.unicode text

/-- A library with the documented behaviour. Its inhabitant is at the end of the file. -/
abbrev LawfulPayloadLibrary := {library : PayloadLibrary // library.Lawful}

/-- The library without any conversion but that of a text to a `Decimal`. -/
def PayloadLibrary.strict : LawfulPayloadLibrary where
  val :=
    { Pydantic.strict.1 with
      float := fun value => match value with | .float x => some (some x) | _ => none
      decimal := fun value => match value with
        | .str text => Decimal.of_text Pydantic.strict.1.unicode text
        | _ => none }
  property :=
    { Pydantic.strict.2 with
      float_float := fun _ => rfl
      decimal_str := fun _ => rfl }

/-! ## Validation -/

section Validate

variable (library : PayloadLibrary)

/-- An `int` that is a key. Keys are natural numbers in the model, so a negative one is no key. -/
def key_value (value : Events.Value) : Validation ℕ :=
  of_option ((library.int value).bind Int.toNat?)

/-- `Annotated[Decimal, Field(ge=0, le=MAX_MENU_PRICE, max_digits=10, decimal_places=2)]`. A number
within these bounds and decimal places has no more than ten digits. -/
def price_value (value : Events.Value) : Validation ℚ :=
  (of_option ((library.decimal value).bind Decimal.value)).after fun number =>
    check (0 ≤ number ∧ number ≤ MAX_MENU_PRICE ∧ has_decimal_places 2 number) number

/-- `list[Model]`. One item that is not valid makes the list invalid. -/
def model_list {α : Type} (model : Fields → Validation α) : Events.Value → Validation (List α)
  | .list items => items.mapA fun item =>
    match item with
    | .dict fields => model fields
    | _ => .validation_error
  | _ => .validation_error

/-- `CachedMenu` of a dictionary. Missing and unknown fields are errors. -/
def cached_menu (fields : Fields) : Validation CachedMenu :=
  (fun menu_id restaurant_id name description _ => ⟨menu_id, restaurant_id, name, description⟩)
    <$> field fields "menu_id" (key_value library)
    <*> field fields "restaurant_id" (key_value library)
    <*> field fields "name" string
    <*> field fields "description" (nullable string)
    <*> extra_forbid fields ["menu_id", "restaurant_id", "name", "description"]

/-- `CachedMenuItem` of a dictionary. Missing and unknown fields are errors. -/
def cached_menu_item (fields : Fields) : Validation CachedMenuItem :=
  (fun menu_item_id menu_id restaurant_id name description price is_available _ =>
      ⟨menu_item_id, menu_id, restaurant_id, name, description, price, is_available⟩)
    <$> field fields "menu_item_id" (key_value library)
    <*> field fields "menu_id" (key_value library)
    <*> field fields "restaurant_id" (key_value library)
    <*> field fields "name" string
    <*> field fields "description" (nullable string)
    <*> field fields "price" (price_value library)
    <*> field fields "is_available" (fun value => of_option (library.bool value))
    <*> extra_forbid fields
        ["menu_item_id", "menu_id", "restaurant_id", "name", "description", "price", "is_available"]

/-- `MenuListPayload` of a dictionary. `None` as the time stands for a number that is not finite. -/
def menu_list_payload (fields : Fields) : Validation MenuListPayload :=
  (fun schema_version restaurant_id source_started_at menus _ =>
      ⟨schema_version, restaurant_id, source_started_at, menus⟩)
    <$> field fields "schema_version" (fun value => of_option (library.int value))
    <*> field fields "restaurant_id" (key_value library)
    <*> field fields "source_started_at" (fun value => of_option (library.float value))
    <*> field fields "menus" (model_list (cached_menu library))
    <*> extra_forbid fields ["schema_version", "restaurant_id", "source_started_at", "menus"]

/-- `MenuItemListPayload` of a dictionary. `None` as the time stands for a number that is not
finite. -/
def menu_item_list_payload (fields : Fields) : Validation MenuItemListPayload :=
  (fun schema_version menu_id restaurant_id source_started_at items _ =>
      ⟨schema_version, menu_id, restaurant_id, source_started_at, items⟩)
    <$> field fields "schema_version" (fun value => of_option (library.int value))
    <*> field fields "menu_id" (key_value library)
    <*> field fields "restaurant_id" (key_value library)
    <*> field fields "source_started_at" (fun value => of_option (library.float value))
    <*> field fields "items" (model_list (cached_menu_item library))
    <*> extra_forbid fields
        ["schema_version", "menu_id", "restaurant_id", "source_started_at", "items"]

/-- `model_validate_json` of both models. No dictionary is valid for both, since each model forbids a
field that the other requires. -/
def decode : Events.Value → Value
  | .dict fields =>
    match menu_list_payload library fields with
    | .valid payload => .menu_list payload
    | _ =>
      match menu_item_list_payload library fields with
      | .valid payload => .menu_item_list payload
      | _ => .undecodable
  | _ => .undecodable

end Validate

/-! ## Dumps -/

/-- A price as the column holds it. It has two decimal places. -/
def price_decimal (price : ℚ) : Decimal := .of_column 2 price

/-- An optional description. A missing one is `null`. -/
def dump_description (description : Option String) : Events.Value :=
  Contract.Payload.dump_optional .str description

/-- The JSON of a `CachedMenu`. The fields are in the order of the model. -/
def CachedMenu.dump (menu : CachedMenu) : Fields :=
  [("menu_id", .int menu.menu_id), ("restaurant_id", .int menu.restaurant_id),
    ("name", .str menu.name), ("description", dump_description menu.description)]

/-- The JSON of a `CachedMenuItem`. The price is written as a text. -/
def CachedMenuItem.dump (item : CachedMenuItem) : Fields :=
  [("menu_item_id", .int item.menu_item_id), ("menu_id", .int item.menu_id),
    ("restaurant_id", .int item.restaurant_id), ("name", .str item.name),
    ("description", dump_description item.description),
    ("price", .str (price_decimal item.price).str), ("is_available", .bool item.is_available)]

/-- The JSON of a `MenuListPayload` that `store` writes. -/
def dump_menu_list (restaurant_id : ℕ) (source_started_at : ℚ) (menus : List CachedMenu) :
    Events.Value :=
  .dict [("schema_version", .int 1), ("restaurant_id", .int restaurant_id),
    ("source_started_at", .float source_started_at),
    ("menus", .list (menus.map fun menu => .dict menu.dump))]

/-- The JSON of a `MenuItemListPayload` that `store_menu_items` writes. -/
def dump_menu_item_list (menu_id restaurant_id : ℕ) (source_started_at : ℚ)
    (items : List CachedMenuItem) : Events.Value :=
  .dict [("schema_version", .int 1), ("menu_id", .int menu_id),
    ("restaurant_id", .int restaurant_id), ("source_started_at", .float source_started_at),
    ("items", .list (items.map fun item => .dict item.dump))]

/-! ## Reading what was written -/

section RoundTrip

variable (library : LawfulPayloadLibrary)

/-- A key reads as itself. -/
@[simp] theorem key_value_int (n : ℕ) : key_value library.1 (.int n) = .valid n := by
  unfold key_value
  rw [library.2.int_int]
  rfl

/-- An optional text reads as itself. -/
@[simp] theorem nullable_dump_description (text : Option String) :
    nullable string (dump_description text) = .valid text := by
  have hdump : ∀ x : String, Events.Value.str x ≠ .none ∧ string (.str x) = .valid x :=
    fun x => ⟨by simp, rfl⟩
  exact Contract.nullable_dump hdump text

/-- A price of the column is the number of its decimal. -/
theorem price_decimal_value {price : ℚ} (h : price_valid price) :
    (price_decimal price).value = some price :=
  Decimal.of_column_value h.1 h.2.2

/-- A price of the column reads as itself. It has two decimal places and is in the range of the
column. -/
theorem price_value_str {price : ℚ} (h : price_valid price) :
    price_value library.1 (.str (price_decimal price).str) = .valid price := by
  obtain ⟨h0, hle, hplaces⟩ := h
  have hmax : price * 10 ^ 2 < 10 ^ 28 := by
    unfold MAX_MENU_PRICE at hle
    linarith
  have hread : library.1.decimal (.str (price_decimal price).str) = some (price_decimal price) := by
    rw [library.2.decimal_str]
    exact Decimal.of_text_str _ _ (Decimal.of_column_limits h0 (by norm_num) hmax hplaces)
  unfold price_value
  rw [hread, Option.bind_some, price_decimal_value ⟨h0, hle, hplaces⟩, of_option_some, valid_after]
  exact check_eq_valid.mpr ⟨⟨h0, hle, hplaces⟩, rfl⟩

/-- The rows of a list read as themselves, where each of them does. -/
theorem model_list_dump {α : Type} {model : Fields → Validation α} {dump : α → Fields} {rows : List α}
    (h : ∀ row ∈ rows, model (dump row) = .valid row) :
    model_list model (.list (rows.map fun row => .dict (dump row))) = .valid rows := by
  unfold model_list
  induction rows with
  | nil => rfl
  | cons row rows ih =>
    have hrest := ih fun row hrow => h row (List.mem_cons_of_mem _ hrow)
    have hrow := h row List.mem_cons_self
    dsimp only at hrest ⊢
    rw [List.map_cons, List.mapA, hrest]
    dsimp only
    rw [hrow]
    rfl

/-- A cached menu reads as itself. -/
theorem cached_menu_dump (menu : CachedMenu) : cached_menu library.1 menu.dump = .valid menu := by
  simp [cached_menu, CachedMenu.dump, field, List.lookup_cons, string, extra_forbid, check]

/-- A cached menu item reads as itself. -/
theorem cached_menu_item_dump {item : CachedMenuItem} (h : price_valid item.price) :
    cached_menu_item library.1 item.dump = .valid item := by
  have hprice := price_value_str library h
  have hbool := library.2.bool_bool item.is_available
  simp [cached_menu_item, CachedMenuItem.dump, field, List.lookup_cons, string, extra_forbid, check, hprice,
    hbool]

/-- A stored list of menus is read as it was written. -/
theorem decode_menu_list (restaurant_id : ℕ) (source_started_at : ℚ) (menus : List CachedMenu) :
    decode library.1 (dump_menu_list restaurant_id source_started_at menus) =
      .menu_list ⟨1, restaurant_id, some source_started_at, menus⟩ := by
  -- The members are read back one by one.
  have hmenus : model_list (cached_menu library.1)
      (.list (menus.map fun menu => .dict menu.dump)) = .valid menus :=
    model_list_dump fun menu _ => cached_menu_dump library menu
  have hint := library.2.int_int 1
  have hfloat := library.2.float_float source_started_at
  -- The fields are all there, in order, and no other one is.
  have hvalid : menu_list_payload library.1
      [("schema_version", .int 1), ("restaurant_id", .int restaurant_id),
        ("source_started_at", .float source_started_at),
        ("menus", .list (menus.map fun menu => .dict menu.dump))] =
      .valid ⟨1, restaurant_id, some source_started_at, menus⟩ := by
    simp [menu_list_payload, field, List.lookup_cons, extra_forbid, check, hint, hfloat, hmenus]
  unfold decode dump_menu_list
  dsimp only
  rw [hvalid]

/-- A stored list of menu items is read as it was written. -/
theorem decode_menu_item_list (menu_id restaurant_id : ℕ) (source_started_at : ℚ)
    {items : List CachedMenuItem} (h : ∀ item ∈ items, price_valid item.price) :
    decode library.1 (dump_menu_item_list menu_id restaurant_id source_started_at items) =
      .menu_item_list ⟨1, menu_id, restaurant_id, some source_started_at, items⟩ := by
  -- The members are read back one by one, which needs valid prices.
  have hitems : model_list (cached_menu_item library.1)
      (.list (items.map fun item => .dict item.dump)) = .valid items :=
    model_list_dump fun item hitem => cached_menu_item_dump library (h item hitem)
  have hint := library.2.int_int 1
  have hfloat := library.2.float_float source_started_at
  -- The payload of menus is tried first and refuses this value.
  have hother : menu_list_payload library.1
      [("schema_version", .int 1), ("menu_id", .int menu_id),
        ("restaurant_id", .int restaurant_id), ("source_started_at", .float source_started_at),
        ("items", .list (items.map fun item => .dict item.dump))] = .validation_error := by
    -- The field `menus` is missing.
    simp [menu_list_payload, field, List.lookup_cons, extra_forbid, check, hint, hfloat]
    rfl
  have hvalid : menu_item_list_payload library.1
      [("schema_version", .int 1), ("menu_id", .int menu_id),
        ("restaurant_id", .int restaurant_id), ("source_started_at", .float source_started_at),
        ("items", .list (items.map fun item => .dict item.dump))] =
      .valid ⟨1, menu_id, restaurant_id, some source_started_at, items⟩ := by
    simp [menu_item_list_payload, field, List.lookup_cons, extra_forbid, check, hint, hfloat, hitems]
  unfold decode dump_menu_item_list
  dsimp only
  rw [hother, hvalid]

end RoundTrip

end RestaurantOS.Catalog.MenuCache
