import RestaurantOS.Core.Decimal

/-!
# Catalog and recipe rows

Menus, menu items, the recipes of menu items, and the commands on them.
-/

namespace RestaurantOS.Catalog

open Fallible

/-- A row of `menus`. The restaurant is that of the rows it is kept with. -/
structure Menu where
  /-- The primary key. -/
  menu_id : ℕ
  /-- The name. -/
  name : String
  /-- The description. -/
  description : Option String

/-- A row of `menu_items`. The menu is one of the same restaurant. -/
structure MenuItem where
  /-- The primary key. -/
  menu_item_id : ℕ
  /-- The menu. -/
  menu_id : ℕ
  /-- The name. -/
  name : String
  /-- The description. -/
  description : Option String
  /-- The price. -/
  price : ℚ
  /-- Whether the item can be ordered. -/
  is_available : Bool
  /-- Whether orders of the item consume stock. -/
  inventory_tracking : Bool

/-- A row of `recipe_components`: what one portion of a menu item needs. -/
structure RecipeComponent where
  /-- The menu item. -/
  menu_item_id : ℕ
  /-- The ingredient. -/
  ingredient_id : ℕ
  /-- The quantity for one portion. -/
  quantity : ℚ

/-- `MAX_MENU_PRICE`. The largest amount that the column holds. -/
def MAX_MENU_PRICE : ℚ := 9999999999 / 100

/-- `validate_menu_price`. The amount of a valid price, or the error of the source. -/
def validate_menu_price (price : Decimal) : Except Failure ℚ :=
  let failure : Failure :=
    .ValidationError "Price must be between 0 and 99999999.99 with at most two decimal places"
  match price.value with
  | none => throw failure
  | some number => do
    ensure (0 ≤ number ∧ number ≤ MAX_MENU_PRICE ∧ has_decimal_places 2 number) failure
    pure number

/-- `CreateMenu`. The fields of the command as the service receives it. -/
structure CreateMenu where
  /-- The name. -/
  name : String
  /-- The description. -/
  description : Option String

/-- `UpdateMenu`. A field that is `None` stays as it is. -/
structure UpdateMenu where
  /-- The new name. -/
  name : Option String
  /-- The new description. -/
  description : Option String

/-- `CreateMenuItem`. The fields of the command as the service receives it. -/
structure CreateMenuItem where
  /-- The name. -/
  name : String
  /-- The description. -/
  description : Option String
  /-- The price. -/
  price : Decimal
  /-- Whether the item can be ordered. -/
  is_available : Bool

/-- `UpdateMenuItem`. A field that is `None` stays as it is. -/
structure UpdateMenuItem where
  /-- The new name. -/
  name : Option String
  /-- The new description. -/
  description : Option String
  /-- The new price. -/
  price : Option Decimal
  /-- Whether the item can be ordered. -/
  is_available : Option Bool

/-- `RecipeComponentInput`. One ingredient of a portion. -/
structure RecipeComponentInput where
  /-- The ingredient. -/
  ingredient_id : ℕ
  /-- The quantity for one portion. -/
  quantity : Decimal

/-- `ReplaceRecipe`. The old components are deleted. -/
structure ReplaceRecipe where
  /-- Whether orders of the item consume stock. -/
  inventory_tracking : Bool
  /-- The new components. -/
  components : List RecipeComponentInput

end RestaurantOS.Catalog
