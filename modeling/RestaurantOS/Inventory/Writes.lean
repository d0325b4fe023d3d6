import RestaurantOS.Inventory.Recording

/-!
# Writes to the rows of an ingredient

Whatever a command does to the inventory is a list of writes, each to the rows of one ingredient and
no two to the same (`Writes`). A write inserts an ingredient with its opening movement, or it rewrites
the rows of one, posts at most one movement and records the transition, or it adds a baseline episode
(`Change`). Later modules prove what a write preserves and never look at the service again.
-/

namespace RestaurantOS

open Fallible Events Inventory Tenancy

namespace Inventory

/-- What a write does to the balance and the movements: nothing, or one movement is posted. -/
inductive Posting (movements : List InventoryMovement) (balance : InventoryBalance) :
    Option InventoryMovement → List InventoryMovement → InventoryBalance → Prop
  | kept : Posting movements balance none movements balance
  | posted (movement : InventoryMovement)
      (hafter : movement.balance_after = balance.quantity + movement.quantity_delta)
      (hversion : movement.version_after = balance.version + 1)
      (hrange : 0 ≤ movement.balance_after ∧ movement.balance_after ≤ MAX_QUANTITY) :
    Posting movements balance (some movement) (movements ++ [movement])
      ⟨movement.balance_after, movement.version_after⟩

/-- What a write is for: a change of the stock, with the movement it posts, or a baseline episode. -/
inductive Purpose
  | stock (posting : Option InventoryMovement)
  | baseline

/-- The movement that a write posts. Marking a baseline posts none. -/
def Purpose.posting : Purpose → Option InventoryMovement
  | .stock posting => posting
  | .baseline => none

/-- What a write does to the rows of an ingredient. -/
inductive Change (organization_id : UUID) (restaurant_id : ℕ) (episode_id : UUID) :
    Option IngredientRecord → Purpose → IngredientRecord →
      List (EventEnvelope Payload) → Prop
  | created (item : Ingredient) (movement : InventoryMovement) (hrevision : item.state_revision = 1)
      (hafter : movement.balance_after = movement.quantity_delta)
      (hversion : movement.version_after = 1)
      (hrange : 0 ≤ movement.balance_after ∧ movement.balance_after ≤ MAX_QUANTITY)
      {record' : IngredientRecord} {events : List (EventEnvelope Payload)}
      (h : Recorded organization_id restaurant_id episode_id
        ⟨item, some ⟨movement.balance_after, movement.version_after⟩, [movement], []⟩
        ⟨movement.balance_after, movement.version_after⟩ none record' events) :
    Change organization_id restaurant_id episode_id none (.stock (some movement)) record' events
  | rewritten (record : IngredientRecord) (balance : InventoryBalance)
      (hbalance : record.balance = some balance) {posting : Option InventoryMovement}
      (record₁ : IngredientRecord) (balance₁ : InventoryBalance) (hid : record₁.id = record.id)
      (hrevision : record₁.item.state_revision = record.item.state_revision)
      (hepisodes : record₁.episodes = record.episodes)
      (hposting : Posting record.movements balance posting record₁.movements balance₁)
      {record' : IngredientRecord} {events : List (EventEnvelope Payload)}
      (h : Recorded organization_id restaurant_id episode_id record₁ balance₁
        (some (inventory_state_snapshot organization_id restaurant_id record.item balance)) record'
        events) :
    Change organization_id restaurant_id episode_id (some record) (.stock posting) record' events
  | baseline (record : IngredientRecord) (balance : InventoryBalance)
      (hbalance : record.balance = some balance) (hlow : record.is_low = true)
      (hnone : unresolved record.episodes = none) (opened_at : Timestamp) :
    Change organization_id restaurant_id episode_id (some record) .baseline
      { record with episodes := record.episodes ++
          [opening_facts (inventory_state_snapshot organization_id restaurant_id record.item balance)
            episode_id opened_at .maintenance_initialization none none true] } []

/-- A recorded transition keeps the key. It changes the state, the episodes and nothing that
identifies it. -/
theorem Recorded.id {organization_id : UUID} {restaurant_id : ℕ} {episode_id : UUID}
    {record record' : IngredientRecord} {balance : InventoryBalance}
    {before : Option InventoryStateSnapshot} {events : List (EventEnvelope Payload)}
    (h : Recorded organization_id restaurant_id episode_id record balance before record' events) :
    record'.id = record.id := by
  cases h with
  | unchanged => rfl
  | changed hchanged _ hrevision hitem =>
    unfold IngredientRecord.id
    rw [hitem]

/-- A write keeps the key of a record. The record keeps its place in the restaurant. -/
theorem Change.id {organization_id : UUID} {restaurant_id : ℕ} {episode_id : UUID}
    {record record' : IngredientRecord} {purpose : Purpose}
    {events : List (EventEnvelope Payload)}
    (h : Change organization_id restaurant_id episode_id (some record) purpose record' events) :
    record'.id = record.id := by
  cases h with
  | rewritten _ balance hbalance record₁ balance₁ hid hrevision hepisodes hposting h =>
    rw [h.id, hid]
  | baseline => rfl

/-- A recorded transition keeps the normalized name. -/
theorem Recorded.normalized_name {organization_id : UUID} {restaurant_id : ℕ} {episode_id : UUID}
    {record record' : IngredientRecord} {balance : InventoryBalance}
    {before : Option InventoryStateSnapshot} {events : List (EventEnvelope Payload)}
    (h : Recorded organization_id restaurant_id episode_id record balance before record' events) :
    record'.item.normalized_name = record.item.normalized_name := by
  cases h with
  | unchanged => rfl
  | changed hchanged _ hrevision hitem => rw [hitem]

/-- No ingredient of the restaurant but the one with the key has the normalized name. -/
def NameFree (db : Branch) (id : ℕ) (normalized_name : String) : Prop :=
  ∀ other ∈ db.ingredients, other.id ≠ id → other.item.normalized_name ≠ normalized_name

/-- A write to the branch: the rows of one ingredient are inserted or written, and events are
appended. The ingredient keeps its normalized name or takes one that no other has. -/
inductive Write (db : Branch) (id : ℕ) (purpose : Purpose) : Branch → Prop
  | insert (hfresh : db.next_ingredient_id ≤ id) {record' : IngredientRecord}
      {events : List (EventEnvelope Payload)} {next_uuid : UUID} (hid : record'.id = id)
      (hchange : Change db.organization_id db.restaurant_id db.next_uuid none purpose record' events)
      (hnext : db.next_uuid ≤ next_uuid)
      (hepisodes : record'.episodes = [] ∨ db.next_uuid < next_uuid)
      (hname : NameFree db id record'.item.normalized_name) :
    Write db id purpose { db with
      ingredients := db.ingredients ++ [record']
      next_ingredient_id := id + 1
      events := db.events ++ events
      next_uuid := next_uuid }
  | update {record : IngredientRecord}
      (hlookup : Keyed.lookup IngredientRecord.id id db.ingredients = some record)
      {record' : IngredientRecord} {events : List (EventEnvelope Payload)} {next_uuid : UUID}
      (hchange : Change db.organization_id db.restaurant_id db.next_uuid (some record) purpose record'
        events)
      (hnext : db.next_uuid ≤ next_uuid)
      (hepisodes : record'.episodes = record.episodes ∨ db.next_uuid < next_uuid)
      (hname : record'.item.normalized_name = record.item.normalized_name ∨
        NameFree db id record'.item.normalized_name) :
    Write db id purpose (db.write record' events next_uuid)

end Inventory

/-- The keys of the ingredients are positive, unique, and below the next one. -/
structure Branch.Keys (db : Branch) : Prop where
  /-- No two ingredients share a key. -/
  unique : Keyed.Unique IngredientRecord.id db.ingredients
  /-- The sequence has passed the keys, which are positive. -/
  below : ∀ record ∈ db.ingredients, 0 < record.id ∧ record.id < db.next_ingredient_id
  /-- The next key is positive. -/
  next : 0 < db.next_ingredient_id

/-- `uq_inventory_ingredient_name`: no two ingredients of the restaurant share a normalized name. -/
def Branch.NamesUnique (db : Branch) : Prop :=
  Keyed.Unique (fun record : IngredientRecord => record.item.normalized_name) db.ingredients

/-- What no write to an ingredient touches. Only the ingredients, the events and what is drawn may
differ. -/
structure Branch.Frame (db db' : Branch) : Prop where
  /-- The organization. -/
  organization_id : db'.organization_id = db.organization_id
  /-- The restaurant. -/
  restaurant_id : db'.restaurant_id = db.restaurant_id
  /-- The menus. -/
  menus : db'.menus = db.menus
  /-- The menu items. -/
  menu_items : db'.menu_items = db.menu_items
  /-- The recipes. -/
  recipe_components : db'.recipe_components = db.recipe_components
  /-- The orders. -/
  orders : db'.orders = db.orders
  /-- The submissions. -/
  submissions : db'.submissions = db.submissions
  /-- Whether the restaurant is initialized. -/
  initialized : db'.initialized = db.initialized
  /-- The key of the next order. -/
  next_order_id : db'.next_order_id = db.next_order_id
  /-- The key of the next menu item. -/
  next_menu_item_id : db'.next_menu_item_id = db.next_menu_item_id
  /-- The key of the next order item. -/
  next_order_item_id : db'.next_order_item_id = db.next_order_item_id
  /-- Identifiers are not used again. -/
  next_uuid : db.next_uuid ≤ db'.next_uuid

/-- Nothing touches what nothing touches. -/
theorem Branch.Frame.refl (db : Branch) : db.Frame db :=
  ⟨rfl, rfl, rfl, rfl, rfl, rfl, rfl, rfl, rfl, rfl, rfl, le_rfl⟩

/-- What neither of two changes touches, both together do not touch. -/
theorem Branch.Frame.trans {db₁ db₂ db₃ : Branch} (h₁ : db₁.Frame db₂) (h₂ : db₂.Frame db₃) :
    db₁.Frame db₃ :=
  ⟨h₂.1.trans h₁.1, h₂.2.trans h₁.2, h₂.3.trans h₁.3, h₂.4.trans h₁.4, h₂.5.trans h₁.5,
    h₂.6.trans h₁.6, h₂.7.trans h₁.7, h₂.8.trans h₁.8, h₂.9.trans h₁.9, h₂.10.trans h₁.10,
    h₂.11.trans h₁.11, h₁.12.trans h₂.12⟩

namespace Inventory

variable {db db' : Branch} {id : ℕ} {purpose : Purpose}

/-- A write touches nothing but the ingredients and the outbox. -/
theorem Write.frame (h : Write db id purpose db') : db.Frame db' := by
  cases h with
  | insert hfresh hid hchange hnext hepisodes =>
    exact ⟨rfl, rfl, rfl, rfl, rfl, rfl, rfl, rfl, rfl, rfl, rfl, hnext⟩
  | update hlookup hchange hnext hepisodes =>
    exact ⟨rfl, rfl, rfl, rfl, rfl, rfl, rfl, rfl, rfl, rfl, rfl, hnext⟩

/-- A write keeps the keys in order. The next key stays above all that are used. -/
theorem Write.keys (h : Write db id purpose db') (hkeys : db.Keys) : db'.Keys := by
  cases h with
  -- An inserted ingredient has a fresh key.
  | @insert hfresh record' events next_uuid hid hchange hnext hepisodes =>
    have hnew : ∀ r ∈ db.ingredients, r.id ≠ record'.id := by
      intro r hr
      have := (hkeys.below r hr).2
      omega
    refine ⟨hkeys.unique.append hnew, fun r hr => ?_, Nat.succ_pos _⟩
    have hpos := hkeys.next
    rcases List.mem_append.mp hr with hr | hr
    · have := hkeys.below r hr
      exact ⟨this.1, show r.id < id + 1 by omega⟩
    · rw [List.mem_singleton.mp hr, hid]
      exact ⟨by omega, Nat.lt_succ_self id⟩
  -- An updated one keeps its key.
  | @update record hlookup record' events next_uuid hchange hnext hepisodes =>
    refine ⟨hkeys.unique.put record', fun r hr => ?_, hkeys.next⟩
    rcases Keyed.mem_put hr with ⟨hr, -⟩ | rfl
    · exact hkeys.below r hr
    · rw [hchange.id]
      exact hkeys.below record (Keyed.lookup_mem hlookup)

/-- A write keeps the normalized names different. Only creation and renaming set one, and both have
checked that it is free. -/
theorem Write.names (h : Write db id purpose db') (hkeys : db.Keys) (hnames : db.NamesUnique) :
    db'.NamesUnique := by
  cases h with
  | @insert hfresh record' events next_uuid hid hchange hnext hepisodes hname =>
    refine Keyed.Unique.append hnames fun other hother => hname other hother ?_
    have hbelow := (hkeys.below other hother).2
    omega
  | @update record hlookup record' events next_uuid hchange hnext hepisodes hname =>
    have hid : record'.id = id := hchange.id.trans (Keyed.lookup_key hlookup)
    refine Keyed.unique_put_of_free hkeys.unique hnames fun other hother hne => ?_
    rw [hid] at hne
    rcases hname with hsame | hfree
    · -- The name is still that of the row before, which no other row has.
      rw [hsame]
      refine fun heq => hne ?_
      rw [hnames.eq_of_key hother (Keyed.lookup_mem hlookup) heq]
      exact Keyed.lookup_key hlookup
    · exact hfree other hother hne

/-- A write leaves the rows of every other ingredient as they are. -/
theorem Write.lookup_ne (h : Write db id purpose db') {id' : ℕ} (hne : id' ≠ id) :
    Keyed.lookup IngredientRecord.id id' db'.ingredients =
      Keyed.lookup IngredientRecord.id id' db.ingredients := by
  cases h with
  | @insert hfresh record' events next_uuid hid hchange hnext hepisodes =>
    rw [Keyed.lookup_append, if_neg (by rw [hid]; exact Ne.symm hne), Option.or_none]
  | @update record hlookup record' events next_uuid hchange hnext hepisodes =>
    refine Keyed.lookup_put_ne ?_ _
    rw [hchange.id, Keyed.lookup_key hlookup]
    exact hne

/-- A write changes the rows of its ingredient, and appends the events of the change. It is how all
later lemmas about writes get at the change, whether the record was there or not. -/
theorem Write.change (h : Write db id purpose db') (hkeys : db.Keys) :
    ∃ record' events, Keyed.lookup IngredientRecord.id id db'.ingredients = some record' ∧
      Change db.organization_id db.restaurant_id db.next_uuid
        (Keyed.lookup IngredientRecord.id id db.ingredients) purpose record' events ∧
      db'.events = db.events ++ events ∧
      (db.next_uuid < db'.next_uuid ∨ ∀ episode ∈ record'.episodes, ∃ record,
        Keyed.lookup IngredientRecord.id id db.ingredients = some record ∧
          episode ∈ record.episodes) := by
  cases h with
  | @insert hfresh record' events next_uuid hid hchange hnext hepisodes =>
    -- The key was fresh, so there was no record before.
    have hnone : Keyed.lookup IngredientRecord.id id db.ingredients = none := by
      rw [Keyed.lookup_eq_none]
      intro r hr
      have := (hkeys.below r hr).2
      omega
    refine ⟨record', events, ?_, hnone ▸ hchange, rfl, ?_⟩
    · rw [Keyed.lookup_append, hnone, if_pos hid, Option.none_or]
    · rcases hepisodes with hempty | hlt
      · exact Or.inr (by simp [hempty])
      · exact Or.inl hlt
  | @update record hlookup record' events next_uuid hchange hnext hepisodes =>
    have hid : record'.id = id := hchange.id.trans (Keyed.lookup_key hlookup)
    refine ⟨record', events, ?_, hlookup ▸ hchange, rfl, ?_⟩
    · subst hid
      exact Keyed.lookup_put_self hlookup
    · rcases hepisodes with hsame | hlt
      · exact Or.inr fun episode hmem => ⟨record, hlookup, hsame ▸ hmem⟩
      · exact Or.inl hlt

/-- Writes to different ingredients, one after the other. -/
inductive Writes (db : Branch) : List (ℕ × Purpose) → Branch → Prop
  | nil : Writes db [] db
  | snoc {ws : List (ℕ × Purpose)} {db₁ db₂ : Branch} {id : ℕ}
      {purpose : Purpose} (h : Writes db ws db₁) (hnew : id ∉ ws.map Prod.fst)
      (hwrite : Write db₁ id purpose db₂) : Writes db (ws ++ [(id, purpose)]) db₂

variable {ws : List (ℕ × Purpose)}

/-- A single write. -/
theorem Write.writes (h : Write db id purpose db') : Writes db [(id, purpose)] db' := by
  have hnone : Writes db [] db := .nil
  exact hnone.snoc (by simp) h

/-- What every write keeps, a list of writes keeps. -/
theorem Writes.invariant {P : Branch → Prop} (h : Writes db ws db') (hdb : P db)
    (hstep : ∀ db id purpose db', Write db id purpose db' → P db → P db') : P db' := by
  induction h with
  | nil => exact hdb
  | snoc h hnew hwrite ih => exact hstep _ _ _ _ hwrite ih

/-- Writes touch nothing but the ingredients and the outbox. -/
theorem Writes.frame (h : Writes db ws db') : db.Frame db' :=
  h.invariant (Branch.Frame.refl db) fun _ _ _ _ hwrite hframe => hframe.trans hwrite.frame

/-- Writes keep the keys in order. -/
theorem Writes.keys (h : Writes db ws db') (hkeys : db.Keys) : db'.Keys :=
  h.invariant hkeys fun _ _ _ _ hwrite hkeys => hwrite.keys hkeys

/-- Writes keep the normalized names different. -/
theorem Writes.names (h : Writes db ws db') (hkeys : db.Keys) (hnames : db.NamesUnique) :
    db'.NamesUnique := by
  have hstart : db.Keys ∧ db.NamesUnique := ⟨hkeys, hnames⟩
  have hboth : db'.Keys ∧ db'.NamesUnique :=
    h.invariant (P := fun db => db.Keys ∧ db.NamesUnique) hstart fun _ _ _ _ hwrite hboth =>
      ⟨hwrite.keys hboth.1, hwrite.names hboth.1 hboth.2⟩
  exact hboth.2

/-- Writes leave the rows of every other ingredient as they are. -/
theorem Writes.lookup_of_not_mem (h : Writes db ws db') {id : ℕ} (hid : id ∉ ws.map Prod.fst) :
    Keyed.lookup IngredientRecord.id id db'.ingredients =
      Keyed.lookup IngredientRecord.id id db.ingredients := by
  induction h with
  | nil => rfl
  | snoc h hnew hwrite ih =>
    rw [List.map_append, List.mem_append, not_or] at hid
    rw [hwrite.lookup_ne (by simpa using hid.2), ih hid.1]

/-- Writes change the rows of each of their ingredients once. -/
theorem Writes.change (h : Writes db ws db') (hkeys : db.Keys) {id : ℕ}
    {purpose : Purpose} (hmem : (id, purpose) ∈ ws) :
    ∃ record' events episode_id, db.next_uuid ≤ episode_id ∧
      Keyed.lookup IngredientRecord.id id db'.ingredients = some record' ∧
      Change db.organization_id db.restaurant_id episode_id
        (Keyed.lookup IngredientRecord.id id db.ingredients) purpose record' events := by
  induction h with
  | nil => simp at hmem
  | @snoc ws db₁ db₂ id' purpose' h hnew hwrite ih =>
    rcases List.mem_append.mp hmem with hmem | hmem
    · have hid : id ∈ ws.map Prod.fst := List.mem_map_of_mem hmem
      obtain ⟨record', events, episode_id, hfresh, hlookup, hchange⟩ := ih hmem
      refine ⟨record', events, episode_id, hfresh, ?_, hchange⟩
      rw [hwrite.lookup_ne fun heq => hnew (heq ▸ hid), hlookup]
    · obtain ⟨rfl, rfl⟩ := Prod.mk.inj (List.mem_singleton.mp hmem)
      obtain ⟨record', events, hlookup, hchange, -⟩ := hwrite.change (h.keys hkeys)
      rw [h.lookup_of_not_mem hnew, h.frame.organization_id, h.frame.restaurant_id] at hchange
      exact ⟨record', events, _, h.frame.next_uuid, hlookup, hchange⟩

end Inventory

end RestaurantOS
