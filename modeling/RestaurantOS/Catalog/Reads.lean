import RestaurantOS.Catalog.CachedPayloads
import RestaurantOS.Recipes.Availability

/-!
# Catalog reads through the cache

`list_menus` and `list_menu_items` of any number of requests in any number of processes, with the
commands that write rows and the Redis server that all of them share. A request is suspended wherever
it waits for the database or for Redis, so its state is the point it has reached, and each of its
statements reads the rows that are committed then. A command to Redis is sent, and takes effect later,
or never; a value in Redis may be evicted at any time. The wall clocks are synchronised; a monotonic
clock is read where the source reads it, and may show anything.

Whether a lookup may use Redis is up to the circuit of its process. A lookup that may not, one that
fails and one of a service without a cache go on alike: the rows are read, and not stored.

`uncached` is what a request returns without a cache.
-/

namespace RestaurantOS.Catalog.Reads

open Fallible MenuCache Recipes Tenancy

/-! ## Statements and responses -/

/-- `MenuItemResponse`. The cached item with the availability that its recipe gives it. -/
structure MenuItemResponse where
  /-- The item. -/
  menu_item_id : ℕ
  /-- Its menu. -/
  menu_id : ℕ
  /-- The restaurant of the menu. -/
  restaurant_id : ℕ
  /-- The name. -/
  name : String
  /-- The description. -/
  description : Option String
  /-- The price. -/
  price : ℚ
  /-- Whether the item can be ordered. -/
  is_available : Bool
  /-- Whether orders of the item consume stock. -/
  inventory_tracking : Bool
  /-- Whether the stock does not suffice for one portion. -/
  out_of_stock : Bool
  /-- For how many portions it suffices. -/
  available_portions : Option ℤ

/-- A menu with the fields of `MenuResponse`, which are those that are cached. -/
def menu_response (db : Branch) (menu : Menu) : CachedMenu :=
  ⟨menu.menu_id, db.restaurant_id, menu.name, menu.description⟩

/-- `list_menus_for_restaurant`. Who may not read the restaurant gets no menus from this query. -/
def list_menus_for_restaurant (db : Branch) (context : AccessContext) : List CachedMenu :=
  if context.restaurant_scope db.organization_id db.restaurant_id then
    db.menus.map (menu_response db)
  else []

/-- `list_menu_items_for_menu`. The menu of an item is one of its restaurant. -/
def list_menu_items_for_menu (db : Branch) (context : AccessContext) (menu_id : ℕ) : List MenuItem :=
  if context.restaurant_scope db.organization_id db.restaurant_id then
    db.menu_items.filter fun item => item.menu_id = menu_id
  else []

/-- An item with the attributes that are read live. -/
def attached (item : MenuItem) (status : MenuItemAvailability) : MenuItemResponse :=
  { menu_item_id := item.menu_item_id, menu_id := item.menu_id,
    restaurant_id := status.restaurant_id, name := item.name, description := item.description,
    price := item.price, is_available := item.is_available,
    inventory_tracking := status.inventory_tracking, out_of_stock := status.out_of_stock,
    available_portions := status.available_portions }

/-- `_attach_menu_item_availability`; `none` is an item without a status. -/
def attach_menu_item_availability (db : Branch) (menu_items : List MenuItem) (expected_menu_id : ℕ) :
    Option (List MenuItemResponse) :=
  let availability := for_menu_items db menu_items (some expected_menu_id)
  menu_items.mapM fun item => (availability.lookup item.menu_item_id).map (attached item)

/-- `CachedMenuItem.model_validate` of an item that has been attached to. -/
def MenuItemResponse.cached (item : MenuItemResponse) : CachedMenuItem :=
  ⟨item.menu_item_id, item.menu_id, item.restaurant_id, item.name, item.description, item.price,
    item.is_available⟩

/-- The `MenuItem` that is made of a cached item. Its tracking is unset, and nothing reads it before
it is attached. -/
def cached_model (item : CachedMenuItem) : MenuItem :=
  ⟨item.menu_item_id, item.menu_id, item.name, item.description, item.price, item.is_available, false⟩

/-- What the two requests return. The first is never `items`, and the second never `menus`. -/
inductive Listing
  | menus (menus : List CachedMenu)
  | items (items : List MenuItemResponse)

/-- A request for a list. The menu of a `list_menu_items` is looked for in a restaurant. -/
inductive Query
  | list_menus (context : AccessContext) (restaurant_id : ℕ)
  | list_menu_items (context : AccessContext) (menu_id restaurant_id : ℕ)

/-- The restaurant. It decides on which rows the request runs. -/
def Query.restaurant_id : Query → ℕ
  | .list_menus _ restaurant_id | .list_menu_items _ _ restaurant_id => restaurant_id

/-- The caller. It decides what the request may read. -/
def Query.context : Query → AccessContext
  | .list_menus context _ | .list_menu_items context _ _ => context

/-- The checks of a request, which precede all use of the cache. -/
def authorize (rows : ℕ → Branch) : Query → Except Failure Unit
  | .list_menus context restaurant_id => do
    (rows restaurant_id).restaurant context
    context.require .menu_read
  | .list_menu_items context menu_id restaurant_id => do
    let _ ← get_menu_by_id (rows restaurant_id) context menu_id
    context.require .menu_read

/-- The statements of a request, once it is authorized. -/
def source (rows : ℕ → Branch) : Query → Except Failure Listing
  | .list_menus context restaurant_id =>
    pure (.menus (list_menus_for_restaurant (rows restaurant_id) context))
  | .list_menu_items context menu_id restaurant_id =>
    let db := rows restaurant_id
    match attach_menu_item_availability db (list_menu_items_for_menu db context menu_id) menu_id with
    | some items => pure (.items items)
    | none => throw (.NotFoundError "Menu item not found")

/-- What a request returns without a cache, if no row changes meanwhile. -/
def uncached (rows : ℕ → Branch) (query : Query) : Except Failure Listing := do
  authorize rows query
  source rows query

/-! ## Requests -/

/-- `source_started_at` and `source_started_monotonic`, and whether the list may be stored. -/
structure Source where
  /-- Redis has answered the lookup. -/
  redis_available : Bool
  /-- The wall clock. -/
  source_started_at : ℚ
  /-- The monotonic clock. -/
  source_started_monotonic : ℚ

/-- The point that a request has reached. Redis and other transactions may act between any two of
them. -/
inductive Phase
  /-- It is authorized, and its lookup is in flight. -/
  | looking_up
  /-- Redis has answered; the answer is not yet validated. -/
  | answered (raw : Option Events.Value)
  /-- The lookup has accepted a list of items, whose availability is to be read. -/
  | attaching (items : List CachedMenuItem)
  /-- There is nothing to return from the cache. -/
  | missed (redis_available : Bool)
  /-- The clocks are read; the rows are to be read. -/
  | reading (source : Source)
  /-- The items are read; their availability is to be read. -/
  | attaching_source (source : Source) (items : List MenuItem)
  /-- The list is complete, and is to be stored. -/
  | storing (source : Source) (listing : Listing)
  | ended (result : Except Failure Listing)

/-- A request and the point it has reached. -/
structure Read where
  /-- The request. -/
  query : Query
  /-- The point. -/
  phase : Phase

/-- The request is over. It has returned or failed, and does nothing more. -/
def Phase.is_ended : Phase → Bool
  | .ended _ => true
  | _ => false

/-! ## Redis -/

/-- A key with its value. It is there until it expires, is deleted or is evicted. -/
structure Entry where
  /-- The key. -/
  key : String
  /-- The value. -/
  value : Events.Value
  /-- When it expires. -/
  expires_at : ℚ

/-- A command that has been sent and has not taken effect. -/
inductive RedisCommand
  | SET (key : String) (value : Events.Value) (px : ℤ)
  | DEL (keys : List String)

/-- What the reads and the commands use that is not theirs. -/
structure Services where
  /-- The library functions of the commands. -/
  lib : Library
  /-- The library of the payload models. -/
  payloads : LawfulPayloadLibrary
  /-- `redis.namespace("catalog", 1)`. -/
  catalog_namespace : String

namespace Services

variable (services : Services)

/-- `CatalogMenuCache.key`. It is the same for all callers of the restaurant. -/
def key (organization_id : UUID) (restaurant_id : ℕ) : String :=
  services.catalog_namespace ++ "org:" ++ services.payloads.1.str_uuid organization_id ++
    ":restaurant:" ++ toString restaurant_id ++ ":menus"

/-- `CatalogMenuCache.menu_items_key`. It is the same for all callers of the organization. -/
def menu_items_key (organization_id : UUID) (menu_id : ℕ) : String :=
  services.catalog_namespace ++ "org:" ++ services.payloads.1.str_uuid organization_id ++
    ":menu:" ++ toString menu_id ++ ":items"

/-- The key that a request looks up and stores under. -/
def cache_key : Query → String
  | .list_menus context restaurant_id => services.key context.organization_id restaurant_id
  | .list_menu_items context menu_id _ => services.menu_items_key context.organization_id menu_id

/-- The keys that a command on a restaurant invalidates once it has committed: `_invalidate_menu_list`,
`_invalidate_menu_items` and `_invalidate_deleted_menu`. -/
def invalidated_keys (restaurant_id : ℕ) (db : Branch) : Command → List String
  | .create_menu context _ | .update_menu context _ _ =>
    [services.key context.organization_id restaurant_id]
  | .delete_menu context menu_id =>
    [services.key context.organization_id restaurant_id,
      services.menu_items_key context.organization_id menu_id]
  | .create_menu_item context menu_id _ => [services.menu_items_key context.organization_id menu_id]
  | .update_menu_item context menu_item_id _ | .delete_menu_item context menu_item_id =>
    match Keyed.lookup MenuItem.menu_item_id menu_item_id db.menu_items with
    | some item => [services.menu_items_key context.organization_id item.menu_id]
    | none => []
  | _ => []

/-- `CatalogMenuCache.invalidate`. Without a key no command is sent. -/
def invalidate : List String → List RedisCommand
  | [] => []
  | keys => [.DEL keys]

/-- The JSON that `store` and `store_menu_items` write of a list. -/
def payload (query : Query) (source_started_at : ℚ) (listing : Listing) : Events.Value :=
  match query, listing with
  | .list_menus _ restaurant_id, .menus menus =>
    dump_menu_list restaurant_id source_started_at menus
  | .list_menu_items _ menu_id restaurant_id, .items items =>
    dump_menu_item_list menu_id restaurant_id source_started_at (items.map MenuItemResponse.cached)
  | _, _ => .none

/-- The command of `store` and `store_menu_items`, unless the list is too old. -/
def store (query : Query) (source : Source) (monotonic : ℚ) (listing : Listing) : List RedisCommand :=
  let remaining := remaining_ms monotonic source.source_started_monotonic
  if source.redis_available ∧ 0 < remaining then
    [.SET (services.cache_key query) (payload query source.source_started_at listing) remaining]
  else []

/-- A request goes on, at some time of the two clocks: its next phase, and what it sends to Redis. -/
def advance (now monotonic : ℚ) (rows : ℕ → Branch) (query : Query) :
    Phase → Phase × List RedisCommand
  | .answered raw =>
    match query with
    | .list_menus _ restaurant_id =>
      match raw.bind fun raw => valid_payload now (decode services.payloads.1 raw) restaurant_id with
      | some menus => (.ended (.ok (.menus menus)), [])
      | none => (.missed true, [])
    | .list_menu_items _ menu_id restaurant_id =>
      match raw.bind fun raw =>
        valid_item_payload now (decode services.payloads.1 raw) menu_id restaurant_id with
      | some items => (.attaching items, [])
      | none => (.missed true, [])
  | .attaching items =>
    match query with
    | .list_menu_items _ menu_id restaurant_id =>
      match attach_menu_item_availability (rows restaurant_id) (items.map cached_model) menu_id with
      | some items => (.ended (.ok (.items items)), [])
      | none => (.missed true, [])
    | .list_menus .. => (.attaching items, [])
  | .missed redis_available => (.reading ⟨redis_available, now, monotonic⟩, [])
  | .reading source =>
    match query with
    | .list_menus context restaurant_id =>
      (.storing source (.menus (list_menus_for_restaurant (rows restaurant_id) context)), [])
    | .list_menu_items context menu_id restaurant_id =>
      (.attaching_source source (list_menu_items_for_menu (rows restaurant_id) context menu_id), [])
  | .attaching_source source items =>
    match query with
    | .list_menu_items _ menu_id restaurant_id =>
      match attach_menu_item_availability (rows restaurant_id) items menu_id with
      | some items => (.storing source (.items items), [])
      | none => (.ended (.error (.NotFoundError "Menu item not found")), [])
    | .list_menus .. => (.attaching_source source items, [])
  | .storing source listing =>
    (.ended (.ok listing), services.store query source monotonic listing)
  | phase => (phase, [])

end Services

/-! ## The system -/

/-- The rows, the requests and Redis. Commands to Redis take effect some time after they have been
sent. -/
structure World where
  /-- The wall clock. -/
  now : ℚ
  /-- The committed rows of every restaurant. -/
  rows : ℕ → Branch
  /-- What Redis holds. -/
  redis : List Entry
  /-- The commands to Redis in flight. -/
  pending : List RedisCommand
  /-- The requests so far. -/
  reads : List Read

/-- How a lookup ends. In the second case nothing is known about the key. -/
inductive Reply
  /-- Redis answers. -/
  | answered
  /-- Redis is bypassed, or fails. -/
  | unavailable

/-- What happens next. Commits, requests and Redis interleave as they like. -/
inductive Act
  /-- Time passes. -/
  | tick (later : ℚ)
  /-- A command commits, and sends its invalidation. -/
  | commit (request : Request) (draw : Draw)
  /-- A request begins. -/
  | start (query : Query)
  /-- A lookup reads its key, or does not. -/
  | reply (i : ℕ) (reply : Reply)
  /-- A request goes on. -/
  | proceed (i : ℕ) (monotonic : ℚ)
  /-- A command takes effect in Redis. -/
  | deliver (j : ℕ)
  /-- A command fails, is lost, or is never sent. -/
  | lose (j : ℕ)
  /-- Redis evicts a key. -/
  | evict (key : String)

namespace World

variable (services : Services) (w : World)

/-- The start: nothing is cached. No request is going on and nothing is on its way to Redis. -/
def initial (rows : ℕ → Branch) (now : ℚ) : World := ⟨now, rows, [], [], []⟩

/-- `GET`. An expired entry is not read. -/
def get (key : String) : Option Events.Value :=
  (w.redis.find? fun entry => entry.key = key ∧ w.now < entry.expires_at).map Entry.value

/-- Keys are removed. Keys that are not there are ignored. -/
def delete (keys : List String) : World :=
  { w with redis := w.redis.filter fun entry => entry.key ∉ keys }

/-- A command takes effect. A `SET` replaces the entry and its expiry. -/
def apply : RedisCommand → World
  | .SET key value px =>
    { w with redis := ⟨key, value, w.now + px / 1000⟩ :: (w.delete [key]).redis }
  | .DEL keys => w.delete keys

/-- A request moves on. The rows and Redis stay. -/
def move (i : ℕ) (query : Query) (phase : Phase) : World :=
  { w with reads := w.reads.set i ⟨query, phase⟩ }

/-- Commands are sent. They may take effect later, or get lost. -/
def send (commands : List RedisCommand) : World := { w with pending := w.pending ++ commands }

/-- A command is executed on the rows of its restaurant, and committed if it returns. -/
def commit (request : Request) (draw : Draw) : World :=
  let db := w.rows request.restaurant_id
  match exec services.lib request.command draw db with
  | .ok (db', _) =>
    { w with rows := Function.update w.rows request.restaurant_id db' }.send
      (Services.invalidate (services.invalidated_keys request.restaurant_id db request.command))
  | .error _ => w

/-- A request begins. It is refused at once if the caller may not read the restaurant. -/
def start (query : Query) : World :=
  match authorize w.rows query with
  | .ok _ => { w with reads := w.reads ++ [⟨query, .looking_up⟩] }
  | .error failure => { w with reads := w.reads ++ [⟨query, .ended (.error failure)⟩] }

/-- A lookup ends. The value is what Redis holds at that time. -/
def reply (i : ℕ) (reply : Reply) : World :=
  match w.reads[i]? with
  | some ⟨query, .looking_up⟩ =>
    match reply with
    | .answered => w.move i query (.answered (w.get (services.cache_key query)))
    | .unavailable => w.move i query (.missed false)
  | _ => w

/-- A request goes on. It takes the next part of the code, up to the following `await`. -/
def proceed (i : ℕ) (monotonic : ℚ) : World :=
  match w.reads[i]? with
  | some ⟨query, phase⟩ =>
    let (phase, commands) := services.advance w.now monotonic w.rows query phase
    (w.move i query phase).send commands
  | none => w

/-- A command in flight is taken out. It is lost, unless it takes effect at the same time. -/
def take (j : ℕ) : World := { w with pending := w.pending.eraseIdx j }

/-- A command takes effect. Commands in flight may overtake each other. -/
def deliver (j : ℕ) : World :=
  match w.pending[j]? with
  | some command => (w.take j).apply command
  | none => w

end World

/-- A step of the system. A step that cannot be taken changes nothing. -/
def step (services : Services) (w : World) : Act → World
  | .tick later => { w with now := max w.now later }
  | .commit request draw => w.commit services request draw
  | .start query => w.start query
  | .reply i reply => w.reply services i reply
  | .proceed i monotonic => w.proceed services i monotonic
  | .deliver j => w.deliver j
  | .lose j => w.take j
  | .evict key => w.delete [key]

/-- The rows of a restaurant at the start: those of the legacy database, with the prices that their
column admits. -/
structure ListedBranch extends LegacyBranch where
  /-- The prices. -/
  prices : toBranch.PricesValid

/-- The small restaurant is one. -/
instance : Nonempty ListedBranch := ⟨⟨⟨Branch.small, Branch.small_legacy⟩, Branch.small_prices⟩⟩

/-- The state after a run. It starts with an empty cache. -/
def run (services : Services) (start : ℕ → ListedBranch) (now : ℚ) (acts : List Act) : World :=
  Transition.run (step services) (World.initial (fun k => (start k).toBranch) now) acts

end RestaurantOS.Catalog.Reads
