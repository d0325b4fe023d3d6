import Mathlib.Algebra.Order.Floor.Semiring
import Mathlib.Data.Rat.Floor
import RestaurantOS.Lib.Run

/-!
# The cache of catalog lists

`CatalogMenuCache` keeps the menu lists of restaurants and the item lists of menus in Redis. A
process that loses Redis opens its circuit: for a cool-down its lookups bypass Redis, then one lookup
at a time probes it. This module is the state of that circuit, what its critical sections do to it,
and the calls of `lookup`, `lookup_menu_items`, `store` and `store_menu_items` that run over it.

A call is suspended while it waits for Redis, and the other calls go on meanwhile; between two such
points it runs at one time of the monotonic clock. Times are in seconds. A value in Redis is given by
what the validation of its text makes of it.
-/

namespace RestaurantOS.Catalog.MenuCache

/-! ## Payloads -/

/-- `CachedMenu`. It is the stored form of a menu. -/
structure CachedMenu where
  /-- The menu. -/
  menu_id : ℕ
  /-- Its restaurant. -/
  restaurant_id : ℕ
  /-- The name. -/
  name : String
  /-- The description. -/
  description : Option String
  deriving DecidableEq

/-- `CachedMenuItem`. It is the stored form of an item; what its recipe makes available is not
cached. -/
structure CachedMenuItem where
  /-- The item. -/
  menu_item_id : ℕ
  /-- Its menu. -/
  menu_id : ℕ
  /-- The restaurant of the menu. -/
  restaurant_id : ℕ
  /-- The name. -/
  name : String
  /-- The description. -/
  description : Option String
  /-- The price. -/
  price : ℚ
  /-- Whether the item can be ordered. -/
  is_available : Bool
  deriving DecidableEq

/-- `MenuListPayload`. The value under the key of a restaurant. -/
structure MenuListPayload where
  /-- The version of the schema. -/
  schema_version : ℤ
  /-- The restaurant. -/
  restaurant_id : ℕ
  /-- When the rows were read, on the wall clock; `none` is no finite number. -/
  source_started_at : Option ℚ
  /-- The menus. -/
  menus : List CachedMenu
  deriving DecidableEq

/-- `MenuItemListPayload`. The value under the key of a menu. -/
structure MenuItemListPayload where
  /-- The version of the schema. -/
  schema_version : ℤ
  /-- The menu. -/
  menu_id : ℕ
  /-- The restaurant. -/
  restaurant_id : ℕ
  /-- When the rows were read, on the wall clock; `none` is no finite number. -/
  source_started_at : Option ℚ
  /-- The items. -/
  items : List CachedMenuItem
  deriving DecidableEq

/-- A value in Redis: the text of one of the two payloads, or one that is neither. Each schema forbids
a field that the other requires, so no text is both. -/
inductive Value
  | menu_list (payload : MenuListPayload)
  | menu_item_list (payload : MenuItemListPayload)
  | undecodable
  deriving DecidableEq

/-- `MENU_LIST_MAX_AGE_SECONDS`. An older payload is not served. -/
def MENU_LIST_MAX_AGE_SECONDS : ℤ := 10

/-- `MENU_LIST_MAX_AGE_MS`. It is the expiry that Redis is given. -/
def MENU_LIST_MAX_AGE_MS : ℤ := MENU_LIST_MAX_AGE_SECONDS * 1000

/-- The age of a payload is one that a lookup accepts. -/
def fresh (wall_time : ℚ) (source_started_at : Option ℚ) : Bool :=
  source_started_at.any fun started =>
    decide (0 ≤ wall_time - started ∧ wall_time - started < MENU_LIST_MAX_AGE_SECONDS)

/-- `_valid_payload`. Version, restaurant and age must be right, and each menu must be one of the
restaurant. -/
def valid_payload (wall_time : ℚ) (raw : Value) (restaurant_id : ℕ) : Option (List CachedMenu) :=
  match raw with
  | .menu_list payload =>
    if payload.schema_version = 1 ∧ payload.restaurant_id = restaurant_id ∧
        fresh wall_time payload.source_started_at ∧
        ∀ menu ∈ payload.menus, menu.restaurant_id = restaurant_id then some payload.menus
    else none
  | .menu_item_list _ | .undecodable => none

/-- `_valid_item_payload`. Version, keys and age must be right, and no item may occur twice. -/
def valid_item_payload (wall_time : ℚ) (raw : Value) (menu_id restaurant_id : ℕ) :
    Option (List CachedMenuItem) :=
  match raw with
  | .menu_item_list payload =>
    if payload.schema_version = 1 ∧ payload.menu_id = menu_id ∧
        payload.restaurant_id = restaurant_id ∧ fresh wall_time payload.source_started_at ∧
        (payload.items.map (·.menu_item_id)).Nodup ∧
        ∀ item ∈ payload.items, item.menu_id = menu_id ∧ item.restaurant_id = restaurant_id then
      some payload.items
    else none
  | .menu_list _ | .undecodable => none

/-! ## The circuit -/

/-- `FailureKind`. `classify_redis_failure` tells them apart. -/
inductive FailureKind
  | TIMEOUT
  | CONNECTION
  | COMMAND
  | CLOSED
  deriving DecidableEq

/-- The kinds on which the circuit opens. A failure of the command itself only ends a probe. -/
def FailureKind.opens : FailureKind → Bool
  | .TIMEOUT | .CONNECTION | .CLOSED => true
  | .COMMAND => false

/-- The fields of a `CatalogMenuCache` that change. Every call of the process reads and writes them.
-/
structure Circuit where
  /-- Until when lookups bypass Redis, while the circuit is open. -/
  open_until : Option ℚ
  /-- When the circuit was opened. -/
  opened_at : Option ℚ
  /-- Whether a lookup is probing Redis. -/
  probe_in_flight : Bool
  deriving DecidableEq

namespace Circuit

/-- The circuit of a new process. Lookups go to Redis. -/
def closed : Circuit := ⟨none, none, false⟩

/-- `_begin_lookup`: whether Redis may be used, whether the request is its probe. -/
def begin_lookup (circuit : Circuit) (now : ℚ) : (Bool × Bool) × Circuit :=
  match circuit.open_until with
  | none => ((true, false), circuit)
  | some open_until =>
    if now < open_until ∨ circuit.probe_in_flight then ((false, false), circuit)
    else ((true, true), { circuit with probe_in_flight := true })

/-- `_finish_probe`. Only a success while the circuit is open closes it. -/
def finish_probe (circuit : Circuit) (success : Bool) : Circuit :=
  if success && circuit.open_until.isSome then ⟨none, none, false⟩
  else { circuit with probe_in_flight := false }

/-- `_open_circuit`. The cooldown starts again, and the time of the first opening stays. -/
def open_circuit (cooldown_seconds : ℚ) (circuit : Circuit) (now : ℚ) : Circuit :=
  { circuit with
    open_until := some (now + cooldown_seconds)
    opened_at := if circuit.open_until.isNone then some now else circuit.opened_at }

end Circuit

/-! ## Calls -/

/-- A call of the cache. The two lookups and the two writes, with their arguments. -/
inductive Request
  | lookup (key : String) (restaurant_id : ℕ)
  | lookup_menu_items (key : String) (menu_id restaurant_id : ℕ)
  | store (key : String) (restaurant_id : ℕ) (menus : List CachedMenu)
      (source_started_at source_started_monotonic : ℚ)
  | store_menu_items (key : String) (menu_id restaurant_id : ℕ) (items : List CachedMenuItem)
      (source_started_at source_started_monotonic : ℚ)

/-- What a call returns. A lookup tells the caller whether Redis was available; a write returns
nothing. -/
inductive Result
  /-- `MenuListLookup`. -/
  | menus (menus : Option (List CachedMenu)) (redis_available : Bool)
  | items (items : Option (List CachedMenuItem)) (redis_available : Bool)
  | stored

/-- Where a call is. Between two phases the process waits for Redis. -/
inductive Phase
  /-- Its read is in flight. -/
  | reading (is_probe : Bool)
  /-- Its write is in flight. -/
  | writing
  | returned (result : Result)
  | raised

/-- A call and where it is. Calls of one process run concurrently. -/
structure Call where
  /-- The call. -/
  request : Request
  /-- Where it is. -/
  phase : Phase

/-- A command that was sent to Redis. Keys and expiries are as the cache has built them. -/
inductive Command
  | GET (key : String)
  | SET (key : String) (value : Value) (px : ℤ)
  deriving DecidableEq

/-- How a command ends for its caller. Which of them it is depends on Redis and on the caller, and
not on the cache. -/
inductive Reply
  /-- The answer of Redis; a read without a value gives `none`. -/
  | answer (raw : Option Value)
  /-- `RedisFailure`. -/
  | failure (kind : FailureKind)
  /-- Another exception, such as a cancellation. -/
  | exception

/-- A process with its cache. Two calls share the circuit but nothing else. -/
structure World where
  /-- The monotonic clock. -/
  now : ℚ
  /-- The circuit. -/
  circuit : Circuit
  /-- The calls so far. -/
  calls : List Call
  /-- The commands so far. -/
  sent : List Command

/-- A lookup without a cached value. The caller then reads the database. -/
def Request.miss (request : Request) (redis_available : Bool) : Result :=
  match request with
  | .lookup .. => .menus none redis_available
  | .lookup_menu_items .. => .items none redis_available
  | .store .. | .store_menu_items .. => .stored

/-- A lookup that Redis has answered. A value that is not valid counts as no value. -/
def Request.answered (request : Request) (raw : Option Value) (wall_time : ℚ) : Result :=
  match request with
  | .lookup _ restaurant_id => .menus (raw.bind (valid_payload wall_time · restaurant_id)) true
  | .lookup_menu_items _ menu_id restaurant_id =>
    .items (raw.bind (valid_item_payload wall_time · menu_id restaurant_id)) true
  | .store .. | .store_menu_items .. => .stored

/-- The lifetime in milliseconds that is left to a value that is stored now. -/
def remaining_ms (now source_started_monotonic : ℚ) : ℤ :=
  MENU_LIST_MAX_AGE_MS - ⌈max 0 (now - source_started_monotonic) * 1000⌉

namespace World

variable (cooldown_seconds : ℚ) (w : World)

/-- A process that has not used its cache. -/
def initial (now : ℚ) : World := ⟨now, Circuit.closed, [], []⟩

/-- A call begins. It is appended with the commands that it has sent at once. -/
def enter (request : Request) (phase : Phase) (commands : List Command) : World :=
  { w with calls := w.calls ++ [⟨request, phase⟩], sent := w.sent ++ commands }

/-- A call moves on. The other calls stay where they are. -/
def move (i : ℕ) (phase : Phase) : World :=
  { w with calls := w.calls.modify i fun call => { call with phase := phase } }

/-- `lookup` and `lookup_menu_items` up to the reply. Where the circuit does not allow the lookup,
the call returns at once. -/
def begin_read (request : Request) (key : String) : World :=
  let ((allowed, is_probe), circuit) := w.circuit.begin_lookup w.now
  if allowed then { w with circuit := circuit }.enter request (.reading is_probe) [.GET key]
  else w.enter request (.returned (request.miss false)) []

/-- `store` and `store_menu_items` up to the reply. A list that is too old already is not sent. -/
def begin_write (request : Request) (key : String) (value : Value)
    (source_started_monotonic : ℚ) : World :=
  let remaining := remaining_ms w.now source_started_monotonic
  if remaining ≤ 0 then w.enter request (.returned .stored) []
  else w.enter request .writing [.SET key value remaining]

/-- A call up to its first command. A call that sends none is over. -/
def start (request : Request) : World :=
  match request with
  | .lookup key _ => w.begin_read request key
  | .lookup_menu_items key _ _ => w.begin_read request key
  | .store key restaurant_id menus source_started_at source_started_monotonic =>
    w.begin_write request key
      (.menu_list ⟨1, restaurant_id, some source_started_at, menus⟩) source_started_monotonic
  | .store_menu_items key menu_id restaurant_id items source_started_at source_started_monotonic =>
    w.begin_write request key
      (.menu_item_list ⟨1, menu_id, restaurant_id, some source_started_at, items⟩)
      source_started_monotonic

/-- The end of a probe. A lookup that is no probe has nothing to end. -/
def finish (is_probe success : Bool) : World :=
  if is_probe then { w with circuit := w.circuit.finish_probe success } else w

/-- A failure of Redis: the circuit opens on some kinds. -/
def fail (kind : FailureKind) : World :=
  if kind.opens then { w with circuit := w.circuit.open_circuit cooldown_seconds w.now } else w

/-- The rest of a lookup, once its read has ended. -/
def end_read (i : ℕ) (request : Request) (is_probe : Bool) (reply : Reply) (wall_time : ℚ) : World :=
  match reply with
  | .answer raw => (w.finish is_probe true).move i (.returned (request.answered raw wall_time))
  | .failure kind =>
    ((w.fail cooldown_seconds kind).finish is_probe false).move i (.returned (request.miss false))
  | .exception => (w.finish is_probe false).move i .raised

/-- The rest of a store, once its write has ended. -/
def end_write (i : ℕ) (reply : Reply) : World :=
  match reply with
  | .answer _ => w.move i (.returned .stored)
  | .failure kind => (w.fail cooldown_seconds kind).move i (.returned .stored)
  | .exception => w.move i .raised

end World

/-- What happens next in a process. Replies may come in any order, and time passes as it likes. -/
inductive Act
  /-- Time passes, up to a later reading of the clock. -/
  | tick (later : ℚ)
  /-- A call begins. -/
  | call (request : Request)
  /-- The command of a call ends, at some time of the wall clock. -/
  | reply (i : ℕ) (reply : Reply) (wall_time : ℚ)

/-- A step of a process. A reply to a call that waits for none changes nothing. -/
def step (cooldown_seconds : ℚ) (w : World) : Act → World
  | .tick later => { w with now := max w.now later }
  | .call request => w.start request
  | .reply i reply wall_time =>
    match w.calls[i]? with
    | some ⟨request, .reading is_probe⟩ =>
      w.end_read cooldown_seconds i request is_probe reply wall_time
    | some ⟨_, .writing⟩ => w.end_write cooldown_seconds i reply
    | _ => w

/-- A run of a process. The process may have any circuit at the start. -/
def run (cooldown_seconds : ℚ) (w : World) (acts : List Act) : World :=
  Transition.run (step cooldown_seconds) w acts

end RestaurantOS.Catalog.MenuCache
