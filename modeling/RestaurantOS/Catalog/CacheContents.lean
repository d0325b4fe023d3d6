import RestaurantOS.Catalog.Listings

/-!
# What the cache holds

A statement about lists (`Facts`) that holds of every list at the time at which it is read holds of
every list on its way through the cache: of the values in Redis and of those in flight, of the answers
to lookups, and of what requests have read and not yet stored (`Sound`). Every step of the system keeps
it, as long as it goes on to hold of the current rows (`Sound.step`, `Sound.commit`). What a lookup
accepts is such a list, read less than ten seconds ago (`Filed.menus_of_valid`,
`Filed.items_of_valid`). -/

namespace RestaurantOS.Catalog.Reads

open Fallible MenuCache Orders Recipes Tenancy

/-! ## Availability -/

/-- The status of an item is that of the stored one under its key, if this is still in the menu. -/
theorem for_menu_items_lookup {db : Branch} {items : List MenuItem} {menu_id id : ℕ}
    {status : MenuItemAvailability}
    (h : (for_menu_items db items (some menu_id)).lookup id = some status) :
    ∃ stored ∈ db.menu_items, stored.menu_item_id = id ∧ stored.menu_id = menu_id ∧
      status = item_availability db stored := by
  obtain ⟨before, after, hsplit, -⟩ := List.lookup_eq_some_iff.mp h
  have hmem : (id, status) ∈ for_menu_items db items (some menu_id) := by
    rw [hsplit]
    exact List.mem_append_right _ List.mem_cons_self
  obtain ⟨item, -, hitem⟩ := List.mem_filterMap.mp hmem
  -- The entry exists, so the item is stored under the key that was asked for.
  cases hstored : menu_item db item.menu_item_id with
  | none => simp [hstored] at hitem
  | some stored =>
    simp only [hstored] at hitem
    split_ifs at hitem with hfound
    obtain ⟨rfl, rfl⟩ := Prod.mk.inj (Option.some.inj hitem)
    exact ⟨stored, Keyed.lookup_mem hstored, Keyed.lookup_key hstored, hfound.2.1 menu_id rfl, rfl⟩

/-- The availability of an item names its restaurant. -/
theorem item_availability_restaurant_id (db : Branch) (item : MenuItem) :
    (item_availability db item).restaurant_id = db.restaurant_id := by
  unfold item_availability
  split_ifs
  · rfl
  · rfl

/-- An item of a response, made of an item and of a stored one with its key in the menu. -/
def AttachedTo (db : Branch) (menu_id : ℕ) (item : MenuItem) (response : MenuItemResponse) : Prop :=
  ∃ stored ∈ db.menu_items, stored.menu_item_id = item.menu_item_id ∧ stored.menu_id = menu_id ∧
    response = attached item (item_availability db stored)

/-- What attaching makes of a list. The responses come in the order of the items, each from one of
them. -/
theorem attach_spec {db : Branch} {items : List MenuItem} {menu_id : ℕ}
    {responses : List MenuItemResponse}
    (h : attach_menu_item_availability db items menu_id = some responses) :
    List.Forall₂ (AttachedTo db menu_id) items responses := by
  unfold attach_menu_item_availability at h
  dsimp only at h
  generalize hstatus : for_menu_items db items (some menu_id) = availability at h
  -- The entries are those of stored items of this menu.
  have hlookup : ∀ id status, availability.lookup id = some status →
      ∃ stored ∈ db.menu_items, stored.menu_item_id = id ∧ stored.menu_id = menu_id ∧
        status = item_availability db stored := by
    intro id status hid
    rw [← hstatus] at hid
    exact for_menu_items_lookup hid
  clear hstatus
  -- The induction is on the list of items, whose responses come in the same order.
  induction items generalizing responses with
  | nil =>
    cases h
    exact .nil
  | cons item items ih =>
    rw [List.mapM_cons] at h
    obtain ⟨response, hresponse, h⟩ := Option.bind_eq_some_iff.mp h
    obtain ⟨rest, hrest, h⟩ := Option.bind_eq_some_iff.mp h
    obtain ⟨status, hid, rfl⟩ := Option.map_eq_some_iff.mp hresponse
    cases h
    obtain ⟨stored, hstored, hkey, hmenu, rfl⟩ := hlookup _ _ hid
    exact .cons ⟨stored, hstored, hkey, hmenu, rfl⟩ (ih hrest)

/-- Attaching keeps the stored fields. Only the availability is added, and no item is left out. -/
theorem attach_cached {db : Branch} {items : List MenuItem} {menu_id : ℕ}
    {responses : List MenuItemResponse}
    (h : attach_menu_item_availability db items menu_id = some responses) :
    responses.map MenuItemResponse.cached = items.map db.cached_item := by
  have hall := attach_spec h
  clear h
  induction hall with
  | nil => rfl
  | cons hattached _ ih =>
    obtain ⟨stored, -, -, -, rfl⟩ := hattached
    rw [List.map_cons, List.map_cons, ih]
    congr 1
    unfold MenuItemResponse.cached attached Branch.cached_item
    rw [item_availability_restaurant_id]

/-! ## Values -/

/-- A statement about the lists of menus of restaurants, and of the items of menus, by the time at which
their reading began. -/
structure Facts where
  /-- A list of menus of a restaurant. -/
  menus : (restaurant_id : ℕ) → (source_started_at : ℚ) → List CachedMenu → Prop
  /-- A list of items of a menu of a restaurant. -/
  items : (menu_id restaurant_id : ℕ) → (source_started_at : ℚ) → List CachedMenuItem → Prop

/-- One statement implies another. A weaker statement holds of more lists. -/
structure Facts.Implies (F F' : Facts) : Prop where
  /-- For menus. -/
  menus : ∀ restaurant_id started menus, F.menus restaurant_id started menus →
    F'.menus restaurant_id started menus
  /-- For items. -/
  items : ∀ menu_id restaurant_id started items, F.items menu_id restaurant_id started items →
    F'.items menu_id restaurant_id started items

variable (services : Services) (origin : ℕ → Branch)

/-- A value under its key: the payload of a list of which the statement holds. -/
inductive Filed (F : Facts) : String → Events.Value → Prop
  | menus (restaurant_id : ℕ) (started : ℚ) (menus : List CachedMenu)
      (hfact : F.menus restaurant_id started menus) :
    Filed F (services.key (origin restaurant_id).organization_id restaurant_id)
      (dump_menu_list restaurant_id started menus)
  | items (menu_id restaurant_id : ℕ) (started : ℚ) (items : List CachedMenuItem)
      (hprices : ∀ item ∈ items, price_valid item.price)
      (hfact : F.items menu_id restaurant_id started items) :
    Filed F (services.menu_items_key (origin restaurant_id).organization_id menu_id)
      (dump_menu_item_list menu_id restaurant_id started items)

variable {services origin} {F F' : Facts} {key : String} {raw : Events.Value} {now : ℚ}

/-- A weaker statement. -/
theorem Filed.mono (h : Filed services origin F key raw) (himplies : F.Implies F') :
    Filed services origin F' key raw := by
  cases h with
  | menus restaurant_id started menus hfact =>
    exact .menus restaurant_id started menus (himplies.menus _ _ _ hfact)
  | items menu_id restaurant_id started items hprices hfact =>
    exact .items menu_id restaurant_id started items hprices (himplies.items _ _ _ _ hfact)

/-- What is fresh is not from the future, and less than ten seconds old. -/
theorem of_fresh {started : ℚ} (h : fresh now (some started) = true) :
    now - 10 < started ∧ started ≤ now := by
  have hage := of_decide_eq_true (show decide _ = true from h)
  have hseconds : (MENU_LIST_MAX_AGE_SECONDS : ℚ) = 10 := by norm_num [MENU_LIST_MAX_AGE_SECONDS]
  rw [hseconds] at hage
  constructor
  · linarith [hage.2]
  · linarith [hage.1]

/-- A list of menus that a lookup accepts is one of which the statement holds, and fresh. -/
theorem Filed.menus_of_valid (h : Filed services origin F key raw) {restaurant_id : ℕ}
    {menus : List CachedMenu}
    (hvalid : valid_payload now (decode services.payloads.1 raw) restaurant_id = some menus) :
    ∃ started, F.menus restaurant_id started menus ∧ now - 10 < started ∧ started ≤ now := by
  cases h with
  -- The value is a list of menus, and its fields agree with the lookup.
  | menus restaurant_id' started menus' hfact =>
    rw [decode_menu_list] at hvalid
    unfold valid_payload at hvalid
    dsimp only at hvalid
    split_ifs at hvalid with hpayload
    obtain ⟨-, hrestaurant, hfresh, -⟩ := hpayload
    obtain rfl : restaurant_id' = restaurant_id := hrestaurant
    obtain rfl := Option.some.inj hvalid
    exact ⟨started, hfact, of_fresh hfresh⟩
  -- A list of menu items is not one of menus.
  | items menu_id restaurant_id' started items hprices hfact =>
    rw [decode_menu_item_list _ _ _ _ hprices] at hvalid
    cases hvalid

/-- So is a list of items. Its age and its identifiers have been checked, and what was stored under
them holds. -/
theorem Filed.items_of_valid (h : Filed services origin F key raw) {menu_id restaurant_id : ℕ}
    {items : List CachedMenuItem}
    (hvalid : valid_item_payload now (decode services.payloads.1 raw) menu_id restaurant_id =
      some items) :
    ∃ started, F.items menu_id restaurant_id started items ∧ now - 10 < started ∧ started ≤ now := by
  cases h with
  -- A list of menus is not one of menu items.
  | menus restaurant_id' started menus hfact =>
    rw [decode_menu_list] at hvalid
    cases hvalid
  | items menu_id' restaurant_id' started items' hprices hfact =>
    rw [decode_menu_item_list _ _ _ _ hprices] at hvalid
    unfold valid_item_payload at hvalid
    dsimp only at hvalid
    split_ifs at hvalid with hpayload
    obtain ⟨-, hmenu, hrestaurant, hfresh, -⟩ := hpayload
    obtain rfl : menu_id' = menu_id := hmenu
    obtain rfl : restaurant_id' = restaurant_id := hrestaurant
    obtain rfl := Option.some.inj hvalid
    exact ⟨started, hfact, of_fresh hfresh⟩

/-! ## Requests -/

variable (services origin)

/-- The restaurant of a request is in the scope of its caller. -/
def InScope (query : Query) : Prop :=
  query.context.restaurant_scope (origin query.restaurant_id).organization_id
    (origin query.restaurant_id).restaurant_id = true

/-- What holds of a request at its point. -/
def Phase.Sound (F : Facts) (now : ℚ) (query : Query) : Phase → Prop
  | .looking_up | .missed _ => InScope origin query
  | .answered raw =>
    InScope origin query ∧ ∀ value ∈ raw, Filed services origin F (services.cache_key query) value
  | .attaching items => InScope origin query ∧ ∃ context menu_id restaurant_id started,
    query = .list_menu_items context menu_id restaurant_id ∧
      F.items menu_id restaurant_id started items
  | .reading source => InScope origin query ∧ source.source_started_at ≤ now
  | .attaching_source source items => InScope origin query ∧
    (∀ item ∈ items, price_valid item.price) ∧ ∃ context menu_id restaurant_id,
      query = .list_menu_items context menu_id restaurant_id ∧
        F.items menu_id restaurant_id source.source_started_at
          (items.map (origin restaurant_id).cached_item)
  | .storing source listing => InScope origin query ∧
    Filed services origin F (services.cache_key query)
      (Services.payload query source.source_started_at listing)
  | .ended _ => True

/-- The statement holds of the current rows. It is the premise under which a list that has just been
read may be stored. -/
def Current (F : Facts) (now : ℚ) (rows : ℕ → Branch) : Prop :=
  ∀ restaurant_id started, started ≤ now →
    F.menus restaurant_id started (rows restaurant_id).listed_menus ∧
      ∀ menu_id, F.items menu_id restaurant_id started ((rows restaurant_id).listed_items menu_id)

/-- What holds of the system. It speaks of Redis, of what is on the way to it and of the requests.
-/
structure Sound (F : Facts) (w : World) : Prop where
  /-- The rows are what commands have made of those at the start. -/
  rows : ∀ k, (origin k).Listed (w.rows k)
  /-- What Redis holds. -/
  redis : ∀ entry ∈ w.redis, Filed services origin F entry.key entry.value
  /-- What is sent to Redis. -/
  pending : ∀ key value px, .SET key value px ∈ w.pending → Filed services origin F key value
  /-- The requests. -/
  reads : ∀ query phase, ⟨query, phase⟩ ∈ w.reads → phase.Sound services origin F w.now query

variable {services origin} {w : World} {query : Query} {phase : Phase} {rows : ℕ → Branch}
  {monotonic : ℚ}

/-- A weaker statement holds of a request, and a later time makes no difference. -/
theorem Phase.Sound.mono (h : phase.Sound services origin F now query) (himplies : F.Implies F')
    {later : ℚ} (hlater : now ≤ later) : phase.Sound services origin F' later query := by
  cases phase with
  | looking_up => exact h
  | missed redis_available => exact h
  | answered raw => exact ⟨h.1, fun value hvalue => (h.2 value hvalue).mono himplies⟩
  | attaching items =>
    obtain ⟨hscope, context, menu_id, restaurant_id, started, hquery, hfact⟩ := h
    exact ⟨hscope, context, menu_id, restaurant_id, started, hquery, himplies.items _ _ _ _ hfact⟩
  | reading source => exact ⟨h.1, h.2.trans hlater⟩
  | attaching_source source items =>
    obtain ⟨hscope, hprices, context, menu_id, restaurant_id, hquery, hfact⟩ := h
    exact ⟨hscope, hprices, context, menu_id, restaurant_id, hquery, himplies.items _ _ _ _ hfact⟩
  | storing source listing => exact ⟨h.1, h.2.mono himplies⟩
  | ended result => exact trivial

/-- A weaker statement holds of the system. -/
theorem Sound.mono (h : Sound services origin F w) (himplies : F.Implies F') :
    Sound services origin F' w :=
  ⟨h.rows, fun entry hentry => (h.redis entry hentry).mono himplies,
    fun key value px hmem => (h.pending key value px hmem).mono himplies,
    fun query phase hmem => (h.reads query phase hmem).mono himplies le_rfl⟩

/-- A request in scope reads the current rows. -/
theorem InScope.current (h : InScope origin query)
    (hlisted : (origin query.restaurant_id).Listed (rows query.restaurant_id)) :
    query.context.restaurant_scope (rows query.restaurant_id).organization_id
      (rows query.restaurant_id).restaurant_id = true := by
  rw [hlisted.organization_id, hlisted.restaurant_id]
  exact h

/-- The stored fields of an item do not depend on the rows, but for the restaurant. -/
theorem cached_item_of_listed {db db' : Branch} (h : db.Listed db') :
    db'.cached_item = db.cached_item := by
  funext item
  unfold Branch.cached_item
  rw [h.restaurant_id]

/-- The key of a request in scope is that of its restaurant. -/
theorem InScope.organization_id (h : InScope origin query) :
    (origin query.restaurant_id).organization_id = query.context.organization_id :=
  organization_of_scope h

/-- A request goes on soundly, and what it sends is filed. The phases follow the order of a request:
look up, attach, and else read, attach and store. -/
theorem advance_sound (hrows : ∀ k, (origin k).Listed (rows k)) (hcurrent : Current F now rows)
    (h : phase.Sound services origin F now query) :
    (services.advance now monotonic rows query phase).1.Sound services origin F now query ∧
      ∀ key value px, .SET key value px ∈ (services.advance now monotonic rows query phase).2 →
        Filed services origin F key value := by
  -- Most phases send nothing to Redis.
  have hnothing : ∀ key value px, RedisCommand.SET key value px ∈ ([] : List RedisCommand) →
      Filed services origin F key value := fun _ _ _ hmem => absurd hmem List.not_mem_nil
  cases phase with
  | looking_up => exact ⟨h, hnothing⟩
  | ended result => exact ⟨h, hnothing⟩
  | missed redis_available => exact ⟨⟨h, le_rfl⟩, hnothing⟩
  -- A hit ends the request or goes on to the availability; anything else is a miss.
  | answered raw =>
    obtain ⟨hscope, hraw⟩ := h
    cases query with
    | list_menus context restaurant_id =>
      unfold Services.advance
      dsimp only
      split
      · exact ⟨trivial, hnothing⟩
      · exact ⟨hscope, hnothing⟩
    | list_menu_items context menu_id restaurant_id =>
      unfold Services.advance
      dsimp only
      split
      · rename_i items hvalid
        obtain ⟨value, hvalue, hvalid⟩ := Option.bind_eq_some_iff.mp hvalid
        obtain ⟨started, hfact, -⟩ := (hraw value hvalue).items_of_valid hvalid
        exact ⟨⟨hscope, context, menu_id, restaurant_id, started, rfl, hfact⟩, hnothing⟩
      · exact ⟨hscope, hnothing⟩
  | attaching items =>
    obtain ⟨hscope, context, menu_id, restaurant_id, started, rfl, -⟩ := h
    unfold Services.advance
    dsimp only
    split
    · exact ⟨trivial, hnothing⟩
    · exact ⟨hscope, hnothing⟩
  -- The rows are read at a time not before the start of the read, so what they show is a fact of
  -- now.
  | reading source =>
    obtain ⟨hscope, hstarted⟩ := h
    have hlisted := hrows query.restaurant_id
    have hvisible := hscope.current hlisted
    have horganization := hscope.organization_id
    obtain ⟨hmenus, hitems⟩ := hcurrent query.restaurant_id source.source_started_at hstarted
    cases query with
    | list_menus context restaurant_id =>
      dsimp only [Query.restaurant_id, Query.context] at hvisible horganization hmenus
      refine ⟨⟨hscope, ?_⟩, hnothing⟩
      show Filed services origin F (services.key context.organization_id restaurant_id) (dump_menu_list
        restaurant_id source.source_started_at (list_menus_for_restaurant (rows restaurant_id) context))
      rw [list_menus_of_scope hvisible, ← horganization]
      exact .menus restaurant_id _ _ hmenus
    | list_menu_items context menu_id restaurant_id =>
      dsimp only [Query.restaurant_id, Query.context] at hlisted hvisible hitems
      refine ⟨⟨hscope, fun item hitem => ?_, context, menu_id, restaurant_id, rfl, ?_⟩, hnothing⟩
      · rw [list_menu_items_of_scope menu_id hvisible] at hitem
        exact hlisted.prices item (List.mem_filter.mp hitem).1
      · rw [list_menu_items_of_scope menu_id hvisible]
        have hfact := hitems menu_id
        unfold Branch.listed_items at hfact
        rwa [cached_item_of_listed hlisted] at hfact
  -- Attaching the availability keeps what the list shows of the items, so the list can be filed.
  | attaching_source source items =>
    obtain ⟨hscope, hprices, context, menu_id, restaurant_id, rfl, hfact⟩ := h
    unfold Services.advance
    dsimp only
    split
    · rename_i responses hattach
      refine ⟨⟨hscope, ?_⟩, hnothing⟩
      show Filed services origin F (services.menu_items_key context.organization_id menu_id)
        (dump_menu_item_list menu_id restaurant_id source.source_started_at
          (responses.map MenuItemResponse.cached))
      have horganization : (origin restaurant_id).organization_id = context.organization_id :=
        hscope.organization_id
      rw [attach_cached hattach, cached_item_of_listed (hrows restaurant_id), ← horganization]
      refine .items menu_id restaurant_id _ _ (fun item hitem => ?_) hfact
      obtain ⟨stored, hstored, rfl⟩ := List.mem_map.mp hitem
      exact hprices stored hstored
    · exact ⟨trivial, hnothing⟩
  -- Storing sends one SET, of the list that was computed before.
  | storing source listing =>
    obtain ⟨hscope, hfiled⟩ := h
    refine ⟨trivial, fun key value px hmem => ?_⟩
    unfold Services.advance Services.store at hmem
    dsimp only at hmem
    split_ifs at hmem
    · obtain ⟨rfl, rfl, -⟩ := RedisCommand.SET.inj (List.mem_singleton.mp hmem)
      exact hfiled
    · exact absurd hmem List.not_mem_nil

/-! ## Steps -/

/-- An authorized request is in scope. The restaurant and the menu it is about are ones the caller
may read. -/
theorem authorize_scope (hrows : ∀ k, (origin k).Listed (rows k))
    (h : authorize rows query = .ok ()) : InScope origin query := by
  have hscope : query.context.restaurant_scope (rows query.restaurant_id).organization_id
      (rows query.restaurant_id).restaurant_id = true := by
    cases query with
    | list_menus context restaurant_id =>
      obtain ⟨_, hfound, -⟩ := bind_eq_ok.mp h
      exact ensure_eq_ok.mp hfound
    | list_menu_items context menu_id restaurant_id =>
      obtain ⟨menu, hfound, -⟩ := bind_eq_ok.mp h
      exact (get_menu_by_id_ok hfound).1
  rw [(hrows query.restaurant_id).organization_id, (hrows query.restaurant_id).restaurant_id] at hscope
  exact hscope

/-- A member of a list with one element replaced. -/
theorem mem_set {reads : List Read} {i : ℕ} {read read' : Read} (h : read' ∈ reads.set i read) :
    read' ∈ reads ∨ read' = read := List.mem_or_eq_of_mem_set h

/-- A request moves on. -/
theorem Sound.move (h : Sound services origin F w) (i : ℕ)
    (hphase : phase.Sound services origin F w.now query) :
    Sound services origin F (w.move i query phase) := by
  refine ⟨h.rows, h.redis, h.pending, fun query' phase' hmem => ?_⟩
  rcases mem_set hmem with hmem | heq
  · exact h.reads query' phase' hmem
  · cases heq
    exact hphase

/-- Keys are removed. -/
theorem Sound.delete (h : Sound services origin F w) (keys : List String) :
    Sound services origin F (w.delete keys) :=
  ⟨h.rows, fun entry hentry => h.redis entry (List.mem_filter.mp hentry).1, h.pending, h.reads⟩

/-- Commands are sent. -/
theorem Sound.send (h : Sound services origin F w) {commands : List RedisCommand}
    (hcommands : ∀ key value px, .SET key value px ∈ commands → Filed services origin F key value) :
    Sound services origin F (w.send commands) := by
  refine ⟨h.rows, h.redis, fun key value px hmem => ?_, h.reads⟩
  rcases List.mem_append.mp hmem with hmem | hmem
  · exact h.pending key value px hmem
  · exact hcommands key value px hmem

/-- A command in flight is taken out. -/
theorem Sound.take (h : Sound services origin F w) (j : ℕ) : Sound services origin F (w.take j) :=
  ⟨h.rows, h.redis, fun key value px hmem => h.pending key value px (List.mem_of_mem_eraseIdx hmem),
    h.reads⟩

/-- An invalidation stores nothing. -/
theorem not_set_mem_invalidate {keys : List String} {value : Events.Value} {px : ℤ} :
    RedisCommand.SET key value px ∉ Services.invalidate keys := by
  unfold Services.invalidate
  split
  · exact List.not_mem_nil
  · simp

/-- A commit. What is cached concerns reads that began before, and the invalidation is on its way.
-/
theorem Sound.commit (h : Sound services origin F w) (request : Request) (draw : Draw) :
    Sound services origin F (w.commit services request draw) := by
  unfold World.commit
  dsimp only
  split
  · rename_i db' response hexec
    -- The rows of every restaurant are still listed soundly after the commit.
    have hupdated : ∀ k, (origin k).Listed (Function.update w.rows request.restaurant_id db' k) := by
      intro k
      by_cases hk : k = request.restaurant_id
      · subst hk
        rw [Function.update_self]
        exact (h.rows _).exec hexec
      · rw [Function.update_of_ne hk]
        exact h.rows k
    have hsound : Sound services origin F
        { w with rows := Function.update w.rows request.restaurant_id db' } :=
      ⟨hupdated, h.redis, h.pending, h.reads⟩
    -- The invalidation only deletes keys, so no new value is filed.
    exact hsound.send fun key value px hmem => absurd hmem not_set_mem_invalidate
  · exact h

/-- A request begins. It is authorized against the rows of this time. -/
theorem Sound.start (h : Sound services origin F w) (query : Query) :
    Sound services origin F (w.start query) := by
  have hnew : ∀ phase : Phase, phase.Sound services origin F w.now query →
      Sound services origin F { w with reads := w.reads ++ [⟨query, phase⟩] } := by
    intro phase hphase
    refine ⟨h.rows, h.redis, h.pending, fun query' phase' hmem => ?_⟩
    rcases List.mem_append.mp hmem with hmem | hmem
    · exact h.reads query' phase' hmem
    · cases List.mem_singleton.mp hmem
      exact hphase
  unfold World.start
  split
  · rename_i hok
    exact hnew _ (authorize_scope h.rows hok)
  · exact hnew _ trivial

/-- What Redis answers is filed under the key that was asked for. -/
theorem Sound.get (h : Sound services origin F w) (hget : w.get key = some raw) :
    Filed services origin F key raw := by
  obtain ⟨entry, hentry, rfl⟩ := Option.map_eq_some_iff.mp hget
  have hkey := List.find?_some hentry
  simp only [decide_eq_true_eq] at hkey
  rw [← hkey.1]
  exact h.redis entry (List.mem_of_find?_eq_some hentry)

/-- A lookup ends. A value that Redis has answered with was stored under the key. -/
theorem Sound.reply (h : Sound services origin F w) (i : ℕ) (reply : Reply) :
    Sound services origin F (w.reply services i reply) := by
  unfold World.reply
  split
  · rename_i query hread
    have hscope : InScope origin query := h.reads query .looking_up (List.mem_of_getElem? hread)
    cases reply with
    | answered => exact h.move i ⟨hscope, fun value hvalue => h.get hvalue⟩
    | unavailable => exact h.move i hscope
  · exact h

/-- A request goes on. What it stores shows the rows that it has just read. -/
theorem Sound.proceed (h : Sound services origin F w) (hcurrent : Current F w.now w.rows) (i : ℕ)
    (monotonic : ℚ) : Sound services origin F (w.proceed services i monotonic) := by
  unfold World.proceed
  split
  · rename_i query phase hread
    obtain ⟨hphase, hcommands⟩ := advance_sound h.rows hcurrent
      (h.reads query phase (List.mem_of_getElem? hread))
    exact (h.move i hphase).send hcommands
  · exact h

/-- A command takes effect. A stored value keeps what was said of it when it was sent. -/
theorem Sound.deliver (h : Sound services origin F w) (j : ℕ) :
    Sound services origin F (w.deliver j) := by
  unfold World.deliver
  split
  · rename_i command hcommand
    have htaken := h.take j
    cases command with
    | DEL keys => exact htaken.delete keys
    | SET key value px =>
      refine ⟨htaken.rows, fun entry hentry => ?_, htaken.pending, htaken.reads⟩
      rcases List.mem_cons.mp hentry with rfl | hentry
      · exact h.pending key value px (List.mem_of_getElem? hcommand)
      · exact (htaken.delete [key]).redis entry hentry
  · exact h

/-- Every step keeps a statement of which the current rows are an instance. -/
theorem Sound.step (h : Sound services origin F w) (hcurrent : Current F w.now w.rows) (a : Act) :
    Sound services origin F (step services w a) := by
  cases a with
  | tick later =>
    exact ⟨h.rows, h.redis, h.pending, fun query phase hmem =>
      (h.reads query phase hmem).mono ⟨fun _ _ _ h => h, fun _ _ _ _ h => h⟩ (le_max_left _ _)⟩
  | commit request draw => exact h.commit request draw
  | start query => exact h.start query
  | reply i reply => exact h.reply i reply
  | proceed i monotonic => exact h.proceed hcurrent i monotonic
  | deliver j => exact h.deliver j
  | lose j => exact h.take j
  | evict key => exact h.delete [key]

end RestaurantOS.Catalog.Reads
