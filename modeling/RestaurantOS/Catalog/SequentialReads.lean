import RestaurantOS.Catalog.Staleness

/-!
# Cached reads agree with uncached reads on sequential runs

In a sequential run a command commits, and a request begins, only when every other request is over and
everything that was sent to Redis has taken effect; nothing is lost. Time passes at any point, a lookup
may be bypassed, and Redis may evict. Then a list in the cache shows the current rows, or its key is
about to be deleted (`present`), so whatever a request returns is what it would have returned without
the cache (`sequential_reads_uncached`). -/

namespace RestaurantOS.Catalog.Reads

open Fallible MenuCache Recipes Tenancy

/-! ## Sequential runs -/

/-- No request is going on, and no command is in flight. -/
def World.idle (w : World) : Prop := w.pending = [] ∧ ∀ read ∈ w.reads, read.phase.is_ended = true

/-- What may happen next in a sequential run. -/
def Allowed (w : World) : Act → Prop
  | .commit .. | .start _ => w.idle
  | .lose _ => False
  | .tick _ | .reply .. | .proceed .. | .deliver _ | .evict _ => True

/-- A run in which nothing overlaps and nothing is lost. -/
def Sequential (services : Services) (start : ℕ → ListedBranch) (now : ℚ) (acts : List Act) : Prop :=
  ∀ pre a, pre ++ [a] <+: acts → Allowed (run services start now pre) a

/-! ## What the cache shows -/

/-- A key is about to be deleted. The command is on its way to Redis. -/
def World.deleting (w : World) (key : String) : Prop := ∃ keys, .DEL keys ∈ w.pending ∧ key ∈ keys

/-- A list shows the current rows, or its key is about to be deleted. -/
def present (services : Services) (origin : ℕ → Branch) (w : World) : Facts where
  menus restaurant_id _ menus := menus = (w.rows restaurant_id).listed_menus ∨
    w.deleting (services.key (origin restaurant_id).organization_id restaurant_id)
  items menu_id restaurant_id _ items := items = (w.rows restaurant_id).listed_items menu_id ∨
    w.deleting (services.menu_items_key (origin restaurant_id).organization_id menu_id)

variable {services : Services} {origin : ℕ → Branch} {w w' : World} {query : Query} {phase : Phase}
  {rows : ℕ → Branch} {now monotonic : ℚ}

/-- The current rows show themselves. -/
theorem present_current : Current (present services origin w) w.now w.rows :=
  fun _ _ _ => ⟨Or.inl rfl, fun _ => Or.inl rfl⟩

/-- Where the rows are the same and the same deletions are under way, the cache shows the same. -/
theorem present_implies (hrows : w'.rows = w.rows)
    (hdeleting : ∀ keys, .DEL keys ∈ w.pending → .DEL keys ∈ w'.pending) :
    (present services origin w).Implies (present services origin w') := by
  have hkey : ∀ key, w.deleting key → w'.deleting key := by
    rintro key ⟨keys, hmem, hkey⟩
    exact ⟨keys, hdeleting keys hmem, hkey⟩
  constructor
  · rintro restaurant_id started menus (rfl | hdelete)
    · exact Or.inl (by rw [hrows])
    · exact Or.inr (hkey _ hdelete)
  · rintro menu_id restaurant_id started items (rfl | hdelete)
    · exact Or.inl (by rw [hrows])
    · exact Or.inr (hkey _ hdelete)

/-! ## Requests -/

/-- A list of items is attached to like one with the same keys and the same stored fields. -/
theorem attach_map {db : Branch} {items : List MenuItem} {menu_id : ℕ} {f : MenuItem → MenuItem}
    (hid : ∀ item, (f item).menu_item_id = item.menu_item_id)
    (hmenu : ∀ item, (f item).menu_id = item.menu_id)
    (hattached : ∀ item, attached (f item) = attached item) :
    attach_menu_item_availability db (items.map f) menu_id =
      attach_menu_item_availability db items menu_id := by
  -- The statuses are looked up by key and menu, which the map keeps.
  have havailability : for_menu_items db (items.map f) (some menu_id) =
      for_menu_items db items (some menu_id) := by
    unfold for_menu_items
    rw [List.filterMap_map]
    congr 1
    funext item
    rw [Function.comp_apply, hid, hmenu]
  unfold attach_menu_item_availability
  dsimp only
  rw [havailability, List.mapM_map]
  congr 1
  funext item
  rw [Function.comp_apply, hid, hattached]

/-- The models of cached items are attached to like the stored items. -/
theorem attach_cached_models (db : Branch) (items : List MenuItem) (menu_id : ℕ) :
    attach_menu_item_availability db ((items.map db.cached_item).map cached_model) menu_id =
      attach_menu_item_availability db items menu_id := by
  rw [List.map_map]
  exact attach_map (fun _ => rfl) (fun _ => rfl) fun _ => rfl

/-- An authorized request returns what its statements do. -/
theorem uncached_of_authorized (h : authorize rows query = .ok ()) :
    uncached rows query = source rows query := ok_bind h _

/-- A request that has read anything has read the current rows, and its result is the uncached one. -/
def Phase.Right (rows : ℕ → Branch) (query : Query) : Phase → Prop
  | .looking_up | .answered _ | .attaching _ | .missed _ | .reading _ =>
    authorize rows query = .ok ()
  | .attaching_source _ items => authorize rows query = .ok () ∧
    ∀ context menu_id restaurant_id, query = .list_menu_items context menu_id restaurant_id →
      items = list_menu_items_for_menu (rows restaurant_id) context menu_id
  | .storing _ listing => uncached rows query = .ok listing
  | .ended result => result = uncached rows query

/-- What the cache shows if nothing is about to be deleted. -/
def shown (rows : ℕ → Branch) : Facts where
  menus restaurant_id _ menus := menus = (rows restaurant_id).listed_menus
  items menu_id restaurant_id _ items := items = (rows restaurant_id).listed_items menu_id

/-- A request that goes on goes on right. In every phase the list that the request carries is that
of the present rows, or a key about to be deleted keeps it from being accepted. -/
theorem advance_right (hrows : ∀ k, (origin k).Listed (rows k))
    (hsound : phase.Sound services origin (shown rows) now query) (h : phase.Right rows query)
    (hactive : phase.is_ended = false) :
    (services.advance now monotonic rows query phase).1.Right rows query := by
  cases phase with
  | looking_up => exact h
  | missed redis_available => exact h
  | ended result => cases hactive
  | storing source listing => exact Eq.symm h
  | answered raw =>
    obtain ⟨hscope, hraw⟩ := hsound
    have hsource := uncached_of_authorized h
    unfold Services.advance
    cases query with
    -- A list of menus that is accepted is the present one.
    | list_menus context restaurant_id =>
      dsimp only
      split
      · rename_i menus hvalid
        obtain ⟨value, hvalue, hvalid⟩ := Option.bind_eq_some_iff.mp hvalid
        obtain ⟨started, hfact, -⟩ := (hraw value hvalue).menus_of_valid hvalid
        have hvisible := hscope.current (hrows restaurant_id)
        dsimp only [Query.restaurant_id, Query.context] at hvisible
        show Except.ok (Listing.menus menus) = uncached rows _
        rw [hsource, show menus = (rows restaurant_id).listed_menus from hfact,
          ← list_menus_of_scope hvisible]
        rfl
      · exact h
    -- A hit of items is still to be attached to, and a miss goes on to the read.
    | list_menu_items context menu_id restaurant_id =>
      dsimp only
      split
      · exact h
      · exact h
  | attaching items =>
    obtain ⟨hscope, context, menu_id, restaurant_id, started, rfl, hfact⟩ := hsound
    have hsource := uncached_of_authorized h
    have hvisible := hscope.current (hrows restaurant_id)
    dsimp only [Query.restaurant_id, Query.context] at hvisible
    -- The items accepted are the stored fields of the present ones.
    have hitems : items = (list_menu_items_for_menu (rows restaurant_id) context menu_id).map
        (rows restaurant_id).cached_item := by
      rw [list_menu_items_of_scope menu_id hvisible]
      exact hfact
    unfold Services.advance
    dsimp only
    split
    · rename_i responses hattach
      rw [hitems, attach_cached_models] at hattach
      show Except.ok (Listing.items responses) = uncached rows _
      rw [hsource]
      unfold source
      dsimp only
      rw [hattach]
      rfl
    · exact h
  -- The statement returns the present list.
  | reading source =>
    have hsource := uncached_of_authorized h
    cases query with
    | list_menus context restaurant_id => exact hsource
    | list_menu_items context menu_id restaurant_id =>
      refine ⟨h, fun context' menu_id' restaurant_id' heq => ?_⟩
      cases heq
      rfl
  -- The availability is attached to the present items, or the request fails as it does without a
  -- cache.
  | attaching_source source items =>
    obtain ⟨-, -, context, menu_id, restaurant_id, rfl, -⟩ := hsound
    obtain ⟨hauthorized, hitems⟩ := h
    have hsource := uncached_of_authorized hauthorized
    obtain rfl := hitems context menu_id restaurant_id rfl
    unfold Services.advance
    dsimp only
    split
    · rename_i responses hattach
      show uncached rows _ = .ok (.items responses)
      rw [hsource]
      unfold Reads.source
      dsimp only
      rw [hattach]
      rfl
    · rename_i hattach
      show Except.error _ = uncached rows _
      rw [hsource]
      unfold Reads.source
      dsimp only
      rw [hattach]
      rfl

/-- A request that is over sends nothing, and stays over. -/
theorem advance_ended (h : phase.is_ended = true) :
    services.advance now monotonic rows query phase = (phase, []) := by
  cases phase with
  | ended result => rfl
  | _ => cases h

/-- A request sends no deletion. Deletions are sent by commits only. -/
theorem advance_commands {keys : List String} :
    .DEL keys ∉ (services.advance now monotonic rows query phase).2 := by
  intro hmem
  cases phase with
  -- The only phase that sends anything stores a list.
  | storing source listing =>
    unfold Services.advance Services.store at hmem
    dsimp only at hmem
    split_ifs at hmem
    · exact absurd (List.mem_singleton.mp hmem) nofun
    · exact absurd hmem List.not_mem_nil
  | answered raw =>
    cases query with
    | list_menus context restaurant_id =>
      unfold Services.advance at hmem
      dsimp only at hmem
      split at hmem <;> exact absurd hmem List.not_mem_nil
    | list_menu_items context menu_id restaurant_id =>
      unfold Services.advance at hmem
      dsimp only at hmem
      split at hmem <;> exact absurd hmem List.not_mem_nil
  | attaching items =>
    cases query with
    | list_menus context restaurant_id => exact absurd hmem List.not_mem_nil
    | list_menu_items context menu_id restaurant_id =>
      unfold Services.advance at hmem
      dsimp only at hmem
      split at hmem <;> exact absurd hmem List.not_mem_nil
  | attaching_source source items =>
    cases query with
    | list_menus context restaurant_id => exact absurd hmem List.not_mem_nil
    | list_menu_items context menu_id restaurant_id =>
      unfold Services.advance at hmem
      dsimp only at hmem
      split at hmem <;> exact absurd hmem List.not_mem_nil
  | reading source => cases query <;> exact absurd hmem List.not_mem_nil
  | looking_up => exact absurd hmem List.not_mem_nil
  | missed redis_available => exact absurd hmem List.not_mem_nil
  | ended result => exact absurd hmem List.not_mem_nil

/-! ## The invariant -/

/-- What holds in a sequential run. It is kept by every step of a run in which requests and commits
do not overlap. -/
structure SequentialInv (services : Services) (origin : ℕ → Branch) (w : World) : Prop where
  /-- What is on its way through the cache shows the current rows, or is about to be deleted. -/
  sound : Sound services origin (present services origin w) w
  /-- While a deletion is in flight no request is going on, and nothing else is. -/
  quiet : ∀ keys, .DEL keys ∈ w.pending → (∀ read ∈ w.reads, read.phase.is_ended = true) ∧
    ∀ key value px, .SET key value px ∉ w.pending
  /-- The requests that are going on go on right. -/
  right : ∀ read ∈ w.reads, read.phase.is_ended = false → read.phase.Right w.rows read.query

/-- While a request is going on, the cache shows the current rows. -/
theorem SequentialInv.shown (h : SequentialInv services origin w) {read : Read}
    (hread : read ∈ w.reads) (hactive : read.phase.is_ended = false) :
    read.phase.Sound services origin (shown w.rows) w.now read.query := by
  have hnone : ∀ key, ¬ w.deleting key := by
    rintro key ⟨keys, hmem, -⟩
    have hended := (h.quiet keys hmem).1 read hread
    rw [hactive] at hended
    cases hended
  refine (h.sound.reads read.query read.phase hread).mono ⟨?_, ?_⟩ le_rfl
  · intro restaurant_id started menus hfact
    exact hfact.resolve_right (hnone _)
  · intro menu_id restaurant_id started items hfact
    exact hfact.resolve_right (hnone _)

/-- A read at its place. -/
theorem mem_of_read {i : ℕ} {read : Read} (h : w.reads[i]? = some read) : read ∈ w.reads :=
  List.mem_of_getElem? h

/-- A commit of a run in which nothing else is going on. -/
theorem SequentialInv.commit (h : SequentialInv services origin w) (hidle : w.idle)
    (request : Request) (draw : Draw) :
    SequentialInv services origin (w.commit services request draw) := by
  obtain ⟨hpending, hended⟩ := hidle
  have hsound := h.sound.commit request draw
  -- Nothing is pending, so no key is about to be deleted at the start of the commit.
  have hnone : ∀ key, ¬ w.deleting key := by
    rintro key ⟨keys, hmem, -⟩
    rw [hpending] at hmem
    exact absurd hmem List.not_mem_nil
  unfold World.commit at hsound ⊢
  dsimp only at hsound ⊢
  cases hexec : exec services.lib request.command draw (w.rows request.restaurant_id) with
  -- A command that fails changes no row and sends no deletion.
  | error failure => exact h
  | ok result =>
    obtain ⟨db', response⟩ := result
    rw [hexec] at hsound
    dsimp only at hsound ⊢
    have hlisted := h.sound.rows request.restaurant_id
    have hchange := exec_list_change hlisted.sane hexec
    have hrestaurant : db'.restaurant_id = (w.rows request.restaurant_id).restaurant_id :=
      (exec_appends request.command _ hexec).restaurant_id
    generalize hkeys : services.invalidated_keys request.restaurant_id (w.rows request.restaurant_id)
      request.command = keys at hsound ⊢
    -- A key that is invalidated is about to be deleted.
    have hdeleting : ∀ key ∈ keys, World.deleting
        (World.send { w with rows := Function.update w.rows request.restaurant_id db' }
          (Services.invalidate keys)) key := by
      intro key hkey
      refine ⟨keys, List.mem_append_right _ ?_, hkey⟩
      cases keys with
      | nil => exact absurd hkey List.not_mem_nil
      | cons first rest => exact List.mem_cons_self
    refine ⟨hsound.mono ⟨?_, ?_⟩, fun keys' hmem => ⟨hended, fun key value px hset => ?_⟩,
      fun read hread hactive => ?_⟩
    · -- The present list of menus is still shown, or its key is being deleted.
      intro restaurant_id started menus hfact
      obtain rfl : menus = (w.rows restaurant_id).listed_menus := hfact.resolve_right (hnone _)
      by_cases hk : restaurant_id = request.restaurant_id
      · subst hk
        rcases hchange.menus_kept services request.restaurant_id with hmenus | hkey
        · left
          show _ = (Function.update w.rows request.restaurant_id db' _).listed_menus
          rw [Function.update_self]
          unfold Branch.listed_menus menu_response
          rw [hmenus, hrestaurant]
        · right
          rw [hkeys, hlisted.organization_id] at hkey
          exact hdeleting _ hkey
      · left
        show _ = (Function.update w.rows request.restaurant_id db' _).listed_menus
        rw [Function.update_of_ne hk]
    · -- In the same way the list of items of each menu is still shown, or its key is being deleted.
      intro menu_id restaurant_id started items hfact
      obtain rfl : items = (w.rows restaurant_id).listed_items menu_id :=
        hfact.resolve_right (hnone _)
      by_cases hk : restaurant_id = request.restaurant_id
      · subst hk
        rcases hchange.items_kept hlisted.unique services request.restaurant_id menu_id with
          hitems | hkey
        · left
          show _ = (Function.update w.rows request.restaurant_id db' _).listed_items menu_id
          rw [Function.update_self, ← hitems]
          unfold Branch.listed_items Branch.cached_item
          rw [hrestaurant]
        · right
          rw [hkeys, hlisted.organization_id] at hkey
          exact hdeleting _ hkey
      · left
        show _ = (Function.update w.rows request.restaurant_id db' _).listed_items menu_id
        rw [Function.update_of_ne hk]
    · -- The invalidation sends no list.
      rcases List.mem_append.mp hset with hset | hset
      · rw [hpending] at hset
        exact absurd hset List.not_mem_nil
      · exact not_set_mem_invalidate hset
    · rw [hended read hread] at hactive
      cases hactive

/-- A request begins when nothing else is going on. So the rows do not change while it runs. -/
theorem SequentialInv.start (h : SequentialInv services origin w) (hidle : w.idle) (query : Query) :
    SequentialInv services origin (w.start query) := by
  obtain ⟨hpending, hended⟩ := hidle
  have hsound := h.sound.start query
  -- No deletion is pending while the request runs.
  have hquiet : ∀ keys, RedisCommand.DEL keys ∉ w.pending := by
    rw [hpending]
    exact fun _ => List.not_mem_nil
  unfold World.start at hsound ⊢
  cases hauthorize : authorize w.rows query with
  | ok granted =>
    rw [hauthorize] at hsound
    refine ⟨hsound, fun keys hmem => absurd hmem (hquiet keys), fun read hread hactive => ?_⟩
    rcases List.mem_append.mp hread with hread | hread
    · rw [hended read hread] at hactive
      cases hactive
    · rw [List.mem_singleton.mp hread]
      exact hauthorize
  -- A request without access ends at once.
  | error failure =>
    rw [hauthorize] at hsound
    refine ⟨hsound, fun keys hmem => absurd hmem (hquiet keys), fun read hread hactive => ?_⟩
    rcases List.mem_append.mp hread with hread | hread
    · rw [hended read hread] at hactive
      cases hactive
    · rw [List.mem_singleton.mp hread] at hactive
      cases hactive

/-- One request moves on, and the rest of the world is as it was but for what it has sent. -/
theorem SequentialInv.moved (h : SequentialInv services origin w) {i : ℕ} {query : Query}
    {before after : Phase} {commands : List RedisCommand} (hread : w.reads[i]? = some ⟨query, before⟩)
    (hactive : before.is_ended = false)
    (hsound : Sound services origin (present services origin w) ((w.move i query after).send commands))
    (hcommands : ∀ keys, .DEL keys ∉ commands) (hright : after.Right w.rows query) :
    SequentialInv services origin ((w.move i query after).send commands) := by
  -- A pending deletion would mean that every request has ended, and this one has not.
  have hquiet : ∀ keys, RedisCommand.DEL keys ∉ w.pending := by
    intro keys hmem
    have hended := (h.quiet keys hmem).1 _ (mem_of_read hread)
    rw [hactive] at hended
    cases hended
  refine ⟨hsound.mono (present_implies rfl fun keys hmem => List.mem_append_left _ hmem),
    fun keys hmem => ?_, fun read hmem hactive => ?_⟩
  · rcases List.mem_append.mp hmem with hmem | hmem
    · exact absurd hmem (hquiet keys)
    · exact absurd hmem (hcommands keys)
  · rcases mem_set hmem with hmem | rfl
    · exact h.right read hmem hactive
    · exact hright

/-- Sending nothing. -/
theorem send_nil (w : World) : w.send [] = w := by
  unfold World.send
  rw [List.append_nil]

/-- A lookup ends. What Redis holds shows the current rows, as nothing was committed since it was
stored. -/
theorem SequentialInv.reply (h : SequentialInv services origin w) (i : ℕ) (reply : Reply) :
    SequentialInv services origin (w.reply services i reply) := by
  have hsound := h.sound.reply i reply
  unfold World.reply at hsound ⊢
  split
  · rename_i query hread
    rw [hread] at hsound
    have hright := h.right _ (mem_of_read hread) rfl
    cases reply with
    | answered =>
      dsimp only at hsound ⊢
      rw [← send_nil (w.move i query _)] at hsound ⊢
      exact h.moved hread rfl hsound (fun _ => List.not_mem_nil) hright
    | unavailable =>
      dsimp only at hsound ⊢
      rw [← send_nil (w.move i query _)] at hsound ⊢
      exact h.moved hread rfl hsound (fun _ => List.not_mem_nil) hright
  · exact h

/-- A request goes on. What it reads and what it stores are the current rows. -/
theorem SequentialInv.proceed (h : SequentialInv services origin w) (i : ℕ) (monotonic : ℚ) :
    SequentialInv services origin (w.proceed services i monotonic) := by
  have hsound := h.sound.proceed present_current i monotonic
  unfold World.proceed at hsound ⊢
  split
  · rename_i query phase hread
    rw [hread] at hsound
    dsimp only at hsound ⊢
    have hmem := mem_of_read hread
    cases hactive : phase.is_ended with
    -- A request that has ended stays as it is.
    | true =>
      rw [advance_ended hactive] at hsound ⊢
      have hsame : (w.move i query phase).send [] = w := by
        rw [send_nil]
        unfold World.move
        obtain ⟨hi, hread⟩ := List.getElem?_eq_some_iff.mp hread
        rw [← hread, List.set_getElem_self]
      rwa [hsame]
    | false =>
      refine h.moved hread hactive hsound (fun _ => advance_commands) ?_
      exact advance_right h.sound.rows (h.shown hmem hactive) (h.right _ hmem hactive) hactive
  · exact h

/-- A command takes effect. A deletion removes what no longer shows the rows, and a value that is
stored shows them. -/
theorem SequentialInv.deliver (h : SequentialInv services origin w) (j : ℕ) :
    SequentialInv services origin (w.deliver j) := by
  have hsound := h.sound.deliver j
  unfold World.deliver at hsound ⊢
  split
  · rename_i command hcommand
    rw [hcommand] at hsound
    dsimp only at hsound
    have hmem : command ∈ w.pending := List.mem_of_getElem? hcommand
    have hrest : ∀ {other}, other ∈ (w.take j).pending → other ∈ w.pending :=
      List.mem_of_mem_eraseIdx
    cases command with
    -- A list that is stored is one that was shown when it was sent, and no deletion is on its way.
    | SET key value px =>
      refine ⟨hsound.mono (present_implies rfl fun keys hkeys => ?_),
        fun keys hkeys => absurd hmem ((h.quiet keys (hrest hkeys)).2 key value px), h.right⟩
      exact absurd hmem ((h.quiet keys hkeys).2 key value px)
    | DEL keys =>
      obtain ⟨hended, hsets⟩ := h.quiet keys hmem
      -- What is left in Redis is under other keys.
      have hdeleting : ∀ key, key ∉ keys → w.deleting key →
          (World.apply (w.take j) (.DEL keys)).deleting key := by
        rintro key hkey ⟨keys', hkeys', hmem'⟩
        refine ⟨keys', ?_, hmem'⟩
        obtain ⟨k, hk⟩ := List.getElem?_of_mem hkeys'
        by_cases hjk : k = j
        · rw [hjk, hcommand] at hk
          cases hk
          exact absurd hmem' hkey
        · exact List.mem_eraseIdx_iff_getElem?.mpr ⟨k, hjk, hk⟩
      refine ⟨⟨hsound.rows, fun entry hentry => ?_, fun key value px hset => ?_,
        fun query phase hread => ?_⟩, fun keys' hkeys' => ?_, fun read hread hactive => ?_⟩
      · have hkey : entry.key ∉ keys := of_decide_eq_true (List.mem_filter.mp hentry).2
        -- An entry that stays in Redis was filed under a key that the deletion does not mention.
        have hfiled := hsound.redis entry hentry
        obtain ⟨key, value, expires_at⟩ := entry
        dsimp only at hkey hfiled ⊢
        cases hfiled with
        | menus restaurant_id started menus hfact =>
          exact .menus restaurant_id started menus (hfact.imp_right (hdeleting _ hkey))
        | items menu_id restaurant_id started items hprices hfact =>
          exact .items menu_id restaurant_id started items hprices
            (hfact.imp_right (hdeleting _ hkey))
      · exact absurd (hrest hset) (hsets key value px)
      · have hphase := hended _ hread
        cases phase with
        | ended result => exact trivial
        | _ => cases hphase
      · obtain ⟨hended', hsets'⟩ := h.quiet keys' (hrest hkeys')
        exact ⟨hended', fun key value px hset => hsets' key value px (hrest hset)⟩
      · rw [hended read hread] at hactive
        cases hactive
  · exact h

/-- Every step of a sequential run keeps the invariant. The cases are the actions that such a run
allows. -/
theorem SequentialInv.step (h : SequentialInv services origin w) {a : Act} (hallowed : Allowed w a) :
    SequentialInv services origin (step services w a) := by
  cases a with
  | tick later => exact ⟨h.sound.step present_current (.tick later), h.quiet, h.right⟩
  | commit request draw => exact h.commit hallowed request draw
  | start query => exact h.start hallowed query
  | reply i reply => exact h.reply i reply
  | proceed i monotonic => exact h.proceed i monotonic
  | deliver j => exact h.deliver j
  | lose j => exact absurd hallowed id
  | evict key => exact ⟨h.sound.delete [key], h.quiet, h.right⟩

variable (services) (start : ℕ → ListedBranch) (now)

/-- The invariant holds along every sequential run. The induction is on the run. -/
theorem run_sequential {acts : List Act} (hsequential : Sequential services start now acts) :
    SequentialInv services (fun k => (start k).toBranch) (run services start now acts) := by
  refine @Transition.run_invariant_of _ _ (step services)
    (fun w => SequentialInv services (fun k => (start k).toBranch) w) Allowed
    (fun w a hallowed h => SequentialInv.step h hallowed) _ ?_ acts hsequential
  refine ⟨⟨fun k => (start k).listed, ?_, ?_, ?_⟩, ?_, ?_⟩
  · exact fun _ hmem => absurd hmem List.not_mem_nil
  · exact fun _ _ _ hmem => absurd hmem List.not_mem_nil
  · exact fun _ _ hmem => absurd hmem List.not_mem_nil
  · exact fun _ hmem => absurd hmem List.not_mem_nil
  · exact fun _ hmem => absurd hmem List.not_mem_nil

/-! ## What a step does to a request -/

variable {services start now}

/-- What a step makes of one request. The cases are those of the step function, for the request with
one index. -/
inductive ReadStep (services : Services) (w : World) : Option Read → Option Read → Prop
  | same (read : Option Read) : ReadStep services w read read
  | begins (query : Query) : ReadStep services w none (some ⟨query, .looking_up⟩)
  | refused (query : Query) (failure : Failure) (hrefused : authorize w.rows query = .error failure) :
    ReadStep services w none (some ⟨query, .ended (.error failure)⟩)
  | looked_up (query : Query) (phase : Phase) (hactive : phase.is_ended = false) :
    ReadStep services w (some ⟨query, .looking_up⟩) (some ⟨query, phase⟩)
  | proceeds (query : Query) (phase : Phase) (monotonic : ℚ) :
    ReadStep services w (some ⟨query, phase⟩)
      (some ⟨query, (services.advance w.now monotonic w.rows query phase).1⟩)

/-- A new request is the last one. -/
theorem read_of_append (reads : List Read) (read : Read) (i : ℕ) :
    (reads ++ [read])[i]? = reads[i]? ∨ reads[i]? = none ∧ (reads ++ [read])[i]? = some read := by
  rcases lt_trichotomy i reads.length with hlt | rfl | hgt
  · exact Or.inl (List.getElem?_append_left hlt)
  · exact Or.inr ⟨List.getElem?_eq_none le_rfl, by simp⟩
  · left
    rw [List.getElem?_eq_none hgt.le, List.getElem?_eq_none (by simp; omega)]

/-- A request moves on at its place. -/
theorem read_of_move {i : ℕ} {query query' : Query} {phase phase' : Phase}
    (hread : w.reads[i]? = some ⟨query, phase⟩) (j : ℕ) :
    (w.move i query' phase').reads[j]? = w.reads[j]? ∨
      j = i ∧ (w.move i query' phase').reads[j]? = some ⟨query', phase'⟩ := by
  by_cases hj : i = j
  · subst hj
    exact Or.inr ⟨rfl, List.getElem?_set_self (List.getElem?_eq_some_iff.mp hread).1⟩
  · exact Or.inl (List.getElem?_set_ne hj)

/-- Every step makes of each request one of these. Commits, deliveries and losses touch no request
at all. -/
theorem step_reads (services : Services) (w : World) (a : Act) (j : ℕ) :
    ReadStep services w w.reads[j]? (step services w a).reads[j]? := by
  cases a with
  | tick later => exact .same _
  | lose k => exact .same _
  | evict key => exact .same _
  | commit request draw =>
    have hreads : (step services w (.commit request draw)).reads = w.reads := by
      show (w.commit services request draw).reads = w.reads
      unfold World.commit
      dsimp only
      split
      · rfl
      · rfl
    rw [hreads]
    exact .same _
  | deliver k =>
    have hreads : (step services w (.deliver k)).reads = w.reads := by
      show (w.deliver k).reads = w.reads
      unfold World.deliver
      split
      · rename_i command _
        cases command
        · rfl
        · rfl
      · rfl
    rw [hreads]
    exact .same _
  | start query =>
    show ReadStep services w _ (w.start query).reads[j]?
    unfold World.start
    split
    · -- A new request is put at the end, so the others keep their places.
      rcases read_of_append w.reads ⟨query, .looking_up⟩ j with hsame | ⟨hnone, hnew⟩
      · rw [hsame]
        exact .same _
      · rw [hnone, hnew]
        exact .begins query
    · rename_i failure hrefused
      rcases read_of_append w.reads ⟨query, .ended (.error failure)⟩ j with hsame | ⟨hnone, hnew⟩
      · rw [hsame]
        exact .same _
      · rw [hnone, hnew]
        exact .refused query failure hrefused
  | reply i reply =>
    show ReadStep services w _ (w.reply services i reply).reads[j]?
    unfold World.reply
    split
    · rename_i query hread
      -- A reply moves only the request that waits for it.
      have hmove : ∀ phase : Phase, phase.is_ended = false →
          ReadStep services w w.reads[j]? (w.move i query phase).reads[j]? := by
        intro phase hactive
        rcases @read_of_move _ _ query query _ phase hread j with hsame | ⟨rfl, hmoved⟩
        · rw [hsame]
          exact .same _
        · rw [hread, hmoved]
          exact .looked_up query phase hactive
      cases reply with
      | answered => exact hmove _ rfl
      | unavailable => exact hmove _ rfl
    · exact .same _
  | proceed i monotonic =>
    show ReadStep services w _ (w.proceed services i monotonic).reads[j]?
    unfold World.proceed
    split
    · rename_i query phase hread
      dsimp only [World.send]
      rcases @read_of_move w i query query phase _ hread j with hsame | ⟨rfl, hmoved⟩
      · rw [hsame]
        exact .same _
      · rw [hread, hmoved]
        exact .proceeds query phase monotonic
    · exact .same _

/-- A request whose turn it is goes on. -/
theorem proceed_read {i : ℕ} {query : Query} {phase : Phase} {monotonic : ℚ}
    (hread : w.reads[i]? = some ⟨query, phase⟩) :
    (step services w (.proceed i monotonic)).reads[i]? =
      some ⟨query, (services.advance w.now monotonic w.rows query phase).1⟩ := by
  show (w.proceed services i monotonic).reads[i]? = _
  unfold World.proceed
  rw [hread]
  exact List.getElem?_set_self (List.getElem?_eq_some_iff.mp hread).1

/-! ## Requests end -/

/-- How many of its own steps a request still takes at most, once its lookup is over. -/
def Phase.steps_left : Phase → ℕ
  | .looking_up => 7
  | .answered _ => 6
  | .attaching _ => 5
  | .missed _ => 4
  | .reading _ => 3
  | .attaching_source .. => 2
  | .storing .. => 1
  | .ended _ => 0

/-- These are at most six. -/
theorem Phase.steps_left_le (h : phase ≠ .looking_up) : phase.steps_left ≤ 6 := by
  cases phase with
  | looking_up => exact absurd rfl h
  | _ => simp [Phase.steps_left]

/-- Each step of a request is one fewer. The measure counts the phases that are still ahead of the
request. -/
theorem advance_steps_left {F : Facts} (hsound : phase.Sound services origin F now query)
    (hactive : phase ≠ .looking_up) (hleft : phase.steps_left ≠ 0) :
    (services.advance now monotonic rows query phase).1.steps_left < phase.steps_left := by
  cases phase with
  | looking_up => exact absurd rfl hactive
  | ended result => exact absurd rfl hleft
  | missed redis_available => exact Nat.lt_succ_self 3
  | storing source listing => exact Nat.lt_succ_self 0
  | reading source =>
    cases query with
    | list_menus context restaurant_id => exact show 1 < 3 by norm_num
    | list_menu_items context menu_id restaurant_id => exact show 2 < 3 by norm_num
  | answered raw =>
    cases query with
    | list_menus context restaurant_id =>
      unfold Services.advance
      dsimp only
      split
      · exact show 0 < 6 by norm_num
      · exact show 4 < 6 by norm_num
    | list_menu_items context menu_id restaurant_id =>
      unfold Services.advance
      dsimp only
      split
      · exact show 5 < 6 by norm_num
      · exact show 4 < 6 by norm_num
  | attaching items =>
    obtain ⟨-, context, menu_id, restaurant_id, started, rfl, -⟩ := hsound
    unfold Services.advance
    dsimp only
    split
    · exact show 0 < 5 by norm_num
    · exact show 4 < 5 by norm_num
  | attaching_source source items =>
    obtain ⟨-, -, context, menu_id, restaurant_id, rfl, -⟩ := hsound
    unfold Services.advance
    dsimp only
    split
    · exact show 1 < 2 by norm_num
    · exact show 0 < 2 by norm_num

/-- Nothing is said of the lists. It is the weakest statement about what Redis holds. -/
def anything : Facts := ⟨fun _ _ _ => True, fun _ _ _ _ => True⟩

/-- A request whose lookup is over. It returns without waiting for Redis any more. -/
structure Answered (services : Services) (origin : ℕ → Branch) (i : ℕ) (w : World) : Prop where
  /-- What is on its way through the cache. -/
  sound : Sound services origin anything w
  /-- The request. -/
  read : ∃ query phase, w.reads[i]? = some ⟨query, phase⟩ ∧ phase ≠ .looking_up

/-- How many steps the request still takes. It is zero for a request that is over or has not begun.
-/
def World.steps_left (w : World) (i : ℕ) : ℕ := (w.reads[i]?).elim 0 fun read => read.phase.steps_left

/-- A step of the request lowers what is left, and no other step touches it. -/
theorem Answered.step {i : ℕ} (h : Answered services origin i w) (a : Act) :
    Answered services origin i (step services w a) ∧
      (step services w a).steps_left i ≤ w.steps_left i := by
  obtain ⟨query, phase, hread, hactive⟩ := h.read
  have hsound : Sound services origin anything (Reads.step services w a) :=
    h.sound.step (fun _ _ _ => ⟨trivial, fun _ => trivial⟩) a
  have hphase := h.sound.reads query phase (mem_of_read hread)
  have hstep := step_reads services w a i
  unfold World.steps_left
  rw [hread] at hstep ⊢
  generalize hnext : (Reads.step services w a).reads[i]? = next at hstep ⊢
  -- What the step has made of this request decides whether the measure has fallen.
  cases hstep with
  | same => exact ⟨⟨hsound, query, phase, hnext, hactive⟩, le_rfl⟩
  | looked_up => exact absurd rfl hactive
  | proceeds _ _ monotonic =>
    -- The request has ended and stays so, or it moves to its next phase.
    by_cases hleft : phase.steps_left = 0
    · have hended : phase.is_ended = true := by
        cases phase with
        | ended result => rfl
        | _ => cases hleft
      rw [advance_ended hended] at hnext ⊢
      exact ⟨⟨hsound, query, phase, hnext, hactive⟩, le_rfl⟩
    · have hlower := @advance_steps_left services origin query phase w.rows w.now monotonic anything
        hphase hactive hleft
      refine ⟨⟨hsound, query, _, hnext, fun heq => ?_⟩, hlower.le⟩
      have hseven : Phase.looking_up.steps_left = 7 := rfl
      rw [heq, hseven] at hlower
      have hsix := Phase.steps_left_le hactive
      omega

/-- Whether it is the turn of a request. -/
def Act.proceeds (i : ℕ) : Act → Bool
  | .proceed j _ => i = j
  | _ => false

/-- A request whose lookup is over returns after at most six steps of its own, whatever happens between
them. -/
theorem Answered.ends {i : ℕ} (h : Answered services origin i w) (acts : List Act)
    (hsteps : 6 ≤ acts.countP (Act.proceeds i)) :
    ∃ query result, (Transition.run (Reads.step services) w acts).reads[i]? =
      some ⟨query, .ended result⟩ := by
  have hanswered := @Transition.run_invariant _ _ (Reads.step services) (Answered services origin i)
    (fun w a h => (h.step a).1) _ h acts
  have hrank := @Transition.run_rank _ _ (Reads.step services) (Answered services origin i)
    (fun w => w.steps_left i) (Act.proceeds i) (fun w a h => (h.step a).1) (fun w a h => (h.step a).2)
    (fun w a h ha hleft => by
      obtain ⟨query, phase, hread, hactive⟩ := h.read
      cases a with
      -- A step of this request lowers what is left of it.
      | proceed j monotonic =>
        obtain rfl : i = j := of_decide_eq_true ha
        unfold World.steps_left at hleft ⊢
        rw [proceed_read hread]
        rw [hread] at hleft ⊢
        exact advance_steps_left (h.sound.reads query phase (mem_of_read hread)) hactive hleft
      | _ => cases ha) _ h acts
  -- There are six steps at most to begin with.
  have hfirst : w.steps_left i ≤ 6 := by
    obtain ⟨query, phase, hread, hactive⟩ := h.read
    unfold World.steps_left
    rw [hread]
    exact Phase.steps_left_le hactive
  obtain ⟨query, phase, hread, -⟩ := hanswered.read
  -- With six steps nothing is left, so the request has ended.
  have hlast : phase.steps_left = 0 := by
    unfold World.steps_left at hrank hfirst
    rw [hread] at hrank
    have hrank' : phase.steps_left ≤ _ := hrank
    omega
  cases phase with
  | ended result => exact ⟨query, result, hread⟩
  | _ => cases hlast

/-- What a request returns at a step of a sequential run is what it would have returned without the
cache. -/
theorem Sequential.ended {acts pre : List Act}
    (h : Sequential services start now acts) {a : Act} {i : ℕ} {query : Query}
    {result : Except Failure Listing} (hpre : pre ++ [a] <+: acts)
    (hbefore : (run services start now pre).reads[i]? ≠ some ⟨query, .ended result⟩)
    (hafter : (run services start now (pre ++ [a])).reads[i]? = some ⟨query, .ended result⟩) :
    result = uncached (run services start now pre).rows query := by
  have hsequential : Sequential services start now pre := fun pre' b hprefix =>
    h pre' b ( hprefix.trans ((List.prefix_append pre [a]).trans hpre))
  have hinv := run_sequential services now start hsequential
  have hconcat : run services start now (pre ++ [a]) = step services (run services start now pre) a :=
    Transition.run_concat _ _ pre a
  rw [hconcat] at hafter
  have hstep := step_reads services (run services start now pre) a i
  generalize hread : (run services start now pre).reads[i]? = before at hstep
  generalize (step services (run services start now pre) a).reads[i]? = after at hstep hafter
  -- Only a refused request and one whose phase proceeds can end here.
  cases hstep with
  -- A request that has ended before this step is excluded.
  | same => exact absurd (hread.trans hafter) hbefore
  | begins => cases hafter
  | looked_up _ phase hactive =>
    cases hafter
    cases hactive
  -- A refusal is the same with and without the cache.
  | refused _ failure hrefused =>
    cases hafter
    unfold uncached
    rw [hrefused]
    rfl
  | proceeds query' phase monotonic =>
    obtain ⟨rfl, hended⟩ := Read.mk.inj (Option.some.inj hafter)
    have hmem := mem_of_read hread
    cases hactive : phase.is_ended with
    | true =>
      rw [advance_ended hactive] at hended
      obtain rfl : phase = .ended result := hended
      exact absurd hread hbefore
    -- The phase was an active one, so the list that it carries is right.
    | false =>
      have hright := @advance_right services _ query' phase _ _ monotonic hinv.sound.rows
        (hinv.shown hmem hactive) (hinv.right _ hmem hactive) hactive
      rw [hended] at hright
      exact hright

variable (services start now)

/-- Along every sequential run, a request returns what it would have returned without the cache; and in
every run, a request whose lookup is over returns within six steps of its own, whatever becomes of the
commands to Redis. -/
theorem sequential_reads_uncached :
    (∀ acts : List Act, Sequential services start now acts →
      ∀ (pre : List Act) (a : Act) (i : ℕ) (query : Query) (result : Except Failure Listing),
        pre ++ [a] <+: acts →
        (run services start now pre).reads[i]? ≠ some ⟨query, .ended result⟩ →
        (run services start now (pre ++ [a])).reads[i]? = some ⟨query, .ended result⟩ →
        result = uncached (run services start now pre).rows query) ∧
    ∀ (pre more : List Act) (i : ℕ) (query : Query) (phase : Phase),
      (run services start now pre).reads[i]? = some ⟨query, phase⟩ → phase ≠ .looking_up →
      6 ≤ more.countP (Act.proceeds i) →
      ∃ query result, (run services start now (pre ++ more)).reads[i]? =
        some ⟨query, .ended result⟩ := by
  constructor
  · intro acts hsequential pre a i query result hpre hbefore hafter
    exact hsequential.ended hpre hbefore hafter
  · intro pre more i query phase hread hactive hsteps
    have hanswered : Answered services (fun k => (start k).toBranch) i (run services start now pre) :=
      { sound := (run_sound services start now pre).mono
          ⟨fun _ _ _ _ => trivial, fun _ _ _ _ _ => trivial⟩
        read := ⟨query, phase, hread, hactive⟩ }
    rw [run, Transition.run_append]
    exact hanswered.ends more hsteps

end RestaurantOS.Catalog.Reads
