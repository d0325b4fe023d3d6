import RestaurantOS.Idempotency

/-!
# Idempotency keys of the inventory

A creation looks for an opening movement with its key in the restaurant, and a stock change for a
movement with its key on the ingredient, before either reads anything that later commands change. What
a command does to the movements of an ingredient is `Posts`; from it follow, over every run, that keys
are used once (`Branch.KeysOnce`) and that a movement stays where it is (`Branch.Holds`). So a repeated
request finds the movement of the first one and nothing else (`creates_again`, `changes_again`). -/

namespace RestaurantOS

open Fallible Catalog Events Inventory Orders Tenancy

/-- The keys of some movements. Movements that no client has keyed have none. -/
def Inventory.movement_keys (movements : List InventoryMovement) : List String :=
  movements.filterMap (·.idempotency_key)

/-- Every key is used once: on an ingredient for one movement, and in the restaurant for the opening
of one ingredient. -/
structure Branch.KeysOnce (db : Branch) : Prop where
  /-- The keys of the movements of an ingredient are different. -/
  once : ∀ record ∈ db.ingredients, (movement_keys record.movements).Nodup
  /-- Two openings with one key are of one ingredient. -/
  openings : ∀ record ∈ db.ingredients, ∀ record' ∈ db.ingredients,
    ∀ movement ∈ record.movements, ∀ movement' ∈ record'.movements, movement.kind = .opening →
      movement'.kind = .opening → ∀ key, movement.idempotency_key = some key →
        movement'.idempotency_key = some key → record.id = record'.id

/-- A legacy branch whose movements have been written with keys that are used once. -/
structure KeyedBranch extends LegacyBranch where
  /-- The keys are used once. -/
  keys_once : toBranch.KeysOnce

/-- The small restaurant is one, as it has no movements. -/
instance : Nonempty KeyedBranch :=
  ⟨{ toBranch := Branch.small
     legacy := Branch.small_legacy
     keys_once := by constructor <;> simp [Branch.small, Inventory.movement_keys] }⟩

/-- An ingredient has a balance, and the movement is one of its movements. -/
def Branch.Holds (db : Branch) (id : ℕ) (movement : InventoryMovement) : Prop :=
  ∃ record balance, Keyed.lookup IngredientRecord.id id db.ingredients = some record ∧
    record.balance = some balance ∧ movement ∈ record.movements

namespace Inventory

/-- Two movements of an ingredient with one key are the same. -/
theorem movement_of_key {movements : List InventoryMovement} (h : (movement_keys movements).Nodup)
    {movement movement' : InventoryMovement} (hmem : movement ∈ movements)
    (hmem' : movement' ∈ movements) {key : String} (hkey : movement.idempotency_key = some key)
    (hkey' : movement'.idempotency_key = some key) : movement = movement' := by
  induction movements with
  | nil => exact absurd hmem List.not_mem_nil
  | cons first rest ih =>
    -- A key of the first movement is not used by the rest.
    have hfirst : ∀ other ∈ rest, first.idempotency_key = some key →
        other.idempotency_key ≠ some key := by
      intro other hother hkey₁ hkey₂
      unfold movement_keys at h
      rw [List.filterMap_cons_some hkey₁, List.nodup_cons] at h
      exact h.1 (List.mem_filterMap.mpr ⟨other, hother, hkey₂⟩)
    have hrest : (movement_keys rest).Nodup :=
      h.sublist ((List.sublist_cons_self first rest).filterMap _)
    rcases List.mem_cons.mp hmem with rfl | hin
    · rcases List.mem_cons.mp hmem' with rfl | hin'
      · rfl
      · exact absurd hkey' (hfirst movement' hin' hkey)
    · rcases List.mem_cons.mp hmem' with rfl | hin'
      · exact absurd hkey (hfirst movement hin hkey')
      · exact ih hrest hin hin'

/-- A key is among those of the movements exactly if a movement has it. -/
theorem mem_movement_keys {movements : List InventoryMovement} {key : String} :
    key ∈ movement_keys movements ↔ ∃ movement ∈ movements, movement.idempotency_key = some key :=
  List.mem_filterMap

/-- No replay of a creation is found exactly if no opening has the key. -/
theorem replay_opening_eq_none {db : Branch} {key : String} :
    replay_opening db key = none ↔ ∀ record ∈ db.ingredients, ∀ movement ∈ record.movements,
      ¬ (movement.kind = .opening ∧ movement.idempotency_key = some key) := by
  simp [replay_opening, List.findSome?_eq_none_iff]

/-- A found opening has the key. It belongs to an ingredient of this restaurant. -/
theorem replay_opening_some {db : Branch} {key : String} {found : IngredientRecord × InventoryMovement}
    (h : replay_opening db key = some found) :
    found.1 ∈ db.ingredients ∧ found.2 ∈ found.1.movements ∧ found.2.kind = .opening ∧
      found.2.idempotency_key = some key := by
  obtain ⟨record, hrecord, hfound⟩ := List.exists_of_findSome?_eq_some h
  obtain ⟨movement, hmovement, rfl⟩ := Option.map_eq_some_iff.mp hfound
  have hkey := List.find?_some hmovement
  simp only [decide_eq_true_eq] at hkey
  exact ⟨hrecord, List.mem_of_find?_eq_some hmovement, hkey⟩

/-- The opening with a key is found. No other ingredient has an opening under it, so the search
stops here. -/
theorem replay_opening_eq {db : Branch} (hkeys : db.Keys) (honce : db.KeysOnce)
    {record : IngredientRecord} {movement : InventoryMovement} {key : String}
    (hrecord : record ∈ db.ingredients) (hmovement : movement ∈ record.movements)
    (hkind : movement.kind = .opening) (hkey : movement.idempotency_key = some key) :
    replay_opening db key = some (record, movement) := by
  cases hfound : replay_opening db key with
  | none => exact absurd ⟨hkind, hkey⟩ (replay_opening_eq_none.mp hfound record hrecord movement hmovement)
  | some found =>
    obtain ⟨record', movement'⟩ := found
    obtain ⟨hrecord', hmovement', hkind', hkey'⟩ := replay_opening_some hfound
    have hid := honce.openings record' hrecord' record hrecord movement' hmovement' movement hmovement
      hkind' hkind key hkey' hkey
    obtain rfl : record' = record := hkeys.unique.eq_of_key hrecord' hrecord hid
    obtain rfl : movement' = movement :=
      movement_of_key (honce.once record' hrecord') hmovement' hmovement hkey' hkey
    rfl

/-- The movement with a key is found. Keys are used once for each ingredient. -/
theorem replay_change_eq {record : IngredientRecord} (honce : (movement_keys record.movements).Nodup)
    {movement : InventoryMovement} {key : String} (hmovement : movement ∈ record.movements)
    (hkey : movement.idempotency_key = some key) : replay_change record key = some movement := by
  unfold replay_change
  cases hfound : record.movements.find? fun movement => movement.idempotency_key = some key with
  | none =>
    have hnone := List.find?_eq_none.mp hfound movement hmovement
    exact absurd hkey (by simpa using hnone)
  | some movement' =>
    have hkey' := List.find?_some hfound
    simp only [decide_eq_true_eq] at hkey'
    rw [movement_of_key honce (List.mem_of_find?_eq_some hfound) hmovement hkey' hkey]

/-! ## What a command posts -/

/-- Posting nothing keeps the movements. -/
theorem Posting.of_none {movements movements' : List InventoryMovement}
    {balance balance' : InventoryBalance} (h : Posting movements balance none movements' balance') :
    movements' = movements := by
  cases h
  rfl

/-- Posting a movement appends it. -/
theorem Posting.of_some {movements movements' : List InventoryMovement}
    {balance balance' : InventoryBalance} {movement : InventoryMovement}
    (h : Posting movements balance (some movement) movements' balance') :
    movements' = movements ++ [movement] := by
  cases h
  rfl

/-- What a command does to the movements of an ingredient. -/
inductive Posts (db : Branch) (command : Command) (response : Response) (id : ℕ) :
    Option IngredientRecord → Option IngredientRecord → Prop
  | kept {old new : Option IngredientRecord} (hmovements : new.map (·.movements) = old.map (·.movements))
      (hbalance : ∀ record ∈ old, record.balance.isSome → ∀ record' ∈ new, record'.balance.isSome) :
    Posts db command response id old new
  | opened {context : AccessContext} {data : CreateIngredient} {view : IngredientView}
      (hcommand : command = .create_ingredient context data) (hresponse : response = .ingredient view)
      (hid : id = view.id) (hnone : replay_opening db data.idempotency_key = none)
      {record' : IngredientRecord} {movement : InventoryMovement}
      (hkey : movement.idempotency_key = some data.idempotency_key)
      (hmovements : record'.movements = [movement]) (hbalance : record'.balance.isSome) :
    Posts db command response id none (some record')
  | posted {record record' : IngredientRecord} {movement : InventoryMovement}
      (hkind : ∀ key ∈ movement.idempotency_key, movement.kind ≠ .opening)
      (hkey : ∀ key ∈ movement.idempotency_key, key ∉ movement_keys record.movements)
      (hmovements : record'.movements = record.movements ++ [movement])
      (hbalance : record'.balance.isSome) :
    Posts db command response id (some record) (some record')

/-- An ingredient that stays. -/
theorem Posts.refl {db : Branch} {command : Command} {response : Response} {id : ℕ}
    (old : Option IngredientRecord) : Posts db command response id old old :=
  .kept rfl fun record hrecord hbalance record' hrecord' => by
    rwa [Option.mem_unique hrecord' hrecord]

/-- A write posts at most the movement it is for. -/
theorem Posts.of_change {db : Branch} {command : Command} {response : Response} {id : ℕ}
    {organization_id : UUID} {restaurant_id : ℕ} {episode_id : UUID} {old : Option IngredientRecord}
    {purpose : Purpose} {record' : IngredientRecord} {events : List (EventEnvelope Payload)}
    (h : Change organization_id restaurant_id episode_id old purpose record' events)
    (hold : ∀ movement ∈ purpose.posting, old ≠ none)
    (hkey : ∀ movement ∈ purpose.posting, ∀ key ∈ movement.idempotency_key,
      movement.kind ≠ .opening ∧ ∀ record ∈ old, key ∉ movement_keys record.movements) :
    Posts db command response id old (some record') := by
  rcases h.posting with ⟨rfl, movement, rfl, -⟩ |
    ⟨record, balance, balance', rfl, -, hbalance', hposting⟩
  · exact absurd rfl (hold movement rfl)
  · have hsome : record'.balance.isSome := by
      rw [hbalance']
      rfl
    cases hpurpose : purpose.posting with
    | none =>
      rw [hpurpose] at hposting
      refine .kept ?_ fun _ _ _ r hr => ?_
      · rw [Option.map_some, Option.map_some, hposting.of_none]
      · rwa [← Option.mem_some_iff.mp hr]
    | some movement =>
      rw [hpurpose] at hposting
      refine .posted (fun key hk => (hkey movement hpurpose key hk).1)
        (fun key hk => (hkey movement hpurpose key hk).2 record rfl) hposting.of_some hsome

/-- Writes that post nothing under a key. They add no keyed movement and no ingredient. -/
theorem Posts.of_writes {db db₁ : Branch} {command : Command} {response : Response}
    {ws : List (ℕ × Purpose)} (h : Writes db ws db₁) (hkeys : db.Keys)
    (hkey : ∀ id purpose, (id, purpose) ∈ ws → ∀ movement ∈ purpose.posting,
      movement.idempotency_key = none ∧ movement.kind ≠ .opening) (id : ℕ)
    (hknown : ∀ purpose, (id, purpose) ∈ ws → ∀ movement ∈ purpose.posting,
      Keyed.lookup IngredientRecord.id id db.ingredients ≠ none) :
    Posts db command response id (Keyed.lookup IngredientRecord.id id db.ingredients)
      (Keyed.lookup IngredientRecord.id id db₁.ingredients) := by
  by_cases hid : id ∈ ws.map Prod.fst
  · obtain ⟨⟨id, purpose⟩, hmem, rfl⟩ := List.mem_map.mp hid
    obtain ⟨record', events, episode_id, -, hlookup, hchange⟩ := h.change hkeys hmem
    rw [hlookup]
    refine .of_change hchange (hknown purpose hmem) fun movement hmovement key hk => ?_
    rw [(hkey id purpose hmem movement hmovement).1] at hk
    cases hk
  · rw [h.lookup_of_not_mem hid]
    exact .refl _

/-- What the creation of an ingredient posts. A replay posts nothing, and otherwise the opening is
inserted under its key. -/
theorem create_posts {lib : Library} {context : AccessContext} {data : CreateIngredient} {draw : Draw}
    {db db' : Branch} {view : IngredientView} (hkeys : db.Keys)
    (h : InventoryService.create lib context data draw db = .ok (db', view)) (id : ℕ) :
    Posts db (.create_ingredient context data) (.ingredient view) id
      (Keyed.lookup IngredientRecord.id id db.ingredients)
      (Keyed.lookup IngredientRecord.id id db'.ingredients) := by
  obtain ⟨-, opening, threshold, -, -, ⟨-, rfl⟩ |
    ⟨hnone, movement, hfresh, -, hkey, -, -, hwrite⟩⟩ := InventoryService.create_ok hkeys h
  · exact .refl _
  by_cases hid : id = view.id
  · subst hid
    have hold : Keyed.lookup IngredientRecord.id view.id db.ingredients = none := by
      refine Keyed.lookup_eq_none.mpr fun record hrecord => ?_
      have hbelow := (hkeys.below record hrecord).2
      omega
    obtain ⟨record', events, hlookup, hchange, -⟩ := hwrite.change hkeys
    rw [hold] at hchange ⊢
    rw [hlookup]
    rcases hchange.posting with ⟨-, movement', hpurpose, hmovements, hbalance, -⟩ |
      ⟨record, -, -, hrecord, -⟩
    · cases hpurpose
      exact .opened rfl rfl rfl hnone hkey hmovements (by rw [hbalance]; rfl)
    · cases hrecord
  · rw [hwrite.lookup_ne hid]
    exact .refl _

/-- What a change of the stock posts. A replay posts nothing, and otherwise the movement has a key that
no movement of the ingredient has. -/
theorem change_posts {lib : Library} {context : AccessContext} {ingredient_id : ℕ} {data : ChangeStock}
    {draw : Draw} {db db' : Branch} {movement : InventoryMovement} {command : Command}
    {response : Response} (hkeys : db.Keys)
    (h : InventoryService.change lib context ingredient_id data draw db = .ok (db', movement)) (id : ℕ) :
    Posts db command response id (Keyed.lookup IngredientRecord.id id db.ingredients)
      (Keyed.lookup IngredientRecord.id id db'.ingredients) := by
  obtain ⟨record, kind, amount, -, hlookup, -, -, -, ⟨-, rfl⟩ |
    ⟨hnone, hkey, hkind, -, hwrite⟩⟩ := InventoryService.change_ok h
  · exact .refl _
  by_cases hid : id = ingredient_id
  · subst hid
    obtain ⟨record', events, hlookup', hchange, -⟩ := hwrite.change hkeys
    rw [hlookup] at hchange ⊢
    rw [hlookup']
    refine .of_change hchange (by simp) fun movement' hmovement' key hk => ?_
    obtain rfl := Option.some.inj hmovement'
    refine ⟨hkind, fun record' hrecord' hmem => ?_⟩
    obtain rfl := Option.some.inj hrecord'
    obtain rfl := Option.some.inj (hkey.symm.trans hk)
    obtain ⟨found, hfound, hfound_key⟩ := mem_movement_keys.mp hmem
    have habsent := List.find?_eq_none.mp hnone found hfound
    exact absurd hfound_key (by simpa using habsent)
  · rw [hwrite.lookup_ne hid]
    exact .refl _

/-- What a request to the order service posts. An order that is accepted posts consumptions, which
have no key. -/
theorem order_posts {db db' : Branch} {command : Command} (h : Effect db command db')
    (hkeys : db.Keys) (hcommand : command.is_order = true) {response : Response} (id : ℕ) :
    Posts db command response id (Keyed.lookup IngredientRecord.id id db.ingredients)
      (Keyed.lookup IngredientRecord.id id db'.ingredients) := by
  cases h with
  | replayed => exact .refl _
  | stock hother => exact absurd hcommand (by simp [hother])
  | initialized hother => exact absurd hcommand (by simp [hother])
  | catalog hother => exact absurd hcommand (by simp [hother])
  | order_created _ order _ _ _ _ hrest =>
    rw [hrest.ingredients]
    exact .refl _
  | order_updated _ before after _ _ ws hwrites haccepts hother _ _ hrest =>
    rw [hrest.ingredients]
    -- There are writes only if the update accepts the order.
    have hyes : ∀ entry ∈ ws, accepts before after := by
      intro entry hmem
      by_contra hno
      rw [hother hno] at hmem
      exact List.not_mem_nil hmem
    refine .of_writes hwrites hkeys (fun id purpose hmem movement hmovement => ?_) id
      fun purpose hmem _ _ => ?_
    · obtain ⟨consumed, rfl, hkind, -, hkey, -⟩ := (haccepts (hyes _ hmem)).posts id purpose hmem
      obtain rfl := Option.mem_some_iff.mp hmovement
      exact ⟨hkey, by simp [hkind]⟩
    · obtain ⟨⟨record, hlookup⟩, -⟩ :=
        ((haccepts (hyes _ hmem)).uses id).mp (List.mem_map.mpr ⟨_, hmem, rfl⟩)
      simp [hlookup]
  | order_deleted _ order _ _ event _ _ hrest =>
    rw [hrest.ingredients]
    exact .refl _

/-- What a command does to the movements of each ingredient. The keyed movements are posted by two
commands, each under a key that has not been used. -/
theorem exec_posts {lib : Library} {command : Command} {draw : Draw} {db db' : Branch}
    {response : Response} (hsane : db.Sane) (h : exec lib command draw db = .ok (db', response))
    (id : ℕ) : Posts db command response id (Keyed.lookup IngredientRecord.id id db.ingredients)
      (Keyed.lookup IngredientRecord.id id db'.ingredients) := by
  have hkeys := hsane.keys
  have heffect := exec_effect hkeys hsane.range h
  have hcatalog : command.is_catalog = true →
      Posts db command response id (Keyed.lookup IngredientRecord.id id db.ingredients)
        (Keyed.lookup IngredientRecord.id id db'.ingredients) := by
    intro hcommand
    rw [(exec_catalog hcommand h).1]
    -- The catalog and the recipes leave the ingredients alone.
    exact .refl _
  cases command with
  | create_ingredient context data =>
    obtain ⟨⟨db₁, view⟩, hcreate, h⟩ := bind_eq_ok.mp h
    obtain ⟨rfl, rfl⟩ := Prod.mk.inj (pure_eq_ok.mp h)
    exact create_posts hkeys hcreate id
  | update_ingredient context ingredient_id data =>
    obtain ⟨⟨db₁, view⟩, hupdate, h⟩ := bind_eq_ok.mp h
    obtain ⟨rfl, rfl⟩ := Prod.mk.inj (pure_eq_ok.mp h)
    refine .of_writes (InventoryService.update_ok hupdate).writes hkeys ?_ id ?_
    · rintro id' purpose hmem movement hmovement
      obtain ⟨-, rfl⟩ := Prod.mk.inj (List.mem_singleton.mp hmem)
      cases hmovement
    · rintro purpose hmem movement hmovement
      obtain ⟨-, rfl⟩ := Prod.mk.inj (List.mem_singleton.mp hmem)
      cases hmovement
  | change_stock context ingredient_id data =>
    obtain ⟨⟨db₁, movement⟩, hchange, h⟩ := bind_eq_ok.mp h
    obtain ⟨rfl, rfl⟩ := Prod.mk.inj (pure_eq_ok.mp h)
    exact change_posts hkeys hchange id
  -- A baseline posts no movement.
  | maintenance_initialization organization_id =>
    obtain ⟨db₁, hmaintenance, h⟩ := bind_eq_ok.mp h
    obtain ⟨rfl, rfl⟩ := Prod.mk.inj (pure_eq_ok.mp h)
    rcases maintenance_initialization_writes hkeys hmaintenance with ⟨-, rfl⟩ |
      ⟨-, ws, db₂, hwrites, hbaseline, -, rfl⟩
    · exact .refl _
    · refine .of_writes hwrites hkeys ?_ id ?_
      · rintro id' purpose hmem movement hmovement
        rw [hbaseline id' purpose hmem] at hmovement
        cases hmovement
      · rintro purpose hmem movement hmovement
        rw [hbaseline id purpose hmem] at hmovement
        cases hmovement
  | create_order | update_order | delete_order => exact order_posts heffect hkeys rfl id
  | create_menu | update_menu | delete_menu | create_menu_item | update_menu_item
  | delete_menu_item | replace_recipe => exact hcatalog rfl

/-- A movement of a written ingredient was there before, is the opening of the ingredient that the
command creates, or is no opening under a key. -/
theorem Posts.movement {db : Branch} {command : Command} {response : Response} {id : ℕ}
    {old : Option IngredientRecord} {record' : IngredientRecord} {movement : InventoryMovement}
    (h : Posts db command response id old (some record')) (hmem : movement ∈ record'.movements) :
    (∃ record ∈ old, movement ∈ record.movements) ∨
      (∃ view key, response = .ingredient view ∧ id = view.id ∧
        movement.idempotency_key = some key ∧ replay_opening db key = none) ∨
      ∀ key ∈ movement.idempotency_key, movement.kind ≠ .opening := by
  cases h with
  | kept hmovements =>
    obtain ⟨record, hrecord, heq⟩ := Option.map_eq_some_iff.mp hmovements.symm
    exact Or.inl ⟨record, hrecord, by rwa [heq]⟩
  | opened hcommand hresponse hid hnone hkey hmovements =>
    rw [hmovements] at hmem
    obtain rfl := List.mem_singleton.mp hmem
    exact Or.inr (Or.inl ⟨_, _, hresponse, hid, hkey, hnone⟩)
  | posted hkind hkey hmovements =>
    rw [hmovements] at hmem
    rcases List.mem_append.mp hmem with hmem | hmem
    · exact Or.inl ⟨_, rfl, hmem⟩
    · obtain rfl := List.mem_singleton.mp hmem
      exact Or.inr (Or.inr hkind)

/-- The keys of the movements of a written ingredient are different. The key of a posted movement
was not among them. -/
theorem Posts.once {db : Branch} {command : Command} {response : Response} {id : ℕ}
    {old : Option IngredientRecord} {record' : IngredientRecord}
    (h : Posts db command response id old (some record'))
    (hold : ∀ record ∈ old, (movement_keys record.movements).Nodup) :
    (movement_keys record'.movements).Nodup := by
  cases h with
  | kept hmovements =>
    obtain ⟨record, hrecord, heq⟩ := Option.map_eq_some_iff.mp hmovements.symm
    have hsame : record.movements = record'.movements := heq
    rw [← hsame]
    exact hold record hrecord
  | opened hcommand hresponse hid hnone hkey hmovements =>
    rw [hmovements, movement_keys, List.filterMap_cons_some hkey]
    exact List.nodup_singleton _
  | @posted record _ movement hkind hkey hmovements =>
    have honce := hold record rfl
    rw [hmovements, movement_keys, List.filterMap_append]
    cases hmovement : movement.idempotency_key with
    | none =>
      rw [List.filterMap_cons_none hmovement, List.filterMap_nil, List.append_nil]
      exact honce
    | some key =>
      rw [List.filterMap_cons_some hmovement, List.filterMap_nil, List.nodup_append]
      refine ⟨honce, List.nodup_singleton _, fun a ha b hb hab => hkey key hmovement ?_⟩
      rw [List.mem_singleton.mp hb] at hab
      rwa [← hab]

/-- A movement of an ingredient stays. A write appends movements and removes none. -/
theorem Posts.keeps {db : Branch} {command : Command} {response : Response} {id : ℕ}
    {record : IngredientRecord} {new : Option IngredientRecord} {movement : InventoryMovement}
    (h : Posts db command response id (some record) new) (hbalance : record.balance.isSome)
    (hmem : movement ∈ record.movements) :
    ∃ record', new = some record' ∧ record'.balance.isSome ∧ movement ∈ record'.movements := by
  cases h with
  | kept hmovements hkept =>
    obtain ⟨record', rfl, heq⟩ := Option.map_eq_some_iff.mp hmovements
    exact ⟨record', rfl, hkept record rfl hbalance record' rfl, by rwa [heq]⟩
  | posted hkind hkey hmovements hbalance' =>
    exact ⟨_, rfl, hbalance', by rw [hmovements]; exact List.mem_append_left _ hmem⟩

end Inventory

/-- A command uses no key a second time. The movements afterwards are those from before and at most
one keyed one, whose key is new. -/
theorem Branch.KeysOnce.exec {lib : Library} {command : Command} {draw : Draw} {db db' : Branch}
    {response : Response} (honce : db.KeysOnce) (hsane : db.Sane)
    (h : exec lib command draw db = .ok (db', response)) : db'.KeysOnce := by
  have hsane' := (exec_effect hsane.keys hsane.range h).sane hsane
  have hposts : ∀ record' ∈ db'.ingredients, Posts db command response record'.id
      (Keyed.lookup IngredientRecord.id record'.id db.ingredients) (some record') := by
    intro record' hrecord'
    have hlookup := hsane'.keys.unique.lookup_eq_some.mpr ⟨hrecord', rfl⟩
    rw [← hlookup]
    exact exec_posts hsane h record'.id
  refine ⟨fun record' hrecord' => ?_, ?_⟩
  · exact (hposts record' hrecord').once fun record hrecord =>
      honce.once record (Keyed.lookup_mem hrecord)
  · -- Two openings with one key: both were there, or one of them is the new one, and then its key
    -- was free.
    intro record hrecord record' hrecord' movement hmem movement' hmem' hkind hkind' key hkey hkey'
    rcases (hposts record hrecord).movement hmem with
      ⟨old, hold, hmem⟩ | ⟨view, key₁, hview, hid, hkey₁, hnone⟩ | hno
    · rcases (hposts record' hrecord').movement hmem' with
        ⟨old', hold', hmem'⟩ | ⟨view, key₁, hview, hid, hkey₁, hnone⟩ | hno
      · have hids := honce.openings old (Keyed.lookup_mem hold) old' (Keyed.lookup_mem hold') movement
          hmem movement' hmem' hkind hkind' key hkey hkey'
        rwa [Keyed.lookup_key hold, Keyed.lookup_key hold'] at hids
      · obtain rfl := Option.some.inj (hkey₁.symm.trans hkey')
        exact absurd ⟨hkind, hkey⟩
          (replay_opening_eq_none.mp hnone old (Keyed.lookup_mem hold) movement hmem)
      · exact absurd hkind' (hno key hkey')
    · -- The first is new: its key was free among all openings, so the second is the same movement.
      obtain rfl := Option.some.inj (hkey₁.symm.trans hkey)
      rcases (hposts record' hrecord').movement hmem' with
        ⟨old', hold', hmem'⟩ | ⟨view', key₂, hview', hid', hkey₂, hnone'⟩ | hno
      · exact absurd ⟨hkind', hkey'⟩
          (replay_opening_eq_none.mp hnone old' (Keyed.lookup_mem hold') movement' hmem')
      · rw [hview] at hview'
        cases hview'
        rw [hid, hid']
      · exact absurd hkind' (hno key₁ hkey')
    · exact absurd hkind (hno key hkey)

/-- A command keeps the movements. It may add others, for this ingredient or another one. -/
theorem Branch.Holds.exec {lib : Library} {command : Command} {draw : Draw} {db db' : Branch}
    {response : Response} {id : ℕ} {movement : InventoryMovement} (hholds : db.Holds id movement)
    (hsane : db.Sane) (h : exec lib command draw db = .ok (db', response)) :
    db'.Holds id movement := by
  obtain ⟨record, balance, hlookup, hbalance, hmem⟩ := hholds
  have hposts := exec_posts hsane h id
  rw [hlookup] at hposts
  obtain ⟨record', hlookup', hbalance', hmem'⟩ := hposts.keeps (by rw [hbalance]; rfl) hmem
  obtain ⟨balance', hbalance'⟩ := Option.isSome_iff_exists.mp hbalance'
  exact ⟨record', balance', hlookup', hbalance', hmem'⟩

/-! ## Repeated requests -/

namespace Inventory

/-- Two creations ask for the same, but for the key. -/
structure CreateIngredient.Same (data data' : CreateIngredient) : Prop where
  /-- The name. -/
  name : data'.name = data.name
  /-- The unit. -/
  unit : data'.unit = data.unit
  /-- The threshold, as a number. -/
  reorder_threshold : data'.reorder_threshold.value = data.reorder_threshold.value
  /-- The opening stock, as a number. -/
  opening_quantity : data'.opening_quantity.value = data.opening_quantity.value

/-- Two stock changes ask for the same, but for the key. -/
structure ChangeStock.Same (data data' : ChangeStock) : Prop where
  /-- The kind. -/
  kind : data'.kind = data.kind
  /-- The quantity, as a number. -/
  quantity : data'.quantity.value = data.quantity.value
  /-- The reason. -/
  reason : data'.reason = data.reason
  /-- The version that a count has seen. -/
  expected_version : data'.expected_version = data.expected_version

/-- The failure of a request whose key has been used for another one. -/
def key_conflict : Failure :=
  .ConflictError "Idempotency key was already used for a different request"

/-- What a creation with the key of the creation `data` of an ingredient does: with the same payload
it returns the ingredient as it is, with another one it fails. -/
structure CreatesAgain (lib : Library) (db : Branch) (id : ℕ) (data : CreateIngredient) : Prop where
  /-- The same payload: the ingredient is returned in its current state, and nothing is written. -/
  same : ∀ (context : AccessContext) (data' : CreateIngredient) (draw : Draw),
    InventoryService.prepare db context .inventory_manage = .ok () →
    data'.idempotency_key = data.idempotency_key → data.Same data' →
    ∃ record balance, Keyed.lookup IngredientRecord.id id db.ingredients = some record ∧
      record.balance = some balance ∧
      exec lib (.create_ingredient context data') draw db =
        .ok (db, .ingredient (response db record.item balance))
  /-- Another valid payload: a conflict. -/
  different : ∀ (context : AccessContext) (data' : CreateIngredient) (draw : Draw),
    InventoryService.prepare db context .inventory_manage = .ok () →
    data'.idempotency_key = data.idempotency_key → ¬ data.Same data' → data'.Valid lib.toText →
    exec lib (.create_ingredient context data') draw db = .error key_conflict
  /-- Any other payload, whether or not it is valid: no success. -/
  refused : ∀ (context : AccessContext) (data' : CreateIngredient) (draw : Draw),
    data'.idempotency_key = data.idempotency_key → ¬ data.Same data' →
    ∃ failure, exec lib (.create_ingredient context data') draw db = .error failure

/-- What a stock change of an ingredient with the key of the stock change `data` does: with the same
payload it returns the movement of that one, with another one it fails. -/
structure ChangesAgain (lib : Library) (db : Branch) (id : ℕ) (data : ChangeStock)
    (movement : InventoryMovement) : Prop where
  /-- The same payload: the movement is returned, and nothing is written. -/
  same : ∀ (context : AccessContext) (data' : ChangeStock) (draw : Draw),
    InventoryService.prepare db context .inventory_manage = .ok () →
    data'.idempotency_key = data.idempotency_key → data.Same data' →
    exec lib (.change_stock context id data') draw db = .ok (db, .movement movement)
  /-- Another valid payload: a conflict. -/
  different : ∀ (context : AccessContext) (data' : ChangeStock) (draw : Draw) (kind : MovementKind),
    InventoryService.prepare db context .inventory_manage = .ok () →
    data'.idempotency_key = data.idempotency_key → ¬ data.Same data' →
    data'.Valid lib.toText kind →
    exec lib (.change_stock context id data') draw db = .error key_conflict
  /-- Any other payload, whether or not it is valid: no success. -/
  refused : ∀ (context : AccessContext) (data' : ChangeStock) (draw : Draw),
    data'.idempotency_key = data.idempotency_key → ¬ data.Same data' →
    ∃ failure, exec lib (.change_stock context id data') draw db = .error failure

/-- A quantity is judged by its number. -/
theorem quantity_congr {value value' : Decimal} (h : value'.value = value.value) (positive : Bool) :
    quantity value' positive = quantity value positive := by
  unfold quantity
  rw [h]

/-- A creation that asks for the same is as valid. -/
theorem CreateIngredient.Valid.of_same {text : Text} {data data' : CreateIngredient}
    (h : data.Valid text) (hsame : data.Same data')
    (hkey : data'.idempotency_key = data.idempotency_key) : data'.Valid text := by
  obtain ⟨hname, hunit, hthreshold, hopening⟩ := hsame
  refine ⟨?_, ?_, ?_, ?_⟩
  · rw [hname, hunit]
    exact h.ingredient
  · rw [quantity_congr hopening]
    exact h.opening
  · rw [quantity_congr hthreshold]
    exact h.threshold
  · rw [hkey]
    exact h.key

/-- A stock change that asks for the same is as valid. -/
theorem ChangeStock.Valid.of_same {text : Text} {data data' : ChangeStock} {kind : MovementKind}
    (h : data.Valid text kind) (hsame : data.Same data')
    (hkey : data'.idempotency_key = data.idempotency_key) : data'.Valid text kind := by
  obtain ⟨hkind, hquantity, hreason, hversion⟩ := hsame
  refine ⟨?_, ?_, ?_, ?_, ?_⟩
  · rw [hkind]
    exact h.known
  · rw [hreason]
    exact h.reason
  · rw [quantity_congr hquantity]
    exact h.amount
  · rw [hversion]
    exact h.version
  · rw [hkey]
    exact h.key

end Inventory

namespace InventoryService

/-- A valid creation with the key of an opening compares its fingerprint, and reads nothing else. -/
theorem create_replay {lib : Library} {context : AccessContext} {data : CreateIngredient} (draw : Draw)
    {db : Branch} (hprepare : prepare db context .inventory_manage = .ok ())
    (hvalid : data.Valid lib.toText) {found : IngredientRecord × InventoryMovement}
    (hreplay : replay_opening db data.idempotency_key = some found) :
    ∃ opening threshold, data.opening_quantity.value = some opening ∧
      data.reorder_threshold.value = some threshold ∧
      create lib context data draw db = (do
        ensure (found.2.request_fingerprint =
          some (lib.fingerprint (.create data.name data.unit threshold opening))) key_conflict
        let (record, balance) ← db.ingredient found.1.id
        pure (db, response db record.item balance)) := by
  obtain ⟨unit, hunit⟩ := hvalid.ingredient
  obtain ⟨opening, hopening⟩ := hvalid.opening
  obtain ⟨threshold, hthreshold⟩ := hvalid.threshold
  refine ⟨opening, threshold, quantity_value hopening, quantity_value hthreshold, ?_⟩
  unfold create
  rw [ok_bind hprepare, ok_bind hunit, ok_bind hopening, ok_bind hthreshold, ensure_bind hvalid.key]
  simp only [hreplay]
  rfl

/-- A valid stock change with the key of a movement compares its fingerprint, and reads neither the
state of the ingredient nor its version. -/
theorem change_replay {lib : Library} {context : AccessContext} {ingredient_id : ℕ}
    {data : ChangeStock} (draw : Draw) {db : Branch} {kind : MovementKind}
    (hprepare : prepare db context .inventory_manage = .ok ()) {record : IngredientRecord}
    {balance : InventoryBalance} (hingredient : db.ingredient ingredient_id = .ok (record, balance))
    (hvalid : data.Valid lib.toText kind) {movement : InventoryMovement}
    (hreplay : replay_change record data.idempotency_key = some movement) :
    ∃ amount, data.quantity.value = some amount ∧
      change lib context ingredient_id data draw db = (do
        ensure (movement.request_fingerprint = some
          (lib.fingerprint (.change data.kind amount data.reason data.expected_version))) key_conflict
        pure (db, movement)) := by
  obtain ⟨amount, hamount⟩ := hvalid.amount
  refine ⟨amount, quantity_value hamount, ?_⟩
  unfold change
  rw [ok_bind hprepare, ok_bind hingredient]
  simp only [hvalid.known]
  rw [ensure_bind hvalid.reason, ok_bind hamount, ensure_bind hvalid.version, ensure_bind hvalid.key]
  simp only [hreplay]
  rfl

end InventoryService

/-- A found ingredient with a balance. -/
theorem Branch.ingredient_eq {db : Branch} {id : ℕ} {record : IngredientRecord}
    {balance : InventoryBalance}
    (hlookup : Keyed.lookup IngredientRecord.id id db.ingredients = some record)
    (hbalance : record.balance = some balance) : db.ingredient id = .ok (record, balance) := by
  unfold Branch.ingredient
  rw [hlookup]
  simp only [hbalance]
  rfl

/-- A computation that cannot return fails. -/
theorem exists_failure {α : Type} {x : Except Failure α} (h : ∀ a, x ≠ .ok a) :
    ∃ failure, x = .error failure := by
  cases hx : x with
  | ok a => exact absurd hx (h a)
  | error failure => exact ⟨failure, rfl⟩

namespace Inventory

/-- Where the opening movement of a creation is, a repetition finds it. There are three cases of a
repetition, by whether the data agree and whether they are valid. -/
theorem creates_again (lib : DigestLibrary) {db : Branch} (hsane : db.Sane) (honce : db.KeysOnce)
    {id : ℕ} {data : CreateIngredient} {opening threshold : ℚ} {movement : InventoryMovement}
    (hvalid : data.Valid lib.1.toText) (hopening : data.opening_quantity.value = some opening)
    (hthreshold : data.reorder_threshold.value = some threshold) (hholds : db.Holds id movement)
    (hkind : movement.kind = .opening) (hkey : movement.idempotency_key = some data.idempotency_key)
    (hfingerprint : movement.request_fingerprint =
      some (lib.1.fingerprint (.create data.name data.unit threshold opening))) :
    CreatesAgain lib.1 db id data := by
  obtain ⟨record, balance, hlookup, hbalance, hmem⟩ := hholds
  -- The key leads to this one movement, since no two openings have one key.
  have hreplay : ∀ data' : CreateIngredient, data'.idempotency_key = data.idempotency_key →
      replay_opening db data'.idempotency_key = some (record, movement) := fun data' hsame =>
    replay_opening_eq hsane.keys honce (Keyed.lookup_mem hlookup) hmem hkind (hsame ▸ hkey)
  have hid : record.id = id := Keyed.lookup_key hlookup
  have hingredient : db.ingredient record.id = .ok (record, balance) := by
    rw [hid]
    exact Branch.ingredient_eq hlookup hbalance
  -- The fingerprints agree exactly if the payloads do.
  have hsignature : ∀ (data' : CreateIngredient) (opening' threshold' : ℚ),
      data'.opening_quantity.value = some opening' → data'.reorder_threshold.value = some threshold' →
      (movement.request_fingerprint =
        some (lib.1.fingerprint (.create data'.name data'.unit threshold' opening')) ↔
          data.Same data') := by
    intro data' opening' threshold' hopening' hthreshold'
    rw [hfingerprint, Option.some.injEq, lib.2.1.eq_iff]
    constructor
    · intro heq
      injection heq with hname hunit hthresholds hopenings
      exact ⟨hname.symm, hunit.symm, by rw [hthreshold, hthreshold', hthresholds],
        by rw [hopening, hopening', hopenings]⟩
    · rintro ⟨hname, hunit, hthresholds, hopenings⟩
      rw [hthreshold, hthreshold', Option.some.injEq] at hthresholds
      rw [hopening, hopening', Option.some.injEq] at hopenings
      rw [hname, hunit, hthresholds, hopenings]
  refine ⟨?_, ?_, ?_⟩
  · -- The same data: the fingerprints agree, and the rows of the ingredient are returned.
    intro context data' draw hprepare hsame_key hsame
    obtain ⟨opening', threshold', hopening', hthreshold', hcreate⟩ := InventoryService.create_replay
      draw hprepare (hvalid.of_same hsame hsame_key) (hreplay data' hsame_key)
    refine ⟨record, balance, hlookup, hbalance, ?_⟩
    have hagree := (hsignature data' opening' threshold' hopening' hthreshold').mpr hsame
    rw [ensure_bind hagree, ok_bind hingredient] at hcreate
    exact ok_bind hcreate _
  · -- Other valid data: the fingerprints differ, which is the conflict.
    intro context data' draw hprepare hsame_key hother hvalid'
    obtain ⟨opening', threshold', hopening', hthreshold', hcreate⟩ := InventoryService.create_replay
      draw hprepare hvalid' (hreplay data' hsame_key)
    have hdiffer := (hsignature data' opening' threshold' hopening' hthreshold').not.mpr hother
    rw [ensure_bind_error hdiffer] at hcreate
    show (InventoryService.create lib.1 context data' draw db >>= _) = _
    rw [hcreate]
    rfl
  · -- Other data of any kind: if the request succeeded, the fingerprints would agree.
    intro context data' draw hsame_key hother
    refine exists_failure fun result hok => hother ?_
    obtain ⟨⟨db₁, view⟩, hcreate, -⟩ := bind_eq_ok.mp hok
    obtain ⟨-, opening', threshold', hopening', hthreshold', ⟨⟨found, -, -, hfound, hagree, -⟩, -⟩ |
      ⟨hnone, -⟩⟩ := InventoryService.create_ok hsane.keys hcreate
    · rw [hreplay data' hsame_key] at hfound
      obtain rfl := Option.some.inj hfound
      exact (hsignature data' opening' threshold' hopening' hthreshold').mp hagree
    · rw [hreplay data' hsame_key] at hnone
      cases hnone

/-- Where the movement of a stock change is, a repetition finds it. The key is looked up among the
movements of the one ingredient. -/
theorem changes_again (lib : DigestLibrary) {db : Branch} (honce : db.KeysOnce) {id : ℕ}
    {data : ChangeStock} {kind : MovementKind} {amount : ℚ} {movement : InventoryMovement}
    (hvalid : data.Valid lib.1.toText kind) (hamount : data.quantity.value = some amount)
    (hholds : db.Holds id movement) (hkey : movement.idempotency_key = some data.idempotency_key)
    (hfingerprint : movement.request_fingerprint =
      some (lib.1.fingerprint (.change data.kind amount data.reason data.expected_version))) :
    ChangesAgain lib.1 db id data movement := by
  obtain ⟨record, balance, hlookup, hbalance, hmem⟩ := hholds
  have hingredient := Branch.ingredient_eq hlookup hbalance
  have hreplay : ∀ data' : ChangeStock, data'.idempotency_key = data.idempotency_key →
      replay_change record data'.idempotency_key = some movement := fun data' hsame =>
    replay_change_eq (honce.once record (Keyed.lookup_mem hlookup)) hmem (hsame ▸ hkey)
  -- The fingerprints agree exactly if the payloads do.
  have hsignature : ∀ (data' : ChangeStock) (amount' : ℚ), data'.quantity.value = some amount' →
      (movement.request_fingerprint = some
        (lib.1.fingerprint (.change data'.kind amount' data'.reason data'.expected_version)) ↔
          data.Same data') := by
    intro data' amount' hamount'
    rw [hfingerprint, Option.some.injEq, lib.2.1.eq_iff]
    constructor
    · intro heq
      injection heq with hkinds hamounts hreason hversion
      exact ⟨hkinds.symm, by rw [hamount, hamount', hamounts], hreason.symm, hversion.symm⟩
    · rintro ⟨hkinds, hamounts, hreason, hversion⟩
      rw [hamount, hamount', Option.some.injEq] at hamounts
      rw [hkinds, hreason, hversion, hamounts]
  refine ⟨?_, ?_, ?_⟩
  · -- The same data, other valid data, and other data of any kind, as for a creation.
    intro context data' draw hprepare hsame_key hsame
    obtain ⟨amount', hamount', hchange⟩ := InventoryService.change_replay draw hprepare
      hingredient (hvalid.of_same hsame hsame_key) (hreplay data' hsame_key)
    rw [ensure_bind ((hsignature data' amount' hamount').mpr hsame)] at hchange
    exact ok_bind hchange _
  · intro context data' draw kind' hprepare hsame_key hother hvalid'
    obtain ⟨amount', hamount', hchange⟩ := InventoryService.change_replay draw hprepare
      hingredient hvalid' (hreplay data' hsame_key)
    rw [ensure_bind_error ((hsignature data' amount' hamount').not.mpr hother)] at hchange
    show (InventoryService.change lib.1 context id data' draw db >>= _) = _
    rw [hchange]
    rfl
  · intro context data' draw hsame_key hother
    refine exists_failure fun result hok => hother ?_
    obtain ⟨⟨db₁, movement'⟩, hchange, -⟩ := bind_eq_ok.mp hok
    obtain ⟨record', kind', amount', -, hlookup', -, hamount', hagree, hcase⟩ :=
      InventoryService.change_ok hchange
    obtain rfl := Option.some.inj (hlookup.symm.trans hlookup')
    rcases hcase with ⟨hfound, -⟩ | ⟨hnone, -⟩
    · rw [hreplay data' hsame_key] at hfound
      obtain rfl := Option.some.inj hfound
      exact (hsignature data' amount' hamount').mp hagree
    · rw [hreplay data' hsame_key] at hnone
      cases hnone

/-- What a creation that has been executed leaves: its opening movement. -/
structure Opened (lib : Library) (db : Branch) (id : ℕ) (data : CreateIngredient)
    (movement : InventoryMovement) : Prop where
  /-- The ingredient has the movement. -/
  holds : db.Holds id movement
  /-- It is an opening. -/
  kind : movement.kind = .opening
  /-- It has the key of the creation. -/
  key : movement.idempotency_key = some data.idempotency_key
  /-- The creation was valid, and the movement has its fingerprint. -/
  fingerprint : data.Valid lib.toText ∧ ∃ opening threshold,
    data.opening_quantity.value = some opening ∧ data.reorder_threshold.value = some threshold ∧
    movement.request_fingerprint =
      some (lib.fingerprint (.create data.name data.unit threshold opening))

/-- A creation leaves its opening movement, whether it has inserted the ingredient or found it. -/
theorem opened_of_create {lib : Library} {context : AccessContext} {data : CreateIngredient}
    {draw : Draw} {db db' : Branch} {view : IngredientView} (hkeys : db.Keys)
    (h : exec lib (.create_ingredient context data) draw db = .ok (db', .ingredient view)) :
    ∃ movement, Opened lib db' view.id data movement := by
  obtain ⟨⟨db₁, view₁⟩, hcreate, h⟩ := bind_eq_ok.mp h
  obtain ⟨rfl, hview⟩ := Prod.mk.inj (pure_eq_ok.mp h)
  obtain rfl : view₁ = view := Response.ingredient.inj hview
  obtain ⟨hvalid, opening, threshold, hopening, hthreshold,
    ⟨⟨found, record, balance, hfound, hagree, hingredient, rfl⟩, rfl⟩ |
    ⟨-, movement, -, hkind, hkey, hagree, -, hwrite⟩⟩ := InventoryService.create_ok hkeys hcreate
  · obtain ⟨hrecord, hmem, hkind, hkey⟩ := replay_opening_some hfound
    obtain ⟨hlookup, hbalance⟩ := Branch.ingredient_ok hingredient
    have hsame : record = found.1 :=
      hkeys.unique.eq_of_key (Keyed.lookup_mem hlookup) hrecord (Keyed.lookup_key hlookup)
    refine ⟨found.2, ⟨record, balance, ?_, hbalance, by rwa [hsame]⟩, hkind, hkey,
      hvalid, opening, threshold, hopening, hthreshold, hagree⟩
    show Keyed.lookup IngredientRecord.id record.id db₁.ingredients = some record
    rwa [Keyed.lookup_key hlookup]
  · obtain ⟨record', events, hlookup, hchange, -⟩ := hwrite.change hkeys
    have hposted : movement ∈ record'.movements ∧ ∃ balance, record'.balance = some balance := by
      rcases hchange.posting with ⟨-, movement', hpurpose, hmovements, hbalance, -⟩ |
        ⟨old, balance, balance', -, -, hbalance', hposting⟩
      · cases hpurpose
        exact ⟨by rw [hmovements]; exact List.mem_singleton_self _, _, hbalance⟩
      · rw [hposting.of_some]
        exact ⟨List.mem_append_right _ (List.mem_singleton_self _), _, hbalance'⟩
    obtain ⟨hmem, balance, hbalance⟩ := hposted
    exact ⟨movement, ⟨record', balance, hlookup, hbalance, hmem⟩, hkind, hkey, hvalid, opening,
      threshold, hopening, hthreshold, hagree⟩

/-- What a stock change that has been executed leaves: its movement. -/
structure Changed (lib : Library) (db : Branch) (id : ℕ) (data : ChangeStock)
    (movement : InventoryMovement) : Prop where
  /-- The ingredient has the movement. -/
  holds : db.Holds id movement
  /-- It has the key of the stock change. -/
  key : movement.idempotency_key = some data.idempotency_key
  /-- The stock change was valid, and the movement has its fingerprint. -/
  fingerprint : ∃ kind amount, data.Valid lib.toText kind ∧ data.quantity.value = some amount ∧
    movement.request_fingerprint =
      some (lib.fingerprint (.change data.kind amount data.reason data.expected_version))

/-- A stock change leaves its movement, whether it has posted it or found it. -/
theorem changed_of_change {lib : Library} {context : AccessContext} {id : ℕ} {data : ChangeStock}
    {draw : Draw} {db db' : Branch} {movement : InventoryMovement} (hkeys : db.Keys)
    (h : exec lib (.change_stock context id data) draw db = .ok (db', .movement movement)) :
    Changed lib db' id data movement := by
  obtain ⟨⟨db₁, movement₁⟩, hchange, h⟩ := bind_eq_ok.mp h
  obtain ⟨rfl, hmovement⟩ := Prod.mk.inj (pure_eq_ok.mp h)
  obtain rfl : movement₁ = movement := Response.movement.inj hmovement
  obtain ⟨record, kind, amount, hvalid, hlookup, hbalance, hamount, hagree, ⟨hfound, rfl⟩ |
    ⟨-, hkey, -, -, hwrite⟩⟩ := InventoryService.change_ok hchange
  · obtain ⟨balance, hbalance⟩ := Option.isSome_iff_exists.mp hbalance
    have hkey := List.find?_some hfound
    exact ⟨⟨record, balance, hlookup, hbalance, List.mem_of_find?_eq_some hfound⟩,
      by simpa using hkey, kind, amount, hvalid, hamount, hagree⟩
  · obtain ⟨record', events, hlookup', hchange', -⟩ := hwrite.change hkeys
    rw [hlookup] at hchange'
    rcases hchange'.posting with ⟨hnone, -⟩ | ⟨old, balance, balance', -, -, hbalance', hposting⟩
    · cases hnone
    · refine ⟨⟨record', balance', hlookup', hbalance', ?_⟩, hkey, kind, amount, hvalid, hamount, hagree⟩
      rw [hposting.of_some]
      exact List.mem_append_right _ (List.mem_singleton_self _)

end Inventory

/-! ## Runs -/

/-- The keys are used once in every reachable state. -/
theorem keys_once (lib : Library) (start : ℕ → KeyedBranch) (acts : List Act) (k : ℕ) :
    ((run lib (fun k => (start k).toLegacyBranch) acts).rows k).KeysOnce :=
  run_later (List.nil_prefix : [] <+: acts) (start k).keys_once fun hsane h honce =>
    honce.exec hsane h

/-- Requests of the inventory are idempotent. In every reachable state of a restaurant, whatever
commands have run concurrently, an ingredient has at most one movement under a key and the restaurant
at most one opening; and once a creation, or a stock change of an ingredient, has been committed, one
with its key and its payload returns the created ingredient as it then is, or the movement, and one
with its key and another payload is refused, and neither changes anything. -/
theorem inventory_idempotency (lib : DigestLibrary) (start : ℕ → KeyedBranch) (acts : List Act)
    (k : ℕ) :
    let world := run lib.1 (fun k => (start k).toLegacyBranch) acts
    (world.rows k).KeysOnce ∧
    (∀ pre a, pre ++ [a] <+: acts → ∀ context data view,
      Commits lib.1 (fun k => (start k).toLegacyBranch) k pre a (.create_ingredient context data)
        (.ingredient view) → CreatesAgain lib.1 (world.rows k) view.id data) ∧
    (∀ pre a, pre ++ [a] <+: acts → ∀ context id data movement,
      Commits lib.1 (fun k => (start k).toLegacyBranch) k pre a (.change_stock context id data)
        (.movement movement) → ChangesAgain lib.1 (world.rows k) id data movement) := by
  intro world
  have honce := keys_once lib.1 start acts k
  have hsane := run_sane lib.1 (fun k => (start k).toLegacyBranch) acts k
  refine ⟨honce, ?_, ?_⟩
  · intro pre a hpart context data view hcommit
    obtain ⟨draw, hexec⟩ := hcommit.exec
    obtain ⟨movement, hopened⟩ := opened_of_create (run_sane lib.1 _ pre k).keys hexec
    obtain ⟨hvalid, opening, threshold, hopening, hthreshold, hagree⟩ := hopened.fingerprint
    have hholds := run_later (P := fun db => db.Holds view.id movement) hpart hopened.holds
      fun hsane h hholds => hholds.exec hsane h
    exact creates_again lib hsane honce hvalid hopening hthreshold hholds hopened.kind hopened.key
      hagree
  · intro pre a hpart context id data movement hcommit
    obtain ⟨draw, hexec⟩ := hcommit.exec
    have hchanged := changed_of_change (run_sane lib.1 _ pre k).keys hexec
    obtain ⟨kind, amount, hvalid, hamount, hagree⟩ := hchanged.fingerprint
    have hholds := run_later (P := fun db => db.Holds id movement) hpart hchanged.holds
      fun hsane h hholds => hholds.exec hsane h
    exact changes_again lib honce hvalid hamount hholds hchanged.key hagree

end RestaurantOS
