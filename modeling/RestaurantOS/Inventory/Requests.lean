import RestaurantOS.Inventory.Writes

/-!
# What inventory requests write

A request of the inventory service that returns has either replayed an earlier one, and then it has
written nothing, or it has made one write to one ingredient. -/

namespace RestaurantOS

open Fallible Events Inventory Tenancy

/-- The restaurant is visible only in its own organization. -/
theorem Branch.restaurant_ok {db : Branch} {context : AccessContext} {u : Unit}
    (h : db.restaurant context = .ok u) : context.organization_id = db.organization_id := by
  have hscope := ensure_eq_ok.mp h
  simp only [AccessContext.restaurant_scope, Bool.and_eq_true, decide_eq_true_eq] at hscope
  exact hscope.1.symm

/-- A found ingredient is the row with its key, and its balance. -/
theorem Branch.ingredient_ok {db : Branch} {id : ℕ} {record : IngredientRecord}
    {balance : InventoryBalance} (h : db.ingredient id = .ok (record, balance)) :
    Keyed.lookup IngredientRecord.id id db.ingredients = some record ∧
      record.balance = some balance := by
  unfold Branch.ingredient at h
  split at h
  · cases h
  · rename_i record' hlookup
    split at h
    · cases h
    · rename_i balance' hbalance
      cases h
      exact ⟨hlookup, hbalance⟩

namespace Inventory

/-- A movement that no order has caused. Such a movement has the key of its client, or is an
opening. -/
def InventoryMovement.is_direct (movement : InventoryMovement) : Prop :=
  movement.order_id = none ∧ movement.kind ≠ .consumption

/-- A write to the rows of an ingredient that rewrites them. The hypotheses say what the callers
have changed in the record before they call `record_inventory_transition`: nothing about its
revision and its episodes, and its movements and balance as the posting says. -/
theorem write_of_recorded {db db' : Branch} {record record₁ : IngredientRecord}
    {balance balance₁ : InventoryBalance} {posting : Option InventoryMovement} {draw : Draw}
    {source : InventoryTransitionSource} {actor_user_id : Option UUID} {order_id : Option ℕ}
    (h : record_inventory_transition db draw db.organization_id record₁ balance₁
      (some (inventory_state_snapshot db.organization_id db.restaurant_id record.item balance)) source
      actor_user_id order_id = .ok db')
    (hlookup : Keyed.lookup IngredientRecord.id record.id db.ingredients = some record)
    (hbalance : record.balance = some balance) (hid : record₁.id = record.id)
    (hrevision : record₁.item.state_revision = record.item.state_revision)
    (hepisodes : record₁.episodes = record.episodes)
    (hposting : Posting record.movements balance posting record₁.movements balance₁)
    (hname : record₁.item.normalized_name = record.item.normalized_name ∨
      NameFree db record.id record₁.item.normalized_name) :
    Write db record.id (.stock posting) db' := by
  obtain ⟨record', events, next_uuid, hrecorded, hnext, hsame, rfl⟩ :=
    record_inventory_transition_ok h
  -- What the transition does to the record is one `Change`, and the rest of the row is as before.
  refine .update hlookup (.rewritten record balance hbalance record₁ balance₁ hid hrevision hepisodes
    hposting hrecorded) hnext ?_ ?_
  · rwa [hepisodes] at hsame
  · rwa [hrecorded.normalized_name]

/-- A write that inserts an ingredient with its opening movement. The record is appended first and
then written by the transition, which is one insertion of the final record. -/
theorem insert_of_recorded {db db' : Branch} {item : Ingredient} {balance : InventoryBalance}
    {movement : InventoryMovement} {draw : Draw} {source : InventoryTransitionSource}
    {actor_user_id : Option UUID} {order_id : Option ℕ}
    (h : record_inventory_transition { db with
        ingredients := db.ingredients ++ [⟨item, some balance, [movement], []⟩]
        next_ingredient_id := item.id + 1 } draw db.organization_id
      ⟨item, some balance, [movement], []⟩ balance none source actor_user_id order_id = .ok db')
    (hbalance : balance = ⟨movement.balance_after, movement.version_after⟩)
    (hkeys : db.Keys) (hfresh : db.next_ingredient_id ≤ item.id) (hrevision : item.state_revision = 1)
    (hafter : movement.balance_after = movement.quantity_delta) (hversion : movement.version_after = 1)
    (hrange : 0 ≤ movement.balance_after ∧ movement.balance_after ≤ MAX_QUANTITY)
    (hname : NameFree db item.id item.normalized_name) :
    Write db item.id (.stock (some movement)) db' := by
  obtain ⟨record', events, next_uuid, hrecorded, hnext, hsame, rfl⟩ :=
    record_inventory_transition_ok h
  have hid : record'.id = item.id := hrecorded.id
  -- The key is fresh, so writing the record replaces the appended one only.
  have hput : Keyed.put IngredientRecord.id record'
      (db.ingredients ++ [⟨item, some balance, [movement], []⟩]) = db.ingredients ++ [record'] := by
    refine Keyed.put_append hid.symm fun r hr => ?_
    have := (hkeys.below r hr).2
    omega
  rw [hbalance] at hrecorded
  have hwrite := Write.insert hfresh hid
    (.created item movement hrevision hafter hversion hrange hrecorded) hnext hsame
    (hrecorded.normalized_name ▸ hname)
  rw [← hput] at hwrite
  exact hwrite

/-- A name that is not a duplicate is free. -/
theorem nameFree_of_duplicate {db : Branch} {normalized_name : String} {id : ℕ}
    (h : duplicate db normalized_name id = false) : NameFree db id normalized_name := by
  intro other hother hne hname
  unfold duplicate at h
  have hfalse := List.any_eq_false.mp h other hother
  simp [hname, hne] at hfalse

/-- What a creation checks of its fields. It is all that does not depend on the stored rows. -/
structure CreateIngredient.Valid (text : Text) (data : CreateIngredient) : Prop where
  /-- Name and unit. -/
  ingredient : ∃ unit, validate_ingredient text data.name data.unit = .ok unit
  /-- The opening stock. -/
  opening : ∃ opening, quantity data.opening_quantity = .ok opening
  /-- The threshold. -/
  threshold : ∃ threshold, quantity data.reorder_threshold = .ok threshold
  /-- The key. -/
  key : valid_key data.idempotency_key

/-- What a stock change checks of its fields. -/
structure ChangeStock.Valid (text : Text) (data : ChangeStock) (kind : MovementKind) : Prop where
  /-- The kind. -/
  known : InventoryService.stock_kind data.kind = some kind
  /-- The reason. -/
  reason : text.strip data.reason ≠ "" ∧ data.reason.length ≤ 500
  /-- The quantity. -/
  amount : ∃ amount, Inventory.quantity data.quantity (kind ≠ .count) = .ok amount
  /-- A count states the version it has seen. -/
  version : ¬ (kind = .count ∧ data.expected_version = none)
  /-- The key. -/
  key : valid_key data.idempotency_key

end Inventory

namespace InventoryService

/-- Preparing a request shows that it is made in the restaurant's organization. -/
theorem prepare_ok {db : Branch} {context : AccessContext} {capability : Capability} {u : Unit}
    (h : prepare db context capability = .ok u) :
    context.organization_id = db.organization_id := by
  obtain ⟨_, hrestaurant, -⟩ := bind_eq_ok.mp h
  exact Branch.restaurant_ok hrestaurant

/-- A creation returns the ingredient of its key, or it inserts one with its opening movement. The
validity of the data is read off the checks before it. -/
theorem create_ok {lib : Library} {context : AccessContext} {data : CreateIngredient} {draw : Draw}
    {db db' : Branch} {view : IngredientView} (hkeys : db.Keys)
    (h : create lib context data draw db = .ok (db', view)) :
    data.Valid lib.toText ∧ ∃ opening threshold, data.opening_quantity.value = some opening ∧
      data.reorder_threshold.value = some threshold ∧
      (((∃ found record balance, replay_opening db data.idempotency_key = some found ∧
          found.2.request_fingerprint =
            some (lib.fingerprint (.create data.name data.unit threshold opening)) ∧
          db.ingredient found.1.id = .ok (record, balance) ∧
          view = response db record.item balance) ∧ db' = db) ∨
        (replay_opening db data.idempotency_key = none ∧ ∃ movement : InventoryMovement,
          db.next_ingredient_id ≤ view.id ∧ movement.kind = .opening ∧
          movement.idempotency_key = some data.idempotency_key ∧
          movement.request_fingerprint =
            some (lib.fingerprint (.create data.name data.unit threshold opening)) ∧
          movement.is_direct ∧ Write db view.id (.stock (some movement)) db')) := by
  obtain ⟨_, hprepare, h⟩ := bind_eq_ok.mp h
  have horganization := prepare_ok hprepare
  obtain ⟨unit, hunit, h⟩ := bind_eq_ok.mp h
  obtain ⟨opening, hopening, h⟩ := bind_eq_ok.mp h
  obtain ⟨threshold, hthreshold, h⟩ := bind_eq_ok.mp h
  obtain ⟨_, hkey, h⟩ := bind_eq_ok.mp h
  refine ⟨⟨⟨unit, hunit⟩, ⟨opening, hopening⟩, ⟨threshold, hthreshold⟩, ensure_eq_ok.mp hkey⟩,
    opening, threshold, quantity_value hopening, quantity_value hthreshold, ?_⟩
  -- The first branch of the service repeats the answer to an earlier request, the second one
  -- creates.
  cases hreplay : replay_opening db data.idempotency_key with
  | some found =>
    simp only [hreplay] at h
    obtain ⟨_, hsignature, h⟩ := bind_eq_ok.mp h
    obtain ⟨⟨record, balance⟩, hrecord, h⟩ := bind_eq_ok.mp h
    obtain ⟨rfl, rfl⟩ := Prod.mk.inj (pure_eq_ok.mp h)
    exact Or.inl ⟨⟨found, record, balance, rfl, ensure_eq_ok.mp hsignature, hrecord, rfl⟩, rfl⟩
  | none =>
    simp only [hreplay] at h
    obtain ⟨_, hduplicate, h⟩ := bind_eq_ok.mp h
    obtain ⟨_, -, h⟩ := bind_eq_ok.mp h
    obtain ⟨db₁, hrecord, h⟩ := bind_eq_ok.mp h
    -- Every check has passed: the duplicate's gives that the name is free.
    obtain ⟨rfl, rfl⟩ := Prod.mk.inj (pure_eq_ok.mp h)
    obtain ⟨hnonneg, hmax, -⟩ := quantity_ok hopening
    rw [horganization] at hrecord
    -- No ingredient has the key zero, so none is left out of the check for duplicates.
    have hname : NameFree db (db.next_ingredient_id + draw.gap) (lib.casefold data.name) :=
      fun other hother _ => nameFree_of_duplicate (ensure_eq_ok.mp hduplicate) other hother
        (hkeys.below other hother).1.ne'
    have hwrite := insert_of_recorded hrecord rfl hkeys (Nat.le_add_right _ _) rfl rfl rfl
      ⟨hnonneg, hmax⟩ hname
    exact Or.inr ⟨rfl, _, Nat.le_add_right _ _, rfl, rfl, rfl, ⟨rfl, by simp⟩, hwrite⟩

/-- An update rewrites an ingredient and posts nothing. Its balance is the same, and its state may
have changed with the threshold. -/
theorem update_ok {lib : Library} {context : AccessContext} {ingredient_id : ℕ}
    {data : UpdateIngredient} {draw : Draw} {db db' : Branch} {view : IngredientView}
    (h : update lib context ingredient_id data draw db = .ok (db', view)) :
    Write db ingredient_id (.stock none) db' := by
  obtain ⟨_, hprepare, h⟩ := bind_eq_ok.mp h
  have horganization := prepare_ok hprepare
  obtain ⟨⟨record, balance⟩, hingredient, h⟩ := bind_eq_ok.mp h
  obtain ⟨hlookup, hbalance⟩ := Branch.ingredient_ok hingredient
  obtain ⟨unit, -, h⟩ := bind_eq_ok.mp h
  obtain ⟨_, hduplicate, h⟩ := bind_eq_ok.mp h
  obtain ⟨_, -, h⟩ := bind_eq_ok.mp h
  obtain ⟨_, -, h⟩ := bind_eq_ok.mp h
  obtain ⟨threshold, -, h⟩ := bind_eq_ok.mp h
  obtain ⟨db₁, hrecord, h⟩ := bind_eq_ok.mp h
  obtain rfl := (Prod.mk.inj (pure_eq_ok.mp h)).1
  rw [horganization] at hrecord
  obtain rfl : record.id = ingredient_id := Keyed.lookup_key hlookup
  exact write_of_recorded hrecord hlookup hbalance rfl rfl rfl .kept
    (Or.inr (nameFree_of_duplicate (ensure_eq_ok.mp hduplicate)))

/-- The kind of a stock request is neither a consumption nor an opening. -/
theorem stock_kind_ne {text : String} {kind : MovementKind} (h : stock_kind text = some kind) :
    kind ≠ .consumption ∧ kind ≠ .opening := by
  unfold stock_kind at h
  split_ifs at h <;> cases h <;> simp

/-- A stock change returns the movement of its key, or it posts one. The two outcomes are told apart
by whether the key of the request has a movement. -/
theorem change_ok {lib : Library} {context : AccessContext} {ingredient_id : ℕ}
    {data : ChangeStock} {draw : Draw} {db db' : Branch} {movement : InventoryMovement}
    (h : change lib context ingredient_id data draw db = .ok (db', movement)) :
    ∃ record kind amount, data.Valid lib.toText kind ∧
      Keyed.lookup IngredientRecord.id ingredient_id db.ingredients = some record ∧
      record.balance.isSome = true ∧ data.quantity.value = some amount ∧
      movement.request_fingerprint =
        some (lib.fingerprint (.change data.kind amount data.reason data.expected_version)) ∧
      ((replay_change record data.idempotency_key = some movement ∧ db' = db) ∨
        (replay_change record data.idempotency_key = none ∧
          movement.idempotency_key = some data.idempotency_key ∧ movement.kind ≠ .opening ∧
          movement.is_direct ∧ Write db ingredient_id (.stock (some movement)) db')) := by
  obtain ⟨_, hprepare, h⟩ := bind_eq_ok.mp h
  have horganization := prepare_ok hprepare
  obtain ⟨⟨record, balance⟩, hingredient, h⟩ := bind_eq_ok.mp h
  obtain ⟨hlookup, hbalance⟩ := Branch.ingredient_ok hingredient
  cases hkind : stock_kind data.kind with
  | none => simp [hkind] at h
  | some kind =>
    simp only [hkind] at h
    obtain ⟨_, hreason, h⟩ := bind_eq_ok.mp h
    obtain ⟨amount, hamount, h⟩ := bind_eq_ok.mp h
    obtain ⟨_, hversion, h⟩ := bind_eq_ok.mp h
    obtain ⟨_, hkey, h⟩ := bind_eq_ok.mp h
    refine ⟨record, kind, amount, ⟨hkind, ensure_eq_ok.mp hreason, ⟨amount, hamount⟩,
      ensure_eq_ok.mp hversion, ensure_eq_ok.mp hkey⟩, hlookup, by rw [hbalance]; rfl,
      quantity_value hamount, ?_⟩
    -- A movement of this key is returned if the data are the same; otherwise one is posted.
    cases hreplay : replay_change record data.idempotency_key with
    | some found =>
      simp only [hreplay] at h
      obtain ⟨_, hsignature, h⟩ := bind_eq_ok.mp h
      obtain ⟨rfl, rfl⟩ := Prod.mk.inj (pure_eq_ok.mp h)
      exact ⟨ensure_eq_ok.mp hsignature, Or.inl ⟨rfl, rfl⟩⟩
    | none =>
      simp only [hreplay] at h
      obtain ⟨_, -, h⟩ := bind_eq_ok.mp h
      obtain ⟨delta, -, h⟩ := bind_eq_ok.mp h
      obtain ⟨_, hnonneg, h⟩ := bind_eq_ok.mp h
      obtain ⟨_, hrange, h⟩ := bind_eq_ok.mp h
      obtain ⟨db₁, hrecord, h⟩ := bind_eq_ok.mp h
      obtain ⟨rfl, rfl⟩ := Prod.mk.inj (pure_eq_ok.mp h)
      rw [horganization] at hrecord
      -- The range checks are what the posting has to know of the new balance.
      obtain rfl : record.id = ingredient_id := Keyed.lookup_key hlookup
      refine ⟨rfl, Or.inr ⟨rfl, rfl, (stock_kind_ne hkind).2, ⟨rfl, (stock_kind_ne hkind).1⟩, ?_⟩⟩
      exact write_of_recorded hrecord hlookup hbalance rfl rfl rfl
        (.posted _ rfl rfl ⟨ensure_eq_ok.mp hnonneg, (ensure_eq_ok.mp hrange).1⟩) (Or.inl rfl)

end InventoryService

namespace Inventory

/-- An opened episode is unresolved. -/
theorem unresolved_append_opening (episodes : List InventoryLowStockEpisode)
    {episode : InventoryLowStockEpisode} (h : episode.resolved_at = none) :
    unresolved (episodes ++ [episode]) ≠ none := by
  unfold unresolved
  rw [Ne, List.find?_eq_none]
  exact fun hall => hall episode (by simp) (by rw [h]; rfl)

/-- A baseline is a write to a low ingredient without an open episode, and opens one. Otherwise it
changes nothing; so it can be run over all ingredients at any time. -/
theorem record_baseline_inventory_episode_ok {db db' : Branch} {ingredient_id : ℕ}
    {observed_at : Timestamp} (h : record_baseline_inventory_episode db db.organization_id
      ingredient_id observed_at = .ok db') :
    ∃ record, Keyed.lookup IngredientRecord.id ingredient_id db.ingredients = some record ∧
      ((unresolved record.episodes = none ∧ record.is_low = true ∧ Write db ingredient_id .baseline db' ∧
          ∃ record', Keyed.lookup IngredientRecord.id ingredient_id db'.ingredients = some record' ∧
            unresolved record'.episodes ≠ none) ∨
        (¬ (unresolved record.episodes = none ∧ record.is_low = true) ∧ db' = db)) := by
  obtain ⟨⟨record, balance⟩, hingredient, h⟩ := bind_eq_ok.mp h
  obtain ⟨hlookup, hbalance⟩ := Branch.ingredient_ok hingredient
  have hlow : record.is_low = (inventory_state_snapshot db.organization_id db.restaurant_id record.item
      balance).is_low := by
    unfold IngredientRecord.is_low
    rw [hbalance]
    rfl
  refine ⟨record, hlookup, ?_⟩
  simp only at h
  split_ifs at h with hcase
  · obtain ⟨hnone, hlow'⟩ := hcase
    obtain ⟨_, -, h⟩ := bind_eq_ok.mp h
    obtain rfl := pure_eq_ok.mp h
    have hnone' : unresolved record.episodes = none := Option.isNone_iff_eq_none.mp hnone
    -- The write takes one fresh id, that of the episode.
    have hwrite := Write.update hlookup (.baseline record balance hbalance (hlow.trans hlow') hnone'
      observed_at) (Nat.le_succ db.next_uuid) (Or.inr (Nat.lt_succ_self db.next_uuid)) (Or.inl rfl)
    refine Or.inl ⟨hnone', hlow.trans hlow', by simpa [Branch.write, Branch.put] using hwrite, ?_⟩
    obtain rfl : record.id = ingredient_id := Keyed.lookup_key hlookup
    -- The ingredient is found again under its key, with the new episode open.
    have hself : ∀ record' : IngredientRecord, record'.id = record.id →
        Keyed.lookup IngredientRecord.id record.id
          (Keyed.put IngredientRecord.id record' db.ingredients) = some record' := by
      intro record' hid
      rw [← hid] at hlookup ⊢
      exact Keyed.lookup_put_self hlookup
    exact ⟨_, hself _ rfl, unresolved_append_opening _ rfl⟩
  · obtain ⟨_, -, h⟩ := bind_eq_ok.mp h
    refine Or.inr ⟨fun hboth => hcase ⟨?_, hlow.symm.trans hboth.2⟩, (pure_eq_ok.mp h).symm⟩
    exact Option.isNone_iff_eq_none.mpr hboth.1

end Inventory

end RestaurantOS
