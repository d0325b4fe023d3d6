import RestaurantOS.Lib.Ledger
import RestaurantOS.Runs

/-!
# The inventory ledger

The movements of an ingredient that the service has created are a ledger (`Ledger.Posted`) whose last
posting left the stored balance. Every write posts at most one movement, on the balance it has read
under the lock of the restaurant, so the ledger is kept along every interleaving of commands. -/

namespace RestaurantOS

open Fallible Catalog Events Inventory Orders Tenancy

namespace Inventory

/-- The stored balance of an ingredient is what its movements add up to. -/
structure IngredientRecord.Reconciles (record : IngredientRecord) (balance : InventoryBalance) :
    Prop where
  /-- The quantity is the sum of all changes. -/
  quantity : balance.quantity = (record.movements.map (·.quantity_delta)).sum
  /-- The version is the number of movements. -/
  version : balance.version = record.movements.length
  /-- The movements are numbered from one. -/
  versions : record.movements.map (·.version_after) = List.range' 1 record.movements.length
  /-- A movement states the sum of the changes so far. -/
  balances : ∀ i movement, record.movements[i]? = some movement →
    movement.balance_after = ((record.movements.take (i + 1)).map (·.quantity_delta)).sum
  /-- Every stated balance is in range. -/
  range : ∀ movement ∈ record.movements,
    0 ≤ movement.balance_after ∧ movement.balance_after ≤ MAX_QUANTITY

/-- The movements of an ingredient are a ledger that leaves its balance. -/
structure IngredientRecord.Ledgered (record : IngredientRecord) (balance : InventoryBalance) :
    Prop where
  /-- Each movement was posted on what the one before it left. -/
  posted : Ledger.Posted InventoryMovement.quantity_delta InventoryMovement.balance_after
    InventoryMovement.version_after record.movements balance.quantity balance.version
  /-- Every stated balance is in range. -/
  range : ∀ movement ∈ record.movements,
    0 ≤ movement.balance_after ∧ movement.balance_after ≤ MAX_QUANTITY

/-- A balance that a ledger leaves is what the movements add up to. -/
theorem IngredientRecord.Ledgered.reconciles {record : IngredientRecord}
    {balance : InventoryBalance} (h : record.Ledgered balance) : record.Reconciles balance := by
  have hversion := h.posted.version_eq
  refine ⟨h.posted.balance_eq, hversion, ?_, fun i movement hi => h.posted.after_eq hi, h.range⟩
  rw [← hversion]
  exact h.posted.versions

/-- An opening movement starts a ledger. The sum is its delta, and its version is the first. -/
theorem ledgered_opening {record : IngredientRecord} {movement : InventoryMovement}
    (hmovements : record.movements = [movement])
    (hafter : movement.balance_after = movement.quantity_delta) (hversion : movement.version_after = 1)
    (hrange : 0 ≤ movement.balance_after ∧ movement.balance_after ≤ MAX_QUANTITY) :
    record.Ledgered ⟨movement.balance_after, movement.version_after⟩ := by
  constructor
  · rw [hmovements]
    exact .post .nil movement (by rw [hafter, zero_add]) hversion
  · intro m hm
    rw [hmovements] at hm
    rw [List.mem_singleton.mp hm]
    exact hrange

/-- A posting continues the ledger. The balance after it is the one before it and its delta. -/
theorem IngredientRecord.Ledgered.post {record record' : IngredientRecord}
    {balance balance' : InventoryBalance} {posting : Option InventoryMovement}
    (h : record.Ledgered balance)
    (hposting : Posting record.movements balance posting record'.movements balance') :
    record'.Ledgered balance' := by
  obtain ⟨item', stored', movements', episodes'⟩ := record'
  simp only at hposting
  cases hposting with
  | kept => exact ⟨h.posted, h.range⟩
  | posted movement hafter hversion hrange =>
    refine ⟨.post h.posted movement hafter hversion, fun m hm => ?_⟩
    rcases List.mem_append.mp hm with hm | hm
    · exact h.range m hm
    · rw [List.mem_singleton.mp hm]
      exact hrange

/-- Every write keeps the ledger of a created ingredient. A creation starts one, and any other write
continues it or leaves it as it is. -/
theorem Change.ledgered {organization_id : UUID} {restaurant_id : ℕ} {episode_id : UUID}
    {old : Option IngredientRecord} {purpose : Purpose} {record' : IngredientRecord}
    {events : List (EventEnvelope Payload)}
    (h : Change organization_id restaurant_id episode_id old purpose record' events)
    (hold : ∀ record ∈ old, ∃ balance, record.balance = some balance ∧ record.Ledgered balance) :
    ∃ balance, record'.balance = some balance ∧ record'.Ledgered balance := by
  rcases h.posting with ⟨-, movement, -, hmovements, hbalance, hafter, hversion, hrange⟩ |
    ⟨record, balance, balance', rfl, hbalance, hbalance', hposting⟩
  · exact ⟨_, hbalance, ledgered_opening hmovements hafter hversion hrange⟩
  · obtain ⟨balance₀, hbalance₀, hledger⟩ := hold record rfl
    obtain rfl := Option.some.inj (hbalance₀.symm.trans hbalance)
    exact ⟨balance', hbalance', hledger.post hposting⟩

end Inventory

/-- The command repeats an earlier request, by its idempotency key. -/
def Command.is_replay (db : Branch) : Command → Bool
  | .create_ingredient _ data => (replay_opening db data.idempotency_key).isSome
  | .change_stock _ ingredient_id data =>
    (Keyed.lookup IngredientRecord.id ingredient_id db.ingredients).any fun record =>
      (replay_change record data.idempotency_key).isSome
  | .create_order _ command => (submission db command.idempotency_key).isSome
  | _ => false

/-- A replay writes nothing. These are the three requests with an idempotency key; no other command
is a replay. -/
theorem exec_replay {lib : Library} {command : Command} {draw : Draw} {db db' : Branch}
    {response : Response} (hkeys : db.Keys) (hreplay : command.is_replay db = true)
    (h : exec lib command draw db = .ok (db', response)) : db' = db := by
  cases command with
  | create_ingredient context data =>
    obtain ⟨⟨db₁, view⟩, hcreate, h⟩ := bind_eq_ok.mp h
    obtain ⟨rfl, -⟩ := Prod.mk.inj (pure_eq_ok.mp h)
    obtain ⟨-, _, _, -, -, ⟨-, rfl⟩ | ⟨hnone, -⟩⟩ := InventoryService.create_ok hkeys hcreate
    · rfl
    · simp [Command.is_replay, hnone] at hreplay
  | change_stock context id data =>
    obtain ⟨⟨db₁, movement⟩, hchange, h⟩ := bind_eq_ok.mp h
    obtain ⟨rfl, -⟩ := Prod.mk.inj (pure_eq_ok.mp h)
    obtain ⟨record, _, _, -, hlookup, -, -, -, ⟨-, rfl⟩ | ⟨hnone, -⟩⟩ := InventoryService.change_ok hchange
    · rfl
    · simp [Command.is_replay, hlookup, hnone] at hreplay
  | create_order context command =>
    obtain ⟨⟨db₁, snapshot⟩, hcreate, h⟩ := bind_eq_ok.mp h
    obtain ⟨rfl, -⟩ := Prod.mk.inj (pure_eq_ok.mp h)
    rcases OrderService.create_ok hcreate with ⟨-, rfl⟩ | ⟨hnone, -⟩
    · rfl
    · simp [Command.is_replay, hnone] at hreplay
  | _ => simp [Command.is_replay] at hreplay

/-- In every reachable state, the balance of every ingredient that is not of the legacy database is
the sum of its movements, which are numbered from one and each state the sum so far, in range. A
request that fails changes no row in any of its steps, and the commit of a request that repeats an
earlier one changes none. The legacy rows may start with any balance, which is why they are left out
of the first part. -/
theorem inventory_ledger (lib : Library) (start : ℕ → LegacyBranch) (acts : List Act) :
    (∀ k, ∀ record ∈ ((run lib start acts).rows k).ingredients,
      (∀ legacy ∈ (start k).ingredients, legacy.id ≠ record.id) →
        ∃ balance, record.balance = some balance ∧ record.Reconciles balance) ∧
    (∀ i request failure, (run lib start acts).processes[i]? = some ⟨request, .failed failure⟩ →
      ∀ pre a, pre ++ [a] <+: acts → a.process = some i →
        (run lib start (pre ++ [a])).rows = (run lib start pre).rows) ∧
    (∀ i request outcome, (run lib start acts).processes[i]? = some ⟨request, .executed outcome⟩ →
      request.command.is_replay ((run lib start acts).rows request.restaurant_id) = true →
        (run lib start (acts ++ [.finish i])).rows = (run lib start acts).rows) := by
  refine ⟨fun k record hrecord hnew => ?_, ?_, ?_⟩
  · -- The first part by the invariant of every record that is not a legacy one.
    have hledgers := @run_branch lib start (fun db => ∀ record ∈ db.ingredients,
      (∀ legacy ∈ (start k).ingredients, legacy.id ≠ record.id) →
        ∃ balance, record.balance = some balance ∧ record.Ledgered balance) k
      (fun record hrecord hnew => absurd rfl (hnew record hrecord)) ?_ acts
    · obtain ⟨balance, hbalance, hledger⟩ := hledgers record hrecord hnew
      exact ⟨balance, hbalance, hledger.reconciles⟩
    · intro db command db' hsane heffect hdb
      -- A change keeps the ledger of the record that it changes; the others are not touched.
      refine heffect.records hsane.keys hdb fun old purpose record' events episode_id hold hchange hnew =>
        hchange.ledgered fun record hrecord => hold record hrecord ?_
      obtain rfl := Option.mem_def.mp hrecord
      rw [← hchange.id]
      exact hnew
  · exact fun i request failure h pre a hpre ha => Serial.run_failed h hpre ha
  · -- The third part: a commit is the execution of its command on the rows at that time.
    intro i request outcome hprocess hreplay
    funext k
    rcases run_step_exec lib start acts (.finish i) k with hsame |
      ⟨j, request', draw, value, response, hj, rfl, hprocess', -, hexec, hrows⟩
    · exact hsame
    · cases hj
      obtain rfl : request = request' := by
        rw [hprocess] at hprocess'
        cases hprocess'
        rfl
      rw [hrows]
      exact exec_replay (run_sane lib start acts _).keys hreplay hexec

end RestaurantOS
