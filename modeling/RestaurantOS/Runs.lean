import RestaurantOS.Effects

/-!
# Runs of the system

A step of the system leaves the rows of a restaurant as they are, or it commits a command that is
executed on them as a whole (`run_step`). What is proved of the effects of commands therefore holds
along every interleaving: `run_branch` is the rule for an invariant of a branch, `run_history` the
rule for a statement that also speaks of the run so far. -/

namespace RestaurantOS

open Fallible Catalog Events Inventory Orders Tenancy

/-! ## What every effect keeps -/

/-- The keys of the ingredients are in order, and their balances in range. -/
structure Branch.Sane (db : Branch) : Prop where
  /-- The keys of the ingredients are in order. -/
  keys : db.Keys
  /-- A balance is in range. -/
  range : ∀ record ∈ db.ingredients, ∀ balance ∈ record.balance,
    0 ≤ balance.quantity ∧ balance.quantity ≤ MAX_QUANTITY

namespace Inventory

/-- A recorded transition leaves the balance and the movements it is given. -/
theorem Recorded.rows {organization_id : UUID} {restaurant_id : ℕ} {episode_id : UUID}
    {record record' : IngredientRecord} {balance : InventoryBalance}
    {before : Option InventoryStateSnapshot} {events : List (EventEnvelope Payload)}
    (h : Recorded organization_id restaurant_id episode_id record balance before record' events) :
    record'.balance = some balance ∧ record'.movements = record.movements := by
  cases h with
  | unchanged => exact ⟨rfl, rfl⟩
  | changed hchanged _ hrevision hitem hbalance hmovements => exact ⟨hbalance, hmovements⟩

/-- What a write does to the balance and the movements of an ingredient: it opens them, or posts at
most one movement. -/
theorem Change.posting {organization_id : UUID} {restaurant_id : ℕ} {episode_id : UUID}
    {old : Option IngredientRecord} {purpose : Purpose} {record' : IngredientRecord}
    {events : List (EventEnvelope Payload)}
    (h : Change organization_id restaurant_id episode_id old purpose record' events) :
    (old = none ∧ ∃ movement, purpose = .stock (some movement) ∧ record'.movements = [movement] ∧
      record'.balance = some ⟨movement.balance_after, movement.version_after⟩ ∧
      movement.balance_after = movement.quantity_delta ∧ movement.version_after = 1 ∧
      0 ≤ movement.balance_after ∧ movement.balance_after ≤ MAX_QUANTITY) ∨
    (∃ record balance balance', old = some record ∧ record.balance = some balance ∧
      record'.balance = some balance' ∧
      Posting record.movements balance purpose.posting record'.movements balance') := by
  cases h with
  | created item movement hrevision hafter hversion hrange h =>
    obtain ⟨hbalance, hmovements⟩ := h.rows
    exact Or.inl ⟨rfl, movement, rfl, hmovements, hbalance, hafter, hversion, hrange⟩
  | rewritten record balance hbalance record₁ balance₁ hid hrevision hepisodes hposting h =>
    obtain ⟨hbalance', hmovements⟩ := h.rows
    exact Or.inr ⟨record, balance, balance₁, rfl, hbalance, hbalance', hmovements ▸ hposting⟩
  | baseline record balance hbalance =>
    exact Or.inr ⟨record, balance, balance, rfl, hbalance, hbalance, .kept⟩

/-- A posting keeps the balance in range. -/
theorem Posting.range {movements movements' : List InventoryMovement}
    {balance balance' : InventoryBalance} {posting : Option InventoryMovement}
    (h : Posting movements balance posting movements' balance')
    (hrange : 0 ≤ balance.quantity ∧ balance.quantity ≤ MAX_QUANTITY) :
    0 ≤ balance'.quantity ∧ balance'.quantity ≤ MAX_QUANTITY := by
  cases h with
  | kept => exact hrange
  | posted movement hafter hversion hrange => exact hrange

/-- What every change of a record keeps, a write keeps of all records. -/
theorem Write.records {db db' : Branch} {id : ℕ} {purpose : Purpose}
    {Q : IngredientRecord → Prop} (h : Write db id purpose db') (hkeys : db.Keys)
    (hQ : ∀ record ∈ db.ingredients, Q record)
    (hchange : ∀ old record' events episode_id, (∀ record ∈ old, Q record) →
      Change db.organization_id db.restaurant_id episode_id old purpose record' events → Q record') :
    ∀ record ∈ db'.ingredients, Q record := by
  intro record hrecord
  have hlookup := (h.keys hkeys).unique.lookup_eq_some.mpr ⟨hrecord, rfl⟩
  by_cases hid : record.id = id
  · obtain ⟨record', events, hlookup', hrow, -⟩ := h.change hkeys
    rw [hid, hlookup'] at hlookup
    obtain rfl := Option.some.inj hlookup
    exact hchange _ _ _ _ (fun r hr => hQ r (Keyed.lookup_mem hr)) hrow
  · rw [h.lookup_ne hid] at hlookup
    exact hQ record (Keyed.lookup_mem hlookup)

/-- What every change of a record keeps, a list of writes keeps of all records. -/
theorem Writes.records {db db' : Branch} {ws : List (ℕ × Purpose)}
    {Q : IngredientRecord → Prop} (h : Writes db ws db') (hkeys : db.Keys)
    (hQ : ∀ record ∈ db.ingredients, Q record)
    (hchange : ∀ old purpose record' events episode_id, (∀ record ∈ old, Q record) →
      Change db.organization_id db.restaurant_id episode_id old purpose record' events → Q record') :
    ∀ record ∈ db'.ingredients, Q record := by
  induction h with
  | nil => exact hQ
  | @snoc ws db₁ db₂ id purpose h hnew hwrite ih =>
    refine hwrite.records (h.keys hkeys) ih fun old record' events episode_id hold hrow => ?_
    rw [h.frame.organization_id, h.frame.restaurant_id] at hrow
    exact hchange old purpose record' events episode_id hold hrow

end Inventory

variable {db db' : Branch} {command : Command}

/-- The writes of an effect, and the rest. Whatever is no write of an ingredient leaves the
ingredients alone. -/
theorem Effect.writes (h : Effect db command db') :
    ∃ ws db₁ events, Writes db ws db₁ ∧ db₁.Rest db' events := by
  have hrefl : ∀ db : Branch, db.Rest db [] := fun db =>
    ⟨rfl, rfl, rfl, rfl, le_rfl, (List.append_nil _).symm⟩
  cases h with
  | replayed => exact ⟨[], db, [], .nil, hrefl db⟩
  | stock hcommand ws hwrites hdirect => exact ⟨ws, db', [], hwrites, hrefl db'⟩
  | initialized hcommand hfresh ws hwrites hnone hcovered =>
    exact ⟨ws, _, [], hwrites, rfl, rfl, rfl, rfl, le_rfl, (List.append_nil _).symm⟩
  | catalog hcommand events hrest => exact ⟨[], db, events, .nil, hrest⟩
  | order_created hcommand order hfresh hstatus hprocessed hrevision hrest =>
    exact ⟨[], db, [], .nil, hrest⟩
  | order_updated hcommand before after hlookup hupdated ws hwrites haccepts hother events hevents
      hrest => exact ⟨ws, _, events, hwrites, hrest⟩
  | order_deleted hcommand order hlookup hhistory event hpayload hrevision hrest =>
    exact ⟨[], db, [event], .nil, hrest⟩

/-- What every change of a record keeps, a command keeps of all records. -/
theorem Effect.records {Q : IngredientRecord → Prop} (h : Effect db command db') (hkeys : db.Keys)
    (hQ : ∀ record ∈ db.ingredients, Q record)
    (hchange : ∀ old purpose record' events episode_id, (∀ record ∈ old, Q record) →
      Change db.organization_id db.restaurant_id episode_id old purpose record' events → Q record') :
    ∀ record ∈ db'.ingredients, Q record := by
  obtain ⟨ws, db₁, events, hwrites, hrest⟩ := h.writes
  rw [hrest.ingredients]
  exact hwrites.records hkeys hQ hchange

/-- A record after a command was there before, or is what a write of the command has left. It is
through this lemma that an invariant of single ingredients is carried over a command. -/
theorem Effect.record_cases (h : Effect db command db') (hkeys : db.Keys) {record : IngredientRecord}
    (hrecord : record ∈ db'.ingredients) :
    record ∈ db.ingredients ∨ ∃ purpose events episode_id, db.next_uuid ≤ episode_id ∧
      Change db.organization_id db.restaurant_id episode_id
        (Keyed.lookup IngredientRecord.id record.id db.ingredients) purpose record events ∧
      (purpose = .baseline → db'.initialized = true) := by
  have hwrites : ∀ {ws : List (ℕ × Purpose)} {db₁ : Branch}, Writes db ws db₁ →
      record ∈ db₁.ingredients →
      (∀ id purpose, (id, purpose) ∈ ws → purpose = .baseline → db'.initialized = true) →
      record ∈ db.ingredients ∨ ∃ purpose events episode_id, db.next_uuid ≤ episode_id ∧
        Change db.organization_id db.restaurant_id episode_id
          (Keyed.lookup IngredientRecord.id record.id db.ingredients) purpose record events ∧
        (purpose = .baseline → db'.initialized = true) := by
    intro ws db₁ hwrites hrecord hbaseline
    have hlookup := (hwrites.keys hkeys).unique.lookup_eq_some.mpr ⟨hrecord, rfl⟩
    -- The ingredient is one of those that are written, once each, or none of them.
    by_cases hid : record.id ∈ ws.map Prod.fst
    · obtain ⟨⟨id, purpose⟩, hmem, hid⟩ := List.mem_map.mp hid
      obtain rfl : id = record.id := hid
      obtain ⟨record', events, episode_id, hfresh, hlookup', hchange⟩ := hwrites.change hkeys hmem
      obtain rfl := Option.some.inj (hlookup.symm.trans hlookup')
      exact Or.inr ⟨purpose, events, episode_id, hfresh, hchange, hbaseline _ _ hmem⟩
    · rw [hwrites.lookup_of_not_mem hid] at hlookup
      exact Or.inl (Keyed.lookup_mem hlookup)
  -- The writes of a stock command are postings, so a baseline is none of them.
  have hstock : ∀ {ws : List (ℕ × Purpose)},
      (∀ id purpose, (id, purpose) ∈ ws → ∃ posting, purpose = .stock posting) →
      ∀ id purpose, (id, purpose) ∈ ws → purpose = .baseline → db'.initialized = true := by
    rintro ws hws id purpose hmem rfl
    obtain ⟨posting, hposting⟩ := hws id _ hmem
    cases hposting
  cases h with
  | replayed => exact Or.inl hrecord
  | stock hcommand ws hws hdirect =>
    refine hwrites hws hrecord (hstock fun id purpose hmem => ?_)
    obtain ⟨posting, hposting, -⟩ := hdirect id purpose hmem
    exact ⟨posting, hposting⟩
  | initialized hcommand hfresh ws hws => exact hwrites hws hrecord fun _ _ _ _ => rfl
  | catalog hcommand events hrest => exact Or.inl (hrest.ingredients ▸ hrecord)
  | order_created hcommand order hfresh hstatus hprocessed hrevision hrest =>
    exact Or.inl (hrest.ingredients ▸ hrecord)
  | order_updated hcommand before after hlookup hupdated ws hws haccepts hother events hevents
      hrest =>
    -- An update of an order writes only if it accepts, and then it consumes.
    refine hwrites hws (hrest.ingredients ▸ hrecord) (hstock fun id purpose hmem => ?_)
    by_cases hyes : accepts before after
    · obtain ⟨movement, hposting, -⟩ := (haccepts hyes).posts id purpose hmem
      exact ⟨_, hposting⟩
    · rw [hother hyes] at hmem
      exact absurd hmem List.not_mem_nil
  | order_deleted hcommand order hlookup hhistory event hpayload hrevision hrest =>
    exact Or.inl (hrest.ingredients ▸ hrecord)

/-- No command removes an ingredient. The rows are written again under their keys. -/
theorem Effect.keeps_ingredients (h : Effect db command db') (hkeys : db.Keys)
    {record : IngredientRecord} (hrecord : record ∈ db.ingredients) :
    ∃ record' ∈ db'.ingredients, record'.id = record.id := by
  obtain ⟨ws, db₁, events, hwrites, hrest⟩ := h.writes
  rw [hrest.ingredients]
  have hlookup := hkeys.unique.lookup_eq_some.mpr ⟨hrecord, rfl⟩
  by_cases hid : record.id ∈ ws.map Prod.fst
  · obtain ⟨⟨id, purpose⟩, hmem, hid⟩ := List.mem_map.mp hid
    obtain rfl : id = record.id := hid
    obtain ⟨record', -, -, -, hlookup', -⟩ := hwrites.change hkeys hmem
    exact ⟨record', Keyed.lookup_mem hlookup', Keyed.lookup_key hlookup'⟩
  · rw [← hwrites.lookup_of_not_mem hid] at hlookup
    exact ⟨record, Keyed.lookup_mem hlookup, rfl⟩

/-- A restaurant stays initialized, and initialization leaves no low ingredient without an open
episode. -/
theorem Effect.initialization (h : Effect db command db') :
    db'.initialized = db.initialized ∨ (db'.initialized = true ∧ ∀ record ∈ db'.ingredients,
      record.is_low = true → unresolved record.episodes ≠ none) := by
  cases h with
  | replayed => exact Or.inl rfl
  | stock hcommand ws hwrites hdirect => exact Or.inl hwrites.frame.initialized
  | initialized hcommand hfresh ws hwrites hnone hcovered => exact Or.inr ⟨rfl, hcovered⟩
  | catalog hcommand events hrest hevents horders hnext hinitialized => exact Or.inl hinitialized
  | order_created hcommand order hfresh hstatus hprocessed hrevision hrest horders hnext
      hinitialized => exact Or.inl hinitialized
  | order_updated hcommand before after hlookup hupdated ws hwrites haccepts hother events hevents
      hrest horders hnext hinitialized => exact Or.inl hinitialized
  | order_deleted hcommand order hlookup hhistory event hpayload hrevision hrest horders hnext
      hinitialized => exact Or.inl hinitialized

/-- Only the maintenance initializes a restaurant. Every other command reads the flag at most. -/
theorem Effect.initialized_kept (h : Effect db command db')
    (hcommand : ∀ organization_id, command ≠ .maintenance_initialization organization_id) :
    db'.initialized = db.initialized := by
  cases h with
  | replayed => rfl
  | stock _ ws hwrites hdirect => exact hwrites.frame.initialized
  | initialized _ hfresh ws hwrites hnone hcovered hmaintenance =>
    obtain ⟨organization_id, heq⟩ := hmaintenance
    exact absurd heq (hcommand organization_id)
  | catalog _ events hrest hevents horders hnext hinitialized => exact hinitialized
  | order_created _ order hfresh hstatus hprocessed hrevision hrest horders hnext hinitialized =>
    exact hinitialized
  | order_updated _ before after hlookup hupdated ws hwrites haccepts hother events hevents hrest
      horders hnext hinitialized => exact hinitialized
  | order_deleted _ order hlookup hhistory event hpayload hrevision hrest horders hnext
      hinitialized => exact hinitialized

/-- A command keeps the keys in order and the balances in range. -/
theorem Effect.sane (h : Effect db command db') (hsane : db.Sane) : db'.Sane := by
  refine ⟨?_, h.records hsane.keys hsane.range ?_⟩
  · obtain ⟨ws, db₁, events, hwrites, hrest⟩ := h.writes
    have hkeys := hwrites.keys hsane.keys
    refine ⟨?_, ?_, ?_⟩
    · rw [hrest.ingredients]
      exact hkeys.unique
    · rw [hrest.ingredients, hrest.next_ingredient_id]
      exact hkeys.below
    · rw [hrest.next_ingredient_id]
      exact hkeys.next
  · intro old purpose record' events episode_id hold hrow balance' hbalance'
    rcases hrow.posting with ⟨-, movement, -, -, hbalance, -, -, hrange⟩ |
      ⟨record, balance, balance₁, rfl, hbalance, hbalance₁, hposting⟩
    · rw [hbalance] at hbalance'
      rw [← Option.mem_some_iff.mp hbalance']
      exact hrange
    · rw [hbalance₁] at hbalance'
      rw [← Option.mem_some_iff.mp hbalance']
      exact hposting.range (hold record rfl balance hbalance)

/-- The rows of the legacy database have their keys in order and their balances in range. -/
theorem LegacyBranch.sane (start : LegacyBranch) : start.toBranch.Sane :=
  ⟨⟨start.legacy.ingredients, start.legacy.ingredients_below, start.legacy.next_ingredient⟩,
    start.legacy.balances⟩

/-! ## Runs -/

variable (lib : Library) (start : ℕ → LegacyBranch)

/-- A step of a run either leaves the rows of a restaurant as they are, or commits a command that is
executed on them as a whole. -/
theorem run_step_exec (acts : List Act) (a : Act) (k : ℕ) :
    (run lib start (acts ++ [a])).rows k = (run lib start acts).rows k ∨
      ∃ i request draw value response, a = .finish i ∧ request.restaurant_id = k ∧
        (run lib start acts).processes[i]? = some ⟨request, .executed (.ok (value, response))⟩ ∧
        (run lib start (acts ++ [a])).processes[i]? = some ⟨request, .committed response⟩ ∧
        exec lib request.command draw ((run lib start acts).rows k) = .ok (value, response) ∧
        (run lib start (acts ++ [a])).rows k = value := by
  have hinv := Serial.run_inv (system lib) (fun k => (start k).toBranch) acts
  have hstep : run lib start (acts ++ [a]) = (run lib start acts).step (system lib) a :=
    Transition.run_concat _ _ acts a
  rw [hstep]
  rcases Serial.step_rows hinv a k with hsame |
    ⟨i, request, draw, value, response, rfl, hprocess, hkey, hexec, hrows⟩
  · exact Or.inl hsame
  · exact Or.inr ⟨i, request, draw, value, response, rfl, hkey, hprocess,
      Serial.step_finish hprocess, hexec, hrows⟩

/-- The rows of every restaurant are sane in every reachable state. -/
theorem run_sane (acts : List Act) (k : ℕ) : ((run lib start acts).rows k).Sane := by
  induction acts using List.reverseRecOn with
  | nil => exact (start k).sane
  | append_singleton acts a ih =>
    rcases run_step_exec lib start acts a k with hsame |
      ⟨i, request, draw, value, response, -, -, -, -, hexec, hrows⟩
    · rw [hsame]
      exact ih
    · rw [hrows]
      exact (exec_effect ih.keys ih.range hexec).sane ih

/-- A step of a run leaves the rows of a restaurant as they are, or has the effect of a command. -/
theorem run_step (acts : List Act) (a : Act) (k : ℕ) :
    (run lib start (acts ++ [a])).rows k = (run lib start acts).rows k ∨
      ∃ command, Effect ((run lib start acts).rows k) command
        ((run lib start (acts ++ [a])).rows k) := by
  rcases run_step_exec lib start acts a k with hsame |
    ⟨i, request, draw, value, response, -, -, -, -, hexec, hrows⟩
  · exact Or.inl hsame
  · have hsane := run_sane lib start acts k
    exact Or.inr ⟨request.command, hrows ▸ exec_effect hsane.keys hsane.range hexec⟩

/-- A statement about the run so far and the rows it leads to, which holds at the start and is kept by
every step that has an effect, holds of every run. -/
theorem run_history {M : List Act → Branch → Prop} (k : ℕ) (hstart : M [] (start k).toBranch)
    (hsame : ∀ acts a, M acts ((run lib start acts).rows k) →
      (run lib start (acts ++ [a])).rows k = (run lib start acts).rows k →
        M (acts ++ [a]) ((run lib start acts).rows k))
    (hstep : ∀ acts a command, M acts ((run lib start acts).rows k) →
      ((run lib start acts).rows k).Sane →
      Effect ((run lib start acts).rows k) command ((run lib start (acts ++ [a])).rows k) →
        M (acts ++ [a]) ((run lib start (acts ++ [a])).rows k)) (acts : List Act) :
    M acts ((run lib start acts).rows k) := by
  induction acts using List.reverseRecOn with
  | nil => exact hstart
  | append_singleton acts a ih =>
    rcases run_step lib start acts a k with heq | ⟨command, heffect⟩
    · have hnext := hsame acts a ih heq
      rwa [← heq] at hnext
    · exact hstep acts a command ih (run_sane lib start acts k) heffect

variable {lib start}

/-- What holds of the legacy rows and is kept by every command holds in every reachable state. -/
theorem run_branch {P : Branch → Prop} (k : ℕ) (hstart : P (start k).toBranch)
    (hstep : ∀ db command db', db.Sane → Effect db command db' → P db → P db') (acts : List Act) :
    P ((run lib start acts).rows k) :=
  run_history (M := fun _ db => P db) lib start k hstart (fun _ _ h _ => h)
    (fun _ _ _ h hsane heffect => hstep _ _ _ hsane heffect h) acts

end RestaurantOS
