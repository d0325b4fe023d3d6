import RestaurantOS.Events.Runs

/-!
# What a handler is given

An execution holds a claim whose event is the decoded row of the outbox and whose consumer is
subscribed to its type (`World.Decoded`); the row stays where it is, so every action keeps this. Only
an inserted event adds to the outbox, and only an effect whose receipt is committed adds to the
committed effects, which then get the route of its claim (`effect_effects`). -/

namespace RestaurantOS.Events

variable {π ρ : Type}

/-! ## What an attempt begins with -/

namespace ConsumerExecutionService

variable (service : ConsumerExecutionService π ρ)

/-- A claim is of the decoded row, and its consumer has subscribed. -/
theorem start_attempt_claimed {event : OutboxEvent π} {r row : DeliveryRecord} {worker_id : String}
    {now : Timestamp} {fresh : UUID} {claim : AttemptClaim ρ}
    (h : service.start_attempt event r worker_id now fresh = some (row, .claimed claim)) :
    deserialize_event service.validate_python event = .ok claim.event ∧
      claim.consumer = r.delivery.consumer_name ∧
      claim.consumer ∈ SUBSCRIPTIONS claim.event.event_type := by
  unfold start_attempt at h
  split at h
  · cases h
  · -- The event decodes, and the route is checked before the claim.
    rename_i envelope hdecode
    split_ifs at h with hroute hhandler hcount
    · cases h
    · cases h
    · cases h
      refine ⟨?_, rfl, hroute⟩
      unfold decode at hdecode
      split at hdecode
      · rename_i hok
        cases hdecode
        exact hok
      all_goals cases hdecode
    · cases h
  · -- What does not decode is not claimed.
    split_ifs at h
    · cases h
    · cases h

/-- So is a claim of the locked row. The decoded event is kept in the claim. -/
theorem start_locked_claimed {event : OutboxEvent π} {r row : DeliveryRecord} {worker_id : String}
    {now : Timestamp} {fresh : UUID} {claim : AttemptClaim ρ}
    (h : service.start_locked event r worker_id now fresh = some (row, .claimed claim)) :
    deserialize_event service.validate_python event = .ok claim.event ∧
      claim.consumer = r.delivery.consumer_name ∧
      claim.consumer ∈ SUBSCRIPTIONS claim.event.event_type := by
  unfold start_locked at h
  split_ifs at h with hreceipt hfailed hone hdue hproc hactive hcount
  iterate 6 cases h
  · exact service.start_attempt_claimed (r := r.release_expired now) h
  · exact service.start_attempt_claimed (r := r) h

end ConsumerExecutionService

/-- A claim is of a decoded row of the outbox, and its consumer has subscribed. -/
structure AttemptClaim.Decoded (deployment : Deployment π ρ) (db : Database π)
    (claim : AttemptClaim ρ) : Prop where
  /-- The row. -/
  event : ∃ event ∈ db.events,
    deserialize_event deployment.validate_python event = .ok claim.event
  /-- The subscription. -/
  subscribed : claim.consumer ∈ SUBSCRIPTIONS claim.event.event_type

/-- So is every claim that an execution is about to run the effect of. -/
def World.Decoded (deployment : Deployment π ρ) (w : World π ρ) : Prop :=
  ∀ i settings claim, w.phase i = some (.claimed settings claim) → claim.Decoded deployment w.database

/-- The rows of the outbox stay. -/
theorem AttemptClaim.Decoded.mono {deployment : Deployment π ρ} {db db' : Database π}
    {claim : AttemptClaim ρ} (h : claim.Decoded deployment db)
    (hevents : ∀ event ∈ db.events, event ∈ db'.events) : claim.Decoded deployment db' := by
  obtain ⟨event, hevent, hdecoded⟩ := h.event
  exact ⟨⟨event, hevents event hevent, hdecoded⟩, h.subscribed⟩

/-! ## The outbox and the committed effects -/

namespace DatabaseStep

variable {policy : RetryPolicy} {db db' : Database π}

/-- No action removes an event. Rows of the outbox are inserted and never deleted. -/
theorem mem_events (h : DatabaseStep policy db db') {event : OutboxEvent π}
    (hevent : event ∈ db.events) : event ∈ db'.events := by
  cases h with
  | rows next f hnext hf => exact hevent
  | inserted event' consumers now =>
    unfold Database.persist
    split_ifs
    · exact hevent
    · exact List.mem_append_left _ hevent
  | committed hr hcommit => exact hevent

end DatabaseStep

/-- Deliveries are only inserted together with their event. Otherwise rows are changed in place. -/
theorem DatabaseStep.routes {policy : RetryPolicy} {db db' : Database π}
    (hinv : DatabaseInv policy db) (h : DatabaseStep policy db db') (hevents : db'.events = db.events) :
    db'.deliveries.map DeliveryRecord.route = db.deliveries.map DeliveryRecord.route := by
  cases h with
  | rows next f hnext hf =>
    rw [List.map_map]
    exact List.map_congr_left fun r hr => (hf r hr).identity.2
  -- An insertion adds its event too, so it is none.
  | inserted event consumers now =>
    unfold Database.persist at hevents ⊢
    split_ifs at hevents ⊢
    · rfl
    · have hlength := congrArg List.length hevents
      rw [List.length_append, List.length_singleton] at hlength
      omega
  -- The effect is written to a row that keeps its route.
  | @committed r r' hr hcommit =>
    obtain ⟨hid, hroute, -⟩ := hcommit.frame
    show (db.write (some r')).deliveries.map DeliveryRecord.route = _
    rw [Database.write_eq, List.map_map]
    refine List.map_congr_left fun x hx => ?_
    show (if x.id = r'.id then r' else x).route = x.route
    split_ifs with hsame
    · rw [hroute, hinv.ids.eq_of_key hx hr (hsame.trans hid)]
    · rfl

namespace Database

/-- An event is inserted with its deliveries if its key is new, and otherwise nothing is. -/
theorem persist_cases (db : Database π) (event : OutboxEvent π) {consumers : List ConsumerName}
    (hnodup : consumers.Nodup) (now : Timestamp) :
    ((Keyed.lookup OutboxEvent.event_id event.event_id db.events).isSome ∧
      db.persist event consumers now = db) ∨
    (Keyed.lookup OutboxEvent.event_id event.event_id db.events = none ∧
      (db.persist event consumers now).events = db.events ++ [event] ∧
      (db.persist event consumers now).deliveries.map DeliveryRecord.route =
        db.deliveries.map DeliveryRecord.route ++
          consumers.map fun consumer => (event.event_id, consumer)) := by
  unfold persist
  split_ifs with hguard
  · exact Or.inl ⟨hguard.resolve_right (not_not.mpr hnodup), rfl⟩
  · push Not at hguard
    refine Or.inr ⟨by simpa using hguard.1, rfl, ?_⟩
    rw [List.map_append, inserted_routes]

/-- It leaves the committed effects. -/
theorem effects_persist (db : Database π) (event : OutboxEvent π) (consumers : List ConsumerName)
    (now : Timestamp) : (db.persist event consumers now).effects = db.effects := by
  unfold persist
  split_ifs <;> rfl

end Database

/-- The effect of a claim has not run. -/
def Phase.is_claimed : Phase ρ → Bool
  | .claimed .. => true
  | _ => false

namespace World

variable {w : World π ρ} {i j : ℕ}

/-- The phase of an execution is set. Only the one execution is affected. -/
theorem phase_set_phase (phase : Phase ρ) :
    (w.set_phase i phase).phase j = w.phase j ∨
      i = j ∧ (w.set_phase i phase).phase j = (w.phase j).map fun _ => phase := by
  unfold World.phase World.set_phase
  rw [List.getElem?_modify]
  by_cases hij : i = j
  · right
    refine ⟨hij, ?_⟩
    cases w.executions[j]? with
    | none => rfl
    | some e => simp [hij]
  · left
    cases w.executions[j]? with
    | none => rfl
    | some e => simp [hij]

/-- An execution that has a claim after another phase was set had it before. -/
theorem claimed_of_set_phase {phase : Phase ρ} {settings : ServiceSettings} {claim : AttemptClaim ρ}
    (hphase : phase.is_claimed = false)
    (h : (w.set_phase i phase).phase j = some (.claimed settings claim)) :
    w.phase j = some (.claimed settings claim) := by
  rcases phase_set_phase (w := w) (i := i) (j := j) phase with hsame | ⟨-, hset⟩
  · rwa [← hsame]
  · rw [hset] at h
    obtain ⟨_, -, rfl⟩ := Option.map_eq_some_iff.mp h
    cases hphase

end World

namespace Deployment

variable (deployment : Deployment π ρ) {w : World π ρ}

/-- What `_start` claims is decoded. The claim is made only after the row was decoded and its
consumer found to subscribe. -/
theorem start_claimed {db db' : Database π} {now : Timestamp} {event_id : UUID}
    {consumer : ConsumerName} {fields : Reference} {settings : ServiceSettings} {worker_id : String}
    {locked : Bool} {claim : AttemptClaim ρ}
    (h : deployment.start db now event_id consumer fields settings worker_id locked =
      some (db', .claimed claim)) :
    claim.Decoded deployment db' := by
  rcases deployment.start_cases h with ⟨-, result, hresult, -⟩ |
    ⟨event, r, row, hevent, -, hstart, rfl⟩
  · cases hresult
  · obtain ⟨hdecoded, -, hsubscribed⟩ := (deployment.service settings).start_locked_claimed hstart
    exact ⟨⟨event, Keyed.lookup_mem hevent, hdecoded⟩, hsubscribed⟩

/-- Routing appends an execution, which holds a decoded claim if it holds any. -/
theorem route_claimed (message : StreamMessage) (group : ConsumerName) (settings : ServiceSettings)
    (worker_id : String) (locked : Bool) (fate : Fate) {j : ℕ} {settings' : ServiceSettings}
    {claim : AttemptClaim ρ}
    (h : (deployment.route w message group settings worker_id locked fate).phase j =
      some (.claimed settings' claim)) :
    w.phase j = some (.claimed settings' claim) ∨ claim.Decoded deployment
      (deployment.route w message group settings worker_id locked fate).database := by
  unfold route at h ⊢
  split at h
  · exact Or.inl h
  · split at h
    · exact Or.inl h
    · rename_i event_id _ db started hstart
      split at h
      · -- The new execution is the last one.
        unfold World.phase at h ⊢
        rcases lt_trichotomy j w.executions.length with hlt | rfl | hgt
        · rw [List.getElem?_append_left hlt] at h
          exact Or.inl h
        · right
          cases started with
          | result result => simp at h
          | claimed claim' =>
            simp only [List.getElem?_concat_length, Option.map_some, Option.some.injEq,
              Phase.claimed.injEq] at h
            obtain ⟨-, rfl⟩ := h
            exact deployment.start_claimed hstart
        · rw [List.getElem?_eq_none (by simp; omega)] at h
          cases h
      · left
        split_ifs at h
        · exact h
        · exact h

/-- A claim that is held after an action was held before it, or is decoded. -/
theorem step_claimed (a : Act π) {j : ℕ} {settings : ServiceSettings} {claim : AttemptClaim ρ}
    (h : (deployment.step w a).phase j = some (.claimed settings claim)) :
    w.phase j = some (.claimed settings claim) ∨
      claim.Decoded deployment (deployment.step w a).database := by
  cases a with
  | route message group settings worker_id locked fate =>
    exact deployment.route_claimed message group settings worker_id locked fate h
  -- An effect ends the claim or keeps it as a failure, so a claimed phase was claimed before.
  | effect execution handler fate =>
    left
    replace h : (deployment.effect w execution handler fate).phase j = _ := h
    unfold effect at h
    split at h
    · split at h
      · split at h
        · exact World.claimed_of_set_phase rfl h
        · exact World.claimed_of_set_phase rfl h
      · refine World.claimed_of_set_phase ?_ h
        cases fate <;> rfl
    · exact h
  -- A settlement leaves no claimed phase of its own.
  | settle execution settler jitter fate =>
    left
    replace h : (deployment.settle w execution settler jitter fate).phase j = _ := h
    unfold settle at h
    split at h
    · split at h
      · exact h
      · refine World.claimed_of_set_phase ?_ h
        split
        · split_ifs <;> rfl
        · split_ifs <;> rfl
        all_goals rfl
    · exact h
  -- Acknowledging finishes its execution.
  | acknowledge execution =>
    left
    replace h : (w.acknowledge execution).phase j = _ := h
    unfold World.acknowledge at h
    split at h
    · split_ifs at h
      · exact World.claimed_of_set_phase rfl h
      · exact World.claimed_of_set_phase rfl h
    · exact h
  | crash execution => exact Or.inl (World.claimed_of_set_phase rfl h)
  | replay delivery_id operator reason =>
    left
    unfold step at h
    dsimp only at h
    split at h
    · exact h
    · exact h
  | _ => exact Or.inl h

/-- Every action keeps the claims decoded. -/
theorem step_decoded (hinv : WorldInv deployment w) (h : w.Decoded deployment) (a : Act π) :
    (deployment.step w a).Decoded deployment := by
  intro i settings claim hphase
  have hstep := (deployment.step_action hinv a).database
  rcases deployment.step_claimed a hphase with hold | hnew
  · exact (h i settings claim hold).mono fun event => hstep.mem_events
  · exact hnew

/-- They are decoded in every reachable state. -/
theorem run_decoded (now : Timestamp) (acts : List (Act π)) :
    (deployment.run now acts).Decoded deployment := by
  refine (@Transition.run_invariant _ _ deployment.step
    (fun w => WorldInv deployment w ∧ w.Decoded deployment)
    (fun w a h => ⟨deployment.step_inv w a h.1, deployment.step_decoded h.1 h.2 a⟩)
    _ ⟨deployment.initial_inv now, fun i settings claim h => ?_⟩ acts).2
  cases h

/-- Only an inserted event adds to the outbox. The other transactions write deliveries and the log
of effects. -/
theorem step_outbox (a : Act π) (hpersist : ∀ event consumers lag, a ≠ .persist event consumers lag) :
    (deployment.step w a).database.events = w.database.events := by
  cases a with
  | persist event consumers lag => exact absurd rfl (hpersist event consumers lag)
  | route message group settings worker_id locked fate =>
    show (deployment.route w message group settings worker_id locked fate).database.events = _
    unfold route
    split
    · rfl
    · split
      · rfl
      · rename_i event_id _ db started hstart
        -- The transaction of `_start` writes deliveries only.
        have hevents : db.events = w.database.events := by
          rcases deployment.start_cases hstart with ⟨rfl, -⟩ | ⟨event, r, row, -, -, -, rfl⟩
          · rfl
          · rfl
        split
        · exact hevents
        · split_ifs
          · exact hevents
          · rfl
  | effect execution handler fate =>
    show (deployment.effect w execution handler fate).database.events = _
    unfold effect
    split
    · split
      · split <;> rfl
      · rename_i row result heffect
        show (if fate.persisted then w.database.write_effect row else w.database).events = _
        split_ifs
        · cases row <;> rfl
        · rfl
    · rfl
  | settle execution settler jitter fate =>
    show (deployment.settle w execution settler jitter fate).database.events = _
    unfold settle
    split
    · split
      · rfl
      · rename_i row result hsettle
        show (if fate.persisted then w.database.write row else w.database).events = _
        split_ifs
        · cases row <;> rfl
        · rfl
    · rfl
  | acknowledge execution =>
    show (w.acknowledge execution).database.events = _
    unfold World.acknowledge
    split
    · split_ifs <;> rfl
    · rfl
  | replay delivery_id operator reason =>
    unfold step
    dsimp only
    split <;> rfl
  | _ => rfl

/-- Only a handler that returns an outcome has its effect committed. -/
theorem effect_returned {service : ConsumerExecutionService π ρ} {row : Option DeliveryRecord}
    {claim : AttemptClaim ρ} {now : Timestamp} {handler : HandlerResult} {r' : DeliveryRecord}
    {result : ExecutionResult} (h : service.effect row claim now handler = .ok (some r', result)) :
    ∃ outcome, handler = .returned outcome := by
  unfold ConsumerExecutionService.effect at h
  split at h
  · cases h
  · cases handler with
    | returned outcome => exact ⟨outcome, rfl⟩
    | returned_other =>
      split_ifs at h
      cases h
    | raised error =>
      split_ifs at h
      cases h

/-- An effect that is committed has the route of its claim, and its handler has returned. -/
theorem effect_effects {execution : ℕ} {settings : ServiceSettings} {claim : AttemptClaim ρ}
    (hphase : w.phase execution = some (.claimed settings claim)) (handler : HandlerResult)
    (fate : Fate) :
    (deployment.effect w execution handler fate).database.effects = w.database.effects ∨
      (deployment.effect w execution handler fate).database.effects =
          w.database.effects ++ [claim.route] ∧
        ∃ outcome, handler = .returned outcome := by
  unfold effect
  rw [hphase]
  dsimp only
  -- The handler has failed or the transaction has raised, so nothing is committed.
  split
  · split <;> exact Or.inl rfl
  · rename_i row result heffect
    show (if fate.persisted then w.database.write_effect row else w.database).effects = _ ∨
      (if fate.persisted then w.database.write_effect row else w.database).effects = _ ∧ _
    split_ifs
    · cases row with
      | none => exact Or.inl rfl
      -- The row that is written is that of the claim, and its route goes to the log.
      | some r' =>
        obtain ⟨r, hlock, -, -, -, outcome, rfl⟩ := (deployment.service settings).effect_spec heffect
        refine Or.inr ⟨?_, effect_returned heffect⟩
        show w.database.effects ++ [r.route] = _
        rw [show r.route = claim.route from Keyed.lookup_key hlock]
    · exact Or.inl rfl

/-- No other action commits an effect. The other transactions leave the log of effects alone. -/
theorem step_effects (a : Act π) (heffect : ∀ execution handler fate, a ≠ .effect execution handler fate) :
    (deployment.step w a).database.effects = w.database.effects := by
  cases a with
  | effect execution handler fate => exact absurd rfl (heffect execution handler fate)
  | persist event consumers lag =>
    show (w.database.persist event consumers (w.now - lag)).effects = _
    unfold Database.persist
    split_ifs <;> rfl
  | route message group settings worker_id locked fate =>
    show (deployment.route w message group settings worker_id locked fate).database.effects = _
    unfold route
    split
    · rfl
    · split
      · rfl
      · rename_i event_id _ db started hstart
        have heffects : db.effects = w.database.effects := by
          rcases deployment.start_cases hstart with ⟨rfl, -⟩ | ⟨event, r, row, -, -, -, rfl⟩
          · rfl
          · rfl
        split
        · exact heffects
        · split_ifs
          · exact heffects
          · rfl
  | settle execution settler jitter fate =>
    show (deployment.settle w execution settler jitter fate).database.effects = _
    unfold settle
    split
    · split
      · rfl
      · rename_i row result hsettle
        show (if fate.persisted then w.database.write row else w.database).effects = _
        split_ifs
        · cases row <;> rfl
        · rfl
    · rfl
  | acknowledge execution =>
    show (w.acknowledge execution).database.effects = _
    unfold World.acknowledge
    split
    · split_ifs <;> rfl
    · rfl
  | replay delivery_id operator reason =>
    unfold step
    dsimp only
    split <;> rfl
  | _ => rfl

end Deployment

/-! ## Receipts and effects -/

namespace DatabaseInv

variable {policy : RetryPolicy} {db : Database π}

/-- A committed effect is one of a delivery of an event of the outbox. -/
theorem effect_of_event (h : DatabaseInv policy db) {route : UUID × ConsumerName}
    (hroute : route ∈ db.effects) : (Keyed.lookup OutboxEvent.event_id route.1 db.events).isSome := by
  have hcount := List.count_pos_iff.mpr hroute
  rw [h.effects, List.countP_pos_iff] at hcount
  obtain ⟨r, hr, hmatch⟩ := hcount
  rw [Bool.and_eq_true, decide_eq_true_eq] at hmatch
  have hevent := h.events r hr
  rwa [← hmatch.1]

/-- The effect of a delivery that has succeeded is committed. -/
theorem effect_of_succeeded (h : DatabaseInv policy db) {r : DeliveryRecord} (hr : r ∈ db.deliveries)
    (hsucceeded : r.delivery.status = .succeeded) : r.route ∈ db.effects := by
  refine List.count_pos_iff.mp ?_
  rw [h.effects, List.countP_pos_iff]
  refine ⟨r, hr, ?_⟩
  rw [(h.records r hr).receipt.mpr hsucceeded]
  simp

/-- The committed effects are different. -/
theorem effects_nodup (h : DatabaseInv policy db) : db.effects.Nodup :=
  List.nodup_iff_count_le_one.mpr h.effects_le_one

end DatabaseInv

end RestaurantOS.Events
