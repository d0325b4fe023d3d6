import RestaurantOS.Events.Runs

/-!
# Deliveries that cannot be claimed

A delivery whose event cannot be decoded is never being processed, since `_start` claims a delivery
only for a decoded event, and while it is pending its cycle has an attempt left, since every other
transaction leaves the count of such a delivery alone or starts a new cycle (`run_unclaimed`). So
`_start` fails it with the category of the decoding error whenever it is due
(`start_undecodable`).
-/

namespace RestaurantOS.Events

variable {π ρ : Type}

/-- A delivery that nothing has claimed, with an attempt left while it is pending. -/
def DeliveryRecord.Unclaimed (policy : RetryPolicy) (r : DeliveryRecord) : Prop :=
  r.delivery.status ≠ .processing ∧
    (r.delivery.status = .pending → r.delivery.attempt_count < policy.max_attempts)

/-- A delivery that `_start` finds due: it is pending or its claim has expired, it has no receipt, and
its next attempt may start. -/
def DeliveryRecord.Due (now : Timestamp) (r : DeliveryRecord) : Prop :=
  r.receipt = none ∧ r.delivery.next_attempt_at ≤ now ∧
    (r.delivery.status = .pending ∨
      (r.delivery.status = .processing ∧ r.delivery.claim_expires_at.any (now < ·) = false))

namespace ConsumerExecutionService

variable {service : ConsumerExecutionService π ρ} {event : OutboxEvent π} {r : DeliveryRecord}
  {now : Timestamp}

/-- `_start` decodes the event of an unclaimed delivery that is due. -/
theorem start_locked_due (hunclaimed : r.Unclaimed service.policy) (hdue : r.Due now)
    (worker_id : String) (fresh : UUID) :
    service.start_locked event r worker_id now fresh =
      service.start_attempt event r worker_id now fresh := by
  obtain ⟨hreceipt, hnext, hstatus⟩ := hdue
  have hpending : r.delivery.status = .pending :=
    hstatus.resolve_right fun h => hunclaimed.1 h.1
  unfold start_locked
  simp only [hreceipt, hpending, not_lt.mpr hnext, Option.isSome_none, Bool.false_eq_true, false_and,
    or_self, reduceCtorEq, if_false]

/-- `_start` fails an unclaimed delivery that is due with the category of the decoding error. -/
theorem start_undecodable (hunclaimed : r.Unclaimed service.policy) (hdue : r.Due now)
    {category : ErrorCategory} (hdecode : service.decode event = some (.error category))
    (worker_id : String) (fresh : UUID) :
    service.start_locked event r worker_id now fresh =
      some ((r.begin_attempt fresh (fresh + 1) worker_id now
          (now + timedelta_seconds service.lease_seconds) (some category)).clear_claim,
        .result ⟨.contract_rejected category, true, some (safe_identifier event.correlation_id)⟩) := by
  have hcount : r.delivery.attempt_count < service.policy.max_attempts :=
    hunclaimed.2 (hdue.2.2.resolve_right fun h => hunclaimed.1 h.1)
  rw [start_locked_due hunclaimed hdue, start_attempt, hdecode]
  dsimp only
  rw [if_neg (not_le.mpr hcount)]

end ConsumerExecutionService

namespace Deployment

variable (deployment : Deployment π ρ)

/-- The event of a row cannot be decoded. -/
def Undecodable (event : OutboxEvent π) : Prop :=
  ∀ envelope, deserialize_event deployment.validate_python event ≠ .ok envelope

/-- Every delivery of an event that cannot be decoded is unclaimed. -/
def UnclaimedInv (db : Database π) : Prop :=
  ∀ r ∈ db.deliveries, ∀ event,
    Keyed.lookup OutboxEvent.event_id r.delivery.event_id db.events = some event →
      deployment.Undecodable event → r.Unclaimed deployment.policy

variable {deployment}

/-! ## What keeps the invariant -/

/-- A change of the delivery rows keeps the invariant if it keeps each row unclaimed. -/
theorem UnclaimedInv.rows {db : Database π} (h : deployment.UnclaimedInv db) (next : UUID)
    {f : DeliveryRecord → DeliveryRecord}
    (hid : ∀ r ∈ db.deliveries, (f r).delivery.event_id = r.delivery.event_id)
    (hf : ∀ r ∈ db.deliveries, r.Unclaimed deployment.policy → (f r).Unclaimed deployment.policy) :
    deployment.UnclaimedInv { db with deliveries := db.deliveries.map f, next_uuid := next } := by
  intro r' hr' event hevent hundecodable
  obtain ⟨r, hr, rfl⟩ := List.mem_map.mp hr'
  rw [hid r hr] at hevent
  exact hf r hr (h r hr event hevent hundecodable)

/-- So does a written row, if the row it replaces was unclaimed and the written one is. -/
theorem UnclaimedInv.write {db : Database π} (h : deployment.UnclaimedInv db) {r row : DeliveryRecord}
    (hr : r ∈ db.deliveries) (hid : row.delivery.event_id = r.delivery.event_id)
    (hrow : ∀ event, Keyed.lookup OutboxEvent.event_id r.delivery.event_id db.events = some event →
      deployment.Undecodable event → r.Unclaimed deployment.policy →
        row.Unclaimed deployment.policy) : deployment.UnclaimedInv (db.write (some row)) := by
  intro r' hr' event hevent hundecodable
  rcases Keyed.mem_put hr' with ⟨hmem, -⟩ | rfl
  · exact h r' hmem event hevent hundecodable
  · rw [hid] at hevent
    exact hrow event hevent hundecodable (h r hr event hevent hundecodable)

/-- The invariant does not depend on the identifiers drawn or the effects committed. -/
theorem UnclaimedInv.congr {db db' : Database π} (h : deployment.UnclaimedInv db)
    (hdeliveries : db'.deliveries = db.deliveries) (hevents : db'.events = db.events) :
    deployment.UnclaimedInv db' := by
  unfold UnclaimedInv
  rw [hdeliveries, hevents]
  exact h

/-- A new event comes with pending deliveries that have every attempt left. -/
theorem UnclaimedInv.persist {db : Database π} (h : deployment.UnclaimedInv db)
    (hinv : DatabaseInv deployment.policy db) (event : OutboxEvent π) (consumers : List ConsumerName)
    (now : Timestamp) : deployment.UnclaimedInv (db.persist event consumers now) := by
  unfold Database.persist
  split_ifs with hguard
  · exact h
  · obtain ⟨hnew, -⟩ := not_or.mp hguard
    intro r hr found hfound hundecodable
    rcases List.mem_append.mp hr with hr | hr
    · -- The event of an old delivery is an old one.
      obtain ⟨old, hold⟩ := Option.isSome_iff_exists.mp (hinv.events r hr)
      refine h r hr found ?_ hundecodable
      have happend : Keyed.lookup OutboxEvent.event_id r.delivery.event_id (db.events ++ [event]) =
          some old := by
        rw [Keyed.lookup_append, hold]
        rfl
      rw [happend] at hfound
      exact hold.trans hfound
    · obtain ⟨-, id, consumer, rfl⟩ := Database.mem_inserted hr
      refine ⟨by rintro ⟨⟩, fun _ => ?_⟩
      exact Int.lt_of_lt_of_le Int.zero_lt_one deployment.policy.one_le

/-! ## The transactions -/

/-- `_start` finds no envelope for an event that cannot be decoded. -/
theorem decode_undecodable {settings : ServiceSettings} {event : OutboxEvent π}
    (h : deployment.Undecodable event) (envelope : EventEnvelope ρ) :
    (deployment.service settings).decode event ≠ some (.ok envelope) := by
  unfold ConsumerExecutionService.decode
  split
  · rename_i decoded hdecode
    exact absurd hdecode (h decoded)
  all_goals exact nofun

/-- `_start` does not claim a delivery of an event that cannot be decoded. -/
theorem start_unclaimed {settings : ServiceSettings} {event : OutboxEvent π}
    (hundecodable : deployment.Undecodable event) {r row : DeliveryRecord} {worker_id : String}
    {now : Timestamp} {fresh : UUID} {started : Started ρ} (hr : r.Unclaimed deployment.policy)
    (h : (deployment.service settings).start_locked event r worker_id now fresh =
      some (row, started)) : row.Unclaimed deployment.policy := by
  unfold ConsumerExecutionService.start_locked at h
  split_ifs at h with hreceipt hfailed hinconsistent hdue hprocessing
  · -- A row that is settled, not due or inconsistent is left as it is.
    cases h
    exact hr
  · cases h
    exact hr
  · cases h
    exact hr
  · cases h
    exact hr
  · -- An unclaimed row is not being processed, so no lease is looked at.
    exact absurd hprocessing hr.1
  · exact absurd hprocessing hr.1
  · exact absurd hprocessing hr.1
  · unfold ConsumerExecutionService.start_attempt at h
    split at h
    · cases h
    · -- The event does not decode.
      rename_i envelope hdecode
      exact absurd hdecode (decode_undecodable hundecodable envelope)
    · split_ifs at h
      · -- The row fails at once, by its limit or by the rejection.
        cases h
        exact ⟨nofun, nofun⟩
      · cases h
        exact ⟨nofun, nofun⟩

/-- A transaction of a claim writes a row only for a delivery that is being processed. -/
theorem owned_processing {r : DeliveryRecord} {claim : AttemptClaim ρ} (h : r.owned_by claim = true) :
    r.delivery.status = .processing := by
  simp only [DeliveryRecord.owned_by, Bool.and_eq_true, decide_eq_true_eq] at h
  exact h.1

/-- Routing a message keeps the invariant. Only a subscribed consumer creates a row, and it starts
it at once. -/
theorem route_unclaimed {w : World π ρ} (hw : WorldInv deployment w)
    (h : deployment.UnclaimedInv w.database) (message : StreamMessage) (group : ConsumerName)
    (settings : ServiceSettings) (worker_id : String) (locked : Bool) (fate : Fate) :
    deployment.UnclaimedInv
      (deployment.route w message group settings worker_id locked fate).database := by
  unfold route
  split
  · exact h
  · split
    · exact h
    · rename_i event_id _ _ db started hstart
      -- The transaction of `_start` keeps the invariant, whether it persists or not.
      have hdb : deployment.UnclaimedInv db := by
        rcases deployment.start_cases hstart with ⟨rfl, -⟩ | ⟨event, r, row, hevent, hlookup, hrow, rfl⟩
        · exact h
        · obtain ⟨hr, hroute⟩ := hw.database.routes.lookup_eq_some.mp hlookup
          obtain ⟨hsteps, -⟩ := (deployment.service settings).start_locked_spec
            (fun a ha => ((hw.database.drawn r hr).2.2 a ha).1) hrow
          have hid : row.delivery.event_id = r.delivery.event_id :=
            congrArg Prod.fst hsteps.identity.2
          have hevent_id : r.delivery.event_id = event_id := congrArg Prod.fst hroute
          have hwritten : deployment.UnclaimedInv (w.database.write (some row)) := by
            -- The written row is of the event that has been looked up.
            refine h.write hr hid fun found hfound hundecodable hunclaimed => ?_
            rw [hevent_id] at hfound
            cases hevent.symm.trans hfound
            exact start_unclaimed hundecodable hunclaimed hrow
          exact hwritten.congr rfl rfl
      split
      · exact hdb
      · split_ifs
        · exact hdb
        · exact h

/-- A transaction that writes a row of a delivery that is being processed keeps the invariant: its
event can be decoded. -/
theorem UnclaimedInv.write_processing {db : Database π} (h : deployment.UnclaimedInv db)
    {r row : DeliveryRecord} (hr : r ∈ db.deliveries)
    (hid : row.delivery.event_id = r.delivery.event_id)
    (hprocessing : r.delivery.status = .processing) :
    deployment.UnclaimedInv (db.write (some row)) :=
  h.write hr hid fun _ _ _ hunclaimed => absurd hprocessing hunclaimed.1

/-- Running an effect keeps the invariant. A row that it writes has been started by this execution.
-/
theorem effect_unclaimed {w : World π ρ} (hw : WorldInv deployment w)
    (h : deployment.UnclaimedInv w.database) (execution : ℕ) (handler : HandlerResult) (fate : Fate) :
    deployment.UnclaimedInv (deployment.effect w execution handler fate).database := by
  unfold effect
  split
  · rename_i settings claim hphase
    split
    · split <;> exact h
    · rename_i row result heffect
      show deployment.UnclaimedInv (if fate.persisted then w.database.write_effect row else w.database)
      split_ifs
      · cases row with
        | none => exact h
        | some row =>
          -- The effect is committed on a row that is being processed, which an unclaimed row is
          -- not.
          obtain ⟨e, hmem, -, heq⟩ := World.phase_eq hphase
          have hclaim := (hw.executions e hmem).claim claim (by rw [heq]; rfl)
          obtain ⟨r, hr, -, howned, -, hcommit⟩ :=
            deployment.effect_database hw.database hclaim heffect
          have hid : row.delivery.event_id = r.delivery.event_id := by
            obtain ⟨attempt_id, outcome, now, -, rfl⟩ := hcommit.commit
            rfl
          have hwritten : deployment.UnclaimedInv (w.database.write (some row)) :=
            h.write_processing hr hid (owned_processing howned)
          exact hwritten.congr rfl rfl
      · exact h
  · exact h

/-- Settling a failure keeps the invariant. A settled row has had an attempt. -/
theorem settle_unclaimed {w : World π ρ} (hw : WorldInv deployment w)
    (h : deployment.UnclaimedInv w.database) (execution : ℕ) (settler : Settler) (jitter : Jitter)
    (fate : Fate) :
    deployment.UnclaimedInv (deployment.settle w execution settler jitter fate).database := by
  unfold settle
  split
  · rename_i settings claim failure hphase
    split
    · exact h
    · rename_i row result hsettle
      show deployment.UnclaimedInv (if fate.persisted then w.database.write row else w.database)
      split_ifs
      · cases row with
        | none => exact h
        | some row =>
          -- So is the failure settled.
          obtain ⟨e, hmem, -, heq⟩ := World.phase_eq hphase
          have hclaim := (hw.executions e hmem).claim claim (by rw [heq]; rfl)
          have hfailure := (hw.executions e hmem).failure settings claim failure heq
          obtain ⟨r, hr, -, howned, hstep, -⟩ :=
            deployment.settle_database hw.database hclaim hfailure hsettle
          exact h.write_processing hr (congrArg Prod.fst hstep.identity.2) (owned_processing howned)
      · exact h
  · exact h

/-! ## Every run -/

/-- Every action keeps the invariant. What the relay does, and what only reads, leaves the rows of
consumers alone. -/
theorem step_unclaimed {w : World π ρ} (hw : WorldInv deployment w)
    (h : deployment.UnclaimedInv w.database) (a : Act π) :
    deployment.UnclaimedInv (deployment.step w a).database := by
  cases a with
  | tick elapsed => exact h
  | persist event consumers lag => exact h.persist hw.database event consumers _
  | route message group settings worker_id locked fate =>
    exact route_unclaimed hw h message group settings worker_id locked fate
  | effect execution handler fate => exact effect_unclaimed hw h execution handler fate
  | settle execution settler jitter fate => exact settle_unclaimed hw h execution settler jitter fate
  | acknowledge execution =>
    -- Acknowledging touches Redis and the memory only.
    have hdb : (deployment.step w (.acknowledge execution)).database = w.database := by
      simp only [step, World.acknowledge]
      split
      · split_ifs <;> rfl
      · rfl
    rw [hdb]
    exact h
  | crash execution => exact h
  | recover_expired settings limit locked =>
    refine h.rows w.database.next_uuid (fun r _ => ?_) fun r hr hunclaimed => ?_
    · split_ifs <;> rfl
    · split_ifs with hid
      · -- Recovery concerns rows that are being processed.
        have hdue := selected hw.database.ids hr hid
        simp only [ConsumerExecutionService.recovery_due, Bool.and_eq_true, decide_eq_true_eq] at hdue
        exact absurd hdue.1.1 hunclaimed.1
      · exact hunclaimed
  -- What the relay does changes none of the fields that the invariant is about.
  | claim_due owner lease_seconds republish_after_seconds lag limit locked =>
    refine h.rows _ (fun r _ => ?_) fun r _ hunclaimed => ?_
    · split_ifs <;> rfl
    · split_ifs
      · exact hunclaimed
      · exact hunclaimed
  | observe claim lag =>
    refine h.rows w.database.next_uuid (fun r _ => ?_) fun r _ hunclaimed => ?_
    · split_ifs <;> rfl
    · split_ifs
      · exact hunclaimed
      · exact hunclaimed
  | defer_claim claim retry_after_ms failure_category lag =>
    refine h.rows w.database.next_uuid (fun r _ => ?_) fun r _ hunclaimed => ?_
    · split_ifs <;> rfl
    · split_ifs
      · exact hunclaimed
      · exact hunclaimed
  | reset_observations cutoff lag limit locked =>
    refine h.rows w.database.next_uuid (fun r _ => ?_) fun r _ hunclaimed => ?_
    · split_ifs <;> rfl
    · split_ifs
      · exact hunclaimed
      · exact hunclaimed
  | replay delivery_id operator reason =>
    simp only [step]
    split
    · exact h
    · rename_i row hreplay
      -- A replay starts a cycle below the limit.
      obtain ⟨r, hr, hid, hrow⟩ : ∃ r ∈ w.database.deliveries,
          row.delivery.event_id = r.delivery.event_id ∧ row.Unclaimed deployment.policy := by
        unfold replay_locked at hreplay
        split_ifs at hreplay
        split at hreplay
        · cases hreplay
        · rename_i r hlookup
          split_ifs at hreplay
          split at hreplay
          · cases hreplay
          · cases hreplay
            refine ⟨r, Keyed.lookup_mem hlookup, rfl, by rintro ⟨⟩, fun _ => ?_⟩
            exact Int.lt_of_lt_of_le Int.zero_lt_one deployment.policy.one_le
      have hwritten : deployment.UnclaimedInv (w.database.write (some row)) :=
        h.write hr hid fun _ _ _ _ => hrow
      exact hwritten.congr rfl rfl

variable (deployment)

/-- After every run, the deliveries of an event that cannot be decoded are unclaimed. -/
theorem run_unclaimed (now : Timestamp) (acts : List (Act π)) :
    deployment.UnclaimedInv (deployment.run now acts).database := by
  have hstep : ∀ (w : World π ρ) (a : Act π),
      WorldInv deployment w ∧ deployment.UnclaimedInv w.database →
        WorldInv deployment (deployment.step w a) ∧
          deployment.UnclaimedInv (deployment.step w a).database :=
    fun w a hw => ⟨deployment.step_inv w a hw.1, step_unclaimed hw.1 hw.2 a⟩
  have hinitial : WorldInv deployment (initial now : World π ρ) ∧
      deployment.UnclaimedInv (initial now : World π ρ).database :=
    ⟨deployment.initial_inv now, fun r hr => absurd hr List.not_mem_nil⟩
  exact (Transition.run_invariant hstep hinitial acts).2

end Deployment

end RestaurantOS.Events
