import RestaurantOS.Events.Attempts

/-!
# What an action does to a delivery, with its time

`RowChange` lists what one action can do to one delivery record, transaction by transaction, with
the clock it reads. It is coarser than `RecordStep`, which takes a transaction apart, and it keeps
what the elementary changes forget: when the action was taken, that `_start` found the delivery due,
and with which delay a failure was settled. `step_rows` shows that every action of the system is one
of these changes of each record, or inserts it.
-/

namespace RestaurantOS.Events

variable {π ρ : Type}

/-- A failure that is held in the phase is one that `classify_failure` made. -/
def Phase.Classified (phase : Phase ρ) : Prop :=
  ∀ settings claim failure, phase = .unsettled settings claim failure →
    ∃ error, failure = classify_failure error

/-- A phase without a failure. -/
theorem Phase.Classified.of_ne {phase : Phase ρ}
    (h : ∀ settings claim failure, phase ≠ .unsettled settings claim failure) : phase.Classified :=
  fun settings claim failure heq => absurd heq (h settings claim failure)

/-- A finished execution holds no failure. -/
theorem Phase.classified_finished : (Phase.finished : Phase ρ).Classified :=
  .of_ne fun _ _ _ h => by cases h

/-- An execution that has returned holds no failure. -/
theorem Phase.classified_returned (result : ExecutionResult) :
    (Phase.returned result : Phase ρ).Classified :=
  .of_ne fun _ _ _ h => by cases h

/-- The failures that the executions hold are all made by `classify_failure`. -/
def Classified (w : World π ρ) : Prop := ∀ e ∈ w.executions, e.phase.Classified

/-- The row that `_finish_failure` writes for a failure of the attempt, with its delay. -/
def ConsumerExecutionService.settled_row (service : ConsumerExecutionService π ρ)
    (r : DeliveryRecord) (attempt_id : UUID) (failure : Failure) (delay : ℚ) (now : Timestamp) :
    DeliveryRecord :=
  r.settle_failure attempt_id failure
    (service.terminal failure (settled_count failure r.delivery.attempt_count))
    (settled_count failure r.delivery.attempt_count) delay now

/-- The changes of a delivery record by one action at the time `now`. -/
inductive RowChange (deployment : Deployment π ρ) (now : Timestamp) :
    DeliveryRecord → DeliveryRecord → Prop
  /-- The action leaves the record as it is. -/
  | kept {r : DeliveryRecord} : RowChange deployment now r r
  /-- `_start` on the locked row. -/
  | started {r r' : DeliveryRecord} (settings : ServiceSettings) (event : OutboxEvent π)
    (worker_id : String) (next_uuid : UUID) (started : Started ρ)
    (hfresh : ∀ a ∈ r.attempts, a.id < next_uuid)
    (hstart : (deployment.service settings).start_locked event r worker_id now next_uuid =
      some (r', started)) :
    RowChange deployment now r r'
  /-- `_effect` commits. -/
  | committed {r r' : DeliveryRecord} (hcommit : CommitStep r r') : RowChange deployment now r r'
  /-- `_finish_failure` settles the running attempt. -/
  | settled {r : DeliveryRecord} (settings : ServiceSettings) (claim : AttemptClaim ρ)
    (error : RaisedError) (jitter : Jitter) (delay : ℚ) (howned : r.owned_by claim = true)
    (hrunning : ∀ a ∈ r.running_attempts, a.id = claim.attempt_id)
    (hdelay : (deployment.service settings).retry_delay (classify_failure error)
      (ConsumerExecutionService.settled_count (classify_failure error) r.delivery.attempt_count)
      jitter = some delay) :
    RowChange deployment now r
      ((deployment.service settings).settled_row r claim.attempt_id (classify_failure error) delay now)
  /-- `recover_expired` recovers the delivery. -/
  | recovered {r : DeliveryRecord} (settings : ServiceSettings)
    (hstatus : r.delivery.status = .processing) :
    RowChange deployment now r ((deployment.service settings).recover r now)
  /-- An operation of the relay on a pending delivery. -/
  | relayed {r : DeliveryRecord} (d : EventDelivery) (hid : d.id = r.delivery.id)
    (hstatus : r.delivery.status = .pending ∧ d.status = .pending)
    (hcount : d.attempt_count = r.delivery.attempt_count)
    (hcycle : d.retry_cycle = r.delivery.retry_cycle)
    (hnext : d.next_attempt_at = r.delivery.next_attempt_at) :
    RowChange deployment now r { r with delivery := d }
  /-- The operator replays the delivery. -/
  | replayed {r : DeliveryRecord} (replay_id : UUID) (operator reason correlation_id : String)
    (hstatus : r.delivery.status = .failed) :
    RowChange deployment now r (r.start_cycle replay_id operator reason correlation_id now)

/-- A change keeps the primary key of the delivery. -/
theorem RowChange.id_eq {deployment : Deployment π ρ} {now : Timestamp} {r r' : DeliveryRecord}
    (h : RowChange deployment now r r') : r'.id = r.id := by
  cases h with
  | started settings event worker_id next_uuid started hfresh hstart =>
    exact ((deployment.service settings).start_locked_spec hfresh hstart).1.identity.1
  | committed hcommit => exact hcommit.frame.1
  | relayed d hid => exact hid
  | _ => rfl

namespace Deployment

variable (deployment : Deployment π ρ) {w : World π ρ}

/-! ## The failures in memory -/

/-- Setting the phase of an execution to one with a classified failure, or none, keeps the failures
in memory classified. -/
theorem classified_set_phase (h : Classified w) {i : ℕ} {phase : Phase ρ}
    (hphase : phase.Classified) : Classified (w.set_phase i phase) := by
  intro e he
  rcases World.mem_set_phase he with hold | ⟨e₀, -, rfl⟩
  · exact h e hold
  · exact hphase

/-- The phase after an effect holds no failure but a classified one. An effect that is not committed
leaves the failure that the handler or the commit has raised. -/
theorem effect_classified (h : Classified w) (execution : ℕ) (handler : HandlerResult)
    (fate : Fate) : Classified (deployment.effect w execution handler fate) := by
  have hnew : ∀ (settings : ServiceSettings) (claim : AttemptClaim ρ) (error : RaisedError),
      (Phase.unsettled settings claim (classify_failure error)).Classified := by
    intro settings claim error _ _ _ heq
    cases heq
    exact ⟨error, rfl⟩
  unfold effect
  split
  · -- The effect is tried only by an execution that holds a claim.
    rename_i settings claim _
    split
    · rename_i error _
      split
      · exact classified_set_phase h Phase.classified_finished
      · exact classified_set_phase h (hnew settings claim error)
    · -- The transaction of the effect has run; its fate decides about the phase.
      refine @classified_set_phase π ρ { w with database := _ } h _ _ ?_
      cases fate with
      | committed => exact Phase.classified_returned _
      | died persisted => exact Phase.classified_finished
      | unacknowledged error | rolled_back error => exact hnew settings claim error
  · exact h

/-- The phase after a settlement holds no failure but the one that was being settled. The failure is
the one found in the phase before, where it was classified. -/
theorem settle_classified (h : Classified w) (execution : ℕ) (settler : Settler) (jitter : Jitter)
    (fate : Fate) : Classified (deployment.settle w execution settler jitter fate) := by
  unfold settle
  split
  · rename_i settings claim failure hphase
    obtain ⟨e, hmem, -, heq⟩ := World.phase_eq hphase
    have hkept : (Phase.unsettled settings claim failure).Classified := heq ▸ h e hmem
    split
    · exact h
    · refine @classified_set_phase π ρ { w with database := _ } h _ _ ?_
      -- After the commit an execution returns or finishes, and a settlement that goes on keeps its
      -- failure.
      cases fate with
      | committed =>
        cases settler with
        | own =>
          cases failure.infrastructure
          · exact Phase.classified_returned _
          · exact Phase.classified_finished
        | settle_failures still_running =>
          cases still_running
          · exact Phase.classified_finished
          · exact hkept
      | unacknowledged error | rolled_back error => exact hkept
      | died persisted => exact Phase.classified_finished
  · exact h

/-- Every failure in memory comes from `classify_failure`. Only `_effect` puts one there. -/
theorem step_classified (w : World π ρ) (a : Act π) (h : Classified w) :
    Classified (deployment.step w a) := by
  cases a with
  | route message group settings worker_id locked fate =>
    simp only [step, route]
    split
    · exact h
    · split
      · exact h
      · -- A new execution starts with a claim or with a result, never with a failure.
        rename_i db started _
        split
        · intro e he
          rcases List.mem_append.mp he with he | he
          · exact h e he
          · rw [List.mem_singleton.mp he]
            cases started with
            | claimed claim => exact .of_ne fun _ _ _ h => by cases h
            | result result => exact Phase.classified_returned result
        · split_ifs <;> exact h
  | effect execution handler fate => exact deployment.effect_classified h execution handler fate
  | settle execution settler jitter fate =>
    exact deployment.settle_classified h execution settler jitter fate
  -- Acknowledging finishes the execution.
  | acknowledge execution =>
    simp only [step, World.acknowledge]
    split
    · split_ifs
      · exact @classified_set_phase π ρ { w with acknowledged := _ } h _ _ Phase.classified_finished
      · exact classified_set_phase h Phase.classified_finished
    · exact h
  | crash execution => exact classified_set_phase h Phase.classified_finished
  | replay delivery_id operator reason =>
    simp only [step]
    split <;> exact h
  | _ => exact h

/-! ## The actions -/

/-- The delivery rows after an action that changes them at the time `now`, or inserts new ones. -/
def RowsChange (now : Timestamp) (db : Database π) (deliveries : List DeliveryRecord) : Prop :=
  ∀ r' ∈ deliveries, (∃ r ∈ db.deliveries, RowChange deployment now r r') ∨
    ∃ id event_id consumer created_at, db.next_uuid ≤ id ∧
      r' = ⟨.inserted id event_id consumer created_at, [], none, []⟩

variable {deployment} {now : Timestamp} {db : Database π}

/-- No row is changed. -/
theorem RowsChange.refl (db : Database π) : RowsChange deployment now db db.deliveries :=
  fun r' hr' => Or.inl ⟨r', hr', .kept⟩

/-- A row is written. -/
theorem RowsChange.write {r row : DeliveryRecord} (hr : r ∈ db.deliveries)
    (h : RowChange deployment now r row) :
    RowsChange deployment now db (db.write (some row)).deliveries := by
  intro r' hr'
  rcases Keyed.mem_put hr' with ⟨hold, -⟩ | rfl
  · exact Or.inl ⟨r', hold, .kept⟩
  · exact Or.inl ⟨r, hr, h⟩

/-- The rows are updated one by one. -/
theorem RowsChange.map {f : DeliveryRecord → DeliveryRecord}
    (h : ∀ r ∈ db.deliveries, RowChange deployment now r (f r)) :
    RowsChange deployment now db (db.deliveries.map f) := by
  intro r' hr'
  obtain ⟨r, hr, rfl⟩ := List.mem_map.mp hr'
  exact Or.inl ⟨r, hr, h r hr⟩

/-- An event is inserted with its deliveries. The other rows stay, and the new ones are pending. -/
theorem RowsChange.persist (event : OutboxEvent π) (consumers : List ConsumerName)
    (created_at : Timestamp) :
    RowsChange deployment now db (db.persist event consumers created_at).deliveries := by
  unfold Database.persist
  split_ifs
  · exact .refl db
  · intro r' hr'
    rcases List.mem_append.mp hr' with hold | hnew
    · exact Or.inl ⟨r', hold, .kept⟩
    · obtain ⟨-, id, consumer, rfl⟩ := Database.mem_inserted hnew
      have hid : id ∈ List.range' db.next_uuid consumers.length := by
        rw [← Database.inserted_ids event.event_id db.next_uuid created_at consumers]
        exact List.mem_map_of_mem hnew
      exact Or.inr ⟨id, event.event_id, consumer, created_at, (List.mem_range'_1.mp hid).1, rfl⟩

variable (deployment) {w : World π ρ}

/-- What `_start` does to the rows. It claims one row, fails it, or changes nothing. -/
theorem route_rows (hinv : WorldInv deployment w) (message : StreamMessage) (group : ConsumerName)
    (settings : ServiceSettings) (worker_id : String) (locked : Bool) (fate : Fate) :
    RowsChange deployment w.now w.database
      (deployment.route w message group settings worker_id locked fate).database.deliveries := by
  unfold route
  split
  · exact .refl _
  · split
    · exact .refl _
    · rename_i event_id _ db started hstart
      -- The row of the route is locked and changed by `start_locked`.
      have hrows : RowsChange deployment w.now w.database db.deliveries := by
        rcases deployment.start_cases hstart with ⟨rfl, -⟩ |
          ⟨event, r, row, -, hlookup, hlocked, rfl⟩
        · exact .refl _
        · have hr : r ∈ w.database.deliveries := Keyed.lookup_mem hlookup
          have hfresh : ∀ a ∈ r.attempts, a.id < w.database.next_uuid := fun a ha =>
            ((hinv.database.drawn r hr).2.2 a ha).1
          exact .write hr (.started settings event worker_id w.database.next_uuid started hfresh
            hlocked)
      split
      · exact hrows
      · -- The write is persisted or lost with its transaction.
        split_ifs
        · exact hrows
        · exact .refl _

/-- What `_effect` does to the rows. It commits the effect of one row or changes nothing. -/
theorem effect_rows (hinv : WorldInv deployment w) (execution : ℕ) (handler : HandlerResult)
    (fate : Fate) : RowsChange deployment w.now w.database
      (deployment.effect w execution handler fate).database.deliveries := by
  unfold effect
  split
  · rename_i settings claim hphase
    obtain ⟨e, hmem, -, heq⟩ := World.phase_eq hphase
    have hclaim : ClaimInv w.database (e.event_id, e.group) claim :=
      (hinv.executions e hmem).claim claim (by rw [heq]; rfl)
    split
    · split <;> exact .refl _
    · rename_i row result heffect
      -- The row that the effect writes is that of the claim.
      have hrows : RowsChange deployment w.now w.database
          (w.database.write_effect row).deliveries := by
        cases row with
        | none => exact .refl _
        | some row =>
          obtain ⟨r, hr, -, -, -, hcommit⟩ := deployment.effect_database hinv.database hclaim heffect
          exact .write hr (.committed hcommit)
      -- Only a transaction that persists changes the rows.
      show RowsChange deployment w.now w.database
        (if fate.persisted then w.database.write_effect row else w.database).deliveries
      split_ifs
      · exact hrows
      · exact .refl _
  · exact .refl _

end Deployment

namespace ConsumerExecutionService

/-- The row that `_finish_failure` writes, with the delay of the settlement. -/
theorem finish_failure_row {service : ConsumerExecutionService π ρ} {row : Option DeliveryRecord}
    {claim : AttemptClaim ρ} {failure : Failure} {now : Timestamp} {jitter : Jitter}
    {r' : DeliveryRecord} {result : ExecutionResult}
    (h : service.finish_failure row claim failure now jitter = .ok (some r', result)) :
    ∃ r delay, row = some r ∧ r.owned_by claim = true ∧
      service.retry_delay failure (settled_count failure r.delivery.attempt_count) jitter =
        some delay ∧
      r' = service.settled_row r claim.attempt_id failure delay now := by
  unfold finish_failure at h
  split at h
  · simp at h
  · rename_i r hrow
    obtain ⟨rfl, howned⟩ := Option.filter_eq_some_iff.mp hrow
    -- The attempt must be there, and the policy must give a delay.
    cases hattempt : r.has_attempt claim.attempt_id with
    | false => simp [hattempt] at h
    | true =>
      cases hdelay : service.retry_delay failure (settled_count failure r.delivery.attempt_count)
        jitter with
      | none => simp [hattempt, hdelay] at h
      | some delay =>
        simp only [hattempt, hdelay, Bool.not_true, Bool.false_eq_true, if_false, Except.ok.injEq,
          Prod.mk.injEq, Option.some.injEq] at h
        exact ⟨r, delay, rfl, howned, hdelay, h.1.symm⟩

end ConsumerExecutionService

namespace Deployment

variable (deployment : Deployment π ρ) {w : World π ρ}

/-- What `_finish_failure` does to the rows. It releases one row, fails it, or changes nothing. -/
theorem settle_rows (hinv : WorldInv deployment w) (hclass : Classified w) (execution : ℕ)
    (settler : Settler) (jitter : Jitter) (fate : Fate) :
    RowsChange deployment w.now w.database
      (deployment.settle w execution settler jitter fate).database.deliveries := by
  unfold settle
  split
  · rename_i settings claim failure hphase
    obtain ⟨e, hmem, -, heq⟩ := World.phase_eq hphase
    have hclaim : ClaimInv w.database (e.event_id, e.group) claim :=
      (hinv.executions e hmem).claim claim (by rw [heq]; rfl)
    -- The failure in the phase is a classified one, as the change requires.
    obtain ⟨error, rfl⟩ := hclass e hmem settings claim failure heq
    split
    · exact .refl _
    · rename_i row result hsettle
      -- The row is the one that the claim owns.
      have hrows : RowsChange deployment w.now w.database (w.database.write row).deliveries := by
        cases row with
        | none => exact .refl _
        | some row =>
          obtain ⟨r, delay, hlock, howned, hdelay, rfl⟩ :=
            ConsumerExecutionService.finish_failure_row hsettle
          have hr : r ∈ w.database.deliveries := Keyed.lookup_mem hlock
          exact .write hr (.settled settings claim error jitter delay howned
            (hclaim.running hinv.database hr howned) hdelay)
      show RowsChange deployment w.now w.database
        (if fate.persisted then w.database.write row else w.database).deliveries
      split_ifs
      · exact hrows
      · exact .refl _
  · exact .refl _

/-- Every action changes each delivery record as `RowChange` says, or inserts it. -/
theorem step_rows (hinv : WorldInv deployment w) (hclass : Classified w) (a : Act π) :
    RowsChange deployment w.now w.database (deployment.step w a).database.deliveries := by
  cases a with
  | tick | crash => exact .refl _
  | persist event consumers lag => exact .persist event consumers _
  | route message group settings worker_id locked fate =>
    exact deployment.route_rows hinv message group settings worker_id locked fate
  | effect execution handler fate => exact deployment.effect_rows hinv execution handler fate
  | settle execution settler jitter fate =>
    exact deployment.settle_rows hinv hclass execution settler jitter fate
  | acknowledge execution =>
    simp only [step, World.acknowledge]
    split
    · split_ifs <;> exact .refl _
    · exact .refl _
  -- Only the rows that are due and selected are recovered.
  | recover_expired settings limit locked =>
    refine .map fun r hr => ?_
    split_ifs with hid
    · have hdue := selected hinv.database.ids hr hid
      simp only [ConsumerExecutionService.recovery_due, Bool.and_eq_true, decide_eq_true_eq] at hdue
      exact .recovered settings hdue.1.1
    · exact .kept
  -- The relay marks pending rows and leaves their attempts alone.
  | claim_due owner lease_seconds republish_after_seconds lag limit locked =>
    refine .map fun r hr => ?_
    split_ifs with hid
    · have hdue := selected hinv.database.ids hr hid
      simp only [claim_due, Bool.and_eq_true, decide_eq_true_eq] at hdue
      have hpending : r.delivery.status = .pending := hdue.1.1.1.1.1
      exact .relayed _ rfl ⟨hpending, hpending⟩ rfl rfl rfl
    · exact .kept
  -- Observing a publication concerns a pending row.
  | observe claim lag =>
    refine .map fun r _ => ?_
    split_ifs with howns
    · simp only [relay_owns, Bool.and_eq_true, decide_eq_true_eq] at howns
      have hpending : r.delivery.status = .pending := howns.1.1.1.2
      exact .relayed _ rfl ⟨hpending, hpending⟩ rfl rfl rfl
    · exact .kept
  | defer_claim claim retry_after_ms failure_category lag =>
    refine .map fun r _ => ?_
    split_ifs with howns
    · simp only [relay_owns, Bool.and_eq_true, decide_eq_true_eq] at howns
      have hpending : r.delivery.status = .pending := howns.1.1.1.2
      exact .relayed _ rfl ⟨hpending, hpending⟩ rfl rfl rfl
    · exact .kept
  | reset_observations cutoff lag limit locked =>
    refine .map fun r hr => ?_
    split_ifs with hid
    · have hdue := selected hinv.database.ids hr hid
      simp only [reset_due, Bool.and_eq_true, decide_eq_true_eq] at hdue
      have hpending : r.delivery.status = .pending := hdue.1.1.1.1
      exact .relayed _ rfl ⟨hpending, hpending⟩ rfl rfl rfl
    · exact .kept
  -- The replay rewrites a failed row.
  | replay delivery_id operator reason =>
    simp only [step]
    split
    · exact .refl _
    · rename_i row hreplay
      unfold replay_locked at hreplay
      split_ifs at hreplay
      split at hreplay
      · cases hreplay
      · rename_i r hlookup
        split_ifs at hreplay with hguard
        split at hreplay
        · cases hreplay
        · cases hreplay
          have hstatus : r.delivery.status = .failed := by
            by_contra hne
            exact hguard (Or.inl hne)
          exact .write (Keyed.lookup_mem hlookup) (.replayed _ _ _ _ hstatus)

end Deployment

end RestaurantOS.Events
