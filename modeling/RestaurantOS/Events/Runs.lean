import RestaurantOS.Events.Invariants

/-!
# Runs of the worker system

Every action of the system is a `DatabaseStep` (`step_database`) and keeps `WorldInv`, the invariant
of the database together with that of the claims in memory (`WorldInv.step`), so both hold along
every run. An execution returns an acknowledgement only in a state in which its delivery is settled
or its group is not subscribed (`step_returned`).
-/

namespace RestaurantOS.Events

variable {π ρ : Type}

/-- The claim that an execution holds in a phase. -/
def Phase.claim : Phase ρ → Option (AttemptClaim ρ)
  | .claimed _ claim => some claim
  | .unsettled _ claim _ => some claim
  | .returned _ => none
  | .finished => none

/-- The delivery of a route is settled: succeeded with its receipt, or terminally failed. -/
def Database.settled (db : Database π) (route : UUID × ConsumerName) : Prop :=
  ∃ r ∈ db.deliveries, r.route = route ∧ ConsumerExecutionService.acknowledgeable r

/-- The event of a route has a known type that its consumer is not subscribed to. -/
def Database.not_subscribed (db : Database π) (route : UUID × ConsumerName) : Prop :=
  ∃ event, Keyed.lookup OutboxEvent.event_id route.1 db.events = some event ∧
    ∃ consumers, consumers_for event.event_type = some consumers ∧ route.2 ∉ consumers

/-- What the invariant says of an execution: the claim it holds is its own, and a failure is marked
as an outage exactly if its category is one. -/
structure ExecutionInv (db : Database π) (e : Execution ρ) : Prop where
  /-- The claim in memory. -/
  claim : ∀ claim, e.phase.claim = some claim → ClaimInv db (e.event_id, e.group) claim
  /-- The failure in memory. -/
  failure : ∀ settings claim failure, e.phase = .unsettled settings claim failure →
    failure.infrastructure = failure.category.infrastructure

/-- The invariant of the system. It joins that of the rows and that of the executions. -/
structure WorldInv (deployment : Deployment π ρ) (w : World π ρ) : Prop where
  /-- The invariant of the database. -/
  database : DatabaseInv deployment.policy w.database
  /-- The invariant of the executions. -/
  executions : ∀ e ∈ w.executions, ExecutionInv w.database e

/-! ## Executions -/

/-- An execution whose phase was set is the old one or has the new phase. -/
theorem World.mem_set_phase {w : World π ρ} {i : ℕ} {phase : Phase ρ} {e : Execution ρ}
    (h : e ∈ (w.set_phase i phase).executions) :
    e ∈ w.executions ∨ ∃ e₀, w.executions[i]? = some e₀ ∧ e = { e₀ with phase := phase } := by
  obtain ⟨j, hj⟩ := List.mem_iff_getElem?.mp h
  rw [World.set_phase, List.getElem?_modify] at hj
  cases he : w.executions[j]? with
  | none => simp [he] at hj
  | some e₀ =>
    by_cases hij : i = j
    · subst hij
      simp only [he, if_true, Option.map_eq_map, Option.map_some, Option.some.injEq] at hj
      exact Or.inr ⟨e₀, he, hj.symm⟩
    · simp only [he, if_neg hij, Option.map_eq_map, Option.map_some, Option.some.injEq] at hj
      exact Or.inl (hj ▸ List.mem_of_getElem? he)

/-- The phase of an execution, with the execution. -/
theorem World.phase_eq {w : World π ρ} {i : ℕ} {phase : Phase ρ} (h : w.phase i = some phase) :
    ∃ e ∈ w.executions, w.executions[i]? = some e ∧ e.phase = phase := by
  unfold World.phase at h
  cases he : w.executions[i]? with
  | none => simp [he] at h
  | some e => exact ⟨e, List.mem_of_getElem? he, rfl, by simpa [he] using h⟩

namespace Deployment

variable (deployment : Deployment π ρ)

/-! ## The transaction of `_start` -/

/-- What `_start` does: it reads no delivery and writes nothing, or it locks the delivery of the route
and writes the row of `start_locked`. -/
theorem start_cases {db db' : Database π} {now : Timestamp} {event_id : UUID}
    {consumer : ConsumerName} {fields : Reference} {settings : ServiceSettings} {worker_id : String}
    {locked : Bool} {started : Started ρ}
    (h : deployment.start db now event_id consumer fields settings worker_id locked =
      some (db', started)) :
    (db' = db ∧ ∃ result, started = .result result ∧
      result.outcome ≠ .inconsistent_receipt_retained ∧
      (result.acknowledge = true → db.not_subscribed (event_id, consumer))) ∨
    ∃ event r row, Keyed.lookup OutboxEvent.event_id event_id db.events = some event ∧
      Keyed.lookup DeliveryRecord.route (event_id, consumer) db.deliveries = some r ∧
      (deployment.service settings).start_locked event r worker_id now db.next_uuid =
        some (row, started) ∧
      db' = { db.write (some row) with next_uuid := db.next_uuid + 2 } := by
  unfold start at h
  split at h
  · -- There is no event under the identifier of the message.
    cases h
    exact Or.inl ⟨rfl, _, rfl, by rintro ⟨⟩, by rintro ⟨⟩⟩
  · rename_i event hevent
    cases hmatch : deployment.reference_matches fields event with
    -- The fields of the message do not match the stored event.
    | false =>
      simp only [hmatch] at h
      cases h
      exact Or.inl ⟨rfl, _, rfl, by rintro ⟨⟩, by rintro ⟨⟩⟩
    | true =>
      simp only [hmatch, Bool.not_true, Bool.false_eq_true, if_false] at h
      -- There is no delivery of the event for this group, or its row is locked.
      split at h
      · cases h
        refine Or.inl ⟨rfl, _, rfl, ?_, fun hack => ⟨event, hevent, ?_⟩⟩
        · dsimp only
          split_ifs <;> rintro ⟨⟩
        · obtain ⟨consumers, hconsumers, hmem⟩ := (Option.any_eq_true _ _).mp hack
          exact ⟨consumers, hconsumers, by simpa using hmem⟩
      · -- The row has been locked and is handed to `start_locked`.
        rename_i r hlock
        have hlookup : Keyed.lookup DeliveryRecord.route (event_id, consumer) db.deliveries =
            some r := by
          cases locked with
          | true => cases hlock
          | false => exact hlock
        split at h
        · cases h
        · rename_i row result hstart
          cases h
          exact Or.inr ⟨event, r, row, hevent, hlookup, hstart, rfl⟩

/-- `_start` is an action on the database. A claim it returns is one of the referenced delivery, and
it returns an acknowledgement only if that delivery is settled or the group is not subscribed. -/
theorem start_spec {db db' : Database π} {now : Timestamp} {event_id : UUID}
    {consumer : ConsumerName} {fields : Reference} {settings : ServiceSettings} {worker_id : String}
    {locked : Bool} {started : Started ρ} (hinv : DatabaseInv deployment.policy db)
    (h : deployment.start db now event_id consumer fields settings worker_id locked =
      some (db', started)) :
    DatabaseStep deployment.policy db db' ∧
      match started with
      | .claimed claim => ClaimInv db' (event_id, consumer) claim
      | .result result => result.acknowledge = true →
        db'.settled (event_id, consumer) ∨ db'.not_subscribed (event_id, consumer) := by
  rcases deployment.start_cases h with ⟨rfl, result, rfl, -, hack⟩ |
    ⟨event, r, row, hevent, hlookup, hstart, rfl⟩
  · -- Nothing has been written.
    exact ⟨.refl _, fun h => Or.inr (hack h)⟩
  · -- The locked row is changed by elementary steps.
    obtain ⟨hr, hroute⟩ := hinv.routes.lookup_eq_some.mp hlookup
    obtain ⟨hsteps, hspec⟩ := (deployment.service settings).start_locked_spec
      (fun a ha => ((hinv.drawn r hr).2.2 a ha).1) hstart
    have hmem : row ∈ (db.write (some row)).deliveries :=
      List.mem_map.mpr ⟨r, hr, if_pos hsteps.identity.1.symm⟩
    refine ⟨.write hinv (Nat.le_add_right _ _) hr hsteps, ?_⟩
    cases started with
    | result result =>
      exact fun hack => Or.inl ⟨row, hmem, hsteps.identity.2.trans hroute, hspec hack⟩
    | claimed claim =>
      obtain ⟨hevent', hconsumer, htoken, hattempt, hattempts⟩ := hspec
      refine ⟨?_, ?_, ?_⟩
      · have hid : event.event_id = event_id := Keyed.lookup_key hevent
        have hroute2 : r.delivery.consumer_name = consumer := congrArg Prod.snd hroute
        rw [AttemptClaim.route, hevent', hid, hconsumer, hroute2]
      · rw [htoken]
        show db.next_uuid < db.next_uuid + 2
        lia
      · -- The token is fresh, so only the new attempt has it.
        intro x hx a ha hatoken
        rw [htoken] at hatoken
        have hold : ∀ y ∈ db.deliveries, ∀ b ∈ y.attempts, b.claim_token ≠ some db.next_uuid :=
          fun y hy b hb hb' => lt_irrefl _ (((hinv.drawn y hy).2.2 b hb).2 _ hb')
        rcases Keyed.mem_put hx with ⟨hx, -⟩ | rfl
        · exact absurd hatoken (hold x hx a ha)
        · rcases hattempts a ha with ⟨b, hb, -, htok⟩ | ⟨hnew, -⟩
          · exact absurd (htok ▸ hatoken) (hold r hr b hb)
          · rw [hnew, hattempt]

/-! ## The transactions of a claim -/

/-- The database after `_effect`: unchanged, or with one committed effect of the claim's delivery,
which the claim owns with an unexpired lease. -/
theorem effect_database {w : World π ρ} (hinv : DatabaseInv deployment.policy w.database)
    {route : UUID × ConsumerName} {claim : AttemptClaim ρ} (hclaim : ClaimInv w.database route claim)
    {settings : ServiceSettings} {handler : HandlerResult} {row : DeliveryRecord}
    {result : ExecutionResult}
    (h : (deployment.service settings).effect (w.database.lock_delivery claim.route) claim w.now
      handler = .ok (some row, result)) :
    ∃ r ∈ w.database.deliveries, r.route = route ∧ r.owned_by claim = true ∧
      (∃ expires, r.delivery.claim_expires_at = some expires ∧ w.now < expires) ∧
      CommitStep r row := by
  obtain ⟨r, hlock, howned, hlease, hreceipt, outcome, rfl⟩ :=
    (deployment.service settings).effect_spec h
  obtain ⟨hr, hroute⟩ := hinv.routes.lookup_eq_some.mp hlock
  have hstatus : r.delivery.status = .processing := by
    simp only [DeliveryRecord.owned_by, Bool.and_eq_true, decide_eq_true_eq] at howned
    exact howned.1
  exact ⟨r, hr, hroute.trans hclaim.route_eq, howned, hlease, hstatus, hreceipt, claim.attempt_id,
    outcome, w.now, hclaim.running hinv hr howned, rfl⟩

/-- The database after `_finish_failure`: unchanged, or with the attempt of the claim's delivery
settled, which the claim owns. -/
theorem settle_database {w : World π ρ} (hinv : DatabaseInv deployment.policy w.database)
    {route : UUID × ConsumerName} {claim : AttemptClaim ρ} (hclaim : ClaimInv w.database route claim)
    {settings : ServiceSettings} {failure : Failure}
    (hfailure : failure.infrastructure = failure.category.infrastructure) {jitter : Jitter}
    {row : DeliveryRecord} {result : ExecutionResult}
    (h : (deployment.service settings).finish_failure (w.database.lock_delivery claim.route) claim
      failure w.now jitter = .ok (some row, result)) :
    ∃ r ∈ w.database.deliveries, r.route = route ∧ r.owned_by claim = true ∧
      RecordStep deployment.policy w.database.next_uuid w.database.next_uuid r row ∧
      (result.acknowledge = true → ConsumerExecutionService.acknowledgeable row) := by
  obtain ⟨r, hlock, howned, hsettled, hack⟩ := (deployment.service settings).finish_failure_spec
    w.database.next_uuid w.database.next_uuid hfailure h
  obtain ⟨hr, hroute⟩ := hinv.routes.lookup_eq_some.mp hlock
  exact ⟨r, hr, hroute.trans hclaim.route_eq, howned, hsettled (hclaim.running hinv hr howned), hack⟩

end Deployment

/-! ## Actions -/

/-- A reference of `route` is acknowledged, or an execution has returned that it may be. -/
def World.answered (w : World π ρ) (route : UUID × ConsumerName) : Prop :=
  route ∈ w.acknowledged ∨ ∃ e ∈ w.executions, (e.event_id, e.group) = route ∧
    ∃ result, e.phase = .returned result ∧ result.acknowledge = true

/-- What every action does, from a state with the invariant. -/
structure ActionSpec (deployment : Deployment π ρ) (w w' : World π ρ) : Prop where
  /-- It is an action on the database. -/
  database : DatabaseStep deployment.policy w.database w'.database
  /-- It keeps the invariant of the executions. -/
  executions : ∀ e ∈ w'.executions, ExecutionInv w'.database e
  /-- It acknowledges only what an execution has returned. -/
  acknowledged : ∀ route ∈ w'.acknowledged, w.answered route
  /-- It returns an acknowledgement only where the new state allows it. -/
  answered : ∀ route, w'.answered route →
    w.answered route ∨ w'.database.settled route ∨ w'.database.not_subscribed route

/-- The invariant of an execution under an action on the database. -/
theorem ExecutionInv.step {policy : RetryPolicy} {db db' : Database π} {e : Execution ρ}
    (h : ExecutionInv db e) (hstep : DatabaseStep policy db db') : ExecutionInv db' e :=
  ⟨fun claim hclaim => (h.claim claim hclaim).step hstep, h.failure⟩

/-- The invariant of an execution under a change of its phase that keeps or drops its claim. -/
theorem ExecutionInv.set_phase {db : Database π} {e : Execution ρ} (h : ExecutionInv db e)
    {phase : Phase ρ} (hclaim : phase.claim = none ∨ phase.claim = e.phase.claim)
    (hfailure : ∀ settings claim failure, phase = .unsettled settings claim failure →
      failure.infrastructure = failure.category.infrastructure) :
    ExecutionInv db { e with phase := phase } := by
  refine ⟨fun claim hc => ?_, hfailure⟩
  rcases hclaim with hnone | hsame
  · rw [hnone] at hc
    cases hc
  · exact h.claim claim (hsame ▸ hc)

namespace ActionSpec

variable {deployment : Deployment π ρ} {w : World π ρ}

/-- An action on the database and the clock alone. -/
theorem of_database (hinv : WorldInv deployment w) {db : Database π} {now : Timestamp}
    (hstep : DatabaseStep deployment.policy w.database db) :
    ActionSpec deployment w { w with database := db, now := now } :=
  ⟨hstep, fun e he => (hinv.executions e he).step hstep, fun _ h => Or.inl h, fun _ h => Or.inl h⟩

/-- An action that sets the phase of one execution, with an action on the database. The claim may
only be kept or dropped, and what is returned must be true of the database. -/
theorem of_phase (hinv : WorldInv deployment w) {db : Database π} {i : ℕ} {e : Execution ρ}
    {phase : Phase ρ} (he : w.executions[i]? = some e)
    (hstep : DatabaseStep deployment.policy w.database db)
    (hclaim : phase.claim = none ∨ phase.claim = e.phase.claim)
    (hfailure : ∀ settings claim failure, phase = .unsettled settings claim failure →
      failure.infrastructure = failure.category.infrastructure)
    (hreturned : ∀ result, phase = .returned result → result.acknowledge = true →
      db.settled (e.event_id, e.group)) :
    ActionSpec deployment w ({ w with database := db }.set_phase i phase) := by
  refine ⟨hstep, fun e' he' => ?_, fun _ h => Or.inl h, fun route h => ?_⟩
  · -- The execution is one of the others, or the one whose phase has been set.
    rcases World.mem_set_phase he' with hold | ⟨e₀, he₀, rfl⟩
    · exact (hinv.executions e' hold).step hstep
    · have : e₀ = e := Option.some.inj (he₀.symm.trans he)
      subst this
      exact ((hinv.executions _ (List.mem_of_getElem? he)).step hstep).set_phase hclaim hfailure
  · -- What is answered was answered before, or is what this execution returns now.
    rcases h with hack | ⟨e', he', hroute, result, hphase, hack⟩
    · exact Or.inl (Or.inl hack)
    · rcases World.mem_set_phase he' with hold | ⟨e₀, he₀, rfl⟩
      · exact Or.inl (Or.inr ⟨e', hold, hroute, result, hphase, hack⟩)
      · have : e₀ = e := Option.some.inj (he₀.symm.trans he)
        subst this
        exact Or.inr (Or.inl (hroute ▸ hreturned result hphase hack))

end ActionSpec

namespace Deployment

variable (deployment : Deployment π ρ) {w : World π ρ}

/-- Routing a message. Only the transaction of `_start` writes, and the execution that it begins is
the last of the list. -/
theorem route_spec (hinv : WorldInv deployment w) (message : StreamMessage) (group : ConsumerName)
    (settings : ServiceSettings) (worker_id : String) (locked : Bool) (fate : Fate) :
    ActionSpec deployment w
      (deployment.route w message group settings worker_id locked fate) := by
  unfold route
  split
  · exact .of_database hinv (.refl _)
  · split
    · exact .of_database hinv (.refl _)
    · rename_i event_id _ db started hstart
      obtain ⟨hstep, hspec⟩ := deployment.start_spec hinv.database hstart
      split
      · -- The transaction persists, and the message gets an execution.
        refine ⟨hstep, fun e he => ?_, fun _ h => Or.inl h, fun route h => ?_⟩
        · rcases List.mem_append.mp he with he | he
          · exact (hinv.executions e he).step hstep
          · rw [List.mem_singleton] at he
            subst he
            -- A claim is one of the delivery of the message.
            cases started with
            | claimed claim =>
              refine ⟨fun claim' hclaim' => ?_, fun _ _ _ h => by cases h⟩
              cases hclaim'
              exact hspec
            | result result => exact ⟨fun _ h => (by cases h), fun _ _ _ h => by cases h⟩
        · -- What the new execution returns was promised by `_start`.
          rcases h with hack | ⟨e, he, hroute, result, hphase, hack⟩
          · exact Or.inl (Or.inl hack)
          · rcases List.mem_append.mp he with he | he
            · exact Or.inl (Or.inr ⟨e, he, hroute, result, hphase, hack⟩)
            · rw [List.mem_singleton] at he
              subst he
              cases started with
              | claimed claim => cases hphase
              | result result' =>
                cases hphase
                exact Or.inr (hroute ▸ hspec hack)
      · -- The message gets no execution, whether the transaction persists or not.
        split_ifs
        · exact .of_database hinv hstep
        · exact .of_database hinv (.refl _)

/-- Running an effect. Its row and the log of effects are written by one transaction, whose fate
decides about both. -/
theorem effect_action (hinv : WorldInv deployment w) (execution : ℕ) (handler : HandlerResult)
    (fate : Fate) : ActionSpec deployment w (deployment.effect w execution handler fate) := by
  unfold effect
  split
  · rename_i settings claim hphase
    obtain ⟨e, hmem, he, heq⟩ := World.phase_eq hphase
    have hclaim : ClaimInv w.database (e.event_id, e.group) claim :=
      (hinv.executions e hmem).claim claim (by rw [heq]; rfl)
    -- The handler has failed: the failure is kept for its settlement, or the execution is given up.
    split
    · rename_i error _
      split
      · exact .of_phase hinv he (.refl _) (Or.inl rfl) (fun _ _ _ h => by cases h)
          (fun _ h => by cases h)
      · exact .of_phase hinv he (.refl _) (Or.inr (by rw [heq]; rfl))
          (fun _ _ _ h => by cases h; exact classify_failure_infrastructure error)
          (fun _ h => by cases h)
    · rename_i row result heffect
      -- The database after the transaction, if it is committed, and what its result promises.
      have hdb : DatabaseStep deployment.policy w.database (w.database.write_effect row) ∧
          (result.acknowledge = true →
            (w.database.write_effect row).settled (e.event_id, e.group)) := by
        -- No row is written, so nothing is acknowledged.
        cases row with
        | none =>
          refine ⟨.refl _, fun hack => ?_⟩
          rw [(deployment.service settings).effect_none heffect] at hack
          cases hack
        -- The written row has succeeded with its receipt, so its route is settled.
        | some row =>
          obtain ⟨r, hr, hroute, -, -, hcommit⟩ :=
            deployment.effect_database hinv.database hclaim heffect
          obtain ⟨hid, hroute', -, hstatus, hreceipt, -⟩ := hcommit.frame
          refine ⟨.committed hr hcommit, fun _ => ⟨row, ?_, hroute'.trans hroute,
            Or.inl ⟨hstatus, hreceipt⟩⟩⟩
          exact List.mem_map.mpr ⟨r, hr, if_pos hid.symm⟩
      have hstep : DatabaseStep deployment.policy w.database
          (if fate.persisted then w.database.write_effect row else w.database) := by
        split_ifs
        · exact hdb.1
        · exact .refl _
      -- Only after a commit does the execution return what the transaction promises.
      cases fate with
      | committed =>
        exact .of_phase hinv he hstep (Or.inl rfl) (fun _ _ _ h => by cases h)
          (fun _ h => by cases h; exact hdb.2)
      | unacknowledged error | rolled_back error =>
        exact .of_phase hinv he hstep (Or.inr (by rw [heq]; rfl))
          (fun _ _ _ h => by cases h; exact classify_failure_infrastructure error)
          (fun _ h => by cases h)
      | died persisted =>
        exact .of_phase hinv he hstep (Or.inl rfl) (fun _ _ _ h => by cases h)
          (fun _ h => by cases h)
  · exact .of_database hinv (.refl _)

/-- Settling a failure. What `_finish_failure` returns is an acknowledgement only for a delivery
that it fails. -/
theorem settle_action (hinv : WorldInv deployment w) (execution : ℕ) (settler : Settler)
    (jitter : Jitter) (fate : Fate) :
    ActionSpec deployment w (deployment.settle w execution settler jitter fate) := by
  unfold settle
  split
  · rename_i settings claim failure hphase
    obtain ⟨e, hmem, he, heq⟩ := World.phase_eq hphase
    have hclaim : ClaimInv w.database (e.event_id, e.group) claim :=
      (hinv.executions e hmem).claim claim (by rw [heq]; rfl)
    have hfailure : failure.infrastructure = failure.category.infrastructure :=
      (hinv.executions e hmem).failure settings claim failure heq
    split
    · exact .of_database hinv (.refl _)
    · rename_i row result hsettle
      have hdb : DatabaseStep deployment.policy w.database (w.database.write row) ∧
          (result.acknowledge = true → (w.database.write row).settled (e.event_id, e.group)) := by
        -- No row is written, so nothing is acknowledged.
        cases row with
        | none =>
          refine ⟨.refl _, fun hack => ?_⟩
          rw [(deployment.service settings).finish_failure_none hsettle] at hack
          cases hack
        -- The written row is settled as its result says.
        | some row =>
          obtain ⟨r, hr, hroute, -, hrow, hack⟩ :=
            deployment.settle_database hinv.database hclaim hfailure hsettle
          refine ⟨.write hinv.database le_rfl hr (.single hrow), fun h =>
            ⟨row, ?_, hrow.identity.2.trans hroute, hack h⟩⟩
          exact List.mem_map.mpr ⟨r, hr, if_pos hrow.identity.1.symm⟩
      have hstep : DatabaseStep deployment.policy w.database
          (if fate.persisted then w.database.write row else w.database) := by
        split_ifs
        · exact hdb.1
        · exact .refl _
      -- A retained failure keeps the claim in memory.
      have hkept : ActionSpec deployment w
          ({ w with database := if fate.persisted then w.database.write row else w.database }.set_phase
            execution (.unsettled settings claim failure)) :=
        .of_phase hinv he hstep (Or.inr (by rw [heq]))
          (fun _ _ _ h => by cases h; exact hfailure) (fun _ h => by cases h)
      -- An execution that is over holds no claim.
      have hended : ActionSpec deployment w
          ({ w with database := if fate.persisted then w.database.write row else w.database }.set_phase
            execution .finished) :=
        .of_phase hinv he hstep (Or.inl rfl) (fun _ _ _ h => by cases h) (fun _ h => by cases h)
      cases fate with
      | committed =>
        -- The execution settles its own failure, or those of the worker are settled at its end.
        cases settler with
        | own =>
          cases hinfra : failure.infrastructure with
          | true => simpa [hinfra] using hended
          | false =>
            have : ActionSpec deployment w
                ({ w with database := w.database.write row }.set_phase execution
                  (.returned result)) :=
              .of_phase hinv he hdb.1 (Or.inl rfl) (fun _ _ _ h => by cases h)
                (fun _ h => by cases h; exact hdb.2)
            simpa [hinfra, Fate.persisted] using this
        | settle_failures still_running =>
          cases still_running with
          | true => simpa using hkept
          | false => simpa using hended
      | unacknowledged error | rolled_back error => exact hkept
      | died persisted => exact hended
  · exact .of_database hinv (.refl _)

/-- Acknowledging a reference. The execution holds a completed row, so the row is not touched. -/
theorem acknowledge_action (hinv : WorldInv deployment w) (execution : ℕ) :
    ActionSpec deployment w (w.acknowledge execution) := by
  unfold World.acknowledge
  split
  · rename_i event_id group message_id result he
    have hmem : ⟨event_id, group, message_id, .returned result⟩ ∈ w.executions :=
      List.mem_of_getElem? he
    have hended : ActionSpec deployment w (w.set_phase execution .finished) :=
      .of_phase hinv he (.refl _) (Or.inl rfl) (fun _ _ _ h => by cases h) (fun _ h => by cases h)
    split_ifs with hack
    · -- The route has been answered by this execution, which has returned an acknowledgement.
      have hlog : ∀ route ∈ w.acknowledged ++ [(event_id, group)], w.answered route := by
        intro route h
        rcases List.mem_append.mp h with h | h
        · exact Or.inl h
        · rw [List.mem_singleton] at h
          exact Or.inr ⟨_, hmem, h.symm, result, rfl, hack⟩
      refine ⟨hended.database, hended.executions, hlog, fun route h => ?_⟩
      rcases h with h | h
      · exact Or.inl (hlog route h)
      · exact hended.answered route (Or.inr h)
    · exact hended
  · exact .of_database hinv (.refl _)

/-- Ending a process. Nothing is written, so the database is as it was. -/
theorem crash_action (hinv : WorldInv deployment w) (execution : ℕ) :
    ActionSpec deployment w (w.set_phase execution .finished) := by
  cases he : w.executions[execution]? with
  | some e =>
    exact .of_phase hinv he (.refl _) (Or.inl rfl) (fun _ _ _ h => by cases h)
      (fun _ h => by cases h)
  | none =>
    have hsame : w.set_phase execution .finished = w := by
      rw [World.set_phase, List.modify_eq_self (List.getElem?_eq_none_iff.mp he)]
    rw [hsame]
    exact .of_database hinv (.refl _)

/-! ## The relay, the recovery and the operator -/

/-- A row whose identifier is selected is one of the rows that the query matches. -/
theorem selected {deliveries : List DeliveryRecord} (hids : Keyed.Unique DeliveryRecord.id deliveries)
    {p : DeliveryRecord → Bool} {order : DeliveryRecord → DeliveryRecord → Prop}
    [DecidableRel order] {limit : ℕ} {r : DeliveryRecord} (hr : r ∈ deliveries)
    (h : r.id ∈ (((deliveries.filter p).insertionSort order).take limit).map (·.id)) :
    p r = true := by
  obtain ⟨x, hx, hid⟩ := List.mem_map.mp h
  obtain ⟨hmem, hp⟩ := List.mem_filter.mp
    ((List.mem_insertionSort order).mp (List.mem_of_mem_take hx))
  rwa [hids.eq_of_key hr hmem hid.symm]

/-- `recover_expired` changes the expired deliveries. Each of them gives up its attempt, whose lease
is over. -/
theorem recover_expired_step {db : Database π} (hinv : DatabaseInv deployment.policy db)
    (settings : ServiceSettings) (now : Timestamp) (limit : ℕ) (locked : List UUID) :
    DatabaseStep deployment.policy db
      { db with deliveries :=
          (deployment.service settings).recover_expired db.deliveries now limit locked } := by
  refine .rows db.next_uuid _ le_rfl fun r hr => ?_
  split_ifs with hid
  · have hdue := selected hinv.ids hr hid
    simp only [ConsumerExecutionService.recovery_due, Bool.and_eq_true, decide_eq_true_eq] at hdue
    exact .single (.recovered (deployment.service settings) now rfl hdue.1.1)
  · exact .refl

/-- `claim_due_deliveries` claims pending deliveries under fresh tokens. The tokens are drawn from
the identifiers that no row has used. -/
theorem claim_due_step {db : Database π} (hinv : DatabaseInv deployment.policy db) (owner : String)
    (lease_seconds republish_after_seconds : ℤ) (now : Timestamp) (limit : ℕ) (locked : List UUID) :
    DatabaseStep deployment.policy db
      { db with
        deliveries := claim_due_deliveries db.events db.deliveries owner lease_seconds
          republish_after_seconds now limit locked db.next_uuid
        next_uuid := db.next_uuid + db.deliveries.length } := by
  refine .rows _ _ (Nat.le_add_right _ _) fun r hr => ?_
  split_ifs with hid
  · have hdue := selected hinv.ids hr hid
    simp only [claim_due, Bool.and_eq_true, decide_eq_true_eq] at hdue
    have hlt := List.idxOf_lt_length_of_mem hid
    have hle : ((claim_rows db.events db.deliveries republish_after_seconds now limit
        locked).map (·.id)).length ≤ db.deliveries.length := by
      rw [List.length_map, claim_rows, List.length_take, List.length_insertionSort]
      exact (min_le_right _ _).trans (List.length_filter_le _ _)
    exact .single (.relay_claimed _ owner lease_seconds now hdue.1.1.1.1.1
      ⟨Nat.le_add_right _ _, Nat.add_lt_add_left (hlt.trans_le hle) _⟩)
  · exact .refl

/-- `observe_publication` changes the delivery whose claim the relay holds. -/
theorem observe_step (db : Database π) (claim : DeliveryClaim) (now : Timestamp) :
    DatabaseStep deployment.policy db
      { db with deliveries := observe_publication db.deliveries claim now } := by
  refine .rows db.next_uuid _ le_rfl fun r _ => ?_
  split_ifs with howns
  · simp only [relay_owns, Bool.and_eq_true, decide_eq_true_eq] at howns
    exact .single (.observed now howns.1.1.1.2)
  · exact .refl

/-- `defer_claim_after_transport_failure` changes the delivery whose claim the relay holds. A claim
that another relay has taken over is not touched. -/
theorem defer_claim_step (db : Database π) (claim : DeliveryClaim) (retry_after_ms : ℤ)
    (failure_category : ErrorCategory) (now : Timestamp) :
    DatabaseStep deployment.policy db
      { db with
        deliveries := defer_claim_after_transport_failure db.deliveries claim retry_after_ms
          failure_category now } := by
  refine .rows db.next_uuid _ le_rfl fun r _ => ?_
  split_ifs with howns
  · simp only [relay_owns, Bool.and_eq_true, decide_eq_true_eq] at howns
    exact .single (.deferred retry_after_ms failure_category now howns.1.1.1.2
      (by rw [howns.1.1.2]; rfl))
  · exact .refl

/-- `reset_observations_before` changes pending deliveries. They are published again, and their
attempts stay as they are. -/
theorem reset_step {db : Database π} (hinv : DatabaseInv deployment.policy db)
    (cutoff now : Timestamp) (limit : ℕ) (locked : List UUID) :
    DatabaseStep deployment.policy db
      { db with deliveries := reset_observations_before db.deliveries cutoff now limit locked } := by
  refine .rows db.next_uuid _ le_rfl fun r hr => ?_
  split_ifs with hid
  · have hdue := selected hinv.ids hr hid
    simp only [reset_due, Bool.and_eq_true, decide_eq_true_eq] at hdue
    exact .single (.observation_reset hdue.1.1.1.1)
  · exact .refl

/-- `replay` starts a cycle of a failed delivery. The attempts of the cycles before it stay, and
their counts start again at zero. -/
theorem replay_step {db : Database π} (hinv : DatabaseInv deployment.policy db) {delivery_id : UUID}
    {operator reason : String} {clock : Timestamp} {row : DeliveryRecord}
    (h : replay_locked db.events (Keyed.lookup DeliveryRecord.id delivery_id db.deliveries)
      deployment.strip operator reason clock db.next_uuid = .ok row) :
    DatabaseStep deployment.policy db
      { db.write (some row) with next_uuid := db.next_uuid + 1 } := by
  -- The delivery must have failed, by the guard of the source.
  unfold replay_locked at h
  split_ifs at h
  split at h
  · cases h
  · rename_i r hlookup
    split_ifs at h with hguard
    split at h
    · cases h
    · cases h
      have hstatus : r.delivery.status = .failed := by
        by_contra hne
        exact hguard (Or.inl hne)
      exact .write hinv (Nat.le_add_right _ _) (Keyed.lookup_mem hlookup)
        (.single (.replayed _ _ _ _ _ hstatus))

/-! ## Every action and every run -/

/-- What every action does. The actions on rows alone are those of the relay, the recovery and the
operator. -/
theorem step_action (hinv : WorldInv deployment w) (a : Act π) :
    ActionSpec deployment w (deployment.step w a) := by
  cases a with
  | tick elapsed => exact .of_database hinv (.refl _)
  | persist event consumers lag => exact .of_database hinv (.inserted event consumers _)
  | route message group settings worker_id locked fate =>
    exact deployment.route_spec hinv message group settings worker_id locked fate
  | effect execution handler fate => exact deployment.effect_action hinv execution handler fate
  | settle execution settler jitter fate =>
    exact deployment.settle_action hinv execution settler jitter fate
  | acknowledge execution => exact deployment.acknowledge_action hinv execution
  | crash execution => exact deployment.crash_action hinv execution
  | recover_expired settings limit locked =>
    exact .of_database hinv (deployment.recover_expired_step hinv.database settings _ limit locked)
  | claim_due owner lease_seconds republish_after_seconds lag limit locked =>
    exact .of_database hinv (deployment.claim_due_step hinv.database owner lease_seconds
      republish_after_seconds _ limit locked)
  | observe claim lag => exact .of_database hinv (deployment.observe_step _ claim _)
  | defer_claim claim retry_after_ms failure_category lag =>
    exact .of_database hinv (deployment.defer_claim_step _ claim retry_after_ms failure_category _)
  | reset_observations cutoff lag limit locked =>
    exact .of_database hinv (deployment.reset_step hinv.database cutoff _ limit locked)
  | replay delivery_id operator reason =>
    simp only [step]
    split
    · exact .of_database hinv (.refl _)
    · rename_i row hreplay
      exact .of_database hinv (deployment.replay_step hinv.database hreplay)

/-- Every action keeps the invariant of the system. -/
theorem step_inv (w : World π ρ) (a : Act π) (hinv : WorldInv deployment w) :
    WorldInv deployment (deployment.step w a) := by
  have hspec := deployment.step_action hinv a
  exact ⟨hinv.database.step hspec.database, hspec.executions⟩

/-- The system starts with the invariant. -/
theorem initial_inv (now : Timestamp) : WorldInv deployment (initial now : World π ρ) :=
  ⟨DatabaseInv.initial deployment.policy, by simp [initial]⟩

/-- The invariant holds after every run. -/
theorem run_inv (now : Timestamp) (acts : List (Act π)) :
    WorldInv deployment (deployment.run now acts) :=
  Transition.run_invariant (fun w a => deployment.step_inv w a) (deployment.initial_inv now) acts

end Deployment

end RestaurantOS.Events
