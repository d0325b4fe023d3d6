import RestaurantOS.Events.Runs

/-!
# Exactly-once effects

The safety results about a consumer's effect, over every run of the worker system: an effect is
committed at most once for an event and a consumer, the receipts are exactly the succeeded
deliveries, and an execution that has lost its claim changes nothing, at any later time.
-/

namespace RestaurantOS.Events

variable {π ρ : Type}

/-- An execution holds a claim in memory. It is between its claim and the settlement. -/
def World.holds (w : World π ρ) (execution : ℕ) (claim : AttemptClaim ρ) : Prop :=
  (w.phase execution).bind Phase.claim = some claim

/-- A claim is stale: its delivery is not being processed under its token. The token was superseded,
or the claim was settled. -/
def Database.stale (db : Database π) (claim : AttemptClaim ρ) : Prop :=
  ∀ r ∈ db.deliveries, r.route = claim.route →
    ¬(r.delivery.status = .processing ∧ r.delivery.claim_token = some claim.token)

/-- The lease of a claim has expired: its delivery's claim ends now or has ended. -/
def World.lease_expired (w : World π ρ) (claim : AttemptClaim ρ) : Prop :=
  ∀ r ∈ w.database.deliveries, r.route = claim.route →
    ∀ expires, r.delivery.claim_expires_at = some expires → expires ≤ w.now

/-- A claim is stale exactly if it owns no row of its delivery. -/
theorem Database.stale_iff {db : Database π} {claim : AttemptClaim ρ} :
    db.stale claim ↔ ∀ r ∈ db.deliveries, r.route = claim.route → r.owned_by claim = false := by
  simp only [stale, DeliveryRecord.owned_by, ← Bool.not_eq_true, Bool.and_eq_true,
    decide_eq_true_eq]

/-- The row that a stale claim locks does not pass the fencing. -/
theorem Database.stale_filter {db : Database π} {claim : AttemptClaim ρ} (h : db.stale claim) :
    (db.lock_delivery claim.route).filter (·.owned_by claim) = none := by
  cases hlock : db.lock_delivery claim.route with
  | none => rfl
  | some r =>
    have hfalse := Database.stale_iff.mp h r (Keyed.lookup_mem hlock) (Keyed.lookup_key hlock)
    simp [Option.filter, hfalse]

/-- `_start` on a row whose receipt fits its status does not report an inconsistent receipt. -/
theorem ConsumerExecutionService.start_locked_consistent (service : ConsumerExecutionService π ρ)
    {event : OutboxEvent π} {r row : DeliveryRecord} {worker_id : String} {now : Timestamp}
    {fresh : UUID} {result : ExecutionResult}
    (hreceipt : r.receipt.isSome ↔ r.delivery.status = .succeeded)
    (h : service.start_locked event r worker_id now fresh = some (row, .result result)) :
    result.outcome ≠ .inconsistent_receipt_retained := by
  -- The second half reports no such result.
  have hattempt : ∀ {r : DeliveryRecord},
      service.start_attempt event r worker_id now fresh = some (row, .result result) →
        result.outcome ≠ .inconsistent_receipt_retained := by
    intro r h
    unfold start_attempt at h
    split at h <;> [cases h; skip; skip] <;> split_ifs at h <;> cases h <;> nofun
  unfold start_locked at h
  split_ifs at h with hboth hfailed hone hdue hproc hactive hcount
  · -- In every other case the result names another outcome.
    cases h
    nofun
  · cases h
    nofun
  · -- A succeeded delivery has its receipt, and a receipt its succeeded delivery.
    rcases hone with hsucc | hsome
    · exact absurd ⟨hreceipt.mpr hsucc, hsucc⟩ hboth
    · exact absurd ⟨hsome, hreceipt.mp hsome⟩ hboth
  · cases h
    nofun
  · cases h
    nofun
  · cases h
    nofun
  · exact hattempt h
  · exact hattempt h

namespace Deployment

variable (deployment : Deployment π ρ)

/-- The database after `_effect`, for a transaction that writes no row. -/
theorem effect_keeps {w : World π ρ} {execution : ℕ} {claim : AttemptClaim ρ}
    (hholds : w.holds execution claim)
    (hnone : ∀ settings handler row result, (deployment.service settings).effect
      (w.database.lock_delivery claim.route) claim w.now handler = .ok (row, result) → row = none)
    (handler : HandlerResult) (fate : Fate) :
    (deployment.effect w execution handler fate).database = w.database := by
  unfold effect
  split
  · rename_i settings claim' hphase
    -- The claim in the phase is the one that is held.
    have hclaim : claim' = claim := by
      rw [World.holds, hphase] at hholds
      exact Option.some.inj hholds
    subst hclaim
    split
    · split <;> rfl
    · rename_i row result heffect
      rw [hnone settings handler row result heffect]
      -- Neither writing nothing nor losing the transaction changes the database.
      show (if fate.persisted then w.database.write_effect none else w.database) = w.database
      split_ifs <;> rfl
  · rfl

/-- `_effect` of a stale claim leaves the database as it is. -/
theorem effect_stale {w : World π ρ} {execution : ℕ} {claim : AttemptClaim ρ}
    (hholds : w.holds execution claim) (hstale : w.database.stale claim) (handler : HandlerResult)
    (fate : Fate) : (deployment.effect w execution handler fate).database = w.database := by
  refine deployment.effect_keeps hholds (fun settings handler row result h => ?_) handler fate
  unfold ConsumerExecutionService.effect at h
  rw [Database.stale_filter hstale] at h
  cases h
  rfl

/-- `_effect` of a claim whose lease has expired leaves the database as it is. -/
theorem effect_expired {w : World π ρ} {execution : ℕ} {claim : AttemptClaim ρ}
    (hholds : w.holds execution claim) (hexpired : w.lease_expired claim) (handler : HandlerResult)
    (fate : Fate) : (deployment.effect w execution handler fate).database = w.database := by
  refine deployment.effect_keeps hholds (fun settings handler row result h => ?_) handler fate
  cases row with
  | none => rfl
  | some row =>
    obtain ⟨r, hlock, -, ⟨expires, hexp, hlt⟩, -⟩ := (deployment.service settings).effect_spec h
    have hle := hexpired r (Keyed.lookup_mem hlock) (Keyed.lookup_key hlock) expires hexp
    exact absurd hlt (not_lt.mpr hle)

/-- `_finish_failure` of a stale claim leaves the database as it is. -/
theorem settle_stale {w : World π ρ} {execution : ℕ} {claim : AttemptClaim ρ}
    (hholds : w.holds execution claim) (hstale : w.database.stale claim) (settler : Settler)
    (jitter : Jitter) (fate : Fate) :
    (deployment.settle w execution settler jitter fate).database = w.database := by
  unfold settle
  split
  · rename_i settings claim' failure hphase
    have hclaim : claim' = claim := by
      rw [World.holds, hphase] at hholds
      exact Option.some.inj hholds
    -- The claim in the phase is the stale one.
    subst hclaim
    split
    · rfl
    · rename_i row result hsettle
      -- No row is owned by the claim, so none is written.
      unfold ConsumerExecutionService.finish_failure at hsettle
      rw [Database.stale_filter hstale] at hsettle
      cases hsettle
      show (if fate.persisted then w.database.write none else w.database) = w.database
      split_ifs <;> rfl
  · rfl

/-- A claim that is held in memory when it is stale is stale ever after. -/
theorem run_stale {w : World π ρ} (hinv : WorldInv deployment w) {execution : ℕ}
    {claim : AttemptClaim ρ} (hholds : w.holds execution claim) (hstale : w.database.stale claim)
    (acts : List (Act π)) : (Transition.run deployment.step w acts).database.stale claim := by
  -- The claim belongs to an execution, whose invariant says that its token has been drawn.
  obtain ⟨e, hmem, hphase⟩ : ∃ e ∈ w.executions, e.phase.claim = some claim := by
    unfold World.holds at hholds
    cases hp : w.phase execution with
    | none => simp [hp] at hholds
    | some phase =>
      obtain ⟨e, he, -, heq⟩ := World.phase_eq hp
      refine ⟨e, he, ?_⟩
      rw [hp, Option.bind_some] at hholds
      rw [heq, hholds]
  have hdrawn : claim.token < w.database.next_uuid :=
    ((hinv.executions e hmem).claim claim hphase).drawn
  -- Along the run the token stays drawn, so no action draws it again for the delivery.
  have hkeep : ∀ w a, (WorldInv deployment w ∧ claim.token < w.database.next_uuid ∧
      w.database.stale claim) → WorldInv deployment (deployment.step w a) ∧
        claim.token < (deployment.step w a).database.next_uuid ∧
        (deployment.step w a).database.stale claim := by
    rintro w a ⟨hinv, hdrawn, hstale⟩
    have hstep := (deployment.step_action hinv a).database
    exact ⟨deployment.step_inv w a hinv, hdrawn.trans_le hstep.next_uuid_le,
      Database.stale_iff.mpr (hstep.not_owned hdrawn (Database.stale_iff.mp hstale))⟩
  exact (Transition.run_invariant hkeep ⟨hinv, hdrawn, hstale⟩ acts).2.2

/-- A delivery that has succeeded stays as it is along every run. -/
theorem run_succeeded {w : World π ρ} (hinv : WorldInv deployment w) {r : DeliveryRecord}
    (hr : r ∈ w.database.deliveries) (hsucc : r.delivery.status = .succeeded)
    (acts : List (Act π)) : r ∈ (Transition.run deployment.step w acts).database.deliveries := by
  have hkeep : ∀ w a, (WorldInv deployment w ∧ r ∈ w.database.deliveries) →
      WorldInv deployment (deployment.step w a) ∧ r ∈ (deployment.step w a).database.deliveries := by
    rintro w a ⟨hinv, hr⟩
    exact ⟨deployment.step_inv w a hinv,
      (deployment.step_action hinv a).database.succeeded hinv.database hr hsucc⟩
  exact (Transition.run_invariant hkeep ⟨hinv, hr⟩ acts).2

/-- `_start` does not find a receipt without a succeeded delivery, or the reverse, in a database with
the invariant. -/
theorem start_consistent {db db' : Database π} (hinv : DatabaseInv deployment.policy db)
    {now : Timestamp} {event_id : UUID} {consumer : ConsumerName} {fields : Reference}
    {settings : ServiceSettings} {worker_id : String} {locked : Bool} {result : ExecutionResult}
    (h : deployment.start db now event_id consumer fields settings worker_id locked =
      some (db', .result result)) : result.outcome ≠ .inconsistent_receipt_retained := by
  rcases deployment.start_cases h with ⟨-, result', heq, hne, -⟩ |
    ⟨event, r, row, -, hlookup, hstart, -⟩
  · cases heq
    exact hne
  · exact (deployment.service settings).start_locked_consistent
      (hinv.records r (Keyed.lookup_mem hlookup)).receipt hstart

/-! ## The theorem -/

/-- Exactly-once effects. After every run, a route has at most one committed effect; the deliveries
with a receipt are the succeeded ones, so that `_start` never retains an inconsistent receipt; a
succeeded delivery stays as it is in every continuation; and an execution whose lease has expired, or
whose claim is or once was stale, changes nothing. -/
theorem exactly_once_effect (now : Timestamp) (acts : List (Act π)) :
    (∀ route, (deployment.run now acts).database.effects.count route ≤ 1) ∧
    (∀ r ∈ (deployment.run now acts).database.deliveries,
      (r.receipt.isSome ↔ r.delivery.status = .succeeded) ∧
        (deployment.run now acts).database.effects.count r.route =
          if r.receipt.isSome then 1 else 0) ∧
    (∀ event_id consumer fields settings worker_id locked db result,
      deployment.start (deployment.run now acts).database (deployment.run now acts).now event_id
          consumer fields settings worker_id locked = some (db, .result result) →
        result.outcome ≠ .inconsistent_receipt_retained) ∧
    (∀ r ∈ (deployment.run now acts).database.deliveries, r.delivery.status = .succeeded →
      ∀ more, r ∈ (deployment.run now (acts ++ more)).database.deliveries) ∧
    (∀ execution claim, (deployment.run now acts).holds execution claim →
      (deployment.run now acts).lease_expired claim → ∀ handler fate,
        (deployment.run now (acts ++ [.effect execution handler fate])).database =
          (deployment.run now acts).database) ∧
    (∀ execution claim, (deployment.run now acts).holds execution claim →
      (deployment.run now acts).database.stale claim → ∀ more execution',
        (deployment.run now (acts ++ more)).holds execution' claim →
          (∀ handler fate,
            (deployment.run now (acts ++ more ++ [.effect execution' handler fate])).database =
              (deployment.run now (acts ++ more)).database) ∧
          ∀ settler jitter fate,
            (deployment.run now (acts ++ more ++ [.settle execution' settler jitter fate])).database =
              (deployment.run now (acts ++ more)).database) := by
  have hinv : WorldInv deployment (deployment.run now acts) := deployment.run_inv now acts
  refine ⟨hinv.database.effects_le_one, fun r hr => ⟨(hinv.database.records r hr).receipt, ?_⟩, ?_, ?_,
    ?_, ?_⟩
  · -- The log of effects counts the receipts of the route, of which there is one at most.
    rw [hinv.database.effects, Keyed.countP_key hinv.database.routes hr]
    cases r.receipt <;> rfl
  · intro event_id consumer fields settings worker_id locked db result h
    exact deployment.start_consistent hinv.database h
  · intro r hr hsucc more
    rw [run, Transition.run_append]
    exact deployment.run_succeeded hinv hr hsucc more
  · intro execution claim hholds hexpired handler fate
    rw [run, Transition.run_concat]
    exact deployment.effect_expired hholds hexpired handler fate
  · -- A claim that is stale once stays so, and neither transaction writes for it.
    intro execution claim hholds hstale more execution' hholds'
    have hlater : (deployment.run now (acts ++ more)).database.stale claim := by
      rw [run, Transition.run_append]
      exact deployment.run_stale hinv hholds hstale more
    refine ⟨fun handler fate => ?_, fun settler jitter fate => ?_⟩
    · rw [run, Transition.run_concat]
      exact deployment.effect_stale hholds' hlater handler fate
    · rw [run, Transition.run_concat]
      exact deployment.settle_stale hholds' hlater settler jitter fate

end Deployment

end RestaurantOS.Events
