import Mathlib.Logic.Relation
import RestaurantOS.Events.Worker

/-!
# What a transaction can do to a delivery

`RecordStep` lists the elementary changes of a delivery record, each with the condition under which
the code makes it. Every transaction of the worker, the relay and the operator other than a committed
effect changes each record by a sequence of these, and a committed effect is `CommitStep`. An
invariant of a delivery is then proved once for each elementary change.

`fresh` is the number of identifiers drawn before the transaction and `next` the number drawn after
it: a token or attempt that the transaction draws lies between them.
-/

namespace RestaurantOS.Events

/-- The elementary changes of a delivery record by a transaction that commits no effect. -/
inductive RecordStep (policy : RetryPolicy) (fresh next : UUID) :
    DeliveryRecord → DeliveryRecord → Prop
  /-- `_start` releases an expired claim. -/
  | released {r : DeliveryRecord} (now : Timestamp) (hstatus : r.delivery.status = .processing) :
    RecordStep policy fresh next r (r.release_expired now)
  /-- `_start` fails a delivery whose cycle has no attempt left. -/
  | limited {r : DeliveryRecord} (hstatus : r.delivery.status = .pending) :
    RecordStep policy fresh next r r.fail_attempt_limit
  /-- `_start` claims the delivery for an attempt. -/
  | begun {r : DeliveryRecord} (token attempt_id : UUID) (worker_id : String)
    (now claim_expires_at : Timestamp) (hstatus : r.delivery.status = .pending)
    (hcount : r.delivery.attempt_count < policy.max_attempts)
    (htoken : fresh ≤ token ∧ token < next) (hattempt : attempt_id < next)
    (hunused : ∀ a ∈ r.attempts, a.id ≠ attempt_id) :
    RecordStep policy fresh next r
      (r.begin_attempt token attempt_id worker_id now claim_expires_at none)
  /-- `_start` fails a delivery whose event cannot be decoded. -/
  | rejected {r : DeliveryRecord} (token attempt_id : UUID) (worker_id : String)
    (now claim_expires_at : Timestamp) (category : ErrorCategory)
    (hcategory : category.infrastructure = false) (hstatus : r.delivery.status = .pending)
    (hcount : r.delivery.attempt_count < policy.max_attempts)
    (htoken : fresh ≤ token ∧ token < next) (hattempt : attempt_id < next)
    (hunused : ∀ a ∈ r.attempts, a.id ≠ attempt_id) :
    RecordStep policy fresh next r
      (r.begin_attempt token attempt_id worker_id now claim_expires_at (some category)).clear_claim
  /-- `_finish_failure` settles the running attempt. -/
  | settled {r : DeliveryRecord} (attempt_id : UUID) (failure : Failure) (terminal : Bool)
    (delay : ℚ) (now : Timestamp) (hstatus : r.delivery.status = .processing)
    (hrunning : ∀ a ∈ r.running_attempts, a.id = attempt_id)
    (hfailure : failure.infrastructure = failure.category.infrastructure) :
    RecordStep policy fresh next r
      (r.settle_failure attempt_id failure terminal
        (ConsumerExecutionService.settled_count failure r.delivery.attempt_count) delay now)
  /-- `recover_expired` recovers the delivery. -/
  | recovered {r : DeliveryRecord} {π ρ : Type} (service : ConsumerExecutionService π ρ)
    (now : Timestamp) (hpolicy : service.policy = policy)
    (hstatus : r.delivery.status = .processing) : RecordStep policy fresh next r (service.recover r now)
  /-- The relay claims the delivery. -/
  | relay_claimed {r : DeliveryRecord} (token : UUID) (owner : String) (lease_seconds : ℤ)
    (now : Timestamp) (hstatus : r.delivery.status = .pending)
    (htoken : fresh ≤ token ∧ token < next) :
    RecordStep policy fresh next r (r.relay_claim token owner lease_seconds now)
  /-- The relay observes a publication. -/
  | observed {r : DeliveryRecord} (now : Timestamp) (hstatus : r.delivery.status = .pending) :
    RecordStep policy fresh next r (r.observe now)
  /-- The relay extends its claim after a failed publication. -/
  | deferred {r : DeliveryRecord} (retry_after_ms : ℤ) (category : ErrorCategory) (now : Timestamp)
    (hstatus : r.delivery.status = .pending) (htoken : r.delivery.claim_token.isSome) :
    RecordStep policy fresh next r (r.defer_claim retry_after_ms category now)
  /-- The worker forgets an observed publication. -/
  | observation_reset {r : DeliveryRecord} (hstatus : r.delivery.status = .pending) :
    RecordStep policy fresh next r r.reset_observation
  /-- The operator replays the delivery. -/
  | replayed {r : DeliveryRecord} (replay_id : UUID) (operator reason correlation_id : String)
    (clock : Timestamp) (hstatus : r.delivery.status = .failed) :
    RecordStep policy fresh next r (r.start_cycle replay_id operator reason correlation_id clock)

/-- A committed effect: the running attempt of a processing delivery succeeds with a receipt. -/
structure CommitStep (r r' : DeliveryRecord) : Prop where
  /-- The delivery is being processed. -/
  status : r.delivery.status = .processing
  /-- It has no receipt. -/
  receipt : r.receipt = none
  /-- The written row, for the attempt that is running. -/
  commit : ∃ attempt_id outcome now, (∀ a ∈ r.running_attempts, a.id = attempt_id) ∧
    r' = r.commit_effect attempt_id outcome now

/-- A sequence of elementary changes. Every transaction changes a row by such a sequence. -/
abbrev RecordSteps (policy : RetryPolicy) (fresh next : UUID) :
    DeliveryRecord → DeliveryRecord → Prop :=
  Relation.ReflTransGen (RecordStep policy fresh next)

section Steps

variable {policy : RetryPolicy} {fresh next : UUID} {r r' : DeliveryRecord}

/-- What each elementary change keeps, a sequence of them keeps. -/
theorem RecordSteps.keeps {P : DeliveryRecord → Prop}
    (hstep : ∀ {r r'}, RecordStep policy fresh next r r' → P r → P r')
    (h : RecordSteps policy fresh next r r') (hr : P r) : P r' := by
  induction h with
  | refl => exact hr
  | tail _ hlast ih => exact hstep hlast ih

/-- An elementary change keeps the identity of the delivery. -/
theorem RecordStep.identity (h : RecordStep policy fresh next r r') :
    r'.id = r.id ∧ r'.route = r.route := by
  cases h <;> exact ⟨rfl, rfl⟩

/-- A sequence of changes keeps the identity of the delivery. -/
theorem RecordSteps.identity (h : RecordSteps policy fresh next r r') :
    r'.id = r.id ∧ r'.route = r.route :=
  h.keeps (P := fun x => x.id = r.id ∧ x.route = r.route)
    (fun hstep hx => ⟨hstep.identity.1.trans hx.1, hstep.identity.2.trans hx.2⟩) ⟨rfl, rfl⟩

/-- No elementary change is made to a delivery that has succeeded. -/
theorem RecordStep.not_succeeded (h : RecordStep policy fresh next r r') :
    r.delivery.status ≠ .succeeded := by
  cases h <;> simp_all

/-- No elementary change makes a delivery succeed or touches its receipt. -/
theorem RecordStep.receipt (h : RecordStep policy fresh next r r') :
    r'.delivery.status ≠ .succeeded ∧ r'.receipt = r.receipt := by
  have hne : r.delivery.status ≠ .succeeded := h.not_succeeded
  cases h with
  | settled _ _ terminal => cases terminal <;> exact ⟨nofun, rfl⟩
  | recovered service => refine ⟨?_, rfl⟩; simp only [ConsumerExecutionService.recover,
      EventDelivery.clear_claim]; split_ifs <;> nofun
  | relay_claimed | observed | deferred | observation_reset => exact ⟨hne, rfl⟩
  | _ => exact ⟨nofun, rfl⟩

end Steps

/-! ## The transactions of an execution -/

namespace ConsumerExecutionService

variable {π ρ : Type} (service : ConsumerExecutionService π ρ)

/-- A delivery for which the consumer loop may acknowledge a reference. -/
def acknowledgeable (r : DeliveryRecord) : Prop :=
  (r.delivery.status = .succeeded ∧ r.receipt.isSome) ∨ r.delivery.status = .failed

/-- What `_start` promises of what it returns, for the row it writes: a claim is the delivery's own,
under the fresh token, and an acknowledged delivery is settled. -/
def StartedSpec (event : OutboxEvent π) (r r' : DeliveryRecord) (fresh : UUID) : Started ρ → Prop
  | .claimed claim => claim.event.event_id = event.event_id ∧
    claim.consumer = r.delivery.consumer_name ∧ claim.token = fresh ∧ claim.attempt_id = fresh + 1 ∧
    ∀ a ∈ r'.attempts, (∃ b ∈ r.attempts, a.id = b.id ∧ a.claim_token = b.claim_token) ∨
      (a.id = fresh + 1 ∧ a.claim_token = some fresh)
  | .result result => result.acknowledge = true → acknowledgeable r'

/-- A category that `_start` records for an event that cannot be decoded is not an outage. -/
theorem decode_error {event : OutboxEvent π} {category : ErrorCategory}
    (h : service.decode event = some (.error category)) : category.infrastructure = false := by
  unfold decode at h
  split at h <;> simp at h
  all_goals rw [← h]; rfl

/-- A decoded envelope is the row's. -/
theorem decode_ok {event : OutboxEvent π} {envelope : EventEnvelope ρ}
    (h : service.decode event = some (.ok envelope)) : envelope.event_id = event.event_id := by
  unfold decode at h
  split at h <;> simp at h
  subst h
  rename_i hdecode
  exact (deserialize_event_ok hdecode).1

/-- The second half of `_start` on a pending delivery. It starts an attempt, or fails the delivery
at once when its event is not readable. -/
theorem start_attempt_spec {event : OutboxEvent π} {r r' : DeliveryRecord} {worker_id : String}
    {now : Timestamp} {fresh : UUID} {started : Started ρ} (hstatus : r.delivery.status = .pending)
    (hfresh : ∀ a ∈ r.attempts, a.id < fresh)
    (h : service.start_attempt event r worker_id now fresh = some (r', started)) :
    RecordSteps service.policy fresh (fresh + 2) r r' ∧ StartedSpec event r r' fresh started := by
  have hunused : ∀ a ∈ r.attempts, a.id ≠ fresh + 1 := by
    intro a ha
    have := hfresh a ha
    lia
  unfold start_attempt at h
  split at h
  · cases h
  · -- The event decodes; the checks that follow are the route, the handler and the limit.
    rename_i envelope hdecode
    split_ifs at h with hroute hhandler hcount
    · cases h
      exact ⟨.refl, nofun⟩
    · cases h
      exact ⟨.single (.limited hstatus), fun _ => Or.inr rfl⟩
    · cases h
      -- The new attempt takes two fresh identifiers, so it differs from every earlier one.
      refine ⟨.single (.begun _ _ _ _ _ hstatus (not_le.mp hcount) ⟨le_rfl, by lia⟩ (by lia) hunused),
        service.decode_ok hdecode, rfl, rfl, rfl, ?_⟩
      intro a ha
      rcases List.mem_append.mp ha with ha | ha
      · exact Or.inl ⟨a, ha, rfl, rfl⟩
      · rw [List.mem_singleton.mp ha]
        exact Or.inr ⟨rfl, rfl⟩
    · cases h
      exact ⟨.refl, nofun⟩
  · -- The event does not decode: the attempt is charged and has failed at once.
    rename_i category hdecode
    split_ifs at h with hcount
    · cases h
      exact ⟨.single (.limited hstatus), fun _ => Or.inr rfl⟩
    · cases h
      exact ⟨.single (.rejected _ _ _ _ _ category (service.decode_error hdecode) hstatus
        (not_le.mp hcount) ⟨le_rfl, by lia⟩ (by lia) hunused), fun _ => Or.inr rfl⟩

/-- `_start` makes elementary changes, and returns what `StartedSpec` says. A delivery that is over
or in someone else's hands is left as it is. -/
theorem start_locked_spec {event : OutboxEvent π} {r r' : DeliveryRecord} {worker_id : String}
    {now : Timestamp} {fresh : UUID} {started : Started ρ}
    (hfresh : ∀ a ∈ r.attempts, a.id < fresh)
    (h : service.start_locked event r worker_id now fresh = some (r', started)) :
    RecordSteps service.policy fresh (fresh + 2) r r' ∧ StartedSpec event r r' fresh started := by
  unfold start_locked at h
  split_ifs at h with hreceipt hfailed hinconsistent hdue hproc hactive hcount
  · -- A receipt settles the delivery without any change.
    cases h
    exact ⟨.refl, fun _ => Or.inl ⟨hreceipt.2, hreceipt.1⟩⟩
  · -- A failed delivery is acknowledged.
    cases h
    exact ⟨.refl, fun _ => Or.inr hfailed⟩
  · cases h
    exact ⟨.refl, nofun⟩
  · cases h
    exact ⟨.refl, nofun⟩
  · cases h
    exact ⟨.refl, nofun⟩
  · -- The claim has expired at the last attempt.
    cases h
    exact ⟨.tail (.single (.released now hproc)) (.limited rfl), fun _ => Or.inr rfl⟩
  · -- The release keeps the identifiers and the tokens of the attempts.
    have hrel : ∀ a ∈ (r.release_expired now).attempts,
        ∃ b ∈ r.attempts, a.id = b.id ∧ a.claim_token = b.claim_token := by
      intro a ha
      obtain ⟨b, hb, rfl⟩ := List.mem_map.mp ha
      exact ⟨b, hb, by split_ifs <;> rfl, by split_ifs <;> rfl⟩
    have hfresh' : ∀ a ∈ (r.release_expired now).attempts, a.id < fresh := by
      intro a ha
      obtain ⟨b, hb, hid, -⟩ := hrel a ha
      rw [hid]
      exact hfresh b hb
    obtain ⟨hsteps, hspec⟩ := service.start_attempt_spec rfl hfresh' h
    refine ⟨.head (.released now hproc) hsteps, ?_⟩
    -- Of a new claim the identifiers are fresh; those of the other attempts come from the released
    -- row.
    cases started with
    | result result => exact hspec
    | claimed claim =>
      obtain ⟨hevent, hconsumer, htoken, hattempt, hattempts⟩ := hspec
      refine ⟨hevent, hconsumer, htoken, hattempt, fun a ha => ?_⟩
      rcases hattempts a ha with ⟨b, hb, hid, htok⟩ | hnew
      · obtain ⟨c, hc, hid', htok'⟩ := hrel b hb
        exact Or.inl ⟨c, hc, hid.trans hid', htok.trans htok'⟩
      · exact Or.inr hnew
  · -- What is left is a pending delivery.
    have hpending : r.delivery.status = .pending := by
      cases hs : r.delivery.status <;> simp_all
    exact service.start_attempt_spec hpending hfresh h

/-- `_effect` writes a row only for the owner of an unexpired claim, as a committed effect. -/
theorem effect_spec {row : Option DeliveryRecord} {claim : AttemptClaim ρ} {now : Timestamp}
    {handler : HandlerResult} {r' : DeliveryRecord} {result : ExecutionResult}
    (h : service.effect row claim now handler = .ok (some r', result)) :
    ∃ r, row = some r ∧ r.owned_by claim = true ∧
      (∃ expires, r.delivery.claim_expires_at = some expires ∧ now < expires) ∧ r.receipt = none ∧
      ∃ outcome, r' = r.commit_effect claim.attempt_id outcome now := by
  unfold effect at h
  -- No row is locked for the claim.
  split at h
  · simp at h
  · rename_i r hrow
    obtain ⟨rfl, howned⟩ := Option.filter_eq_some_iff.mp hrow
    cases handler with
    | raised error => split_ifs at h; simp at h
    | returned_other => split_ifs at h; simp at h
    -- The four guards of the source are passed only by the owner of an unexpired claim without
    -- receipt.
    | returned outcome =>
      split_ifs at h with hexpired hhandler hreceipt hattempt <;> simp at h
      obtain ⟨rfl, -⟩ := h
      refine ⟨r, rfl, howned, ?_, by simpa using hreceipt, outcome, rfl⟩
      cases hexp : r.delivery.claim_expires_at with
      | none => simp [hexp] at hexpired
      | some expires => exact ⟨expires, rfl, by simpa [hexp] using hexpired⟩

/-- `_effect` acknowledges nothing that it does not write. -/
theorem effect_none {row : Option DeliveryRecord} {claim : AttemptClaim ρ} {now : Timestamp}
    {handler : HandlerResult} {result : ExecutionResult}
    (h : service.effect row claim now handler = .ok (none, result)) : result.acknowledge = false := by
  unfold effect at h
  split at h
  · cases h
    rfl
  · cases handler <;> split_ifs at h <;> simp at h <;> rw [← h]

/-- `_finish_failure` writes a row only for the owner of the claim, by settling the attempt, and it
acknowledges a delivery that it fails. Without a delay from the policy nothing is written. -/
theorem finish_failure_spec {row : Option DeliveryRecord} {claim : AttemptClaim ρ}
    {failure : Failure} {now : Timestamp} {jitter : Jitter} {r' : DeliveryRecord}
    {result : ExecutionResult} (fresh next : UUID)
    (hfailure : failure.infrastructure = failure.category.infrastructure)
    (h : service.finish_failure row claim failure now jitter = .ok (some r', result)) :
    ∃ r, row = some r ∧ r.owned_by claim = true ∧
      ((∀ a ∈ r.running_attempts, a.id = claim.attempt_id) →
        RecordStep service.policy fresh next r r') ∧
      (result.acknowledge = true → acknowledgeable r') := by
  unfold finish_failure at h
  split at h
  · simp at h
  · rename_i r hrow
    obtain ⟨rfl, howned⟩ := Option.filter_eq_some_iff.mp hrow
    -- The attempt of the claim is among those of the row, or nothing is written.
    cases hattempt : r.has_attempt claim.attempt_id with
    | false => simp [hattempt] at h
    | true =>
      cases hdelay : service.retry_delay failure (settled_count failure r.delivery.attempt_count)
        jitter with
      | none => simp [hattempt, hdelay] at h
      | some delay =>
        simp only [hattempt, hdelay, Bool.not_true, Bool.false_eq_true, if_false, Except.ok.injEq,
          Prod.mk.injEq, Option.some.injEq] at h
        obtain ⟨rfl, rfl⟩ := h
        refine ⟨r, rfl, howned, fun hrunning => ?_, fun hack => Or.inr ?_⟩
        · have hstatus : r.delivery.status = .processing := by
            simp only [DeliveryRecord.owned_by, Bool.and_eq_true, decide_eq_true_eq] at howned
            exact howned.1
          exact .settled claim.attempt_id failure _ delay now hstatus hrunning hfailure
        · simp only at hack
          simp only [DeliveryRecord.settle_failure, EventDelivery.clear_claim, if_pos hack]

/-- `_finish_failure` acknowledges nothing that it does not write. A failure that writes nothing is
stale, and its reference is left to the attempt that replaced it. -/
theorem finish_failure_none {row : Option DeliveryRecord} {claim : AttemptClaim ρ}
    {failure : Failure} {now : Timestamp} {jitter : Jitter} {result : ExecutionResult}
    (h : service.finish_failure row claim failure now jitter = .ok (none, result)) :
    result.acknowledge = false := by
  unfold finish_failure at h
  split at h
  · cases h
    rfl
  · rename_i r _
    cases hattempt : r.has_attempt claim.attempt_id with
    | false => simp [hattempt] at h
    | true =>
      cases hdelay : service.retry_delay failure (settled_count failure r.delivery.attempt_count)
        jitter <;> simp [hattempt, hdelay] at h

end ConsumerExecutionService

end RestaurantOS.Events
