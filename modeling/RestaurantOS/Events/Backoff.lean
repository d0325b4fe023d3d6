import Mathlib.Tactic.IntervalCases
import RestaurantOS.Events.Changes

/-!
# The back-off of retries

After a failed attempt is settled, the next attempt of the cycle waits for the delay of the
settlement (`Waits`), whatever the relay, the recovery and the operator do in between. The delays of
the policy grow with the charged attempts of the cycle and stay between a second and a minute
(`RetryPolicy.delay_le`). A delivery that is failed has either used its attempts up or met a failure
that no retry can help (`LimitInv`).
-/

namespace RestaurantOS.Events

variable {π ρ : Type}

/-! ## The delays of the policy -/

namespace RetryPolicy

variable (policy : RetryPolicy)

/-- The delay after the `n + 1`-st charged attempt. The bound on the exponent does not matter, as
the minimum is reached before. -/
theorem delay_seconds_succ (n : ℕ) (jitter : Jitter) :
    policy.delay_seconds (n + 1) jitter =
      some (min 60 (min 60 (2 ^ min n 6) * (1 + 1 / 10 * jitter.val))) := by
  have hexp : (min ((n : ℤ) + 1 - 1) 6).toNat = min n 6 := by omega
  have hinput : ¬((n : ℤ) + 1 < 1 ∨ ¬(0 ≤ jitter.val ∧ jitter.val ≤ 1)) := by
    rintro (hn | hj)
    · omega
    · exact hj ⟨jitter.property.1, jitter.property.2.le⟩
  rw [delay_seconds, if_neg hinput, hexp]

/-- The base of a delay is at least a second. -/
theorem one_le_base (n : ℕ) : (1 : ℚ) ≤ min 60 (2 ^ min n 6) :=
  le_min (by norm_num) (one_le_pow₀ (by norm_num))

/-- One more charged attempt makes up for any jitter, until the delay has reached its limit. -/
theorem base_lt {n m : ℕ} (h : n < m) :
    (60 : ℚ) ≤ min 60 (2 ^ min m 6) ∨ 11 / 10 * min 60 (2 ^ min n 6) ≤ (min 60 (2 ^ min m 6) : ℚ) := by
  by_cases hm : 6 ≤ m
  · rw [min_eq_right hm]
    exact Or.inl (le_min le_rfl (by norm_num))
  · have hpow : (2 : ℚ) ^ (n + 1) ≤ 2 ^ m := pow_le_pow_right₀ (by norm_num) h
    have hpos : (0 : ℚ) < 2 ^ n := by positivity
    have hsmall : (2 : ℚ) ^ m ≤ 2 ^ 5 := pow_le_pow_right₀ (by norm_num) (by omega)
    rw [min_eq_left (show n ≤ 6 by omega), min_eq_left (show m ≤ 6 by omega),
      min_eq_right (show (2 : ℚ) ^ m ≤ 60 by linarith)]
    rw [pow_succ] at hpow
    exact Or.inr (by linarith [min_le_right (60 : ℚ) (2 ^ n)])

/-- Every delay of the policy lies between a second and a minute, and the delay does not decrease
with the charged attempts, whichever jitters are drawn. -/
theorem delay_le {k : ℤ} (hk : 1 ≤ k) (jitter : Jitter) :
    ∃ delay, policy.delay_seconds k jitter = some delay ∧ 1 ≤ delay ∧ delay ≤ 60 ∧
      ∀ (l : ℤ) (next_jitter : Jitter), k < l →
        ∃ next_delay, policy.delay_seconds l next_jitter = some next_delay ∧ delay ≤ next_delay := by
  obtain ⟨n, rfl⟩ : ∃ n : ℕ, k = n + 1 := ⟨(k - 1).toNat, by omega⟩
  have hbase := one_le_base n
  obtain ⟨j, hj0, hj1⟩ := jitter
  refine ⟨_, policy.delay_seconds_succ n ⟨j, hj0, hj1⟩, le_min (by norm_num) ?_, min_le_left _ _, ?_⟩
  · -- The base is at least a second and the jitter only adds to it.
    calc (1 : ℚ) = 1 * 1 := by norm_num
      _ ≤ min 60 (2 ^ min n 6) * (1 + 1 / 10 * j) :=
        mul_le_mul hbase (by linarith) (by norm_num) (by linarith)
  · intro l next_jitter hl
    obtain ⟨m, rfl⟩ : ∃ m : ℕ, l = m + 1 := ⟨(l - 1).toNat, by omega⟩
    refine ⟨_, policy.delay_seconds_succ m next_jitter, le_min (min_le_left _ _) ?_⟩
    -- The jitter adds at most a tenth to the earlier delay and nothing is taken from the later one.
    have hjitter : min 60 (2 ^ min m 6) ≤
        (min 60 (2 ^ min m 6) : ℚ) * (1 + 1 / 10 * next_jitter.val) := by
      have := next_jitter.property.1
      exact le_mul_of_one_le_right (by linarith [one_le_base m]) (by linarith)
    -- The later base is the cap already, or it is larger by more than the jitter.
    rcases base_lt (show n < m by omega) with hfull | hgrown
    · exact ((min_le_left _ _).trans hfull).trans hjitter
    · have hearlier : (min 60 (2 ^ min n 6) : ℚ) * (1 + 1 / 10 * j) ≤
          11 / 10 * min 60 (2 ^ min n 6) := by
        rw [mul_comm]
        exact mul_le_mul_of_nonneg_right (by linarith) (by linarith)
      exact ((min_le_right _ _).trans (hearlier.trans hgrown)).trans hjitter

end RetryPolicy

/-! ## What `_start` does, with its guards -/

/-- The categories of a failure that no retry can help. -/
def ErrorCategory.permanent : ErrorCategory → Bool
  | .unsupported_version | .invalid_payload | .event_constraint => true
  | _ => false

/-- A failure is permanent exactly if its category is one of these. -/
theorem classify_failure_permanent (error : RaisedError) :
    (classify_failure error).permanent = (classify_failure error).category.permanent := by
  unfold classify_failure
  split_ifs <;> rfl

/-- An outage is not permanent. -/
theorem classify_failure_outage {error : RaisedError}
    (h : (classify_failure error).infrastructure = true) :
    (classify_failure error).permanent = false := by
  unfold classify_failure at h ⊢
  split_ifs at h ⊢ <;> rfl

namespace ConsumerExecutionService

variable {service : ConsumerExecutionService π ρ} {event : OutboxEvent π} {r r' : DeliveryRecord}
  {worker_id : String} {now : Timestamp} {next_uuid : UUID} {started : Started ρ}

/-- A category that `_start` records for an event that cannot be decoded is permanent. -/
theorem decode_permanent {category : ErrorCategory}
    (h : service.decode event = some (.error category)) : category.permanent = true := by
  unfold decode at h
  split at h <;> simp at h
  all_goals rw [← h]; rfl

/-- The second half of `_start` leaves the row, fails it at its limit, or charges an attempt below
the limit that runs or is rejected. -/
theorem start_attempt_cases
    (h : service.start_attempt event r worker_id now next_uuid = some (r', started)) :
    r' = r ∨ (service.policy.max_attempts ≤ r.delivery.attempt_count ∧ r' = r.fail_attempt_limit) ∨
      (r.delivery.attempt_count < service.policy.max_attempts ∧ ∃ claim_expires_at,
        r' = r.begin_attempt next_uuid (next_uuid + 1) worker_id now claim_expires_at none ∨
        ∃ category : ErrorCategory, category.permanent = true ∧
          r' = (r.begin_attempt next_uuid (next_uuid + 1) worker_id now claim_expires_at
            (some category)).clear_claim) := by
  unfold start_attempt at h
  split at h
  · cases h
  · -- The event decodes.
    split_ifs at h with hroute hhandler hcount
    · cases h
      exact Or.inl rfl
    · cases h
      exact Or.inr (Or.inl ⟨hcount, rfl⟩)
    · cases h
      exact Or.inr (Or.inr ⟨not_le.mp hcount, _, Or.inl rfl⟩)
    · cases h
      exact Or.inl rfl
  · -- The event does not decode, and its rejection is a permanent failure.
    rename_i category hdecode
    split_ifs at h with hcount
    · cases h
      exact Or.inr (Or.inl ⟨hcount, rfl⟩)
    · cases h
      exact Or.inr (Or.inr ⟨not_le.mp hcount, _, Or.inr ⟨category, decode_permanent hdecode, rfl⟩⟩)

/-- `_start` leaves the row, or finds it due and fails an expired claim at its limit or goes on to
its second half, on the row or on the released one. -/
theorem start_locked_cases
    (h : service.start_locked event r worker_id now next_uuid = some (r', started)) :
    r' = r ∨ (r.delivery.next_attempt_at ≤ now ∧
      ((r.delivery.status = .processing ∧
          service.policy.max_attempts ≤ r.delivery.attempt_count ∧
          r' = (r.release_expired now).fail_attempt_limit) ∨
        (r.delivery.status = .processing ∧
          r.delivery.attempt_count < service.policy.max_attempts ∧
          service.start_attempt event (r.release_expired now) worker_id now next_uuid =
            some (r', started)) ∨
        (r.delivery.status = .pending ∧
          service.start_attempt event r worker_id now next_uuid = some (r', started)))) := by
  unfold start_locked at h
  split_ifs at h with hreceipt hfailed hinconsistent hdue hproc hactive hcount
  · -- A receipt, a failed delivery, an inconsistency, a delivery that is not due and one under an
    -- active claim leave the row.
    cases h
    exact Or.inl rfl
  · cases h
    exact Or.inl rfl
  · cases h
    exact Or.inl rfl
  · cases h
    exact Or.inl rfl
  · cases h
    exact Or.inl rfl
  · -- The expired claim was for the last attempt.
    cases h
    exact Or.inr ⟨not_lt.mp hdue, Or.inl ⟨hproc, hcount, rfl⟩⟩
  · -- The expired claim is released before the second half.
    exact Or.inr ⟨not_lt.mp hdue, Or.inr (Or.inl ⟨hproc, not_le.mp hcount, h⟩)⟩
  · have hpending : r.delivery.status = .pending := by
      cases hs : r.delivery.status <;> simp_all
    exact Or.inr ⟨not_lt.mp hdue, Or.inr (Or.inr ⟨hpending, h⟩)⟩

/-- Every attempt of the row that `_start` writes was there, or has just started in the cycle of the
delivery, which was due. -/
theorem start_locked_attempts
    (h : service.start_locked event r worker_id now next_uuid = some (r', started)) :
    r' = r ∨ (r.delivery.next_attempt_at ≤ now ∧
      r'.delivery.retry_cycle = r.delivery.retry_cycle ∧
      ∀ a ∈ r'.attempts, (∃ b ∈ r.attempts, b.id = a.id ∧ b.retry_cycle = a.retry_cycle ∧
          b.started_at = a.started_at) ∨
        (a.started_at = now ∧ a.retry_cycle = r.delivery.retry_cycle)) := by
  -- Releasing keeps the attempts up to their state.
  have hreleased : ∀ a ∈ (r.release_expired now).attempts, ∃ b ∈ r.attempts, b.id = a.id ∧
      b.retry_cycle = a.retry_cycle ∧ b.started_at = a.started_at := by
    intro a ha
    obtain ⟨b, hb, rfl⟩ := List.mem_map.mp ha
    exact ⟨b, hb, by split_ifs <;> exact ⟨rfl, rfl, rfl⟩⟩
  -- The second half, on a row whose attempts are those of `r`.
  have hsecond : ∀ base : DeliveryRecord, base.delivery.retry_cycle = r.delivery.retry_cycle →
      (∀ a ∈ base.attempts, ∃ b ∈ r.attempts, b.id = a.id ∧ b.retry_cycle = a.retry_cycle ∧
        b.started_at = a.started_at) →
      service.start_attempt event base worker_id now next_uuid = some (r', started) →
      r'.delivery.retry_cycle = r.delivery.retry_cycle ∧
      ∀ a ∈ r'.attempts, (∃ b ∈ r.attempts, b.id = a.id ∧ b.retry_cycle = a.retry_cycle ∧
          b.started_at = a.started_at) ∨
        (a.started_at = now ∧ a.retry_cycle = r.delivery.retry_cycle) := by
    intro base hcycle hattempts hstart
    -- The second half leaves the attempts, fails the row at its limit, or adds the new one.
    rcases start_attempt_cases hstart with rfl | ⟨-, rfl⟩ | ⟨-, expires, rfl | ⟨category, -, rfl⟩⟩
    · exact ⟨hcycle, fun a ha => Or.inl (hattempts a ha)⟩
    · exact ⟨hcycle, fun a ha => Or.inl (hattempts a ha)⟩
    all_goals
      refine ⟨hcycle, fun a ha => ?_⟩
      rcases List.mem_append.mp ha with hold | hnew
      · exact Or.inl (hattempts a hold)
      · rw [List.mem_singleton.mp hnew]
        exact Or.inr ⟨rfl, hcycle⟩
  rcases start_locked_cases h with rfl | ⟨hdue, hcase⟩
  · exact Or.inl rfl
  · -- The row is failed at its limit, released and started, or started as it was.
    rcases hcase with ⟨-, -, rfl⟩ | ⟨-, -, hstart⟩ | ⟨-, hstart⟩
    · exact Or.inr ⟨hdue, rfl, fun a ha => Or.inl (hreleased a ha)⟩
    · exact Or.inr ⟨hdue, hsecond (r.release_expired now) rfl hreleased hstart⟩
    · exact Or.inr ⟨hdue, hsecond r rfl (fun a ha => ⟨a, ha, rfl, rfl, rfl⟩) hstart⟩

end ConsumerExecutionService

/-! ## The settled row -/

namespace ConsumerExecutionService

variable (service : ConsumerExecutionService π ρ) (r : DeliveryRecord) (attempt_id : UUID)

/-- The status that a settlement writes. -/
theorem settled_row_status (failure : Failure) (delay : ℚ) (now : Timestamp) :
    (service.settled_row r attempt_id failure delay now).delivery.status =
      if service.terminal failure (settled_count failure r.delivery.attempt_count) then .failed
      else .pending := rfl

/-- An outage gives the attempt back and is never terminal. -/
theorem settled_row_outage {error : RaisedError}
    (hinfra : (classify_failure error).infrastructure = true) (delay : ℚ) (now : Timestamp) :
    (service.settled_row r attempt_id (classify_failure error) delay now).delivery.status =
        .pending ∧
      (service.settled_row r attempt_id (classify_failure error) delay now).delivery.attempt_count =
        r.delivery.attempt_count - 1 := by
  refine ⟨?_, if_pos hinfra⟩
  rw [service.settled_row_status, terminal, hinfra, classify_failure_outage hinfra]
  rfl

/-- A permanent failure is terminal. -/
theorem settled_row_permanent {failure : Failure} (hpermanent : failure.permanent = true)
    (delay : ℚ) (now : Timestamp) :
    (service.settled_row r attempt_id failure delay now).delivery.status = .failed := by
  rw [service.settled_row_status, terminal, hpermanent]
  rfl

/-- Any other failure stays charged and is terminal at the limit. -/
theorem settled_row_charged {failure : Failure} (hinfra : failure.infrastructure = false)
    (hpermanent : failure.permanent = false) (delay : ℚ) (now : Timestamp) :
    (service.settled_row r attempt_id failure delay now).delivery.attempt_count =
        r.delivery.attempt_count ∧
      (service.settled_row r attempt_id failure delay now).delivery.status =
        if service.policy.max_attempts ≤ r.delivery.attempt_count then .failed else .pending := by
  have hcount : settled_count failure r.delivery.attempt_count = r.delivery.attempt_count :=
    if_neg (by rw [hinfra]; nofun)
  refine ⟨hcount, ?_⟩
  rw [service.settled_row_status, hcount, terminal, hinfra, hpermanent]
  simp

/-- Within the limit, such a failure fails the delivery exactly at the limit and leaves it pending
below. -/
theorem settled_row_limit {failure : Failure} (hinfra : failure.infrastructure = false)
    (hpermanent : failure.permanent = false) (delay : ℚ) (now : Timestamp)
    (hle : r.delivery.attempt_count ≤ service.policy.max_attempts) :
    ((service.settled_row r attempt_id failure delay now).delivery.status = .failed ↔
        r.delivery.attempt_count = service.policy.max_attempts) ∧
      ((service.settled_row r attempt_id failure delay now).delivery.status = .pending ↔
        r.delivery.attempt_count < service.policy.max_attempts) := by
  rw [(service.settled_row_charged r attempt_id hinfra hpermanent delay now).2]
  by_cases hlimit : service.policy.max_attempts ≤ r.delivery.attempt_count
  · have heq := le_antisymm hle hlimit
    simp [heq]
  · have hlt := not_le.mp hlimit
    simp [hlimit, hlt, hlt.ne]

variable {service r attempt_id}

/-- The settled attempt is finished at the time of the settlement, with the category of the
failure. -/
theorem settled_row_attempt (service : ConsumerExecutionService π ρ) {policy : RetryPolicy}
    (h : RecordInv policy r) (hstatus : r.delivery.status = .processing)
    (hrunning : ∀ a ∈ r.running_attempts, a.id = attempt_id) (failure : Failure) (delay : ℚ)
    (now : Timestamp) :
    ∃ a ∈ (service.settled_row r attempt_id failure delay now).attempts, a.id = attempt_id ∧
      a.retry_cycle = r.delivery.retry_cycle ∧ a.status = .failed ∧ a.finished_at = some now ∧
      a.error_category = some failure.category := by
  obtain ⟨b, hb, -, -, hcycle⟩ := h.processing hstatus
  have hmem : b ∈ r.running_attempts := by rw [hb]; exact List.mem_singleton_self b
  have hid : b.id = attempt_id := hrunning b hmem
  refine ⟨{ b with status := .failed, error_category := some failure.category,
                   finished_at := some now }, ?_, hid, hcycle, rfl, rfl, rfl⟩
  exact List.mem_map.mpr ⟨b, (List.mem_filter.mp hmem).1, if_pos hid⟩

end ConsumerExecutionService

/-! ## Waiting for the next attempt -/

/-- The attempts of `cycle` other than the known ones start no earlier than `due`: the ones that
have started did not, and while `due` has not come the delivery waits for it, unless the cycle is
over. -/
structure Waits (cycle : ℤ) (known : List UUID) (due now : Timestamp) (r : DeliveryRecord) :
    Prop where
  /-- The cycle has been reached. -/
  cycle_le : cycle ≤ r.delivery.retry_cycle
  /-- The attempts that have started. -/
  started : ∀ a ∈ r.attempts, a.retry_cycle = cycle → a.id ∈ known ∨ due ≤ a.started_at
  /-- The attempts that have not. -/
  blocked : cycle < r.delivery.retry_cycle ∨ due ≤ now ∨
    (r.delivery.status ≠ .processing ∧ due ≤ r.delivery.next_attempt_at)

namespace Waits

variable {deployment : Deployment π ρ} {cycle : ℤ} {known : List UUID} {due now : Timestamp}
  {r r' : DeliveryRecord}

/-- Time passes. -/
theorem mono {later : Timestamp} (h : Waits cycle known due now r) (hle : now ≤ later) :
    Waits cycle known due later r :=
  ⟨h.cycle_le, h.started, h.blocked.imp_right (Or.imp_left hle.trans')⟩

/-- A delivery that is being processed no longer waits. -/
theorem reached (h : Waits cycle known due now r) (hstatus : r.delivery.status = .processing) :
    cycle < r.delivery.retry_cycle ∨ due ≤ now := by
  rcases h.blocked with hcycle | hdue | ⟨hidle, -⟩
  · exact Or.inl hcycle
  · exact Or.inr hdue
  · exact absurd hstatus hidle

/-- Changed attempts keep their identifiers, their cycles and the times at which they started. -/
theorem started_of (h : Waits cycle known due now r)
    (hattempts : ∀ a ∈ r'.attempts, ∃ b ∈ r.attempts, b.id = a.id ∧
      b.retry_cycle = a.retry_cycle ∧ b.started_at = a.started_at) :
    ∀ a ∈ r'.attempts, a.retry_cycle = cycle → a.id ∈ known ∨ due ≤ a.started_at := by
  intro a ha hcycle
  obtain ⟨b, hb, hid, hbcycle, hstarted⟩ := hattempts a ha
  rw [← hid, ← hstarted]
  exact h.started b hb (hbcycle.trans hcycle)

/-- A delivery keeps waiting under every change. What it waits for can only come by the clock or by
a new cycle. -/
theorem change (hchange : RowChange deployment now r r') (h : Waits cycle known due now r) :
    Waits cycle known due now r' := by
  cases hchange with
  | kept => exact h
  | started settings event worker_id next_uuid started hfresh hstart =>
    rcases ConsumerExecutionService.start_locked_attempts hstart with rfl | ⟨hnext, hcycle, hattempts⟩
    · exact h
    · -- The delivery was due, so whatever it waited for has come.
      have hreached : cycle < r.delivery.retry_cycle ∨ due ≤ now := by
        rcases h.blocked with hlt | hdue | ⟨-, hdue⟩
        · exact Or.inl hlt
        · exact Or.inr hdue
        · exact Or.inr (hdue.trans hnext)
      refine ⟨hcycle ▸ h.cycle_le, fun a ha hacycle => ?_, ?_⟩
      · -- An attempt that was there keeps its start, and a new one starts now, after the wait.
        rcases hattempts a ha with ⟨b, hb, hid, hbcycle, hstarted⟩ | ⟨hstarted, hcurrent⟩
        · rw [← hid, ← hstarted]
          exact h.started b hb (hbcycle.trans hacycle)
        · rcases hreached with hlt | hdue
          · omega
          · exact Or.inr (hstarted ▸ hdue)
      · rw [hcycle]
        exact hreached.imp_right Or.inl
  -- A row under a claim has already waited long enough.
  | committed hcommit =>
    have hreached := h.reached hcommit.status
    obtain ⟨attempt_id, outcome, at_time, -, rfl⟩ := hcommit.commit
    refine ⟨h.cycle_le, h.started_of fun a ha => ?_, hreached.imp_right Or.inl⟩
    obtain ⟨b, hb, rfl⟩ := List.mem_map.mp ha
    exact ⟨b, hb, by split_ifs <;> exact ⟨rfl, rfl, rfl⟩⟩
  -- So has a row whose attempt is settled.
  | settled settings claim error jitter delay howned =>
    have hstatus : r.delivery.status = .processing := by
      simp only [DeliveryRecord.owned_by, Bool.and_eq_true, decide_eq_true_eq] at howned
      exact howned.1
    refine ⟨h.cycle_le, h.started_of fun a ha => ?_, (h.reached hstatus).imp_right Or.inl⟩
    obtain ⟨b, hb, rfl⟩ := List.mem_map.mp ha
    exact ⟨b, hb, by split_ifs <;> exact ⟨rfl, rfl, rfl⟩⟩
  | recovered settings hstatus =>
    refine ⟨h.cycle_le, h.started_of fun a ha => ?_, (h.reached hstatus).imp_right Or.inl⟩
    obtain ⟨b, hb, rfl⟩ := List.mem_map.mp ha
    exact ⟨b, hb, by split_ifs <;> exact ⟨rfl, rfl, rfl⟩⟩
  -- The relay moves no due time.
  | relayed d hid hstatus hcount hcycle hnext =>
    refine ⟨hcycle.symm ▸ h.cycle_le, h.started, ?_⟩
    rcases h.blocked with hlt | hdue | ⟨-, hdue⟩
    · exact Or.inl (hcycle.symm ▸ hlt)
    · exact Or.inr (Or.inl hdue)
    · exact Or.inr (Or.inr ⟨by rw [hstatus.2]; decide, hnext.symm ▸ hdue⟩)
  -- A replay opens a cycle above the one that is waited in.
  | replayed replay_id operator reason correlation_id hstatus =>
    have hlt : cycle < r.delivery.retry_cycle + 1 := Int.lt_add_one_iff.mpr h.cycle_le
    exact ⟨hlt.le, h.started, Or.inl hlt⟩

/-- A settled delivery waits for the end of the delay. -/
theorem of_settlement (service : ConsumerExecutionService π ρ) (r : DeliveryRecord)
    (attempt_id : UUID) (failure : Failure) (delay : ℚ) (now : Timestamp) :
    Waits r.delivery.retry_cycle
      ((service.settled_row r attempt_id failure delay now).attempts.map EventDeliveryAttempt.id)
      (now + timedelta_seconds delay) now (service.settled_row r attempt_id failure delay now) := by
  refine ⟨le_rfl, fun a ha _ => Or.inl (List.mem_map_of_mem ha), Or.inr (Or.inr ⟨?_, le_rfl⟩)⟩
  rw [service.settled_row_status]
  split_ifs <;> nofun

end Waits

/-! ## Finished attempts -/

/-- An attempt that is not running is not the one that is being settled. -/
theorem RecordInv.finished_id_ne {policy : RetryPolicy} {r : DeliveryRecord}
    (h : RecordInv policy r) (hstatus : r.delivery.status = .processing) {attempt_id : UUID}
    (hrunning : ∀ a ∈ r.running_attempts, a.id = attempt_id) {a : EventDeliveryAttempt}
    (ha : a ∈ r.attempts) (hdone : a.status ≠ .running) : a.id ≠ attempt_id := by
  obtain ⟨b, hb, -⟩ := h.processing hstatus
  have hmem : b ∈ r.running_attempts := by rw [hb]; exact List.mem_singleton_self b
  obtain ⟨hbmem, hbrun⟩ := List.mem_filter.mp hmem
  intro haid
  have hab : a = b := h.attempt_ids.eq_of_key ha hbmem (haid.trans (hrunning b hmem).symm)
  exact hdone (hab ▸ of_decide_eq_true hbrun)

/-- An attempt that is not running is never changed again. Changes finish attempts only by their
identifier, and that of the running one is another. -/
theorem RowChange.finished {deployment : Deployment π ρ} {now : Timestamp} {r r' : DeliveryRecord}
    (hchange : RowChange deployment now r r') (h : RecordInv deployment.policy r)
    {a : EventDeliveryAttempt} (ha : a ∈ r.attempts) (hdone : a.status ≠ .running) :
    a ∈ r'.attempts := by
  have hreleased : a ∈ (r.release_expired now).attempts :=
    List.mem_map.mpr ⟨a, ha, if_neg hdone⟩
  cases hchange with
  | started settings event worker_id next_uuid started hfresh hstart =>
    -- The second half appends at most one attempt.
    have hsecond : ∀ base : DeliveryRecord, a ∈ base.attempts →
        (deployment.service settings).start_attempt event base worker_id now next_uuid =
          some (r', started) → a ∈ r'.attempts := by
      intro base hbase hattempt
      rcases ConsumerExecutionService.start_attempt_cases hattempt with
        rfl | ⟨-, rfl⟩ | ⟨-, expires, rfl | ⟨category, -, rfl⟩⟩
      · exact hbase
      · exact hbase
      · exact List.mem_append_left _ hbase
      · exact List.mem_append_left _ hbase
    rcases ConsumerExecutionService.start_locked_cases hstart with rfl | ⟨-, hcase⟩
    · exact ha
    · rcases hcase with ⟨-, -, rfl⟩ | ⟨-, -, hattempt⟩ | ⟨-, hattempt⟩
      · exact hreleased
      · exact hsecond (r.release_expired now) hreleased hattempt
      · exact hsecond r ha hattempt
  -- The attempt that the effect finishes was running, so it is not this one.
  | committed hcommit =>
    obtain ⟨attempt_id, outcome, at_time, hrunning, rfl⟩ := hcommit.commit
    exact List.mem_map.mpr ⟨a, ha, if_neg (h.finished_id_ne hcommit.status hrunning ha hdone)⟩
  -- Neither is the one that is settled.
  | settled settings claim error jitter delay howned hrunning =>
    have hstatus : r.delivery.status = .processing := by
      simp only [DeliveryRecord.owned_by, Bool.and_eq_true, decide_eq_true_eq] at howned
      exact howned.1
    exact List.mem_map.mpr ⟨a, ha, if_neg (h.finished_id_ne hstatus hrunning ha hdone)⟩
  | recovered => exact hreleased
  | kept | relayed | replayed => exact ha

/-! ## The end of a cycle -/

/-- The charged attempts of the current cycle. Attempts that were refunded are not among them. -/
def DeliveryRecord.charged_attempts (r : DeliveryRecord) : List EventDeliveryAttempt :=
  (r.cycle_attempts r.delivery.retry_cycle).filter EventDeliveryAttempt.charged

/-- The count is the number of charged attempts of the cycle. -/
theorem RecordInv.attempt_count_charged {policy : RetryPolicy} {r : DeliveryRecord}
    (h : RecordInv policy r) : r.delivery.attempt_count = r.charged_attempts.length := by
  rw [h.attempt_count_eq, DeliveryRecord.charged_attempts]
  congr 2
  exact List.filter_congr fun a _ => a.charged_eq.symm

/-- After an outage the charged attempts are the other ones. -/
theorem ConsumerExecutionService.settled_row_charged_attempts
    (service : ConsumerExecutionService π ρ) (r : DeliveryRecord) (attempt_id : UUID)
    {failure : Failure} (hcategory : failure.category.infrastructure = true) (delay : ℚ)
    (now : Timestamp) :
    (service.settled_row r attempt_id failure delay now).charged_attempts =
      r.charged_attempts.filter fun a => a.id ≠ attempt_id := by
  simp only [DeliveryRecord.charged_attempts, DeliveryRecord.cycle_attempts, settled_row,
    DeliveryRecord.settle_failure, DeliveryRecord.modify_attempt, EventDelivery.clear_claim,
    Keyed.modify, List.filter_filter]
  induction r.attempts with
  | nil => rfl
  | cons a attempts ih =>
    by_cases hid : a.id = attempt_id
    · rw [List.map_cons, if_pos hid, List.filter_cons_of_neg, List.filter_cons_of_neg, ih]
      · simp [hid]
      · simp [EventDeliveryAttempt.charged, hcategory]
    · rw [List.map_cons, if_neg hid, List.filter_cons, List.filter_cons, ih]
      simp [hid]

/-- The attempt failed with a category that no retry can help. -/
def EventDeliveryAttempt.permanent (a : EventDeliveryAttempt) : Bool :=
  a.error_category.any ErrorCategory.permanent

/-- A delivery that is pending has attempts left, and one that is failed has none left or has failed
permanently in its cycle. -/
structure LimitInv (policy : RetryPolicy) (r : DeliveryRecord) : Prop where
  /-- Attempts are left. -/
  pending : r.delivery.status = .pending → r.delivery.attempt_count < policy.max_attempts
  /-- The delivery is failed for one of two reasons. -/
  failed : r.delivery.status = .failed → r.delivery.attempt_count = policy.max_attempts ∨
    ∃ a ∈ r.attempts, a.retry_cycle = r.delivery.retry_cycle ∧ a.permanent = true

namespace LimitInv

variable {deployment : Deployment π ρ} {now : Timestamp} {r r' : DeliveryRecord}

/-- An inserted delivery has all its attempts left. -/
theorem inserted (policy : RetryPolicy) (id event_id : UUID) (consumer : ConsumerName)
    (created_at : Timestamp) :
    LimitInv policy ⟨.inserted id event_id consumer created_at, [], none, []⟩ :=
  ⟨fun _ => lt_of_lt_of_le zero_lt_one policy.one_le, nofun⟩

/-- The second half of `_start` on a pending row with attempts left, or at its limit. -/
theorem start_attempt (service : ConsumerExecutionService π ρ) {event : OutboxEvent π}
    {worker_id : String} {next_uuid : UUID} {started : Started ρ}
    (hle : r.delivery.attempt_count ≤ service.policy.max_attempts)
    (hkept : LimitInv service.policy r)
    (hstart : service.start_attempt event r worker_id now next_uuid = some (r', started)) :
    LimitInv service.policy r' := by
  rcases ConsumerExecutionService.start_attempt_cases hstart with
    rfl | ⟨hlimit, rfl⟩ | ⟨-, expires, rfl | ⟨category, hcategory, rfl⟩⟩
  · exact hkept
  · exact ⟨nofun, fun _ => Or.inl (le_antisymm hle hlimit)⟩
  · exact ⟨nofun, nofun⟩
  · -- The rejected attempt is the one that failed permanently.
    refine ⟨nofun, fun _ => Or.inr ⟨r.new_attempt next_uuid (next_uuid + 1) now (some category),
      List.mem_append_right _ (List.mem_singleton_self _), rfl, ?_⟩⟩
    exact hcategory

/-- A settled delivery is pending with attempts left, or failed with none left or permanently. -/
theorem of_settlement (hinv : RecordInv deployment.policy r)
    (hstatus : r.delivery.status = .processing) {attempt_id : UUID}
    (hrunning : ∀ a ∈ r.running_attempts, a.id = attempt_id) (settings : ServiceSettings)
    (error : RaisedError) (delay : ℚ) (now : Timestamp) :
    LimitInv deployment.policy ((deployment.service settings).settled_row r attempt_id
      (classify_failure error) delay now) := by
  have hle : r.delivery.attempt_count ≤ deployment.policy.max_attempts := hinv.count_le
  -- Infrastructure failures, permanent failures and other failures are charged and settled
  -- differently.
  cases hinfra : (classify_failure error).infrastructure with
  | true =>
    -- The attempt is refunded, and the delivery is pending below its limit.
    obtain ⟨hpending, hcount⟩ := (deployment.service settings).settled_row_outage r attempt_id
      hinfra delay now
    refine ⟨fun _ => ?_, fun hs => absurd (hs.symm.trans hpending) nofun⟩
    rw [hcount]
    omega
  | false =>
    cases hpermanent : (classify_failure error).permanent with
    -- The attempt carries the permanent category that failed the delivery.
    | true =>
      obtain ⟨a, ha, -, hcycle, -, -, hcategory⟩ :=
        (deployment.service settings).settled_row_attempt hinv hstatus hrunning
          (classify_failure error) delay now
      have hfailed := (deployment.service settings).settled_row_permanent r attempt_id hpermanent
        delay now
      refine ⟨fun hs => absurd (hs.symm.trans hfailed) nofun, fun _ => Or.inr ⟨a, ha, hcycle, ?_⟩⟩
      rw [EventDeliveryAttempt.permanent, hcategory]
      exact (classify_failure_permanent error).symm.trans hpermanent
    | false =>
      -- The attempt is charged, and the limit decides.
      obtain ⟨hcount, hrow⟩ := (deployment.service settings).settled_row_charged r attempt_id
        hinfra hpermanent delay now
      by_cases hlimit : deployment.policy.max_attempts ≤ r.delivery.attempt_count
      · refine ⟨fun hs => ?_, fun _ => Or.inl (hcount.trans (le_antisymm hle hlimit))⟩
        exact absurd (hs.symm.trans (hrow.trans (if_pos hlimit))) nofun
      · refine ⟨fun _ => hcount.trans_lt (not_le.mp hlimit), fun hs => ?_⟩
        exact absurd (hs.symm.trans (hrow.trans (if_neg hlimit))) nofun

/-- Every change keeps the limit. A row fails by the limit only when the charged attempts of its
cycle have reached it. -/
theorem change (hchange : RowChange deployment now r r') (hinv : RecordInv deployment.policy r)
    (h : LimitInv deployment.policy r) : LimitInv deployment.policy r' := by
  cases hchange with
  | kept => exact h
  | started settings event worker_id next_uuid started hfresh hstart =>
    rcases ConsumerExecutionService.start_locked_cases hstart with rfl | ⟨-, hcase⟩
    · exact h
    · -- The limit was reached, or the second half finds attempts left.
      rcases hcase with ⟨-, hlimit, rfl⟩ | ⟨-, hleft, hattempt⟩ | ⟨-, hattempt⟩
      · exact ⟨by rintro ⟨⟩, fun _ => Or.inl (le_antisymm hinv.count_le hlimit)⟩
      · have hreleased : LimitInv deployment.policy (r.release_expired now) :=
          ⟨fun _ => hleft, by rintro ⟨⟩⟩
        have hle : (r.release_expired now).delivery.attempt_count ≤ deployment.policy.max_attempts :=
          hinv.count_le
        exact start_attempt (deployment.service settings) hle hreleased hattempt
      · exact start_attempt (deployment.service settings) hinv.count_le h hattempt
  | committed hcommit =>
    have hstatus : r'.delivery.status = .succeeded := hcommit.frame.2.2.2.1
    exact ⟨fun hs => absurd (hs.symm.trans hstatus) (by decide),
      fun hs => absurd (hs.symm.trans hstatus) (by decide)⟩
  -- The settlement decides by the category and the limit.
  | settled settings claim error jitter delay howned hrunning hdelay =>
    have hstatus : r.delivery.status = .processing := by
      simp only [DeliveryRecord.owned_by, Bool.and_eq_true, decide_eq_true_eq] at howned
      exact howned.1
    exact of_settlement hinv hstatus hrunning settings error delay now
  -- The recovery decides by the limit alone.
  | recovered settings hstatus =>
    by_cases hlimit : deployment.policy.max_attempts ≤ r.delivery.attempt_count
    · exact ⟨fun hs => absurd (hs.symm.trans (if_pos hlimit)) (by decide),
        fun _ => Or.inl (le_antisymm hinv.count_le hlimit)⟩
    · exact ⟨fun _ => not_le.mp hlimit, fun hs => absurd (hs.symm.trans (if_neg hlimit)) (by decide)⟩
  | relayed d hid hstatus hcount hcycle hnext =>
    exact ⟨fun _ => hcount.symm ▸ h.pending hstatus.1,
      fun hs => absurd (hs.symm.trans hstatus.2) (by decide)⟩
  | replayed replay_id operator reason correlation_id hstatus =>
    exact ⟨fun _ => lt_of_lt_of_le zero_lt_one deployment.policy.one_le, by rintro ⟨⟩⟩

end LimitInv

/-! ## Runs -/

namespace Deployment

variable (deployment : Deployment π ρ)

/-- The clock does not go back. No action sets it, and `tick` adds to it. -/
theorem now_le_step (w : World π ρ) (a : Act π) : w.now ≤ (deployment.step w a).now := by
  cases a with
  | tick elapsed => exact le_add_of_nonneg_right (Int.natCast_nonneg elapsed)
  | route message group settings worker_id locked fate =>
    simp only [step, route]
    split
    · exact le_rfl
    · split
      · exact le_rfl
      · split
        · exact le_rfl
        · split_ifs <;> exact le_rfl
  | effect execution handler fate =>
    simp only [step, effect]
    split
    · split
      · split <;> exact le_rfl
      · exact le_rfl
    · exact le_rfl
  | settle execution settler jitter fate =>
    simp only [step, settle]
    split
    · split <;> exact le_rfl
    · exact le_rfl
  | acknowledge execution =>
    simp only [step, World.acknowledge]
    split
    · split_ifs <;> exact le_rfl
    · exact le_rfl
  | replay delivery_id operator reason =>
    simp only [step]
    split <;> exact le_rfl
  | _ => exact le_rfl

/-- A state that a run can reach, as far as its delivery records depend on it. -/
structure RunInv (w : World π ρ) : Prop where
  /-- The invariant of the system. -/
  world : WorldInv deployment w
  /-- The failures in memory. -/
  classified : Classified w

/-- Every action keeps the invariant. -/
theorem RunInv.step {w : World π ρ} (h : RunInv deployment w) (a : Act π) :
    RunInv deployment (deployment.step w a) :=
  ⟨deployment.step_inv w a h.world, deployment.step_classified w a h.classified⟩

/-- The invariant holds after every run. -/
theorem reached (now : Timestamp) (acts : List (Act π)) :
    RunInv deployment (deployment.run now acts) :=
  Transition.run_invariant (fun _ a h => h.step deployment a)
    ⟨deployment.initial_inv now, by simp [Classified, initial]⟩ acts

/-- What the passage of time and every change of a record keep, holds after a run for the records of
the identifiers `q`, if it holds before the run and for every record that is inserted. -/
theorem run_rows {P : Timestamp → DeliveryRecord → Prop} {q : UUID → Prop}
    (hmono : ∀ {now later : Timestamp} {r : DeliveryRecord}, now ≤ later → P now r → P later r)
    (hchange : ∀ {now : Timestamp} {r r' : DeliveryRecord}, RecordInv deployment.policy r →
      RowChange deployment now r r' → P now r → P now r')
    {w : World π ρ} (hinv : RunInv deployment w)
    (hinserted : ∀ id event_id consumer created_at now, w.database.next_uuid ≤ id → q id →
      P now ⟨.inserted id event_id consumer created_at, [], none, []⟩)
    (h : ∀ r ∈ w.database.deliveries, q r.id → P w.now r) (acts : List (Act π)) :
    ∀ r ∈ (Transition.run deployment.step w acts).database.deliveries, q r.id →
      P (Transition.run deployment.step w acts).now r := by
  -- The invariant carries the identifiers drawn since `w`, because only those are inserted.
  have hrun := @Transition.run_invariant (World π ρ) (Act π) deployment.step
    (fun s => RunInv deployment s ∧ w.database.next_uuid ≤ s.database.next_uuid ∧
      ∀ r ∈ s.database.deliveries, q r.id → P s.now r) ?_ w ⟨hinv, le_rfl, h⟩ acts
  · exact hrun.2.2
  · rintro s a ⟨hs, hdrawn, hrows⟩
    have hspec := deployment.step_action hs.world a
    refine ⟨hs.step deployment a, hdrawn.trans hspec.database.next_uuid_le, fun r' hr' hid => ?_⟩
    -- A record of the new state was there before, or has been inserted in this step.
    rcases deployment.step_rows hs.world hs.classified a r' hr' with
      ⟨r, hr, hrow⟩ | ⟨id, event_id, consumer, created_at, hnew, rfl⟩
    · have hkept : P s.now r' :=
        hchange (hs.world.database.records r hr) hrow (hrows r hr (hrow.id_eq ▸ hid))
      exact hmono (deployment.now_le_step s a) hkept
    · exact hinserted id event_id consumer created_at _ (hdrawn.trans hnew) hid

/-- A settlement that is committed writes the settled row, with the delay of the failure. -/
theorem settle_writes {w : World π ρ} (hinv : RunInv deployment w) {execution : ℕ}
    {settings : ServiceSettings} {claim : AttemptClaim ρ} {failure : Failure} {r : DeliveryRecord}
    (hphase : w.phase execution = some (.unsettled settings claim failure))
    (hlock : w.database.lock_delivery claim.route = some r) (howned : r.owned_by claim = true)
    (settler : Settler) (jitter : Jitter) {fate : Fate} (hfate : fate.persisted = true) :
    ∃ delay, (deployment.service settings).retry_delay failure
        (ConsumerExecutionService.settled_count failure r.delivery.attempt_count) jitter =
          some delay ∧
      (deployment.step w (.settle execution settler jitter fate)).now = w.now ∧
      (deployment.step w (.settle execution settler jitter fate)).database =
        w.database.write (some
          ((deployment.service settings).settled_row r claim.attempt_id failure delay w.now)) := by
  -- The claim is that of an execution, so its row is there and is being processed.
  obtain ⟨e, hmem, -, heq⟩ := World.phase_eq hphase
  have hclaim : ClaimInv w.database (e.event_id, e.group) claim :=
    (hinv.world.executions e hmem).claim claim (by rw [heq]; rfl)
  have hr : r ∈ w.database.deliveries := Keyed.lookup_mem hlock
  have hstatus : r.delivery.status = .processing := by
    simp only [DeliveryRecord.owned_by, Bool.and_eq_true, decide_eq_true_eq] at howned
    exact howned.1
  have hattempt : r.has_attempt claim.attempt_id = true :=
    hclaim.has_attempt hinv.world.database hr howned
  -- The policy has a delay for every settled attempt.
  obtain ⟨delay, hdelay⟩ := (hinv.world.database.records r hr).retry_delay_some
    (deployment.service settings) hstatus failure jitter
  refine ⟨delay, hdelay, ?_⟩
  simp only [step, settle, hphase, hlock, ConsumerExecutionService.finish_failure,
    Option.filter_some, howned, if_true, hattempt, Bool.not_true, Bool.false_eq_true, if_false,
    hdelay, hfate]
  exact ⟨rfl, rfl⟩

end Deployment

namespace Deployment

variable (deployment : Deployment π ρ)

/-! ## The law -/

/-- After every run a pending delivery has attempts left, and a failed one has none left or has
failed permanently. -/
theorem limit_inv (now : Timestamp) (acts : List (Act π)) :
    ∀ r ∈ (deployment.run now acts).database.deliveries, LimitInv deployment.policy r := by
  have hrows := deployment.run_rows (P := fun _ r => LimitInv deployment.policy r)
    (q := fun _ => True) (fun _ h => h) (fun hinv hchange h => h.change hchange hinv)
    (deployment.reached now []) (fun id event_id consumer created_at _ _ _ =>
      LimitInv.inserted deployment.policy id event_id consumer created_at)
    (fun r hr _ => absurd hr List.not_mem_nil) acts
  exact fun r hr => hrows r hr trivial

/-- A delivery without a permanent failure in its cycle is failed exactly if its attempts are used
up and none of them is running or has succeeded. A permanent failure fails a delivery early, which
is why it is left out here. -/
theorem failed_iff_limit (now : Timestamp) (acts : List (Act π)) {r : DeliveryRecord}
    (hr : r ∈ (deployment.run now acts).database.deliveries)
    (hpermanent : ∀ a ∈ r.cycle_attempts r.delivery.retry_cycle, a.permanent = false) :
    r.delivery.status = .failed ↔ (r.charged_attempts.length : ℤ) = deployment.policy.max_attempts ∧
      r.running_attempts = [] ∧ r.receipt = none := by
  have hinv : RecordInv deployment.policy r :=
    (deployment.reached now acts).world.database.records r hr
  have hlimit : LimitInv deployment.policy r := deployment.limit_inv now acts r hr
  rw [← hinv.attempt_count_charged]
  constructor
  · -- A failed delivery has used up its attempts, or one of them has failed permanently.
    intro hfailed
    have hnone : ¬r.receipt.isSome := by rw [hinv.receipt, hfailed]; nofun
    refine ⟨?_, hinv.idle (by rw [hfailed]; nofun), by simpa using hnone⟩
    rcases hlimit.failed hfailed with hcount | ⟨a, ha, hcycle, hperm⟩
    · exact hcount
    · rw [hpermanent a (List.mem_filter.mpr ⟨ha, by simpa using hcycle⟩)] at hperm
      cases hperm
  · -- No other status goes with a count at the limit and nothing running.
    rintro ⟨hcount, hidle, hreceipt⟩
    cases hstatus : r.delivery.status with
    | failed => rfl
    | pending => exact absurd hcount (hlimit.pending hstatus).ne
    | processing =>
      have hone := hinv.processing_iff.mp hstatus
      rw [hidle] at hone
      cases hone
    | succeeded =>
      have hsome := hinv.receipt.mpr hstatus
      rw [hreceipt] at hsome
      cases hsome

/-- After a settlement, the settled attempt stays as it is and the attempts of the cycle that start
later wait for the end of the delay. -/
theorem settled_run {w : World π ρ} (hinv : RunInv deployment w) {r' : DeliveryRecord}
    (hr' : r' ∈ w.database.deliveries) {cycle : ℤ} {known : List UUID} {due : Timestamp}
    (hwaits : Waits cycle known due w.now r') {a : EventDeliveryAttempt} (ha : a ∈ r'.attempts)
    (hdone : a.status ≠ .running) (acts : List (Act π)) :
    ∀ s ∈ (Transition.run deployment.step w acts).database.deliveries, s.id = r'.id →
      a ∈ s.attempts ∧ ∀ b ∈ s.attempts, b.retry_cycle = cycle → b.id ∈ known ∨ due ≤ b.started_at := by
  have hrows := deployment.run_rows (P := fun now s => Waits cycle known due now s ∧ a ∈ s.attempts)
    (q := fun id => id = r'.id) (fun hle h => ⟨h.1.mono hle, h.2⟩)
    (fun hrecord hchange h => ⟨h.1.change hchange, hchange.finished hrecord h.2 hdone⟩) hinv
    (fun id _ _ _ _ hnew hid => ?_) (fun s hs hid => ?_) acts
  · exact fun s hs hid => ⟨(hrows s hs hid).2, (hrows s hs hid).1.started⟩
  · -- The identifier of the delivery was drawn before the settlement.
    have hold : r'.id < w.database.next_uuid := (hinv.world.database.drawn r' hr').1
    rw [hid] at hnew
    exact absurd hold (not_lt.mpr hnew)
  · rw [hinv.world.database.ids.eq_of_key hs hr' hid]
    exact ⟨hwaits, ha⟩

/-- The back-off law. Whenever `_finish_failure` of an execution settles the attempt of a delivery:
no other attempt of the cycle starts, later in the run, before the time at which the settled attempt
finished plus the delay. The delay is the infrastructure delay of the executor for an outage, and
that of the policy for the charged attempts of the cycle and the drawn jitter otherwise. An outage
is taken off the charged attempts, the settled attempt is never changed again, and a charged failure
that is not permanent fails the delivery exactly if the charged attempts have reached the limit. The
delays of the policy lie between a second and a minute and do not decrease with the charged attempts.
And in every reachable state, a delivery that has not failed permanently in its cycle is failed
exactly if its charged attempts have reached the limit and none is running or has succeeded. -/
theorem retry_backoff (now : Timestamp) (before after : List (Act π)) (execution : ℕ)
    (settler : Settler) (jitter : Jitter) (fate : Fate) :
    (∀ settings claim failure r,
      (deployment.run now before).phase execution = some (.unsettled settings claim failure) →
      (deployment.run now before).database.lock_delivery claim.route = some r →
      r.owned_by claim = true → fate.persisted = true →
      ∃ delay, ∃ r' ∈ (deployment.run now
          (before ++ [.settle execution settler jitter fate])).database.deliveries,
        r'.id = r.id ∧ r'.delivery.retry_cycle = r.delivery.retry_cycle ∧
        (failure.infrastructure = true → delay = settings.infrastructure_delay_seconds ∧
          r'.delivery.status = .pending ∧
          r'.charged_attempts = r.charged_attempts.filter fun a => a.id ≠ claim.attempt_id) ∧
        (failure.infrastructure = false →
          deployment.policy.delay_seconds r.charged_attempts.length jitter = some delay ∧
          r'.charged_attempts.length = r.charged_attempts.length ∧
          (failure.permanent = false →
            (r'.delivery.status = .failed ↔
              (r'.charged_attempts.length : ℤ) = deployment.policy.max_attempts) ∧
            (r'.delivery.status = .pending ↔
              (r'.charged_attempts.length : ℤ) < deployment.policy.max_attempts))) ∧
        r.delivery.attempt_count = r.charged_attempts.length ∧
        r'.delivery.attempt_count = r'.charged_attempts.length ∧
        ∀ s ∈ (deployment.run now
            (before ++ .settle execution settler jitter fate :: after)).database.deliveries,
          s.id = r.id → ∃ a ∈ s.attempts, a.id = claim.attempt_id ∧ a.status = .failed ∧
            a.charged = !failure.infrastructure ∧
            ∃ finished_at, a.finished_at = some finished_at ∧
              ∀ b ∈ s.attempts, b.retry_cycle = r.delivery.retry_cycle →
                (∀ c ∈ r'.attempts, b.id ≠ c.id) →
                finished_at + timedelta_seconds delay ≤ b.started_at) ∧
    (∀ (k : ℤ) (j : Jitter), 1 ≤ k → ∃ delay, deployment.policy.delay_seconds k j = some delay ∧
      1 ≤ delay ∧ delay ≤ 60 ∧ ∀ (l : ℤ) (next_j : Jitter), k < l →
        ∃ next_delay, deployment.policy.delay_seconds l next_j = some next_delay ∧
          delay ≤ next_delay) ∧
    ∀ r ∈ (deployment.run now before).database.deliveries,
      (∀ a ∈ r.cycle_attempts r.delivery.retry_cycle, a.permanent = false) →
      (r.delivery.status = .failed ↔
        (r.charged_attempts.length : ℤ) = deployment.policy.max_attempts ∧
          r.running_attempts = [] ∧ r.receipt = none) := by
  refine ⟨fun settings claim failure r hphase hlock howned hfate => ?_,
    fun k j hk => deployment.policy.delay_le hk j,
    fun r hr hpermanent => deployment.failed_iff_limit now before hr hpermanent⟩
  have hinv := deployment.reached now before
  -- The failure in memory is a classified one, of the claim that the execution holds.
  obtain ⟨e, hmem, -, heq⟩ := World.phase_eq hphase
  obtain ⟨error, rfl⟩ := hinv.classified e hmem settings claim failure heq
  have hclaim : ClaimInv (deployment.run now before).database (e.event_id, e.group) claim :=
    (hinv.world.executions e hmem).claim claim (by rw [heq]; rfl)
  have hr : r ∈ (deployment.run now before).database.deliveries := Keyed.lookup_mem hlock
  have hrecord : RecordInv deployment.policy r := hinv.world.database.records r hr
  have hstatus : r.delivery.status = .processing := by
    simp only [DeliveryRecord.owned_by, Bool.and_eq_true, decide_eq_true_eq] at howned
    exact howned.1
  have hrunning : ∀ a ∈ r.running_attempts, a.id = claim.attempt_id :=
    hclaim.running hinv.world.database hr howned
  obtain ⟨delay, hdelay, hclock, hdb⟩ :=
    deployment.settle_writes hinv hphase hlock howned settler jitter hfate
  -- The state after the settlement holds the settled row.
  have hsettled := hinv.step deployment (.settle execution settler jitter fate)
  have hend : deployment.run now (before ++ [.settle execution settler jitter fate]) =
      deployment.step (deployment.run now before) (.settle execution settler jitter fate) :=
    Transition.run_concat deployment.step _ before _
  have hlater : deployment.run now (before ++ .settle execution settler jitter fate :: after) =
      Transition.run deployment.step
        (deployment.step (deployment.run now before) (.settle execution settler jitter fate)) after :=
    Transition.run_append deployment.step _ before _
  rw [hend, hlater]
  generalize hstate : deployment.step (deployment.run now before)
    (.settle execution settler jitter fate) = w at hclock hdb hsettled ⊢
  -- The settled row, under a name of its own.
  obtain ⟨row, hrow⟩ : ∃ row, row = (deployment.service settings).settled_row r claim.attempt_id
      (classify_failure error) delay (deployment.run now before).now := ⟨_, rfl⟩
  rw [← hrow] at hdb
  have hid : row.id = r.id := by rw [hrow]; rfl
  have hr' : row ∈ w.database.deliveries := by
    rw [hdb]
    exact List.mem_map.mpr ⟨r, hr, if_pos hid.symm⟩
  have hcount : row.delivery.attempt_count = row.charged_attempts.length :=
    (hsettled.world.database.records row hr').attempt_count_charged
  obtain ⟨a, ha, haid, -, hastatus, hafinished, hacategory⟩ :=
    (deployment.service settings).settled_row_attempt hrecord hstatus hrunning
      (classify_failure error) delay (deployment.run now before).now
  -- From now on the delivery waits for the delay, or for a new cycle.
  have hwaits := Waits.of_settlement (deployment.service settings) r claim.attempt_id
    (classify_failure error) delay (deployment.run now before).now
  rw [← hrow] at ha hwaits
  refine ⟨delay, row, hr', hid, by rw [hrow]; rfl, fun hinfra => ?_, fun hinfra => ?_,
    hrecord.attempt_count_charged, hcount, fun s hs hsid => ?_⟩
  · -- An outage: the delay is the one of the executor, and the attempt is refunded.
    rw [ConsumerExecutionService.retry_delay, if_pos hinfra] at hdelay
    have hcategory : (classify_failure error).category.infrastructure = true :=
      (classify_failure_infrastructure error).symm.trans hinfra
    rw [hrow]
    exact ⟨(Option.some.inj hdelay).symm,
      ((deployment.service settings).settled_row_outage r claim.attempt_id hinfra delay _).1,
      (deployment.service settings).settled_row_charged_attempts r claim.attempt_id hcategory delay _⟩
  · -- A charged failure: the count stays and gives the delay of the policy.
    have hne : ¬(classify_failure error).infrastructure = true := by rw [hinfra]; decide
    have hsame : row.delivery.attempt_count = r.delivery.attempt_count := by
      rw [hrow]
      exact if_neg hne
    rw [ConsumerExecutionService.retry_delay, if_neg hne, ConsumerExecutionService.settled_count,
      if_neg hne, hrecord.attempt_count_charged] at hdelay
    have hlength : row.charged_attempts.length = r.charged_attempts.length := by
      have hcounts := hcount.symm.trans (hsame.trans hrecord.attempt_count_charged)
      exact_mod_cast hcounts
    refine ⟨hdelay, hlength, fun hpermanent => ?_⟩
    rw [hlength, ← hrecord.attempt_count_charged, hrow]
    exact (deployment.service settings).settled_row_limit r claim.attempt_id hinfra hpermanent delay
      _ hrecord.count_le
  · -- In every later state the settled attempt is the same, and what has started since has waited.
    obtain ⟨hkept, hstarts⟩ := deployment.settled_run hsettled hr' (hclock.symm ▸ hwaits) ha
      (by rw [hastatus]; decide) after s hs (hsid.trans hid.symm)
    refine ⟨a, hkept, haid, hastatus, ?_, _, hafinished, fun b hb hcycle hnew => ?_⟩
    · simp [EventDeliveryAttempt.charged, hacategory, classify_failure_infrastructure error]
    · rcases hstarts b hb hcycle with hknown | hdue
      · obtain ⟨c, hc, hcid⟩ := List.mem_map.mp hknown
        exact absurd hcid.symm (hnew c hc)
      · exact hclock ▸ hdue

end Deployment

end RestaurantOS.Events
