import RestaurantOS.Events.Runs

/-!
# Attempt accounting

The accounting of every delivery after every run of the worker system: the charged attempts, the
running attempt, the attempt numbers and the replays are what `RecordInv` says, and a settlement
never asks the retry policy for an invalid delay, because the attempt it settles is charged.
-/

namespace RestaurantOS.Events

variable {π ρ : Type}

/-- An attempt is charged exactly if its category is none of the two outage categories. -/
theorem EventDeliveryAttempt.charged_eq (a : EventDeliveryAttempt) :
    a.charged = decide (a.error_category ≠ some .dependency_unavailable ∧
      a.error_category ≠ some .postgres_unavailable) := by
  unfold charged
  cases a.error_category with
  | none => rfl
  | some category => cases category <;> rfl

namespace RecordInv

variable {policy : RetryPolicy} {r : DeliveryRecord}

/-- The count is the number of attempts of the current cycle outside the two outage categories. -/
theorem attempt_count_eq (h : RecordInv policy r) : r.delivery.attempt_count =
    ((r.cycle_attempts r.delivery.retry_cycle).filter fun a =>
      a.error_category ≠ some .dependency_unavailable ∧
        a.error_category ≠ some .postgres_unavailable).length := by
  rw [h.count, DeliveryRecord.charged_count, DeliveryRecord.cycle_attempts, List.filter_filter,
    List.countP_eq_length_filter]
  congr 2
  refine List.filter_congr fun a _ => ?_
  rw [a.charged_eq, Bool.and_comm]

/-- A delivery is being processed exactly if it has one running attempt. -/
theorem processing_iff (h : RecordInv policy r) :
    r.delivery.status = .processing ↔ r.running_attempts.length = 1 := by
  constructor
  · intro hstatus
    obtain ⟨a, hrunning, -⟩ := h.processing hstatus
    rw [hrunning, List.length_singleton]
  · intro hlength
    by_contra hstatus
    rw [h.idle hstatus] at hlength
    cases hlength

/-- A running attempt carries the claim token and the cycle of its delivery. -/
theorem running_claim (h : RecordInv policy r) : ∀ a ∈ r.running_attempts,
    a.claim_token.isSome ∧ a.claim_token = r.delivery.claim_token ∧
      a.retry_cycle = r.delivery.retry_cycle := by
  intro a ha
  have hstatus : r.delivery.status = .processing := by
    by_contra hne
    rw [h.idle hne] at ha
    exact absurd ha List.not_mem_nil
  obtain ⟨b, hrunning, htoken, hbtoken, hcycle⟩ := h.processing hstatus
  rw [hrunning, List.mem_singleton] at ha
  subst ha
  exact ⟨hbtoken ▸ htoken, hbtoken, hcycle⟩

/-- While an attempt is running, the delivery is charged for at least one. -/
theorem one_le_attempt_count (h : RecordInv policy r) (hstatus : r.delivery.status = .processing) :
    1 ≤ r.delivery.attempt_count := by
  obtain ⟨a, hrunning, -, -, hcycle⟩ := h.processing hstatus
  have hmem : a ∈ r.running_attempts := by rw [hrunning]; exact List.mem_singleton_self a
  obtain ⟨ha, hastatus⟩ := List.mem_filter.mp hmem
  have hopen : a.error_category = none := h.running_open a ha (by simpa using hastatus)
  have hpos : 0 < r.charged_count := by
    refine List.countP_pos_iff.mpr ⟨a, ha, ?_⟩
    simp [hcycle, EventDeliveryAttempt.charged, hopen]
  rw [h.count]
  exact_mod_cast hpos

/-- The delay of a settlement is defined: an outage asks for no policy delay, and any other failure
leaves the attempt charged. -/
theorem retry_delay_some (h : RecordInv policy r) (service : ConsumerExecutionService π ρ)
    (hstatus : r.delivery.status = .processing) (failure : Failure) (jitter : Jitter) :
    ∃ delay, service.retry_delay failure
      (ConsumerExecutionService.settled_count failure r.delivery.attempt_count) jitter =
        some delay := by
  unfold ConsumerExecutionService.retry_delay ConsumerExecutionService.settled_count
  split_ifs
  · exact ⟨_, rfl⟩
  · exact Option.isSome_iff_exists.mp
      (service.policy.delay_seconds_isSome (h.one_le_attempt_count hstatus) jitter)

/-- Settling a failure of a charged delivery never raises. Its attempt is there and its count is at
least one, so neither error of the source occurs. -/
theorem finish_failure_ok (h : RecordInv policy r) (service : ConsumerExecutionService π ρ)
    {claim : AttemptClaim ρ}
    (hattempt : r.owned_by claim = true → r.has_attempt claim.attempt_id = true) (failure : Failure)
    (now : Timestamp) (jitter : Jitter) :
    ∃ row result, service.finish_failure (some r) claim failure now jitter = .ok (row, result) := by
  unfold ConsumerExecutionService.finish_failure
  cases howned : r.owned_by claim with
  | false => simp [Option.filter, howned]
  | true =>
    have hstatus : r.delivery.status = .processing := by
      simp only [DeliveryRecord.owned_by, Bool.and_eq_true, decide_eq_true_eq] at howned
      exact howned.1
    obtain ⟨delay, hdelay⟩ := h.retry_delay_some service hstatus failure jitter
    simp [Option.filter, howned, hattempt howned, hdelay]

end RecordInv

namespace Deployment

variable (deployment : Deployment π ρ)

/-- Attempt accounting. After every run and for every delivery: the count lies between zero and the
limit and is the number of charged attempts of the cycle; the delivery is being processed exactly if
it has one running attempt, which carries its token and its cycle; the attempts of each cycle are
numbered from 1 on; the cycle is the number of replays, which form a contiguous chain from the
initial cycle 0. And no settlement of a failure that an execution holds raises, in particular not
for an invalid input of the retry policy. -/
theorem attempt_accounting (now : Timestamp) (acts : List (Act π)) :
    (∀ r ∈ (deployment.run now acts).database.deliveries,
      (0 ≤ r.delivery.attempt_count ∧ r.delivery.attempt_count ≤ deployment.policy.max_attempts) ∧
      r.delivery.attempt_count =
        ((r.cycle_attempts r.delivery.retry_cycle).filter fun a =>
          a.error_category ≠ some .dependency_unavailable ∧
            a.error_category ≠ some .postgres_unavailable).length ∧
      (r.delivery.status = .processing ↔ r.running_attempts.length = 1) ∧
      (∀ a ∈ r.running_attempts, a.claim_token.isSome ∧ a.claim_token = r.delivery.claim_token ∧
        a.retry_cycle = r.delivery.retry_cycle) ∧
      (∀ cycle, (r.cycle_attempts cycle).map (·.attempt_number) =
        (List.range (r.cycle_attempts cycle).length).map fun (i : ℕ) => (i : ℤ) + 1) ∧
      r.delivery.retry_cycle = 0 + r.replays.length ∧
      r.replays.map (fun p => (p.from_cycle, p.to_cycle)) =
        (List.range r.replays.length).map fun (i : ℕ) => ((i : ℤ), (i : ℤ) + 1)) ∧
    (∀ execution settings claim failure,
      (deployment.run now acts).phase execution = some (.unsettled settings claim failure) →
        ∀ jitter, ∃ row result, (deployment.service settings).finish_failure
          ((deployment.run now acts).database.lock_delivery claim.route) claim failure
          (deployment.run now acts).now jitter = .ok (row, result)) := by
  have hinv : WorldInv deployment (deployment.run now acts) := deployment.run_inv now acts
  refine ⟨fun r hr => ?_, fun execution settings claim failure hphase jitter => ?_⟩
  · have h : RecordInv deployment.policy r := hinv.database.records r hr
    refine ⟨⟨?_, h.count_le⟩, h.attempt_count_eq, h.processing_iff, h.running_claim, h.numbers, ?_,
      h.replays⟩
    · rw [h.count]
      exact Int.natCast_nonneg _
    · rw [zero_add]
      exact h.cycle
  · -- The execution holds a claim, and the row of its route has the attempt of that claim.
    obtain ⟨e, hmem, -, heq⟩ := World.phase_eq hphase
    have hclaim := (hinv.executions e hmem).claim claim (by rw [heq]; rfl)
    cases hlock : (deployment.run now acts).database.lock_delivery claim.route with
    | none => exact ⟨none, _, rfl⟩
    | some r =>
      have hr := Keyed.lookup_mem hlock
      exact (hinv.database.records r hr).finish_failure_ok (deployment.service settings)
        (hclaim.has_attempt hinv.database hr) failure _ jitter

end Deployment

end RestaurantOS.Events
