import RestaurantOS.Events.Runs

/-!
# No delivery is lost

A reference is acknowledged only after PostgreSQL holds the outcome (`answered` has an origin in the
run), and a delivery that is not settled becomes eligible for the relay or for recovery as time
passes, whatever Redis holds: each condition of the two queries is a bound that the clock reaches.
-/

namespace RestaurantOS.Events

variable {π ρ : Type}

/-- From some time on, a property of the clock holds. -/
def eventually_always (p : Timestamp → Prop) : Prop := ∃ T, ∀ t, T ≤ t → p t

/-- Two properties that hold from some time on hold together from some time on. -/
theorem eventually_always.and {p q : Timestamp → Prop} (hp : eventually_always p)
    (hq : eventually_always q) : eventually_always fun t => p t ∧ q t := by
  obtain ⟨T, hT⟩ := hp
  obtain ⟨U, hU⟩ := hq
  exact ⟨max T U, fun t ht =>
    ⟨hT t ((le_max_left T U).trans ht), hU t ((le_max_right T U).trans ht)⟩⟩

/-- The clock reaches every instant. -/
theorem eventually_le (x : Timestamp) : eventually_always fun t => x ≤ t := ⟨x, fun _ h => h⟩

/-- The clock passes an optional instant, counted with a delay. -/
theorem eventually_any_le (x : Option Timestamp) (d : Timedelta) :
    eventually_always fun t => x = none ∨ x.any (· ≤ t - d) = true := by
  cases x with
  | none => exact ⟨0, fun _ _ => Or.inl rfl⟩
  | some x =>
    refine ⟨x + d, fun t ht => Or.inr ?_⟩
    rw [Option.any_some, decide_eq_true_eq]
    exact le_sub_iff_add_le.mpr ht

namespace RecordInv

variable {policy : RetryPolicy} {r : DeliveryRecord}

/-- A pending delivery of a subscribed route becomes due for the relay. -/
theorem eventually_claim_due (h : RecordInv policy r) {events : List (OutboxEvent π)}
    (hroute : subscribed_route events r.delivery = true) (hstatus : r.delivery.status = .pending)
    (republish_after_seconds : ℤ) :
    eventually_always fun t => claim_due events republish_after_seconds t r = true := by
  have hfields : r.delivery.claim_expires_at.isSome = r.delivery.claim_token.isSome :=
    h.claim_fields.2.2
  -- From some time on the delivery is due, its lease has run out and its publication is old enough.
  obtain ⟨T, hT⟩ := (eventually_le r.delivery.next_attempt_at).and
    ((eventually_any_le r.delivery.claim_expires_at 0).and
      (eventually_any_le r.delivery.published_at (timedelta_seconds republish_after_seconds)))
  refine ⟨T, fun t ht => ?_⟩
  obtain ⟨hnext, hlease, hpublished⟩ := hT t ht
  rw [sub_zero] at hlease
  -- Without a lease there is no token either.
  have hclaim : (r.delivery.claim_token.isNone ||
      r.delivery.claim_expires_at.any (· ≤ t)) = true := by
    rcases hlease with hnone | hle
    · rw [hnone, Option.isSome_none] at hfields
      cases htoken : r.delivery.claim_token with
      | none => rfl
      | some token => simp [htoken] at hfields
    · rw [hle, Bool.or_true]
  -- An observed publication is old enough by then.
  have hobserved : (r.delivery.published_at.isNone || r.delivery.published_at.any
      (· ≤ t - timedelta_seconds republish_after_seconds)) = true := by
    rcases hpublished with hnone | hle
    · rw [hnone]
      rfl
    · rw [hle, Bool.or_true]
  simp [claim_due, hstatus, hnext, hclaim, hobserved, hroute]

/-- A delivery that is being processed becomes due for recovery. -/
theorem eventually_recovery_due (h : RecordInv policy r)
    (hstatus : r.delivery.status = .processing) :
    eventually_always fun t => ConsumerExecutionService.recovery_due t r = true := by
  obtain ⟨-, -, htoken, -⟩ := h.processing hstatus
  rw [← h.claim_fields.2.2] at htoken
  obtain ⟨expires, hexp⟩ := Option.isSome_iff_exists.mp htoken
  refine ⟨expires, fun t ht => ?_⟩
  simp [ConsumerExecutionService.recovery_due, hstatus, hexp, ht]

end RecordInv

namespace Deployment

variable (deployment : Deployment π ρ)

/-- No delivery is lost. (a) What is acknowledged after an action was settled, or its group not
subscribed, in the committed state after some of the actions before it. (b) After every run, a
delivery of a subscribed route that is pending becomes due for the relay from some time on, and one
that is processing for recovery, its row being as it is. -/
theorem no_delivery_lost (now : Timestamp) (acts : List (Act π)) :
    (∀ a route, route ∈ (deployment.run now (acts ++ [a])).acknowledged →
      ∃ pre, pre <+: acts ∧ ((deployment.run now pre).database.settled route ∨
        (deployment.run now pre).database.not_subscribed route)) ∧
    (∀ r ∈ (deployment.run now acts).database.deliveries,
      subscribed_route (deployment.run now acts).database.events r.delivery = true →
        (r.delivery.status = .pending → ∀ republish_after_seconds, eventually_always fun t =>
          claim_due (deployment.run now acts).database.events republish_after_seconds t r = true) ∧
        (r.delivery.status = .processing → eventually_always fun t =>
          ConsumerExecutionService.recovery_due t r = true)) := by
  have hinv : WorldInv deployment (deployment.run now acts) := deployment.run_inv now acts
  refine ⟨fun a route h => ?_, fun r hr hroute => ⟨fun hstatus republish => ?_, fun hstatus => ?_⟩⟩
  · -- What is acknowledged has been answered by an execution before.
    rw [run, Transition.run_concat] at h
    have hanswered := (deployment.step_action hinv a).acknowledged route h
    -- Where the answer comes from: an earlier state in which it was settled or not subscribed.
    have horigin := Transition.run_origin (Q := World.answered)
      (R := fun w route => w.database.settled route ∨ w.database.not_subscribed route)
      (fun w a hinv => deployment.step_inv w a hinv)
      (fun w a route hinv => (deployment.step_action hinv a).answered route)
      (deployment.initial_inv now) acts route hanswered
    rcases horigin with hnow | ⟨pre, hpre, -, hsettled⟩
    · -- Nothing is answered before the first action.
      rcases hnow with hnow | ⟨e, he, -⟩
      · exact absurd hnow List.not_mem_nil
      · exact absurd he List.not_mem_nil
    · exact ⟨pre, hpre, hsettled⟩
  · exact (hinv.database.records r hr).eventually_claim_due hroute hstatus republish
  · exact (hinv.database.records r hr).eventually_recovery_due hstatus

end Deployment

end RestaurantOS.Events
