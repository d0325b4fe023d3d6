import Mathlib.Data.List.Range
import RestaurantOS.Events.Steps

/-!
# The accounting of a delivery

`RecordInv` is the invariant of a delivery and its history: how the claim fields, the running
attempt, the charged attempts, the attempt numbers and the replays agree with each other.
`RecordInv.step` and `RecordInv.commit` show that every elementary change and every committed effect
keep it. The proofs follow what a change does to the list of attempts: it fails the running ones, it
rewrites the one that is running, or it appends a new one.
-/

namespace RestaurantOS.Events

/-- An attempt is charged unless it ended with an outage. A running attempt is charged. -/
def EventDeliveryAttempt.charged (a : EventDeliveryAttempt) : Bool :=
  !a.error_category.any ErrorCategory.infrastructure

/-- The number of charged attempts of the current cycle. -/
def DeliveryRecord.charged_count (r : DeliveryRecord) : ℕ :=
  r.attempts.countP fun a => a.retry_cycle = r.delivery.retry_cycle && a.charged

/-- The numbers of `n` consecutive attempts. Attempts are numbered from one in every cycle. -/
def numbered (n : ℕ) : List ℤ := (List.range n).map fun (i : ℕ) => (i : ℤ) + 1

/-- The `from_cycle` and `to_cycle` of `n` consecutive replays. -/
def replay_chain (n : ℕ) : List (ℤ × ℤ) :=
  (List.range n).map fun (i : ℕ) => ((i : ℤ), (i : ℤ) + 1)

/-- The invariant of a delivery and its history. -/
structure RecordInv (policy : RetryPolicy) (r : DeliveryRecord) : Prop where
  /-- The claim fields are all set or all `NULL`. -/
  claim_fields : r.delivery.claim_owner.isSome = r.delivery.claim_token.isSome ∧
    r.delivery.claimed_at.isSome = r.delivery.claim_token.isSome ∧
    r.delivery.claim_expires_at.isSome = r.delivery.claim_token.isSome
  /-- There is a receipt exactly if the delivery has succeeded. -/
  receipt : r.receipt.isSome ↔ r.delivery.status = .succeeded
  /-- A delivery that is not being processed has no running attempt. -/
  idle : r.delivery.status ≠ .processing → r.running_attempts = []
  /-- A delivery that is being processed has one, under its claim and in its cycle. -/
  processing : r.delivery.status = .processing → ∃ a, r.running_attempts = [a] ∧
    r.delivery.claim_token.isSome ∧ a.claim_token = r.delivery.claim_token ∧
    a.retry_cycle = r.delivery.retry_cycle
  /-- A running attempt has no failure category. -/
  running_open : ∀ a ∈ r.attempts, a.status = .running → a.error_category = none
  /-- The count is the number of charged attempts of the cycle. -/
  count : r.delivery.attempt_count = r.charged_count
  /-- The count does not exceed the limit. -/
  count_le : r.delivery.attempt_count ≤ policy.max_attempts
  /-- The attempts of each cycle are numbered from 1 without gaps or repeats. -/
  numbers : ∀ cycle, (r.cycle_attempts cycle).map (·.attempt_number) =
    numbered (r.cycle_attempts cycle).length
  /-- No attempt belongs to a later cycle. -/
  cycles : ∀ a ∈ r.attempts, a.retry_cycle ≤ r.delivery.retry_cycle
  /-- The attempts have different identifiers. -/
  attempt_ids : Keyed.Unique EventDeliveryAttempt.id r.attempts
  /-- The replays form one contiguous chain. -/
  replays : r.replays.map (fun p => (p.from_cycle, p.to_cycle)) = replay_chain r.replays.length
  /-- The cycle is the number of replays. -/
  cycle : r.delivery.retry_cycle = r.replays.length

/-! ## Lists of attempts -/

/-- The greatest of the numbers up to `n`, or zero, is `n`. -/
theorem numbered_max (n : ℕ) : (numbered n).foldl max 0 = (n : ℤ) := by
  induction n with
  | zero => rfl
  | succ n ih =>
    have hsucc : numbered (n + 1) = numbered n ++ [(n : ℤ) + 1] := by
      simp [numbered, List.range_succ]
    rw [hsucc, List.foldl_append, ih]
    simp only [List.foldl_cons, List.foldl_nil]
    omega

/-- One more number. -/
theorem numbered_succ (n : ℕ) : numbered n ++ [(n : ℤ) + 1] = numbered (n + 1) := by
  simp [numbered, List.range_succ]

/-- One more replay. -/
theorem replay_chain_succ (n : ℕ) :
    replay_chain n ++ [((n : ℤ), (n : ℤ) + 1)] = replay_chain (n + 1) := by
  simp [replay_chain, List.range_succ]

/-- A rewriting of attempts that keeps their cycles and numbers keeps the numbers of a cycle. -/
theorem cycle_numbers_map {f : EventDeliveryAttempt → EventDeliveryAttempt}
    (hcycle : ∀ a, (f a).retry_cycle = a.retry_cycle)
    (hnumber : ∀ a, (f a).attempt_number = a.attempt_number) (attempts : List EventDeliveryAttempt)
    (cycle : ℤ) :
    ((attempts.map f).filter fun a => a.retry_cycle = cycle).map (·.attempt_number) =
      (attempts.filter fun a => a.retry_cycle = cycle).map (·.attempt_number) := by
  rw [List.filter_map, List.map_map]
  simp only [Function.comp_def, hcycle, hnumber]

/-- A rewriting of attempts that keeps their cycles keeps the size of a cycle. -/
theorem cycle_length_map {f : EventDeliveryAttempt → EventDeliveryAttempt}
    (hcycle : ∀ a, (f a).retry_cycle = a.retry_cycle) (attempts : List EventDeliveryAttempt)
    (cycle : ℤ) :
    ((attempts.map f).filter fun a => a.retry_cycle = cycle).length =
      (attempts.filter fun a => a.retry_cycle = cycle).length := by
  rw [List.filter_map, List.length_map]
  simp only [Function.comp_def, hcycle]

/-! ## Interrupting the running attempts -/

namespace RecordInv

variable {policy : RetryPolicy} {r : DeliveryRecord}

/-- The next attempt of the current cycle is numbered after the ones the cycle has. -/
theorem next_attempt_number (h : RecordInv policy r) :
    r.next_attempt_number = (r.cycle_attempts r.delivery.retry_cycle).length + 1 := by
  unfold DeliveryRecord.next_attempt_number
  rw [h.numbers, numbered_max]

/-- A record whose attempts are those of `r` with the running ones interrupted keeps the invariant,
if its delivery is idle with free claim fields and the count and the cycle of `r`. Interrupted
attempts are infrastructure failures only in name, so they stay charged. -/
theorem interrupt (h : RecordInv policy r) (now : Timestamp) (d : EventDelivery)
    (hstatus : d.status = .pending ∨ d.status = .failed) (hproc : r.delivery.status = .processing)
    (hfields : d.claim_token = none ∧ d.claim_owner = none ∧ d.claimed_at = none ∧
      d.claim_expires_at = none)
    (hcount : d.attempt_count = r.delivery.attempt_count)
    (hcycle : d.retry_cycle = r.delivery.retry_cycle) :
    RecordInv policy { r.interrupt_attempts now with delivery := d } := by
  obtain ⟨htoken, howner, hat, hexp⟩ := hfields
  have hns : d.status ≠ .succeeded ∧ d.status ≠ .processing := by
    -- The delivery has neither succeeded nor is it being processed.
    rcases hstatus with hs | hs <;> rw [hs] <;> exact ⟨nofun, nofun⟩
  have hreceipt : ¬r.receipt.isSome := by rw [h.receipt, hproc]; nofun
  refine ⟨?_, ?_, ?_, ?_, ?_, ?_, ?_, ?_, ?_, ?_, h.replays, ?_⟩
  · simp [htoken, howner, hat, hexp]
  · exact ⟨fun hr => absurd hr hreceipt, fun hs => absurd hs hns.1⟩
  · -- After the interruption nothing is running.
    intro _
    simp only [DeliveryRecord.running_attempts, DeliveryRecord.interrupt_attempts,
      List.filter_map, List.map_eq_nil_iff, List.filter_eq_nil_iff, Function.comp_apply]
    intro a _
    split_ifs with ha <;> simp [ha]
  · exact fun hs => absurd hs hns.2
  · intro a ha hrun
    obtain ⟨b, -, rfl⟩ := List.mem_map.mp ha
    by_cases hbrun : b.status = .running
    · simp [hbrun] at hrun
    · simp [hbrun] at hrun
  · -- A running attempt is charged before and after its interruption.
    rw [hcount, h.count, DeliveryRecord.charged_count, DeliveryRecord.charged_count]
    simp only [DeliveryRecord.interrupt_attempts, List.countP_map]
    congr 1
    refine List.countP_congr fun a ha => ?_
    by_cases hrun : a.status = .running
    · simp [hrun, EventDeliveryAttempt.charged, h.running_open a ha hrun, hcycle,
        ErrorCategory.infrastructure]
    · simp [hrun, hcycle]
  · rw [hcount]
    exact h.count_le
  · -- Interrupting keeps the numbers of the attempts, cycle by cycle.
    intro cycle
    simp only [DeliveryRecord.cycle_attempts, DeliveryRecord.interrupt_attempts]
    rw [cycle_numbers_map (by intro a; split_ifs <;> rfl) (by intro a; split_ifs <;> rfl),
      cycle_length_map (by intro a; split_ifs <;> rfl)]
    exact h.numbers cycle
  · intro a ha
    obtain ⟨b, hb, rfl⟩ := List.mem_map.mp ha
    have hbc : b.retry_cycle ≤ r.delivery.retry_cycle := h.cycles b hb
    simp only [hcycle]
    split_ifs <;> exact hbc
  · exact h.attempt_ids.map fun a _ => by split_ifs <;> rfl
  · simpa [hcycle, DeliveryRecord.interrupt_attempts] using h.cycle

/-! ## Finishing the running attempt -/

/-- A record whose running attempt is rewritten by `f` to a finished one keeps the invariant, if its
delivery is idle with free claim fields, its receipt fits its status, and the count drops by one
exactly if the finished attempt is not charged. The count changes by what the category of the
finished attempt says. -/
theorem finish (h : RecordInv policy r) {attempt_id : UUID}
    (hrunning : ∀ a ∈ r.running_attempts, a.id = attempt_id)
    (f : EventDeliveryAttempt → EventDeliveryAttempt)
    (hid : ∀ a, (f a).id = a.id) (hfcycle : ∀ a, (f a).retry_cycle = a.retry_cycle)
    (hnumber : ∀ a, (f a).attempt_number = a.attempt_number)
    (hdone : ∀ a, (f a).status ≠ .running) (d : EventDelivery) (receipt : Option EventReceipt)
    (hproc : r.delivery.status = .processing) (hstatus : d.status ≠ .processing)
    (hreceipt : receipt.isSome ↔ d.status = .succeeded)
    (hfields : d.claim_token = none ∧ d.claim_owner = none ∧ d.claimed_at = none ∧
      d.claim_expires_at = none)
    (hcount : ∀ a, a.error_category = none →
      d.attempt_count + (if (f a).charged then 0 else 1) = r.delivery.attempt_count)
    (hcycle : d.retry_cycle = r.delivery.retry_cycle) :
    RecordInv policy { r.modify_attempt attempt_id f with delivery := d, receipt := receipt } := by
  obtain ⟨htoken, howner, hat, hexp⟩ := hfields
  -- Exactly one attempt is running, and it carries the token of the claim.
  obtain ⟨a, harun, -, -, hacycle⟩ := h.processing hproc
  have hmem : a ∈ r.running_attempts := by rw [harun]; exact List.mem_singleton_self a
  have haid : a.id = attempt_id := hrunning a hmem
  obtain ⟨ha, hastatus⟩ := List.mem_filter.mp hmem
  have hopen : a.error_category = none := h.running_open a ha (by simpa using hastatus)
  have hidf : ∀ b : EventDeliveryAttempt, b.id = attempt_id → (f b).id = attempt_id := by
    intro b hb
    rw [hid, hb]
  -- A running attempt is one of the old ones, and the only such attempt is rewritten.
  have hidle : ∀ b ∈ r.attempts, (if b.id = attempt_id then f b else b).status ≠ .running := by
    intro b hb
    split_ifs with hbid
    · exact hdone b
    · exact fun hbrun => hbid (hrunning b (List.mem_filter.mpr ⟨hb, by simpa using hbrun⟩))
  have hold : d.attempt_count ≤ r.delivery.attempt_count := by
    have := hcount a hopen
    -- The count never rises when an attempt finishes.
    split_ifs at this <;> omega
  refine ⟨?_, hreceipt, ?_, fun hs => absurd hs hstatus, ?_, ?_, hold.trans h.count_le, ?_, ?_, ?_,
    h.replays, ?_⟩
  · simp [htoken, howner, hat, hexp]
  · -- Nothing is running any more.
    intro _
    rw [DeliveryRecord.running_attempts, List.filter_eq_nil_iff]
    intro b hb
    obtain ⟨c, hc, rfl⟩ := List.mem_map.mp hb
    simpa using hidle c hc
  · intro b hb hrun
    obtain ⟨c, hc, rfl⟩ := List.mem_map.mp hb
    exact absurd hrun (hidle c hc)
  · -- The count of the cycle changes by the charge of this one attempt.
    have hpa : (decide (a.retry_cycle = r.delivery.retry_cycle) && a.charged) = true := by
      simp [hacycle, EventDeliveryAttempt.charged, hopen]
    have hpf : (decide ((f a).retry_cycle = r.delivery.retry_cycle) && (f a).charged) =
        (f a).charged := by
      simp [hfcycle, hacycle]
    have hsum := Keyed.countP_modify h.attempt_ids ha f fun b =>
      decide (b.retry_cycle = r.delivery.retry_cycle) && b.charged
    rw [hpa, hpf, haid] at hsum
    have hr : r.delivery.attempt_count = (r.charged_count : ℤ) := h.count
    have hd := hcount a hopen
    unfold DeliveryRecord.charged_count at hr ⊢
    simp only [DeliveryRecord.modify_attempt, hcycle]
    cases hc : (f a).charged <;> simp [hc] at hsum hd <;> omega
  · -- Cycles and numbers are those from before.
    intro cycle
    simp only [DeliveryRecord.cycle_attempts, DeliveryRecord.modify_attempt, Keyed.modify]
    rw [cycle_numbers_map (by intro a; split_ifs <;> simp [hfcycle])
        (by intro a; split_ifs <;> simp [hnumber]),
      cycle_length_map (by intro a; split_ifs <;> simp [hfcycle])]
    exact h.numbers cycle
  · intro b hb
    obtain ⟨c, hc, rfl⟩ := List.mem_map.mp hb
    have hcc : c.retry_cycle ≤ r.delivery.retry_cycle := h.cycles c hc
    simp only [hcycle]
    split_ifs
    · rwa [hfcycle]
    · exact hcc
  · exact h.attempt_ids.modify hidf
  · rw [hcycle]
    exact h.cycle

/-! ## Leaving the attempts -/

/-- A pending delivery keeps the invariant under a change that leaves its history, its count and its
cycle, sets or clears its claim fields together, and leaves it pending or fails it. -/
theorem same_history (h : RecordInv policy r) (d : EventDelivery)
    (hpending : r.delivery.status = .pending) (hstatus : d.status = .pending ∨ d.status = .failed)
    (hfields : d.claim_owner.isSome = d.claim_token.isSome ∧
      d.claimed_at.isSome = d.claim_token.isSome ∧ d.claim_expires_at.isSome = d.claim_token.isSome)
    (hcount : d.attempt_count = r.delivery.attempt_count)
    (hcycle : d.retry_cycle = r.delivery.retry_cycle) :
    RecordInv policy { r with delivery := d } := by
  have hns : d.status ≠ .succeeded ∧ d.status ≠ .processing := by
    rcases hstatus with hs | hs <;> rw [hs] <;> exact ⟨nofun, nofun⟩
  have hreceipt : ¬r.receipt.isSome := by rw [h.receipt, hpending]; nofun
  have hidle : r.running_attempts = [] := h.idle (by rw [hpending]; nofun)
  refine ⟨hfields, ⟨fun hr => absurd hr hreceipt, fun hs => absurd hs hns.1⟩, fun _ => hidle,
    fun hs => absurd hs hns.2, h.running_open, ?_, ?_, h.numbers, ?_, h.attempt_ids, h.replays, ?_⟩
  · simpa only [hcount, DeliveryRecord.charged_count, hcycle] using h.count
  · simpa only [hcount] using h.count_le
  · simpa only [hcycle] using h.cycles
  · simpa only [hcycle] using h.cycle

/-! ## Starting an attempt -/

/-- A pending delivery keeps the invariant when it is charged with a new attempt, if the new attempt
is running under the delivery's claim, or has failed with a charged category and the claim fields
are clear. -/
theorem start (h : RecordInv policy r) (hpending : r.delivery.status = .pending)
    (hcount : r.delivery.attempt_count < policy.max_attempts) (a : EventDeliveryAttempt)
    (hnumber : a.attempt_number = r.next_attempt_number)
    (hacycle : a.retry_cycle = r.delivery.retry_cycle)
    (hfresh : ∀ b ∈ r.attempts, b.id ≠ a.id) (hcharged : a.charged = true) (d : EventDelivery)
    (hcycle : d.retry_cycle = r.delivery.retry_cycle)
    (hdcount : d.attempt_count = r.delivery.attempt_count + 1)
    (hfields : d.claim_owner.isSome = d.claim_token.isSome ∧
      d.claimed_at.isSome = d.claim_token.isSome ∧ d.claim_expires_at.isSome = d.claim_token.isSome)
    (hcase : (d.status = .processing ∧ a.status = .running ∧ a.error_category = none ∧
        d.claim_token.isSome ∧ a.claim_token = d.claim_token) ∨
      (d.status = .failed ∧ a.status = .failed)) :
    RecordInv policy { r with attempts := r.attempts ++ [a], delivery := d } := by
  -- A pending delivery has no receipt and no running attempt.
  have hreceipt : ¬r.receipt.isSome := by rw [h.receipt, hpending]; nofun
  have hnone : r.attempts.filter (fun b => decide (b.status = .running)) = [] :=
    h.idle (by rw [hpending]; nofun)
  have hns : d.status ≠ .succeeded := by
    rcases hcase with ⟨hs, -⟩ | ⟨hs, -⟩ <;> rw [hs] <;> nofun
  refine ⟨hfields, ⟨fun hr => absurd hr hreceipt, fun hs => absurd hs hns⟩, ?_, ?_, ?_, ?_, ?_, ?_,
    ?_, ?_, h.replays, ?_⟩
  · -- Outside of processing the new attempt is a failed one.
    intro hs
    rcases hcase with ⟨hproc, -⟩ | ⟨-, hfailed⟩
    · exact absurd hproc hs
    · simp [DeliveryRecord.running_attempts, hnone, hfailed]
  · -- While processing, the new attempt is the running one and carries the token of the delivery.
    intro hs
    rcases hcase with ⟨-, hrun, -, htoken, hatoken⟩ | ⟨hfailed, -⟩
    · refine ⟨a, ?_, htoken, hatoken, hacycle.trans hcycle.symm⟩
      simp [DeliveryRecord.running_attempts, hnone, hrun]
    · rw [hfailed] at hs
      cases hs
  · intro b hb hrun
    rcases List.mem_append.mp hb with hb | hb
    · exact h.running_open b hb hrun
    · rw [List.mem_singleton] at hb
      subst hb
      rcases hcase with ⟨-, -, hopen, -⟩ | ⟨-, hfailed⟩
      · exact hopen
      · rw [hfailed] at hrun
        cases hrun
  · -- The new attempt is charged, and so is the delivery.
    have hr : r.delivery.attempt_count = (r.charged_count : ℤ) := h.count
    simp only [DeliveryRecord.charged_count, hcycle, List.countP_append, List.countP_singleton,
      hacycle, hcharged, hdcount] at hr ⊢
    simp [hr]
  · simp only [hdcount]
    omega
  · intro cycle
    simp only [DeliveryRecord.cycle_attempts, List.filter_append, List.map_append, List.length_append]
    -- The number of the new attempt continues its cycle, and other cycles keep theirs.
    by_cases hc : a.retry_cycle = cycle
    · have hnum := h.numbers cycle
      have hnext := h.next_attempt_number
      rw [← hacycle, hc] at hnext
      simp only [DeliveryRecord.cycle_attempts] at hnum hnext
      rw [hnum]
      simp only [List.filter_singleton, hc, decide_true, hnumber, hnext, cond_true, List.map_cons,
        List.map_nil, List.length_singleton]
      exact numbered_succ _
    · have hnum := h.numbers cycle
      simp only [DeliveryRecord.cycle_attempts] at hnum
      simpa [List.filter_singleton, hc] using hnum
  · intro b hb
    simp only [hcycle]
    rcases List.mem_append.mp hb with hb | hb
    · exact h.cycles b hb
    · rw [List.mem_singleton] at hb
      subst hb
      exact hacycle.le
  · exact h.attempt_ids.append hfresh
  · simpa only [hcycle] using h.cycle

/-! ## Every change -/

/-- An inserted delivery has the invariant. -/
theorem inserted (policy : RetryPolicy) (id event_id : UUID) (consumer_name : ConsumerName)
    (now : Timestamp) :
    RecordInv policy ⟨.inserted id event_id consumer_name now, [], none, []⟩ := by
  refine ⟨⟨rfl, rfl, rfl⟩, ⟨nofun, nofun⟩, fun _ => rfl, nofun,
    fun _ ha => absurd ha List.not_mem_nil, rfl, ?_, fun _ => rfl,
    fun _ ha => absurd ha List.not_mem_nil, List.nodup_nil, rfl, rfl⟩
  exact (zero_le_one' ℤ).trans policy.one_le

/-- A replay of a failed delivery starts a cycle without attempts. -/
theorem start_cycle (h : RecordInv policy r) (hfailed : r.delivery.status = .failed)
    (replay_id : UUID) (operator reason correlation_id : String) (clock : Timestamp) :
    RecordInv policy (r.start_cycle replay_id operator reason correlation_id clock) := by
  have hreceipt : ¬r.receipt.isSome := by rw [h.receipt, hfailed]; nofun
  have hidle : r.running_attempts = [] := h.idle (by rw [hfailed]; nofun)
  refine ⟨⟨rfl, rfl, rfl⟩, ⟨fun hr => absurd hr hreceipt, nofun⟩, fun _ => hidle, nofun,
    h.running_open, ?_, (zero_le_one' ℤ).trans policy.one_le, h.numbers, ?_, h.attempt_ids, ?_, ?_⟩
  · -- The new cycle has no attempt yet, so nothing is charged in it.
    have hnone : r.attempts.countP (fun a =>
        decide (a.retry_cycle = r.delivery.retry_cycle + 1) && a.charged) = 0 := by
      rw [List.countP_eq_zero]
      intro a ha
      have := h.cycles a ha
      simp only [Bool.and_eq_true, decide_eq_true_eq, not_and]
      omega
    show (0 : ℤ) = _
    exact_mod_cast hnone.symm
  · exact fun a ha => (h.cycles a ha).trans (by simp [DeliveryRecord.start_cycle,
      EventDelivery.clear_claim])
  · -- The replay is recorded with the number of the cycle that it opens.
    simp only [DeliveryRecord.start_cycle, List.map_append, List.length_append, h.replays,
      List.map_cons, List.map_nil, h.cycle]
    exact replay_chain_succ _
  · simp [DeliveryRecord.start_cycle, EventDelivery.clear_claim, h.cycle]

/-- Every elementary change keeps the invariant. Each change of the inversion `RecordStep` is one of
the four lemmas above. -/
theorem step {fresh next : UUID} {r' : DeliveryRecord} (hstep : RecordStep policy fresh next r r')
    (h : RecordInv policy r) : RecordInv policy r' := by
  cases hstep with
  | released now hstatus =>
    exact h.interrupt now _ (Or.inl rfl) hstatus ⟨rfl, rfl, rfl, rfl⟩ rfl rfl
  | limited hstatus => exact h.same_history _ hstatus (Or.inr rfl) ⟨rfl, rfl, rfl⟩ rfl rfl
  -- A claim charges one attempt, which runs.
  | begun token attempt_id worker_id now expires hstatus hcount htoken hattempt hunused =>
    exact h.start hstatus hcount _ rfl rfl hunused rfl _ rfl rfl ⟨rfl, rfl, rfl⟩
      (Or.inl ⟨rfl, rfl, rfl, rfl, rfl⟩)
  -- A rejected event charges one attempt, which has failed.
  | rejected token attempt_id worker_id now expires category hcategory hstatus hcount htoken hattempt
      hunused =>
    have hcharged : (r.new_attempt token attempt_id now (some category)).charged = true := by
      simp [EventDeliveryAttempt.charged, DeliveryRecord.new_attempt, hcategory]
    exact h.start hstatus hcount (r.new_attempt token attempt_id now (some category)) rfl rfl hunused
      hcharged (r.begin_attempt token attempt_id worker_id now expires
        (some category)).delivery.clear_claim rfl rfl ⟨rfl, rfl, rfl⟩ (Or.inr ⟨rfl, rfl⟩)
  -- A settlement finishes the running attempt, as failed or to be retried.
  | settled attempt_id failure terminal delay now hstatus hrunning hfailure =>
    have hne : (if terminal then DeliveryStatus.failed else .pending) ≠ .processing ∧
        (if terminal then DeliveryStatus.failed else .pending) ≠ .succeeded := by
      cases terminal <;> exact ⟨nofun, nofun⟩
    have hreceipt : ¬r.receipt.isSome := by rw [h.receipt, hstatus]; nofun
    let f (a : EventDeliveryAttempt) : EventDeliveryAttempt :=
      { a with status := .failed, error_category := some failure.category, finished_at := some now }
    refine h.finish hrunning f (fun _ => rfl) (fun _ => rfl) (fun _ => rfl) (fun _ => nofun)
      (r.settle_failure attempt_id failure terminal _ delay now).delivery r.receipt hstatus hne.1
      ⟨fun hr => absurd hr hreceipt, fun hs => absurd hs hne.2⟩ ⟨rfl, rfl, rfl, rfl⟩ (fun a _ => ?_) rfl
    -- The refund is made exactly for the attempts that are not charged.
    have hf : (f a).charged = !failure.infrastructure := by
      simp [f, EventDeliveryAttempt.charged, hfailure]
    have hcount : (r.settle_failure attempt_id failure terminal
        (ConsumerExecutionService.settled_count failure r.delivery.attempt_count) delay
        now).delivery.attempt_count =
        ConsumerExecutionService.settled_count failure r.delivery.attempt_count := rfl
    rw [hcount, hf, ConsumerExecutionService.settled_count]
    cases failure.infrastructure <;> simp
  -- The recovery interrupts the running attempt and decides by the limit.
  | recovered service now hpolicy hstatus =>
    refine h.interrupt now _ ?_ hstatus ⟨rfl, rfl, rfl, rfl⟩ rfl rfl
    simp only [EventDelivery.clear_claim]
    split_ifs
    · exact Or.inr rfl
    · exact Or.inl rfl
  -- What the relay does leaves the attempts alone.
  | relay_claimed token owner lease_seconds now hstatus htoken =>
    exact h.same_history _ hstatus (Or.inl hstatus) ⟨rfl, rfl, rfl⟩ rfl rfl
  | observed now hstatus => exact h.same_history _ hstatus (Or.inl hstatus) ⟨rfl, rfl, rfl⟩ rfl rfl
  | deferred retry_after_ms category now hstatus htoken =>
    exact h.same_history _ hstatus (Or.inl hstatus)
      ⟨h.claim_fields.1, h.claim_fields.2.1, htoken.symm⟩ rfl rfl
  | observation_reset hstatus =>
    exact h.same_history _ hstatus (Or.inl hstatus) ⟨rfl, rfl, rfl⟩ rfl rfl
  | replayed replay_id operator reason correlation_id clock hstatus =>
    exact h.start_cycle hstatus replay_id operator reason correlation_id clock

/-- A committed effect keeps the invariant. The running attempt is finished and the receipt written
in one transaction. -/
theorem commit {r' : DeliveryRecord} (hcommit : CommitStep r r') (h : RecordInv policy r) :
    RecordInv policy r' := by
  obtain ⟨attempt_id, outcome, now, hrunning, rfl⟩ := hcommit.commit
  let f (a : EventDeliveryAttempt) : EventDeliveryAttempt :=
    { a with status := if outcome = .skipped then .skipped else .succeeded, finished_at := some now }
  refine h.finish hrunning f (fun _ => rfl) (fun _ => rfl) (fun _ => rfl) (fun a => ?_)
    (r.commit_effect attempt_id outcome now).delivery (some ⟨outcome, now⟩) hcommit.status nofun
    ⟨fun _ => rfl, fun _ => rfl⟩ ⟨rfl, rfl, rfl, rfl⟩ (fun a ha => ?_) rfl
  · cases outcome <;> simp [f]
  · have hf : (f a).charged = true := by simp [f, EventDeliveryAttempt.charged, ha]
    rw [hf]
    exact add_zero _

end RecordInv

end RestaurantOS.Events
