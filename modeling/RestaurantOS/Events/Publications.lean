import RestaurantOS.Events.Changes
import RestaurantOS.Events.Transport

/-!
# What becomes of a published reference

A delivery that is observed as published relies on a message in the stream. This module says what an
action does to that: no action but an observation makes a delivery rely on a message
(`step_references`), and an execution acknowledges its message only where its delivery is settled or its
group has not subscribed (`step_executions`), so that the message of an open delivery is not
acknowledged (`unanswered_step`).
-/

namespace RestaurantOS.Events

variable {π ρ : Type}

/-! ## The rows -/

/-- The delivery is still to be made. A final one needs no reference any more. -/
def DeliveryRecord.is_open (r : DeliveryRecord) : Prop :=
  r.delivery.status = .pending ∨ r.delivery.status = .processing

/-- A settled delivery is not open. -/
theorem DeliveryRecord.is_open.not_settled {r : DeliveryRecord} (h : r.is_open) :
    ¬ConsumerExecutionService.acknowledgeable r := by
  rintro (⟨hsucceeded, -⟩ | hfailed)
  · rcases h with h | h <;> rw [hsucceeded] at h <;> cases h
  · rcases h with h | h <;> rw [hfailed] at h <;> cases h

/-- What an action does to the reference of a delivery, if it observes no publication: it is not open and
published where it was not before, and a pending delivery is not under an old claim that it was not
under before. Tokens below `fresh` are old. -/
structure KeepsReference (fresh : UUID) (r r' : DeliveryRecord) : Prop where
  /-- The delivery is the same. -/
  identity : r'.id = r.id ∧ r'.route = r.route
  /-- Its publication is an old one. -/
  published : r'.is_open → r'.delivery.published_at.isSome →
    r.is_open ∧ r.delivery.published_at.isSome
  /-- Its relay claim is an old one or a new one. -/
  claimed : ∀ token < fresh, r'.delivery.status = .pending → r'.delivery.claim_token = some token →
    r.delivery.status = .pending ∧ r.delivery.claim_token = some token

namespace KeepsReference

variable {fresh : UUID} {r r' r'' : DeliveryRecord}

/-- A row that does not change keeps what is said of its reference. -/
theorem refl (r : DeliveryRecord) : KeepsReference fresh r r :=
  ⟨⟨rfl, rfl⟩, fun hopen hpublished => ⟨hopen, hpublished⟩, fun _ _ hpending htoken =>
    ⟨hpending, htoken⟩⟩

/-- What two changes keep one after the other, both keep. -/
theorem trans (h : KeepsReference fresh r r') (h' : KeepsReference fresh r' r'') :
    KeepsReference fresh r r'' := by
  refine ⟨⟨h'.identity.1.trans h.identity.1, h'.identity.2.trans h.identity.2⟩, ?_, ?_⟩
  · intro hopen hpublished
    obtain ⟨hopen', hpublished'⟩ := h'.published hopen hpublished
    exact h.published hopen' hpublished'
  · intro token hfresh hpending htoken
    obtain ⟨hpending', htoken'⟩ := h'.claimed token hfresh hpending htoken
    exact h.claimed token hfresh hpending' htoken'

/-- A delivery that is neither published nor claimed. -/
theorem of_cleared (hidentity : r'.id = r.id ∧ r'.route = r.route)
    (hpublished : r'.delivery.published_at = none) (hclaim : r'.delivery.claim_token = none) :
    KeepsReference fresh r r' := by
  refine ⟨hidentity, fun _ hsome => ?_, fun token _ _ htoken => ?_⟩
  · rw [hpublished] at hsome
    cases hsome
  · rw [hclaim] at htoken
    cases htoken

/-- A delivery that is settled. -/
theorem of_settled (hidentity : r'.id = r.id ∧ r'.route = r.route)
    (hsettled : r'.delivery.status = .succeeded ∨ r'.delivery.status = .failed) :
    KeepsReference fresh r r' := by
  refine ⟨hidentity, fun hopen _ => ?_, fun _ _ hpending _ => ?_⟩
  · rcases hopen with h | h <;> rcases hsettled with hs | hs <;> rw [hs] at h <;> cases h
  · rcases hsettled with hs | hs <;> rw [hs] at hpending <;> cases hpending

/-- A delivery that is open and published as before, under no old claim. -/
theorem of_claim (hidentity : r'.id = r.id ∧ r'.route = r.route) (hopen : r.is_open)
    (hpublished : r'.delivery.published_at = r.delivery.published_at)
    (hclaim : ∀ token < fresh, r'.delivery.status = .pending →
      r'.delivery.claim_token ≠ some token) : KeepsReference fresh r r' :=
  ⟨hidentity, fun _ hsome => ⟨hopen, hpublished ▸ hsome⟩, fun token hfresh hpending htoken =>
    absurd htoken (hclaim token hfresh hpending)⟩

end KeepsReference

namespace ConsumerExecutionService

variable (service : ConsumerExecutionService π ρ) {event : OutboxEvent π} {r r' : DeliveryRecord}
  {worker_id : String} {now : Timestamp} {fresh : UUID} {started : Started ρ}

/-- The second half of `_start`. A claimed row is processing, and needs its reference as long as it
is. -/
theorem start_attempt_reference (hpending : r.delivery.status = .pending)
    (h : service.start_attempt event r worker_id now fresh = some (r', started)) :
    KeepsReference fresh r r' := by
  unfold start_attempt at h
  dsimp only at h
  split at h
  · cases h
  · split_ifs at h <;> cases h
    · exact .refl r
    · exact .of_settled ⟨rfl, rfl⟩ (Or.inr rfl)
    · exact .of_claim ⟨rfl, rfl⟩ (Or.inl hpending) rfl fun _ _ hstatus => by cases hstatus
    · exact .refl r
  · split_ifs at h <;> cases h
    · exact .of_settled ⟨rfl, rfl⟩ (Or.inr rfl)
    · exact .of_settled ⟨rfl, rfl⟩ (Or.inr rfl)

/-- `_start`. Its changes keep the reference of a delivery that is still open. -/
theorem start_locked_reference
    (h : service.start_locked event r worker_id now fresh = some (r', started)) :
    KeepsReference fresh r r' := by
  -- Releasing concerns a row under a claim, which carries no relay token that matters.
  have hreleased : r.delivery.status = .processing →
      KeepsReference fresh r (r.release_expired now) := fun hprocessing =>
    .of_claim ⟨rfl, rfl⟩ (Or.inr hprocessing) rfl fun _ _ _ => nofun
  unfold start_locked at h
  split_ifs at h with hreceipt hfailed hinconsistent hdue hprocessing hactive hcount
  · cases h
    exact .refl r
  · cases h
    exact .refl r
  · cases h
    exact .refl r
  · cases h
    exact .refl r
  · cases h
    exact .refl r
  · -- The row is failed, so it is no longer open.
    cases h
    exact .of_settled ⟨rfl, rfl⟩ (Or.inr rfl)
  · -- The released row goes on to the second half.
    exact (hreleased hprocessing).trans (service.start_attempt_reference rfl h)
  · -- Only a pending row is left for the second half.
    refine service.start_attempt_reference ?_ h
    cases hstatus : r.delivery.status with
    | pending => rfl
    | processing => exact absurd hstatus hprocessing
    | succeeded => exact absurd (Or.inl hstatus) hinconsistent
    | failed => exact absurd hstatus hfailed

end ConsumerExecutionService

/-- The deliveries of a new state whose references are those of the old one: each is an old delivery
that keeps its reference, or a new one without any. -/
def KeepsReferences (db : Database π) (deliveries : List DeliveryRecord) : Prop :=
  ∀ r' ∈ deliveries, (∃ r ∈ db.deliveries, KeepsReference db.next_uuid r r') ∨
    db.next_uuid ≤ r'.id ∧ r'.delivery.published_at = none

namespace KeepsReferences

variable {db : Database π}

/-- Without a change every delivery is kept. -/
theorem refl (db : Database π) : KeepsReferences db db.deliveries :=
  fun r' hr' => Or.inl ⟨r', hr', .refl r'⟩

/-- A row is written. -/
theorem write {r row : DeliveryRecord} (hr : r ∈ db.deliveries)
    (h : KeepsReference db.next_uuid r row) :
    KeepsReferences db (db.write (some row)).deliveries := by
  intro r' hr'
  rcases Keyed.mem_put hr' with ⟨hold, -⟩ | rfl
  · exact Or.inl ⟨r', hold, .refl r'⟩
  · exact Or.inl ⟨r, hr, h⟩

/-- The rows are updated one by one. -/
theorem map {f : DeliveryRecord → DeliveryRecord}
    (h : ∀ r ∈ db.deliveries, KeepsReference db.next_uuid r (f r)) :
    KeepsReferences db (db.deliveries.map f) := by
  intro r' hr'
  obtain ⟨r, hr, rfl⟩ := List.mem_map.mp hr'
  exact Or.inl ⟨r, hr, h r hr⟩

/-- An event is inserted with its deliveries. The new rows are not published yet, and the others
stay. -/
theorem persist (event : OutboxEvent π) (consumers : List ConsumerName) (created_at : Timestamp) :
    KeepsReferences db (db.persist event consumers created_at).deliveries := by
  unfold Database.persist
  split_ifs
  · exact .refl db
  · intro r' hr'
    rcases List.mem_append.mp hr' with hold | hnew
    · exact Or.inl ⟨r', hold, .refl r'⟩
    · refine Or.inr ⟨?_, ?_⟩
      · have hid : r'.id ∈ List.range' db.next_uuid consumers.length := by
          rw [← Database.inserted_ids event.event_id db.next_uuid created_at consumers]
          exact List.mem_map_of_mem hnew
        exact (List.mem_range'_1.mp hid).1
      · obtain ⟨-, id, consumer, rfl⟩ := Database.mem_inserted hnew
        rfl

end KeepsReferences

namespace Deployment

variable (deployment : Deployment π ρ) {w : World π ρ}

/-- An action observes a publication. It is the transaction that a relay runs after a publication.
-/
def observes : Act π → Bool
  | .observe .. => true
  | _ => false

/-- What routing does to the references. The row it claims or fails keeps its reference, as it stays
open or is settled. -/
theorem route_references (message : StreamMessage) (group : ConsumerName)
    (settings : ServiceSettings) (worker_id : String) (locked : Bool) (fate : Fate) :
    KeepsReferences w.database
      (deployment.route w message group settings worker_id locked fate).database.deliveries := by
  unfold route
  split
  · exact .refl _
  · split
    · exact .refl _
    · rename_i event_id _ db started hstart
      have hrows : KeepsReferences w.database db.deliveries := by
        rcases deployment.start_cases hstart with ⟨rfl, -⟩ |
          ⟨event, r, row, -, hlookup, hlocked, rfl⟩
        · exact .refl _
        · exact .write (Keyed.lookup_mem hlookup)
            ((deployment.service settings).start_locked_reference hlocked)
      split
      · exact hrows
      · split_ifs
        · exact hrows
        · exact .refl _

/-- What an effect does to the references. A row whose effect is committed has succeeded. -/
theorem effect_references (hinv : WorldInv deployment w) (execution : ℕ) (handler : HandlerResult)
    (fate : Fate) :
    KeepsReferences w.database (deployment.effect w execution handler fate).database.deliveries := by
  unfold effect
  split
  · rename_i settings claim hphase
    obtain ⟨e, hmem, -, heq⟩ := World.phase_eq hphase
    have hclaim : ClaimInv w.database (e.event_id, e.group) claim :=
      (hinv.executions e hmem).claim claim (by rw [heq]; rfl)
    split
    · split <;> exact .refl _
    · rename_i row result heffect
      -- The row has succeeded, so its reference is no longer needed.
      have hrows : KeepsReferences w.database (w.database.write_effect row).deliveries := by
        cases row with
        | none => exact .refl _
        | some row =>
          obtain ⟨r, hr, -, -, -, hcommit⟩ := deployment.effect_database hinv.database hclaim heffect
          obtain ⟨hid, hroute, -, hstatus, -⟩ := hcommit.frame
          exact .write hr (.of_settled ⟨hid, hroute⟩ (Or.inl hstatus))
      show KeepsReferences w.database
        (if fate.persisted then w.database.write_effect row else w.database).deliveries
      split_ifs
      · exact hrows
      · exact .refl _
  · exact .refl _

/-- What a settlement does to the references. A row that is released is due again at its time, and a
failed one is settled. -/
theorem settle_references (execution : ℕ) (settler : Settler) (jitter : Jitter) (fate : Fate) :
    KeepsReferences w.database
      (deployment.settle w execution settler jitter fate).database.deliveries := by
  unfold settle
  split
  · split
    · exact .refl _
    · rename_i row result hsettle
      have hrows : KeepsReferences w.database (w.database.write row).deliveries := by
        cases row with
        | none => exact .refl _
        | some row =>
          obtain ⟨r, delay, hlock, -, -, rfl⟩ :=
            ConsumerExecutionService.finish_failure_row hsettle
          exact .write (Keyed.lookup_mem hlock) (.of_cleared ⟨rfl, rfl⟩ rfl rfl)
      show KeepsReferences w.database
        (if fate.persisted then w.database.write row else w.database).deliveries
      split_ifs
      · exact hrows
      · exact .refl _
  · exact .refl _

/-- Every action but an observation keeps the references. The cases are the transactions of the
processes. -/
theorem step_references (hinv : WorldInv deployment w) (a : Act π) (ha : observes a = false) :
    KeepsReferences w.database (deployment.step w a).database.deliveries := by
  cases a with
  | tick | crash => exact .refl _
  | persist event consumers lag => exact .persist event consumers _
  | route message group settings worker_id locked fate =>
    exact deployment.route_references message group settings worker_id locked fate
  | effect execution handler fate => exact deployment.effect_references hinv execution handler fate
  | settle execution settler jitter fate =>
    exact deployment.settle_references execution settler jitter fate
  | acknowledge execution =>
    simp only [step, World.acknowledge]
    split
    · split_ifs <;> exact .refl _
    · exact .refl _
  -- The recovery clears what has been published.
  | recover_expired settings limit locked =>
    refine .map fun r _ => ?_
    split_ifs
    · exact .of_cleared ⟨rfl, rfl⟩ rfl rfl
    · exact .refl r
  | claim_due owner lease_seconds republish_after_seconds lag limit locked =>
    refine .map fun r hr => ?_
    split_ifs with hid
    · have hdue := selected hinv.database.ids hr hid
      simp only [Events.claim_due, Bool.and_eq_true, decide_eq_true_eq] at hdue
      have hpending : r.delivery.status = .pending := hdue.1.1.1.1.1
      refine .of_claim ⟨rfl, rfl⟩ (Or.inl hpending) rfl fun token hfresh _ htoken => ?_
      -- The new token is not an old one.
      obtain rfl := Option.some.inj htoken
      exact absurd hfresh (not_lt.mpr (Nat.le_add_right _ _))
    · exact .refl r
  | observe claim lag => cases ha
  -- A transport failure keeps the token of the relay and the publication.
  | defer_claim claim retry_after_ms failure_category lag =>
    refine .map fun r _ => ?_
    split_ifs
    · exact ⟨⟨rfl, rfl⟩, fun hopen hpublished => ⟨hopen, hpublished⟩, fun _ _ hpending htoken =>
        ⟨hpending, htoken⟩⟩
    · exact .refl r
  -- A reset clears the publication.
  | reset_observations cutoff lag limit locked =>
    refine .map fun r _ => ?_
    split_ifs
    · exact .of_cleared ⟨rfl, rfl⟩ rfl rfl
    · exact .refl r
  -- A replay starts over without a publication.
  | replay delivery_id operator reason =>
    simp only [step]
    split
    · exact .refl _
    · rename_i row hreplay
      unfold replay_locked at hreplay
      split_ifs at hreplay
      split at hreplay
      · cases hreplay
      · rename_i r hlookup
        split_ifs at hreplay
        split at hreplay
        · cases hreplay
        · cases hreplay
          exact .write (Keyed.lookup_mem hlookup) (.of_cleared ⟨rfl, rfl⟩ rfl rfl)

end Deployment

/-! ## The executions -/

/-- The execution has returned that its message may be acknowledged. -/
def Execution.acknowledges (e : Execution ρ) : Prop :=
  ∃ result, e.phase = .returned result ∧ result.acknowledge = true

/-- The delivery of an execution is settled, or its group has not subscribed to the event. -/
def Database.closed (db : Database π) (e : Execution ρ) : Prop :=
  db.settled (e.event_id, e.group) ∨ db.not_subscribed (e.event_id, e.group)

/-- An execution that an action leaves is an old one of the same message, and the action lets it
acknowledge the message only where `db`, the new state, has closed its delivery. -/
def Continues (db : Database π) (e e' : Execution ρ) : Prop :=
  (e'.message_id = e.message_id ∧ e'.group = e.group ∧ e'.event_id = e.event_id) ∧
    (e'.acknowledges → e.acknowledges ∨ db.closed e')

/-- An execution that does not move goes on as it was. -/
theorem Continues.refl (db : Database π) (e : Execution ρ) : Continues db e e :=
  ⟨⟨rfl, rfl, rfl⟩, Or.inl⟩

/-- Setting the phase of an execution. Only the one execution moves on. -/
theorem World.set_phase_continues {w : World π ρ} {db : Database π} {i : ℕ} {phase : Phase ρ}
    {e₀ : Execution ρ} (he₀ : w.executions[i]? = some e₀)
    (hphase : ∀ result, phase = .returned result → result.acknowledge = true →
      db.settled (e₀.event_id, e₀.group)) {e' : Execution ρ}
    (he' : e' ∈ (w.set_phase i phase).executions) : ∃ e ∈ w.executions, Continues db e e' := by
  rcases World.mem_set_phase he' with hold | ⟨e, he, rfl⟩
  · exact ⟨e', hold, .refl db e'⟩
  · obtain rfl : e = e₀ := Option.some.inj (he.symm.trans he₀)
    refine ⟨e, List.mem_of_getElem? he, ⟨rfl, rfl, rfl⟩, fun hack => Or.inr (Or.inl ?_)⟩
    obtain ⟨result, hresult, hack⟩ := hack
    exact hphase result hresult hack

namespace Deployment

variable (deployment : Deployment π ρ) {w : World π ρ} {e' : Execution ρ}

/-- What an effect does to the executions. The one that runs it moves on, and its row is settled if
it reports so. -/
theorem effect_executions (hinv : WorldInv deployment w) (execution : ℕ) (handler : HandlerResult)
    (fate : Fate) (he' : e' ∈ (deployment.effect w execution handler fate).executions) :
    ∃ e ∈ w.executions,
      Continues (deployment.effect w execution handler fate).database e e' := by
  unfold effect at he' ⊢
  split at he'
  · rename_i settings claim hphase
    obtain ⟨e₀, hmem, he₀, heq⟩ := World.phase_eq hphase
    have hclaim : ClaimInv w.database (e₀.event_id, e₀.group) claim :=
      (hinv.executions e₀ hmem).claim claim (by rw [heq]; rfl)
    split at he'
    · split at he' <;> exact World.set_phase_continues he₀ (fun _ h => by cases h) he'
    · rename_i row result heffect
      refine @World.set_phase_continues _ _ { w with database := _ } _ _ _ e₀ he₀ ?_ _ he'
      -- Only a commit lets the execution return what the transaction promises.
      intro result' hresult hack
      cases fate with
      | committed =>
        obtain rfl : result = result' := by
          cases hresult
          rfl
        cases row with
        | none =>
          rw [(deployment.service settings).effect_none heffect] at hack
          cases hack
        -- Its row has succeeded with a receipt, so the delivery is closed.
        | some row =>
          obtain ⟨r, hr, hroute, -, -, hcommit⟩ :=
            deployment.effect_database hinv.database hclaim heffect
          obtain ⟨hid, hroute', -, hstatus, hreceipt, -⟩ := hcommit.frame
          exact ⟨row, List.mem_map.mpr ⟨r, hr, if_pos hid.symm⟩, hroute'.trans hroute,
            Or.inl ⟨hstatus, hreceipt⟩⟩
      | unacknowledged error | rolled_back error => cases hresult
      | died persisted => cases hresult
  · exact ⟨e', he', .refl _ e'⟩

/-- What a settlement does to the executions. The one that is settled moves on, and its row is
settled if it reports so. -/
theorem settle_executions (hinv : WorldInv deployment w) (execution : ℕ) (settler : Settler)
    (jitter : Jitter) (fate : Fate)
    (he' : e' ∈ (deployment.settle w execution settler jitter fate).executions) :
    ∃ e ∈ w.executions,
      Continues (deployment.settle w execution settler jitter fate).database e e' := by
  unfold settle at he' ⊢
  split at he'
  · rename_i settings claim failure hphase
    obtain ⟨e₀, hmem, he₀, heq⟩ := World.phase_eq hphase
    have hclaim : ClaimInv w.database (e₀.event_id, e₀.group) claim :=
      (hinv.executions e₀ hmem).claim claim (by rw [heq]; rfl)
    have hfailure := (hinv.executions e₀ hmem).failure settings claim failure heq
    split at he'
    · exact ⟨e', he', .refl _ e'⟩
    · rename_i row result hsettle
      refine @World.set_phase_continues _ _ { w with database := _ } _ _ _ e₀ he₀ ?_ _ he'
      intro result' hresult hack
      -- Only a committed settlement of the execution's own returns.
      obtain ⟨rfl, rfl⟩ : fate = .committed ∧ result = result' := by
        cases fate with
        | committed =>
          cases settler with
          | own =>
            dsimp only at hresult
            split_ifs at hresult
            cases hresult
            exact ⟨rfl, rfl⟩
          | settle_failures still_running => cases still_running <;> cases hresult
        | unacknowledged error | rolled_back error | died persisted =>
          cases settler <;> cases hresult
      cases row with
      | none =>
        rw [(deployment.service settings).finish_failure_none hsettle] at hack
        cases hack
      -- The row is settled as the result says, so the delivery is closed.
      | some row =>
        obtain ⟨r, hr, hroute, -, hrow, hsettled⟩ :=
          deployment.settle_database hinv.database hclaim hfailure hsettle
        exact ⟨row, List.mem_map.mpr ⟨r, hr, if_pos hrow.identity.1.symm⟩,
          hrow.identity.2.trans hroute, hsettled hack⟩
  · exact ⟨e', he', .refl _ e'⟩

/-- What routing does to the executions: it may start one, of the message that it routes. -/
theorem route_executions (hinv : WorldInv deployment w) (message : StreamMessage)
    (group : ConsumerName) (settings : ServiceSettings) (worker_id : String) (locked : Bool)
    (fate : Fate)
    (he' : e' ∈ (deployment.route w message group settings worker_id locked fate).executions) :
    e' ∈ w.executions ∨
      (e'.message_id = message.message_id ∧ e'.group = group ∧
        deployment.parse_uuid (message.fields.event_id.getD "") = some e'.event_id) ∧
      (e'.acknowledges →
        (deployment.route w message group settings worker_id locked fate).database.closed e') := by
  unfold route at he' ⊢
  split at he'
  · exact Or.inl he'
  · rename_i event_id hparse
    split at he'
    · exact Or.inl he'
    · rename_i db started hstart
      obtain ⟨-, hspec⟩ := deployment.start_spec hinv.database hstart
      split at he'
      · -- The execution is an old one, or the one that has just been appended.
        rcases List.mem_append.mp he' with hold | hnew
        · exact Or.inl hold
        · right
          rw [List.mem_singleton] at hnew
          subst hnew
          refine ⟨⟨rfl, rfl, hparse⟩, fun hack => ?_⟩
          obtain ⟨result, hresult, hack⟩ := hack
          -- A claim does not acknowledge anything.
          cases started with
          | claimed claim => cases hresult
          | result result' =>
            cases hresult
            exact hspec hack
      · split_ifs at he' <;> exact Or.inl he'

/-- Every execution that an action leaves is an old one, or one of the message that it routes. -/
theorem step_executions (hinv : WorldInv deployment w) (a : Act π)
    (he' : e' ∈ (deployment.step w a).executions) :
    (∃ e ∈ w.executions, Continues (deployment.step w a).database e e') ∨
      (∃ message group settings worker_id locked fate,
        a = .route message group settings worker_id locked fate ∧
        e'.message_id = message.message_id ∧ e'.group = group ∧
        deployment.parse_uuid (message.fields.event_id.getD "") = some e'.event_id) ∧
      (e'.acknowledges → (deployment.step w a).database.closed e') := by
  -- Finishing an execution keeps the message it came from.
  have hended : ∀ execution, e' ∈ (w.set_phase execution .finished).executions →
      ∃ e ∈ w.executions, ∀ db : Database π, Continues db e e' := by
    intro execution he'
    rcases World.mem_set_phase he' with hold | ⟨e, he, rfl⟩
    · exact ⟨e', hold, fun db => .refl db e'⟩
    · refine ⟨e, List.mem_of_getElem? he, fun db => ⟨⟨rfl, rfl, rfl⟩, fun hack => ?_⟩⟩
      obtain ⟨result, hresult, -⟩ := hack
      cases hresult
  cases a with
  | effect execution handler fate =>
    exact Or.inl (deployment.effect_executions hinv execution handler fate he')
  | settle execution settler jitter fate =>
    exact Or.inl (deployment.settle_executions hinv execution settler jitter fate he')
  | route message group settings worker_id locked fate =>
    rcases deployment.route_executions hinv message group settings worker_id locked fate he' with
      hold | ⟨hmessage, hclosed⟩
    · exact Or.inl ⟨e', hold, .refl _ e'⟩
    · exact Or.inr ⟨⟨message, group, settings, worker_id, locked, fate, rfl, hmessage⟩, hclosed⟩
  | acknowledge execution =>
    replace he' : e' ∈ (w.acknowledge execution).executions := he'
    unfold World.acknowledge at he'
    split at he'
    · split_ifs at he'
      · obtain ⟨e, he, hcontinues⟩ := hended execution he'
        exact Or.inl ⟨e, he, hcontinues _⟩
      · obtain ⟨e, he, hcontinues⟩ := hended execution he'
        exact Or.inl ⟨e, he, hcontinues _⟩
    · exact Or.inl ⟨e', he', .refl _ e'⟩
  | crash execution =>
    obtain ⟨e, he, hcontinues⟩ := hended execution he'
    exact Or.inl ⟨e, he, hcontinues _⟩
  | replay delivery_id operator reason =>
    simp only [step] at he'
    split at he' <;> exact Or.inl ⟨e', he', .refl _ e'⟩
  | _ => exact Or.inl ⟨e', he', .refl _ e'⟩

end Deployment

/-! ## The message of an open delivery -/

/-- No execution for a group has returned that a message may be acknowledged. -/
def World.Unanswered (w : World π ρ) (group : ConsumerName) (message_id : String) : Prop :=
  ∀ e ∈ w.executions, e.message_id = message_id → e.group = group → ¬e.acknowledges

namespace Deployment

variable (deployment : Deployment π ρ) {w : World π ρ}

/-- No action lets an execution acknowledge the message of a delivery that it leaves open, if the
consumer of the delivery has subscribed. -/
theorem unanswered_step (hinv : WorldInv deployment w) (a : Act π) {r : DeliveryRecord}
    {message_id : String} (h : w.Unanswered r.delivery.consumer_name message_id)
    (hr : r ∈ (deployment.step w a).database.deliveries) (hopen : r.is_open)
    (hsubscribed : ¬(deployment.step w a).database.not_subscribed r.route)
    (hmessage : ∀ e ∈ (deployment.step w a).executions, e.message_id = message_id →
      e.event_id = r.delivery.event_id) :
    (deployment.step w a).Unanswered r.delivery.consumer_name message_id := by
  have hinv' := deployment.step_inv w a hinv
  intro e' he' hid hgroup hack
  have hroute : r.route = (e'.event_id, e'.group) := by
    unfold DeliveryRecord.route
    rw [hmessage e' he' hid, hgroup]
  have hclosed : ¬(deployment.step w a).database.closed e' := by
    rintro (⟨r', hr', hroute', hsettled⟩ | hnot)
    · obtain rfl := hinv'.database.routes.eq_of_key hr' hr (hroute'.trans hroute.symm)
      exact hopen.not_settled hsettled
    · exact hsubscribed (hroute ▸ hnot)
  rcases deployment.step_executions hinv a he' with ⟨e, he, hsame, hcontinues⟩ | ⟨-, hnew⟩
  · rcases hcontinues hack with hbefore | hafter
    · exact h e he (hsame.1.symm.trans hid) (hsame.2.1.symm.trans hgroup) hbefore
    · exact hclosed hafter
  · exact hclosed (hnew hack)

end Deployment

end RestaurantOS.Events
