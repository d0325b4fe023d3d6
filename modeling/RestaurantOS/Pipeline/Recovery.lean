import RestaurantOS.Pipeline.EndToEnd
import RestaurantOS.Pipeline.Handlers

/-!
# Everything can be delivered

Whatever has happened to the deliveries of a restaurant, lost references, crashed processes, expired
leases, exhausted attempts, the worker processes and an operator can still have each of them handled:
time passes until the delivery is due, a correct reference is routed, and the effect runs; one that has
failed is replayed before (`Restorable`). At most five actions are needed for each delivery, and then
the rows of the consumers are those of the restaurant (`deliveries_restorable`). -/

namespace RestaurantOS.Pipeline

open Fallible Events

/-- A setup whose library functions on texts are those of the language. -/
structure LawfulSetup extends GuardedSetup where
  /-- `UUID(str(uuid))` is `uuid`. -/
  parse_str : ∀ uuid, parse_uuid (str_uuid uuid) = some uuid
  /-- `str.strip` leaves a word as it is. -/
  strip_word : ∀ text, text.toList.all Char.isAlpha = true → strip text = text

/-- The small setup is one, with numerals as the texts of keys. -/
instance : Nonempty LawfulSetup := by
  obtain ⟨setup, hsetup⟩ :=
    exists_guarded_setup (Classical.choice (inferInstance : Nonempty DigestLibrary)).1
  refine ⟨{ setup with parse_str := fun uuid => ?_, strip_word := fun text hword => ?_ }⟩
  · rw [hsetup]
    exact Numerals.digits_value_repr _ uuid
  · rw [hsetup]
    refine strip_blanks_word text fun c hc heq => ?_
    have halpha := List.all_eq_true.mp hword c hc
    rw [heq] at halpha
    cases halpha

/-- What the worker processes and an operator do when nothing goes wrong. -/
def Act.restores : Act → Bool
  | .worker (.tick _) | .worker (.route _ _ _ _ _ .committed) | .worker (.replay ..) => true
  | .effect _ none _ .committed => true
  | _ => false

/-! ## What restoring keeps -/

section Keeps

variable {setup : Setup} {w : World}

/-- An effect serves no request, and what is committed stays so. It touches the worker and the rows
of the consumers only. -/
theorem effect_keeps (execution : ℕ) (interrupted : Option RaisedError) (other : HandlerResult)
    (fate : Fate) : (w.effect setup execution interrupted other fate).business = w.business ∧
      ∀ route ∈ w.worker.database.effects,
        route ∈ (w.effect setup execution interrupted other fate).worker.database.effects := by
  by_cases hclaimed : ∃ settings claim, w.worker.phase execution = some (.claimed settings claim)
  · obtain ⟨settings, claim, hphase⟩ := hclaimed
    obtain ⟨handler, hspec⟩ := w.effect_spec setup hphase interrupted other fate
    have hkept : ∀ route ∈ w.worker.database.effects, route ∈
        (setup.deployment.effect w.worker execution handler fate).database.effects := by
      intro route hroute
      -- Effects are appended or left alone.
      rcases setup.deployment.effect_effects hphase handler fate with hsame | ⟨happend, -⟩
      · rwa [hsame]
      · rw [happend]
        exact List.mem_append_left _ hroute
    -- Both cases of `effect_spec` leave the database of the commands.
    rcases hspec with ⟨-, consumers, outcome, -, -, hstep⟩ | ⟨-, hstep⟩
    · rw [hstep]
      exact ⟨rfl, hkept⟩
    · rw [hstep]
      exact ⟨rfl, hkept⟩
  · -- An execution without a claim does nothing.
    have hsame : w.effect setup execution interrupted other fate = w := by
      unfold World.effect
      split
      · rename_i settings claim hphase
        exact absurd ⟨settings, claim, hphase⟩ hclaimed
      · rfl
    rw [hsame]
    exact ⟨rfl, fun _ hroute => hroute⟩

/-- Restoring serves no request, and what is committed stays so. -/
theorem step_restores {a : Act} (ha : a.restores = true) :
    (step setup w a).business = w.business ∧
      ∀ route ∈ w.worker.database.effects, route ∈ (step setup w a).worker.database.effects := by
  cases a with
  | worker a =>
    have heffect : ∀ execution handler fate, a ≠ .effect execution handler fate := by
      rintro execution handler fate rfl
      cases ha
    unfold step
    dsimp only
    split_ifs
    · refine ⟨rfl, fun route hroute => ?_⟩
      rw [setup.deployment.step_effects a heffect]
      exact hroute
    · exact ⟨rfl, fun _ hroute => hroute⟩
  | effect execution interrupted other fate => exact effect_keeps execution interrupted other fate
  | _ => cases ha

/-- So does a run of such actions. They write no business row and lose no recorded effect. -/
theorem run_restores {acts : List Act} (hacts : ∀ a ∈ acts, a.restores = true) :
    (Transition.run (step setup) w acts).business = w.business ∧
      ∀ route ∈ w.worker.database.effects,
        route ∈ (Transition.run (step setup) w acts).worker.database.effects := by
  induction acts generalizing w with
  | nil => exact ⟨rfl, fun _ hroute => hroute⟩
  | cons a acts ih =>
    obtain ⟨hbusiness, heffects⟩ := @step_restores setup w a (hacts a List.mem_cons_self)
    obtain ⟨hbusiness', heffects'⟩ := @ih (step setup w a)
      fun a ha => hacts a (List.mem_cons_of_mem _ ha)
    exact ⟨hbusiness'.trans hbusiness, fun route hroute => heffects' route (heffects route hroute)⟩

/-- A run of the pipeline refines its parts from any state that does. -/
theorem Refines.run {now : Timestamp} {h : History} (href : Refines setup now w h)
    (acts : List Act) : ∃ h', Refines setup now (Transition.run (Pipeline.step setup) w acts) h' := by
  have hstep : ∀ (w : World) (a : Act), (∃ h, Refines setup now w h) →
      ∃ h, Refines setup now (Pipeline.step setup w a) h := by
    rintro w a ⟨h, href⟩
    exact href.step a
  exact Transition.run_invariant hstep ⟨h, href⟩ acts

end Keeps

/-! ## One delivery -/

/-- A delivery can be handled by at most so many actions. -/
def Restorable (setup : Setup) (w : World) (route : UUID × ConsumerName) (n : ℕ) : Prop :=
  ∃ acts : List Act, acts.length ≤ n ∧ (∀ a ∈ acts, a.restores = true) ∧
    route ∈ (Transition.run (step setup) w acts).worker.database.effects

/-- It can be handled after one more action. -/
theorem Restorable.step {setup : Setup} {w : World} {route : UUID × ConsumerName} {n : ℕ}
    {a : Act} (ha : a.restores = true) (h : Restorable setup (Pipeline.step setup w a) route n) :
    Restorable setup w route (n + 1) := by
  obtain ⟨acts, hlength, hacts, hroute⟩ := h
  refine ⟨a :: acts, Nat.succ_le_succ hlength, fun b hb => ?_, hroute⟩
  rcases List.mem_cons.mp hb with rfl | hb
  · exact ha
  · exact hacts b hb

/-- More actions are allowed. -/
theorem Restorable.mono {setup : Setup} {w : World} {route : UUID × ConsumerName} {n m : ℕ}
    (h : Restorable setup w route n) (hle : n ≤ m) : Restorable setup w route m := by
  obtain ⟨acts, hlength, hacts⟩ := h
  exact ⟨acts, hlength.trans hle, hacts⟩

/-- The settings of a process with all handlers. -/
def all_handlers : ServiceSettings :=
  { lease_seconds := 1, infrastructure_delay_seconds := 0, registry := fun _ => true }

/-- A correct reference to a row. Its fields are the texts that the relay would have written. -/
def correct_message (setup : Setup) (event : OutboxEvent Fields) : StreamMessage :=
  { message_id := "0-0"
    fields :=
      { event_id := some (setup.str_uuid event.event_id), event_type := some event.event_type,
        schema_version := some (toString event.schema_version),
        correlation_id := some event.correlation_id } }

section Delivery

variable {setup : LawfulSetup} {now : Timestamp} {w : World} {h : History}
  {event : EventEnvelope Payload} {r : DeliveryRecord}

/-- The delivery of an event of the restaurant to a consumer that has subscribed to it. -/
structure Delivers (setup : Setup) (w : World) (event : EventEnvelope Payload)
    (r : DeliveryRecord) : Prop where
  /-- The event. -/
  emitted : event ∈ (w.db setup).events
  /-- The delivery. -/
  delivery : r ∈ w.worker.database.deliveries
  /-- It is one of the event. -/
  event_id : r.delivery.event_id = event.event_id
  /-- Its consumer has subscribed. -/
  subscribed : r.delivery.consumer_name ∈ SUBSCRIPTIONS event.event_type

/-- So is the row that a restoring action writes over it. -/
theorem Delivers.step {setup : Setup} {w : World} {r row : DeliveryRecord}
    (hdelivers : Delivers setup w event r) {a : Act} (ha : a.restores = true)
    (hrow : row ∈ (Pipeline.step setup w a).worker.database.deliveries)
    (hroute : row.route = r.route) : Delivers setup (Pipeline.step setup w a) event row := by
  refine ⟨?_, hrow, ?_, ?_⟩
  · unfold World.db
    rw [(step_restores ha).1]
    exact hdelivers.emitted
  · rw [show row.delivery.event_id = r.delivery.event_id from congrArg Prod.fst hroute]
    exact hdelivers.event_id
  · rw [show row.delivery.consumer_name = r.delivery.consumer_name from congrArg Prod.snd hroute]
    exact hdelivers.subscribed

/-- A correct reference to an event of the restaurant can be routed. -/
theorem Refines.routable (href : Refines setup.toSetup now w h)
    (hdelivers : Delivers setup.toSetup w event r) :
    ∃ row, setup.deployment.Routable w.worker (correct_message setup.toSetup row) all_handlers row event
      r := by
  obtain ⟨hevent, hr, hid, hsubscribed⟩ := hdelivers
  rw [href.db_eq] at hevent
  have henveloped := href.stored.enveloped event hevent
  have hstorable := href.stored.storable event hevent
  obtain ⟨traceparent, hrow⟩ := href.stored.stored event hevent
  refine ⟨_, setup.parse_str _, hrow, href.stored.rows, ?_, hr, ?_,
    setup.decodes henveloped hstorable traceparent, hsubscribed, rfl⟩
  · unfold Deployment.reference_matches correct_message
    simp [Setup.deployment]
  · exact hid

/-- A delivery that is due, and whose cycle has an attempt left, can be handled. A worker routes the
correct message, which claims the delivery, and its execution then commits the effect while the
lease lives. -/
theorem Refines.restorable_claim (href : Refines setup.toSetup now w h)
    (hdelivers : Delivers setup.toSetup w event r) (hdue : r.Due w.worker.now)
    (hcount : r.delivery.attempt_count < setup.policy.max_attempts) :
    Restorable setup.toSetup w r.route 2 := by
  obtain ⟨row, hroutable⟩ := href.routable hdelivers
  -- Routing claims the delivery for the next execution.
  obtain ⟨claim, claimed, hphase, hclaim, hconsumer, hnow, hclaimed, hroute, howned, hlease⟩ :=
    Deployment.route_claims href.worker_inv hroutable hdue hcount ""
  let a : Act := .worker (.route (correct_message setup.toSetup row) r.delivery.consumer_name
    all_handlers "" false .committed)
  obtain ⟨h', href'⟩ := href.step a
  -- The claim is one of this delivery.
  have hcommitted : claim.route = r.route := by
    unfold AttemptClaim.route DeliveryRecord.route
    rw [hclaim, hconsumer, hdelivers.event_id]
  have hown : claim.event.restaurant_id =
      ((Pipeline.step setup.toSetup w a).db setup.toSetup).restaurant_id := by
    have hevent := hdelivers.emitted
    rw [href.db_eq] at hevent
    rw [hclaim, href'.restaurant_id_eq]
    exact (href.stored.enveloped event hevent).restaurant_id
  -- The lease that has just been taken lasts for at least a second.
  have hlive : ∃ expires, claimed.delivery.claim_expires_at = some expires ∧
      (Pipeline.step setup.toSetup w a).worker.now < expires := by
    refine ⟨_, hlease, ?_⟩
    have hpositive : (0 : ℤ) < timedelta_seconds ((1 : ℤ) : ℚ) := by decide +kernel
    show (setup.deployment.route w.worker _ _ _ _ _ _).now < _
    rw [hnow]
    exact lt_add_of_pos_right _ hpositive
  -- Two actions are enough: routing and the effect.
  have hcommits := href'.effect_commits hphase hown hclaimed (hroute.trans hcommitted.symm) howned hlive
    rfl .returned_other
  refine Restorable.step (n := 1) (show a.restores = true from rfl)
    ⟨[.effect w.worker.executions.length none .returned_other .committed], le_rfl, by simp [Act.restores],
      ?_⟩
  show r.route ∈ ((Pipeline.step setup.toSetup w a).effect setup.toSetup w.worker.executions.length none
    .returned_other .committed).worker.database.effects
  rw [hcommits, hcommitted]
  exact List.mem_append_right _ (List.mem_singleton_self _)

/-- A failed delivery can be handled after a replay. The replay makes it pending again, and then it
is like the others. -/
theorem Refines.restorable_failed (href : Refines setup.toSetup now w h)
    (hdelivers : Delivers setup.toSetup w event r) (hfailed : r.delivery.status = .failed) :
    Restorable setup.toSetup w r.route 3 := by
  have hreason : setup.strip "restored" ≠ "" ∧ "restored".length ≤ 1000 ∧
      "restored".toList.any (·.val < 32) = false := by
    rw [setup.strip_word "restored" (by decide +kernel)]
    decide +kernel
  obtain ⟨row, hnow, hrow, hroute, hdue, hcount⟩ :=
    @Deployment.replay_restarts _ _ setup.deployment w.worker r href.worker_inv hdelivers.delivery
      hfailed "operator" "restored" hreason
  let a : Act := .worker (.replay r.id "operator" "restored")
  have ha : a.restores = true := rfl
  obtain ⟨h', href'⟩ := href.step a
  refine .step ha ?_
  rw [← hroute]
  refine href'.restorable_claim (hdelivers.step ha hrow hroute) ?_ ?_
  · show row.Due (setup.deployment.step w.worker (.replay r.id "operator" "restored")).now
    rw [hnow]
    exact hdue
  · rw [hcount]
    exact setup.policy.one_le

/-- A delivery that is due can be handled, if need be after it has failed for its attempts. -/
theorem Refines.restorable_due (href : Refines setup.toSetup now w h)
    (hdelivers : Delivers setup.toSetup w event r) (hdue : r.Due w.worker.now) :
    Restorable setup.toSetup w r.route 4 := by
  by_cases hcount : r.delivery.attempt_count < setup.policy.max_attempts
  · exact (href.restorable_claim hdelivers hdue hcount).mono (by omega)
  obtain ⟨row, hroutable⟩ := href.routable hdelivers
  obtain ⟨failed, hnow, hmem, hroute, hstatus⟩ :=
    Deployment.route_limits href.worker_inv hroutable hdue (not_lt.mp hcount) ""
  let a : Act := .worker (.route (correct_message setup.toSetup row) r.delivery.consumer_name
    all_handlers "" false .committed)
  have ha : a.restores = true := rfl
  obtain ⟨h', href'⟩ := href.step a
  refine .step ha ?_
  rw [← hroute]
  exact href'.restorable_failed (hdelivers.step ha hmem hroute) hstatus

/-- A delivery without a receipt that has not failed is due after some time. -/
theorem due_after {r : DeliveryRecord} (hreceipt : r.receipt = none)
    (hstatus : r.delivery.status = .pending ∨ r.delivery.status = .processing) (now : Timestamp) :
    ∃ elapsed : ℕ, r.Due (now + elapsed) := by
  refine ⟨(r.delivery.next_attempt_at - now).toNat +
    ((r.delivery.claim_expires_at.getD 0) - now).toNat, hreceipt, by lia, ?_⟩
  refine hstatus.imp_right fun hprocessing => ⟨hprocessing, ?_⟩
  cases hexpires : r.delivery.claim_expires_at with
  | none => rfl
  | some expires =>
    rw [Option.any_some, Option.getD_some, decide_eq_false_iff_not]
    lia

/-- Every delivery can be handled. What is needed depends on its status: nothing, an attempt, a
recovery or a replay. -/
theorem Refines.restorable (href : Refines setup.toSetup now w h)
    (hdelivers : Delivers setup.toSetup w event r) : Restorable setup.toSetup w r.route 5 := by
  have hrecord := href.worker_inv.database.records r hdelivers.delivery
  have hopen : r.delivery.status = .pending ∨ r.delivery.status = .processing →
      Restorable setup.toSetup w r.route 5 := by
    intro hstatus
    have hreceipt : r.receipt = none := by
      rw [← Option.not_isSome_iff_eq_none, hrecord.receipt]
      rcases hstatus with hstatus | hstatus <;> rw [hstatus] <;> exact nofun
    obtain ⟨elapsed, hdue⟩ := due_after hreceipt hstatus w.worker.now
    let a : Act := .worker (.tick elapsed)
    have ha : a.restores = true := rfl
    obtain ⟨h', href'⟩ := href.step a
    exact .step ha (href'.restorable_due (hdelivers.step ha hdelivers.delivery rfl) hdue)
  cases hstatus : r.delivery.status with
  | pending => exact hopen (Or.inl hstatus)
  | processing => exact hopen (Or.inr hstatus)
  | succeeded =>
    have hmem := href.worker_inv.database.effect_of_succeeded hdelivers.delivery hstatus
    exact ⟨[], Nat.zero_le _, by simp, hmem⟩
  | failed => exact (href.restorable_failed hdelivers hstatus).mono (by omega)

end Delivery

/-! ## All of them -/

/-- The deliveries of the restaurant whose effect is not committed yet. -/
def World.undelivered (setup : Setup) (w : World) : List (UUID × ConsumerName) :=
  ((w.db setup).events.flatMap fun event =>
    (SUBSCRIPTIONS event.event_type).map fun consumer => (event.event_id, consumer)).filter
      (· ∉ w.worker.database.effects)

variable {setup : LawfulSetup} {now : Timestamp} {w : World} {h : History}

/-- The deliveries of some events can be handled, one after the other. The induction is on the
routes, and handling one of them undoes none that is handled already. -/
theorem Refines.restores (href : Refines setup.toSetup now w h)
    (routes : List (UUID × ConsumerName))
    (hroutes : ∀ route ∈ routes, ∃ event ∈ (w.db setup.toSetup).events,
      ∃ consumer ∈ SUBSCRIPTIONS event.event_type, route = (event.event_id, consumer)) :
    ∃ acts : List Act, acts.length ≤ 5 * routes.length ∧ (∀ a ∈ acts, a.restores = true) ∧
      ∀ route ∈ routes,
        route ∈ (Transition.run (Pipeline.step setup.toSetup) w acts).worker.database.effects := by
  induction routes generalizing w h with
  | nil => exact ⟨[], le_rfl, by simp, by simp⟩
  | cons route routes ih =>
    obtain ⟨event, hevent, consumer, hsubscribed, rfl⟩ := hroutes route List.mem_cons_self
    have hexists := hevent
    rw [href.db_eq] at hexists
    obtain ⟨r, hr, hroute⟩ :=
      List.mem_map.mp ((href.stored.routes event hexists consumer).mpr hsubscribed)
    -- The route is that of a delivery of one of the events.
    have hdelivers : Delivers setup.toSetup w event r := by
      refine ⟨hevent, hr, congrArg Prod.fst hroute, ?_⟩
      rw [show r.delivery.consumer_name = consumer from congrArg Prod.snd hroute]
      exact hsubscribed
    obtain ⟨acts, hlength, hacts, hcommitted⟩ := href.restorable hdelivers
    obtain ⟨h', href'⟩ := href.run acts
    have hsame := (@run_restores setup.toSetup w acts hacts).1
    -- The other routes are still those of events of the restaurant.
    obtain ⟨acts', hlength', hacts', hcommitted'⟩ := ih href' fun route hroute => by
      obtain ⟨event, hevent, hrest⟩ := hroutes route (List.mem_cons_of_mem _ hroute)
      refine ⟨event, ?_, hrest⟩
      unfold World.db
      rw [hsame]
      exact hevent
    -- First the actions for this route, then those for the others.
    refine ⟨acts ++ acts', ?_, fun a ha => ?_, fun other hother => ?_⟩
    · rw [List.length_append, List.length_cons]
      omega
    · exact (List.mem_append.mp ha).elim (hacts a) (hacts' a)
    · rw [Transition.run_append]
      rcases List.mem_cons.mp hother with rfl | hother
      · rw [← hroute]
        exact (run_restores hacts').2 _ hcommitted
      · exact hcommitted' other hother

/-- From every state of the pipeline, the worker processes and an operator can have all the events of
the restaurant delivered, with at most five actions for each delivery that is not handled yet, and
without a request; then every delivery has succeeded, and the daily totals are those of the orders. -/
theorem deliveries_restorable (setup : LawfulSetup) (now : Timestamp) (acts : List Act) :
    let w := run setup.toSetup now acts
    ∃ more : List Act, more.length ≤ 5 * (w.undelivered setup.toSetup).length ∧
      (∀ a ∈ more, a.restores = true) ∧
      let w' := run setup.toSetup now (acts ++ more)
      w'.business = w.business ∧ (∀ consumer, w'.delivered setup.toSetup consumer) ∧
        ∀ day, w'.consumers.analytics.daily day =
          Analytics.authoritative (w.db setup.toSetup).orders day := by
  intro w
  obtain ⟨h, href⟩ : ∃ h, Refines setup.toSetup now w h := run_refines setup.toSetup now acts
  -- Only what is undelivered needs actions.
  obtain ⟨more, hlength, hmore, hcommitted⟩ := href.restores (w.undelivered setup.toSetup) (by
    intro route hroute
    obtain ⟨event, hevent, hmem⟩ := List.mem_flatMap.mp (List.mem_filter.mp hroute).1
    obtain ⟨consumer, hsubscribed, rfl⟩ := List.mem_map.mp hmem
    exact ⟨event, hevent, consumer, hsubscribed, rfl⟩)
  refine ⟨more, hlength, hmore, ?_⟩
  intro w'
  have hrun : w' = Transition.run (Pipeline.step setup.toSetup) w more :=
    Transition.run_append _ _ acts more
  obtain ⟨h', href'⟩ : ∃ h', Refines setup.toSetup now w' h' := hrun ▸ href.run more
  obtain ⟨hbusiness, hkept⟩ := @run_restores setup.toSetup w more hmore
  rw [← hrun] at hbusiness hkept hcommitted
  -- None of them is a request.
  have hdb : w'.db setup.toSetup = w.db setup.toSetup := by
    unfold World.db
    rw [hbusiness]
  -- Every delivery that is left has a committed effect, from before or from these actions.
  have hdelivered : ∀ consumer, w'.delivered setup.toSetup consumer := by
    intro consumer event hevent r hr hroute
    have hsubscribed : consumer ∈ SUBSCRIPTIONS event.event_type := by
      rw [href'.db_eq] at hevent
      exact (href'.stored.routes event hevent consumer).mp (List.mem_map.mpr ⟨r, hr, hroute⟩)
    rw [hdb] at hevent
    have heffect : (event.event_id, consumer) ∈ w'.worker.database.effects := by
      by_cases hold : (event.event_id, consumer) ∈ w.worker.database.effects
      · exact hkept _ hold
      · refine hcommitted _ (List.mem_filter.mpr ⟨?_, decide_eq_true hold⟩)
        exact List.mem_flatMap.mpr ⟨event, hevent, List.mem_map_of_mem hsubscribed⟩
    obtain ⟨r', hlock, hstatus⟩ := href'.worker_inv.database.succeeded_of_effect heffect
    have hsame := href'.worker_inv.database.routes.eq_of_key (Keyed.lookup_mem hlock) hr
      ((Keyed.lookup_key hlock).trans hroute.symm)
    rwa [hsame] at hstatus
  -- The totals follow as in `consumers_converge`.
  refine ⟨hbusiness, hdelivered, fun day => ?_⟩
  rw [← hdb]
  exact (href'.analytics_authoritative (hdelivered .analytics)).1 day

end RestaurantOS.Pipeline
