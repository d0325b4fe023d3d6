import RestaurantOS.Analytics.DailySales
import RestaurantOS.Orders.Sales

/-!
# What a contribution knows of its order

The events about an order that concern analytics are its completion and its deletion, once each and
in this order. Some of them are covered: they have been processed, or a rebuild has read the order
after them. `Tracks` says what contribution an order has then, and that its revision separates the
events that are covered from those still to come; an event, a request and a rebuild keep it. -/

namespace RestaurantOS.Analytics

open Fallible Events Orders

/-- An event that the projection consumes. Completions and deletions of orders are what analytics
subscribes to. -/
def analytic (event : EventEnvelope Payload) : Prop :=
  event.payload.event_type = .order_completed ∨ event.payload.event_type = .order_deleted

/-- The contribution of an order of which some events are covered. -/
inductive Tracks (rebuilt : Prop) (id : ℕ) (order : Option Order)
    (events : List (EventEnvelope Payload)) (covered : EventEnvelope Payload → Prop) :
    Option Contribution → Prop
  | unseen (hpending : ∀ event ∈ events, analytic event → ¬ covered event) :
    Tracks rebuilt id order events covered none
  | inactive (hrebuilt : rebuilt) (hknown : order ≠ none ∨ events ≠ []) (revision : ℤ) (day : Date)
      (hpending : ∀ event ∈ events, analytic event →
        ¬ covered event ∧ revision < event.aggregate_revision)
      (hlive : ∀ o ∈ order, revision ≤ o.revision) :
    Tracks rebuilt id order events covered (some ⟨id, revision, day, 0, .inactive⟩)
  | completed (event : EventEnvelope Payload) (hmem : event ∈ events) (hcovered : covered event)
      (total : ℚ) (created_at : Timestamp) (hpayload : event.payload = .order_completed id total created_at)
      (revision : ℤ) (hrevision : event.aggregate_revision ≤ revision)
      (hexact : rebuilt ∨ revision = event.aggregate_revision)
      (hpending : ∀ event ∈ events, event.payload.event_type = .order_deleted →
        ¬ covered event ∧ revision < event.aggregate_revision)
      (hlive : ∀ o ∈ order, revision ≤ o.revision) :
    Tracks rebuilt id order events covered
      (some ⟨id, revision, creation_date created_at, total, .completed⟩)
  | deleted (event : EventEnvelope Payload) (hmem : event ∈ events) (hcovered : covered event)
      (prior_status : OrderStatus) (total : ℚ) (created_at : Timestamp)
      (hpayload : event.payload = .order_deleted id prior_status total created_at) :
    Tracks rebuilt id order events covered
      (some ⟨id, event.aggregate_revision, creation_date created_at, 0, .deleted⟩)

/-- The payload of a completion. -/
theorem completion_payload {payload : Payload} {id : ℕ} (hid : payload.order_id = some id)
    (htype : payload.event_type = .order_completed) :
    ∃ total created_at, payload = .order_completed id total created_at := by
  cases payload
  case order_completed order_id total created_at =>
    obtain rfl := Option.some.inj hid
    exact ⟨total, created_at, rfl⟩
  all_goals cases htype

/-- The payload of a deletion. -/
theorem deletion_payload {payload : Payload} {id : ℕ} (hid : payload.order_id = some id)
    (htype : payload.event_type = .order_deleted) :
    ∃ prior_status total created_at, payload = .order_deleted id prior_status total created_at := by
  cases payload
  case order_deleted order_id prior_status total created_at =>
    obtain rfl := Option.some.inj hid
    exact ⟨prior_status, total, created_at, rfl⟩
  all_goals cases htype

/-- The contribution of a completion. -/
theorem incoming_completed {event : EventEnvelope Payload} {id : ℕ} {total : ℚ}
    {created_at : Timestamp} (h : event.payload = .order_completed id total created_at) :
    incoming event =
      .ok ⟨id, event.aggregate_revision, creation_date created_at, total, .completed⟩ := by
  unfold incoming
  rw [h]
  rfl

/-- The contribution of a deletion. -/
theorem incoming_deleted {event : EventEnvelope Payload} {id : ℕ} {prior_status : OrderStatus}
    {total : ℚ} {created_at : Timestamp}
    (h : event.payload = .order_deleted id prior_status total created_at) :
    incoming event =
      .ok ⟨id, event.aggregate_revision, creation_date created_at, 0, .deleted⟩ := by
  unfold incoming
  rw [h]
  rfl

/-- What holds of an order and the events about it. -/
structure Facts (id : ℕ) (order : Option Order) (events : List (EventEnvelope Payload)) : Prop where
  /-- The events tell about the sale. -/
  sale : Sale order events
  /-- They are about the order. -/
  about : ∀ event ∈ events, event.payload.order_id = some id
  /-- Their revisions increase. -/
  increasing : events.Pairwise fun event later =>
    event.aggregate_revision < later.aggregate_revision
  /-- None is later than the order. -/
  latest : ∀ o ∈ order, ∀ event ∈ events, event.aggregate_revision ≤ o.revision
  /-- The order has the key. -/
  key : ∀ o ∈ order, o.order_id = id

section Order

variable {rebuilt : Prop} {id : ℕ} {order : Option Order} {events : List (EventEnvelope Payload)}
  {covered : EventEnvelope Payload → Prop} {value : Option Contribution}

/-- No two deletions are announced. The revisions increase, and nothing comes after a deletion. -/
theorem Facts.deletion_unique (h : Facts id order events) {event event' : EventEnvelope Payload}
    (hevent : event ∈ events) (hevent' : event' ∈ events)
    (htype : event.payload.event_type = .order_deleted)
    (htype' : event'.payload.event_type = .order_deleted) : event = event' := by
  rcases h.sale.last event' hevent' htype' event hevent with heq | hlt
  · exact heq
  · rcases h.sale.last event hevent htype event' hevent' with heq | hlt'
    · exact heq.symm
    · omega

/-- A completion is earlier than the deletion. The revisions increase, and nothing comes after a
deletion. -/
theorem Facts.completion_lt (h : Facts id order events) {event deletion : EventEnvelope Payload}
    (hevent : event ∈ events) (hdeletion : deletion ∈ events)
    (htype : event.payload.event_type = .order_completed)
    (htype' : deletion.payload.event_type = .order_deleted) :
    event.aggregate_revision < deletion.aggregate_revision := by
  rcases h.sale.last deletion hdeletion htype' event hevent with heq | hlt
  · rw [heq, htype'] at htype
    cases htype
  · exact hlt

/-- A completion that comes in before the deletion becomes the contribution. -/
theorem Facts.tracks_completed (h : Facts id order events) {event : EventEnvelope Payload}
    (hevent : event ∈ events) {total : ℚ} {created_at : Timestamp}
    (hpayload : event.payload = .order_completed id total created_at)
    (hpending : ∀ deletion ∈ events, deletion.payload.event_type = .order_deleted →
      ¬ covered deletion) :
    Tracks rebuilt id order events (fun e => covered e ∨ e = event)
      (some ⟨id, event.aggregate_revision, creation_date created_at, total, .completed⟩) := by
  have htype : event.payload.event_type = .order_completed := by
    rw [hpayload]
    rfl
  refine .completed event hevent (Or.inr rfl) total created_at hpayload _ le_rfl (Or.inr rfl)
    (fun deletion hdeletion hdeleted => ⟨?_, h.completion_lt hevent hdeletion htype hdeleted⟩)
    fun o ho => h.latest o ho event hevent
  rintro (hcovered | rfl)
  · exact hpending deletion hdeletion hdeleted hcovered
  · rw [htype] at hdeleted
    cases hdeleted

/-- An event that comes in is covered afterwards. The event is a completion or a deletion of the
order, and the projection applies it exactly when what is stored is older. -/
theorem Tracks.apply (h : Tracks rebuilt id order events covered value) (hfacts : Facts id order events)
    {event : EventEnvelope Payload} (hevent : event ∈ events) (hanalytic : analytic event)
    {new : Contribution} (hnew : incoming event = .ok new) :
    Tracks rebuilt id order events (fun e => covered e ∨ e = event)
      (if should_apply value new then some new else value) := by
  -- A deletion that is applied replaces whatever was stored.
  have hdeleted : ∀ {prior_status total created_at},
      event.payload = .order_deleted id prior_status total created_at →
        Tracks rebuilt id order events (fun e => covered e ∨ e = event) (some new) := by
    intro prior_status total created_at hpayload
    obtain rfl := Except.ok.inj ((incoming_deleted hpayload).symm.trans hnew)
    exact .deleted event hevent (Or.inr rfl) prior_status total created_at hpayload
  -- A completion is applied only while no deletion has come in.
  have hcompleted : ∀ {total created_at},
      event.payload = .order_completed id total created_at →
      (∀ deletion ∈ events, deletion.payload.event_type = .order_deleted → ¬ covered deletion) →
        Tracks rebuilt id order events (fun e => covered e ∨ e = event) (some new) := by
    intro total created_at hpayload hpending
    obtain rfl := Except.ok.inj ((incoming_completed hpayload).symm.trans hnew)
    exact hfacts.tracks_completed hevent hpayload hpending
  -- Either way the incoming revision is that of the event.
  have hrevision : new.revision = event.aggregate_revision := by
    rcases hanalytic with htype | htype
    · obtain ⟨total, created_at, hpayload⟩ := completion_payload (hfacts.about event hevent) htype
      obtain rfl := Except.ok.inj ((incoming_completed hpayload).symm.trans hnew)
      rfl
    · obtain ⟨_, total, created_at, hpayload⟩ := deletion_payload (hfacts.about event hevent) htype
      obtain rfl := Except.ok.inj ((incoming_deleted hpayload).symm.trans hnew)
      rfl
  have hearlier : (∀ deletion ∈ events, deletion.payload.event_type = .order_deleted →
      ¬ covered deletion) →
        Tracks rebuilt id order events (fun e => covered e ∨ e = event) (some new) := by
    intro hpending
    rcases hanalytic with htype | htype
    · obtain ⟨total, created_at, hpayload⟩ := completion_payload (hfacts.about event hevent) htype
      exact hcompleted hpayload hpending
    · obtain ⟨_, total, created_at, hpayload⟩ := deletion_payload (hfacts.about event hevent) htype
      exact hdeleted hpayload
  -- What is stored before decides whether the event is applied.
  cases h with
  | unseen hpending =>
    rw [if_pos (by rfl)]
    exact hearlier fun deletion hdeletion htype => hpending deletion hdeletion (Or.inr htype)
  -- The row of a rebuild is older than every event that is still to come.
  | inactive hrebuilt hknown revision day hpending hlive =>
    have hlt := (hpending event hevent hanalytic).2
    have happly : should_apply (some ⟨id, revision, day, 0, .inactive⟩) new = true := by
      simp only [should_apply, Bool.and_eq_true, decide_eq_true_eq]
      exact ⟨nofun, by omega⟩
    rw [if_pos happly]
    exact hearlier fun deletion hdeletion htype => (hpending deletion hdeletion (Or.inr htype)).1
  | completed event' hmem hcovered total created_at hpayload revision hle hexact hpending hlive =>
    rcases hanalytic with htype | htype
    · -- The completion comes in once more.
      have heq : event = event' := hfacts.sale.single event hevent event' hmem htype (by
        rw [hpayload]
        rfl)
      have hskip : should_apply
          (some ⟨id, revision, creation_date created_at, total, .completed⟩) new = false := by
        simp only [should_apply, Bool.and_eq_false_iff, decide_eq_false_iff_not]
        right
        rw [hrevision, heq]
        omega
      rw [hskip, if_neg Bool.false_ne_true]
      refine .completed event' hmem (Or.inl hcovered) total created_at hpayload revision hle hexact
        (fun deletion hdeletion hkind => ?_) hlive
      obtain ⟨huncovered, hlt⟩ := hpending deletion hdeletion hkind
      refine ⟨?_, hlt⟩
      rintro (hcovered' | rfl)
      · exact huncovered hcovered'
      · rw [htype] at hkind
        cases hkind
    · -- A deletion has a later revision than the completion that is stored.
      have hlt := (hpending event hevent htype).2
      have happly : should_apply
          (some ⟨id, revision, creation_date created_at, total, .completed⟩) new = true := by
        simp only [should_apply, Bool.and_eq_true, decide_eq_true_eq]
        exact ⟨nofun, by omega⟩
      rw [if_pos happly]
      obtain ⟨_, _, _, hpayload'⟩ := deletion_payload (hfacts.about event hevent) htype
      exact hdeleted hpayload'
  -- After a deletion nothing is applied any more.
  | deleted event' hmem hcovered prior_status total created_at hpayload =>
    rw [if_neg (by simp [should_apply])]
    exact .deleted event' hmem (Or.inl hcovered) prior_status total created_at hpayload

/-- The events of a request are still to come, and later than what is known of the order. A request
moves the order by one step and appends the events of that step, none of which is covered yet. -/
theorem Tracks.request (h : Tracks rebuilt id order events covered value)
    (hfacts : Facts id order events) {order' : Option Order} {new : List (EventEnvelope Payload)}
    (hstep : OrderStep order order' new) (hfresh : order = none → order' ≠ none → events = [])
    (hfacts' : Facts id order' (events ++ new)) (hcovered : ∀ event, covered event → event ∉ new) :
    Tracks rebuilt id order' (events ++ new) covered value := by
  -- An analytic event makes a new revision, and no revision is smaller than the last.
  have hlater : ∀ {revision : ℤ}, (∀ o ∈ order, revision ≤ o.revision) →
      (∀ event ∈ new, analytic event → revision < event.aggregate_revision) ∧
        (order ≠ none → ∀ o ∈ order', revision ≤ o.revision) := by
    intro revision hlive
    -- The cases are the steps of an order.
    cases hstep with
    | absent => exact ⟨by simp, fun hne => absurd rfl hne⟩
    | created => exact ⟨by simp, fun hne => absurd rfl hne⟩
    -- An update that publishes a status event makes the next revision.
    | updated before after hupdated _ hevents =>
      have hbefore := hlive before rfl
      refine ⟨fun event hevent _ => ?_, fun _ o ho => ?_⟩
      · have hstatus := (hevents.type hevent).1
        have hrevision : after.revision = before.revision + 1 := by
          rcases hupdated.revision with ⟨hsame, -⟩ | ⟨-, hrevision⟩
          · exact absurd (congrArg OrderState.status hsame) hstatus
          · exact hrevision
        rw [hevents.revisions event hevent]
        omega
      · rw [← Option.some.inj (Option.mem_def.mp ho)]
        rcases hupdated.revision with ⟨-, heq⟩ | ⟨-, heq⟩ <;> omega
    -- A deletion publishes the revision after the last one.
    | deleted before event hpayload hrevision =>
      have hbefore := hlive before rfl
      refine ⟨fun event' hevent' _ => ?_, fun _ o ho => absurd ho (Option.not_mem_none o)⟩
      rw [List.mem_singleton.mp hevent', hrevision]
      push_cast
      omega
  -- The state of the contribution stays; only what is still to come grows.
  cases h with
  | unseen hpending =>
    refine .unseen fun event hevent hanalytic => ?_
    rcases List.mem_append.mp hevent with hevent | hevent
    · exact hpending event hevent hanalytic
    · exact fun hc => hcovered event hc hevent
  | inactive hrebuilt hknown revision day hpending hlive =>
    obtain ⟨hnew, hlive'⟩ := hlater hlive
    refine .inactive hrebuilt ?_ revision day (fun event hevent hanalytic => ?_) fun o ho => ?_
    · rcases hknown with hsome | hevents
      · by_cases hnone : order' = none
        · -- The order has just been deleted.
          right
          cases hstep with
          | absent => exact absurd rfl hsome
          | deleted => simp
          | created => exact absurd rfl hsome
          | updated => exact absurd hnone (Option.some_ne_none _)
        · exact Or.inl hnone
      · exact Or.inr fun hnil => hevents (List.append_eq_nil_iff.mp hnil).1
    · rcases List.mem_append.mp hevent with hevent | hevent
      · exact hpending event hevent hanalytic
      · exact ⟨fun hc => hcovered event hc hevent, hnew event hevent hanalytic⟩
    · -- An order that appears in this step has no events before it.
      by_cases hnone : order = none
      · have hnil := hfresh hnone (by rw [Option.mem_def.mp ho]; exact Option.some_ne_none o)
        rcases hknown with hsome | hevents
        · exact absurd hnone hsome
        · exact absurd hnil hevents
      · exact hlive' hnone o ho
  | completed event hmem hcovered' total created_at hpayload revision hle hexact hpending hlive =>
    obtain ⟨hnew, hlive'⟩ := hlater hlive
    refine .completed event (List.mem_append_left _ hmem) hcovered' total created_at hpayload revision
      hle hexact (fun deletion hdeletion htype => ?_) fun o ho => ?_
    · rcases List.mem_append.mp hdeletion with hdeletion | hdeletion
      · exact hpending deletion hdeletion htype
      · exact ⟨fun hc => hcovered deletion hc hdeletion, hnew deletion hdeletion (Or.inr htype)⟩
    · -- An order with a completed contribution has events, so it did not appear in this step.
      by_cases hnone : order = none
      · have hnil := hfresh hnone (by rw [Option.mem_def.mp ho]; exact Option.some_ne_none o)
        rw [hnil] at hmem
        exact absurd hmem List.not_mem_nil
      · exact hlive' hnone o ho
  | deleted event hmem hcovered' prior_status total created_at hpayload =>
    exact .deleted event (List.mem_append_left _ hmem) hcovered' prior_status total created_at hpayload

/-- What is tracked does not depend on which events of other orders are covered. Only the analytic
events of the order itself matter. -/
theorem Tracks.congr (h : Tracks rebuilt id order events covered value)
    {covered' : EventEnvelope Payload → Prop}
    (hsame : ∀ event ∈ events, analytic event → (covered' event ↔ covered event)) :
    Tracks rebuilt id order events covered' value := by
  have hcompletion : ∀ {event : EventEnvelope Payload} {total created_at},
      event.payload = .order_completed id total created_at → analytic event := by
    intro event total created_at hpayload
    left
    rw [hpayload]
    rfl
  have hdeletion : ∀ {event : EventEnvelope Payload} {prior_status total created_at},
      event.payload = .order_deleted id prior_status total created_at → analytic event := by
    intro event prior_status total created_at hpayload
    right
    rw [hpayload]
    rfl
  -- Each state of the contribution speaks of covered events in its own way.
  cases h with
  | unseen hpending =>
    exact .unseen fun event hevent hanalytic hc =>
      hpending event hevent hanalytic ((hsame event hevent hanalytic).mp hc)
  | inactive hrebuilt hknown revision day hpending hlive =>
    refine .inactive hrebuilt hknown revision day (fun event hevent hanalytic => ?_) hlive
    obtain ⟨huncovered, hlt⟩ := hpending event hevent hanalytic
    exact ⟨fun hc => huncovered ((hsame event hevent hanalytic).mp hc), hlt⟩
  | completed event hmem hcovered total created_at hpayload revision hle hexact hpending hlive =>
    refine .completed event hmem ((hsame event hmem (hcompletion hpayload)).mpr hcovered) total
      created_at hpayload revision hle hexact (fun deletion hmem' htype => ?_) hlive
    obtain ⟨huncovered, hlt⟩ := hpending deletion hmem' htype
    exact ⟨fun hc => huncovered ((hsame deletion hmem' (Or.inr htype)).mp hc), hlt⟩
  | deleted event hmem hcovered prior_status total created_at hpayload =>
    exact .deleted event hmem ((hsame event hmem (hdeletion hpayload)).mpr hcovered) prior_status
      total created_at hpayload

/-- After a rebuild an order has the contribution of its row, or of its deletion. A rebuild covers
every event there is, and the row of the order is the last word on it. -/
theorem Facts.tracks_baseline (h : Facts id order events) (hrebuilt : rebuilt)
    (hcovered : ∀ event ∈ events, covered event) :
    (∀ o ∈ order, Tracks rebuilt id order events covered (some (live_contribution o))) ∧
    (order = none → events = [] → Tracks rebuilt id order events covered none) := by
  refine ⟨fun o ho => ?_, fun _ hevents => .unseen (by simp [hevents])⟩
  have hlive : ∀ o' ∈ order, (o.revision : ℤ) ≤ o'.revision := by
    intro o' ho'
    rw [Option.some.inj ((Option.mem_def.mp ho).symm.trans (Option.mem_def.mp ho'))]
  have hkept := h.sale.kept o ho
  unfold live_contribution
  rw [h.key o ho]
  -- Only a completed order counts.
  by_cases hstatus : o.status = .COMPLETED
  · rw [if_pos hstatus, if_pos hstatus]
    obtain ⟨event, hevent, htype⟩ := h.sale.announced o ho hstatus
    obtain ⟨-, hpayload⟩ := h.sale.completed o ho event hevent htype
    rw [h.key o ho] at hpayload
    exact .completed event hevent (hcovered event hevent) o.total o.created_at hpayload _
      (h.latest o ho event hevent) (Or.inl hrebuilt)
      (fun deletion hdeletion hdeleted => absurd hdeleted (hkept deletion hdeletion)) hlive
  · rw [if_neg hstatus, if_neg hstatus]
    refine .inactive hrebuilt (Or.inl fun hnone => ?_) _ _ (fun event hevent hanalytic => ?_) hlive
    · rw [hnone] at ho
      exact absurd ho (Option.not_mem_none o)
    · rcases hanalytic with htype | htype
      · exact absurd (h.sale.completed o ho event hevent htype).1 hstatus
      · exact absurd htype (hkept event hevent)

/-- What a contribution counts as: its day and its total, if it is completed. -/
def sold (value : Option Contribution) : Option (Date × ℚ) :=
  value.bind fun value =>
    if value.state = .completed then some (value.creation_date, value.total) else none

/-- The same covered events lead to the same sale, and without rebuilds to the same contribution.
The two sides may differ in whether a rebuild wrote the contribution, which shows in its revision
only. -/
theorem Tracks.agree {rebuilt' : Prop} {value' : Option Contribution}
    (h : Tracks rebuilt id order events covered value)
    (h' : Tracks rebuilt' id order events covered value') (hfacts : Facts id order events) :
    sold value = sold value' ∧ (¬ rebuilt → ¬ rebuilt' → value = value') := by
  -- A completed or a deleted contribution has a covered event.
  have hcompletion : ∀ {event : EventEnvelope Payload} {total created_at},
      event.payload = .order_completed id total created_at →
        event.payload.event_type = .order_completed := by
    intro event total created_at hpayload
    rw [hpayload]
    rfl
  have hdeletion : ∀ {event : EventEnvelope Payload} {prior_status total created_at},
      event.payload = .order_deleted id prior_status total created_at →
        event.payload.event_type = .order_deleted := by
    intro event prior_status total created_at hpayload
    rw [hpayload]
    rfl
  -- Two states that disagree would need an event covered on one side and pending on the other.
  cases h with
  | unseen hpending =>
    cases h' with
    | unseen => exact ⟨rfl, fun _ _ => rfl⟩
    | inactive hrebuilt => exact ⟨rfl, fun _ hno => absurd hrebuilt hno⟩
    | completed event hmem hcovered _ _ hpayload =>
      exact absurd hcovered (hpending event hmem (Or.inl (hcompletion hpayload)))
    | deleted event hmem hcovered _ _ _ hpayload =>
      exact absurd hcovered (hpending event hmem (Or.inr (hdeletion hpayload)))
  | inactive hrebuilt hknown revision day hpending hlive =>
    cases h' with
    | unseen => exact ⟨rfl, fun hno => absurd hrebuilt hno⟩
    | inactive => exact ⟨rfl, fun hno => absurd hrebuilt hno⟩
    | completed event hmem hcovered _ _ hpayload =>
      exact absurd hcovered (hpending event hmem (Or.inl (hcompletion hpayload))).1
    | deleted event hmem hcovered _ _ _ hpayload =>
      exact absurd hcovered (hpending event hmem (Or.inr (hdeletion hpayload))).1
  | completed event hmem hcovered total created_at hpayload revision hle hexact hpending hlive =>
    cases h' with
    | unseen hpending' =>
      exact absurd hcovered (hpending' event hmem (Or.inl (hcompletion hpayload)))
    | inactive _ _ _ _ hpending' =>
      exact absurd hcovered (hpending' event hmem (Or.inl (hcompletion hpayload))).1
    -- Both hold a completion, and the order has only one.
    | completed event' hmem' hcovered' total' created_at' hpayload' revision' hle' hexact' =>
      obtain rfl := hfacts.sale.single event hmem event' hmem' (hcompletion hpayload)
        (hcompletion hpayload')
      obtain ⟨-, rfl, rfl⟩ := Payload.order_completed.inj (hpayload.symm.trans hpayload')
      refine ⟨rfl, fun hno hno' => ?_⟩
      rw [hexact.resolve_left hno, hexact'.resolve_left hno']
    | deleted event' hmem' hcovered' _ _ _ hpayload' =>
      exact absurd hcovered' (hpending event' hmem' (hdeletion hpayload')).1
  | deleted event hmem hcovered prior_status total created_at hpayload =>
    cases h' with
    | unseen hpending' =>
      exact absurd hcovered (hpending' event hmem (Or.inr (hdeletion hpayload)))
    | inactive _ _ _ _ hpending' =>
      exact absurd hcovered (hpending' event hmem (Or.inr (hdeletion hpayload))).1
    | completed _ _ _ _ _ _ _ _ _ hpending' =>
      exact absurd hcovered (hpending' event hmem (hdeletion hpayload)).1
    -- Both hold a deletion, and the order has only one.
    | deleted event' hmem' hcovered' _ _ _ hpayload' =>
      obtain rfl := hfacts.deletion_unique hmem hmem' (hdeletion hpayload) (hdeletion hpayload')
      obtain ⟨-, -, -, rfl⟩ := Payload.order_deleted.inj (hpayload.symm.trans hpayload')
      exact ⟨rfl, fun _ _ => rfl⟩

/-- Where all events are covered, a contribution counts as its order does. The row of the order
decides: a deleted order counts nothing, and a live one counts when it is completed. -/
theorem Tracks.sold_eq (h : Tracks rebuilt id order events covered value)
    (hfacts : Facts id order events) (hcovered : ∀ event ∈ events, covered event) :
    sold value = sold (order.map live_contribution) := by
  have hother : (∀ o ∈ order, o.status ≠ .COMPLETED) → sold (order.map live_contribution) = none := by
    intro hstatus
    cases order with
    | none => rfl
    | some o =>
      show (if (if o.status = .COMPLETED then ContributionState.completed else .inactive) =
        .completed then _ else _) = _
      rw [if_neg (hstatus o rfl), if_neg nofun]
  have hopen : (∀ event ∈ events, ¬ analytic event) → ∀ o ∈ order, o.status ≠ .COMPLETED := by
    intro hnone o ho hstatus
    obtain ⟨event, hevent, htype⟩ := hfacts.sale.announced o ho hstatus
    exact hnone event hevent (Or.inl htype)
  -- What is pending contradicts that every event is covered.
  cases h with
  | unseen hpending =>
    rw [hother (hopen fun event hevent hanalytic =>
      hpending event hevent hanalytic (hcovered event hevent))]
    rfl
  | inactive _ _ _ _ hpending =>
    rw [hother (hopen fun event hevent hanalytic =>
      (hpending event hevent hanalytic).1 (hcovered event hevent))]
    rfl
  | completed event hmem _ total created_at hpayload _ _ _ hpending =>
    have htype : event.payload.event_type = .order_completed := by
      rw [hpayload]
      rfl
    cases order with
    -- A completed order that is gone has a deletion event, which would be covered.
    | none =>
      rcases hfacts.sale.gone rfl with hnil | ⟨deletion, hdeletion, hdeleted⟩
      · rw [hnil] at hmem
        exact absurd hmem List.not_mem_nil
      · exact absurd (hcovered deletion hdeletion) (hpending deletion hdeletion hdeleted).1
    | some o =>
      obtain ⟨hstatus, hpayload'⟩ := hfacts.sale.completed o rfl event hmem htype
      obtain ⟨-, rfl, rfl⟩ := Payload.order_completed.inj (hpayload.symm.trans hpayload')
      show _ = (if (if o.status = .COMPLETED then ContributionState.completed else .inactive) =
        .completed then some (creation_date o.created_at, if o.status = .COMPLETED then o.total else 0)
          else none)
      rw [if_pos hstatus, if_pos hstatus]
      rfl
  | deleted event hmem _ prior_status total created_at hpayload =>
    refine (hother fun o ho => ?_).symm
    have hkept := hfacts.sale.kept o ho event hmem
    rw [hpayload] at hkept
    exact absurd rfl hkept

end Order

/-- What a contribution adds to a day, by what it counts as. -/
theorem share_of_sold (day : Date) (value : Option Contribution) :
    value.elim 0 (share day) = (sold value).elim 0 fun sale =>
      if sale.1 = day then ((1 : ℤ), sale.2) else 0 := by
  cases value with
  | none => rfl
  | some value =>
    show share day value = (if value.state = .completed then
      some (value.creation_date, value.total) else none).elim 0 _
    unfold share
    by_cases hstate : value.state = .completed
    · rw [if_pos hstate]
      simp only [hstate, true_and, Option.elim_some]
    · rw [if_neg hstate, if_neg fun h => hstate h.1]
      rfl

/-- The authoritative totals are the shares of the live orders. -/
theorem authoritative_eq (orders : List Order) (day : Date) :
    authoritative orders day = (orders.map fun order => share day (live_contribution order)).sum := by
  induction orders with
  | nil => rfl
  | cons order orders ih =>
    rw [List.map_cons, List.sum_cons, ← ih]
    unfold authoritative share live_contribution
    by_cases hstatus : order.status = .COMPLETED
    · by_cases hday : creation_date order.created_at = day
      · simp only [List.filter_cons, hstatus, hday, and_self, decide_true, if_true, List.length_cons,
          List.map_cons, List.sum_cons]
        push_cast
        rw [Prod.mk_add_mk, add_comm (1 : ℤ)]
      · simp [hstatus, hday]
    · simp [hstatus]

end RestaurantOS.Analytics
