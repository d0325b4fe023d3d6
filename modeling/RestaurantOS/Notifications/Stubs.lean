import RestaurantOS.Alerts.Convergence
import RestaurantOS.Inventory.Faults
import RestaurantOS.Notifications.Service

/-!
# Notification stubs are unique, final and current

The sink of a restaurant is followed along requests to the restaurant and emitted events that are
processed in any order, late or more than once. The stubs are exactly the episodes of the processed
low events (`Site.Sound`), and a step only ever appends one. Its outcome compares the event with the
rows at that time (`Current`), and while an ingredient stays low its open episode stays the same
(`open_episode_kept`), so a low period has one notification. -/

namespace RestaurantOS.Notifications

open Fallible Alerts Events Inventory

/-! ## The outcome -/

/-- An episode is the open one of an active and low ingredient, and somebody is to be notified. -/
def Current (db : Branch) (ingredient_id : ℕ) (episode_id : UUID) : Prop :=
  ∃ record ∈ db.ingredients, record.id = ingredient_id ∧ record.item.is_active = true ∧
    record.is_low = true ∧ ∃ episode ∈ record.open_episode, episode.episode_id = episode_id ∧
      episode.notification_suppressed = false

/-- A low ingredient is active. -/
theorem is_active_of_low {record : IngredientRecord} (h : record.is_low = true) :
    record.item.is_active = true := by
  unfold IngredientRecord.is_low at h
  split at h
  · exact (Bool.and_eq_true_iff.mp h).1
  · cases h

/-- What a loaded state says of an ingredient. The row is found, and the facts are the live ones. -/
theorem load_inventory_state_ok {db : Branch} {organization_id : UUID} {restaurant_id : ℤ}
    {ingredient_id : ℕ} {current : InventoryTransition}
    (h : load_inventory_state db organization_id restaurant_id ingredient_id = .ok current) :
    ∃ record, Keyed.lookup IngredientRecord.id ingredient_id db.ingredients = some record ∧
      current.state.is_low = record.is_low ∧
      current.episode_id = record.open_episode.map (·.episode_id) := by
  obtain ⟨-, -, h⟩ := bind_eq_ok.mp h
  obtain ⟨⟨record, balance⟩, hrecord, h⟩ := bind_eq_ok.mp h
  obtain ⟨hlookup, hbalance⟩ := Branch.ingredient_ok hrecord
  obtain ⟨hstate, -, -, hid⟩ := transition_snapshot_ok h
  refine ⟨record, hlookup, ?_, hid.trans (Option.or_none)⟩
  rw [hstate, is_low_eq hbalance]

/-- The outcome is "created" exactly if the episode is current. `_stub_outcome` compares the live
state and the producer's facts, which both are those of the open episode when it is the one of the
event. -/
theorem stub_outcome_created {db : Branch} (hepisodic : db.Episodic) (hkeys : db.Keys)
    {organization_id : UUID} {restaurant_id : ℤ} {ingredient_id : ℕ} {episode_id : UUID}
    {current : InventoryTransition} {facts : Option InventoryEpisodeFacts}
    (hcurrent : load_inventory_state db organization_id restaurant_id ingredient_id = .ok current)
    (hfacts : load_inventory_episode_facts db episode_id = .ok facts) :
    (stub_outcome episode_id facts current).1 = .created ↔ Current db ingredient_id episode_id := by
  obtain ⟨record, hlookup, hlow, hopen⟩ := load_inventory_state_ok hcurrent
  obtain ⟨hrecord, hid⟩ := hkeys.unique.lookup_eq_some.mp hlookup
  have hcopy := current_facts_ok hfacts
  -- The facts of the open episode of the ingredient are those that are loaded.
  have hsuppressed : ∀ episode ∈ record.open_episode, episode.episode_id = episode_id →
      (facts.any fun facts => facts.episode.notification_suppressed) =
        episode.notification_suppressed := by
    intro episode hepisode hepisode_id
    have hmem : episode ∈ record.episodes := List.mem_of_find?_eq_some hepisode
    rw [← hepisode_id, lookup_episode hepisodic hkeys (mem_episodes.mpr ⟨record, hrecord, hmem⟩)]
      at hcopy
    obtain ⟨copy, rfl, rfl⟩ := Option.map_eq_some_iff.mp hcopy
    rfl
  unfold stub_outcome Current
  -- Low and open are read off the record of the ingredient.
  rw [hlow, hopen]
  constructor
  · -- Neither of the two branches that skip was taken.
    intro hcreated
    split_ifs at hcreated with hany hskip
    rw [Bool.not_eq_true] at hany
    simp only [Bool.or_eq_true, Bool.not_eq_true', decide_eq_true_eq, not_or, Bool.not_eq_false,
      not_not] at hskip
    obtain ⟨episode, hepisode, hepisode_id⟩ := Option.map_eq_some_iff.mp hskip.2
    refine ⟨record, hrecord, hid, is_active_of_low hskip.1, hskip.1, episode, hepisode,
      hepisode_id, ?_⟩
    rw [← hsuppressed episode hepisode hepisode_id, hany]
  · -- A current episode passes both tests.
    rintro ⟨record', hrecord', hid', -, hlow', episode, hepisode, hepisode_id, hnotified⟩
    obtain rfl := hkeys.unique.eq_of_key hrecord' hrecord (hid'.trans hid.symm)
    have hany := hsuppressed episode hepisode hepisode_id
    rw [hnotified] at hany
    rw [if_neg (by rw [hany]; exact Bool.false_ne_true), if_neg]
    rw [hlow', Option.mem_def.mp hepisode, Option.map_some, hepisode_id]
    simp

/-- What processing an event does to the sink. -/
inductive Processes (db : Branch) (sink : NotificationSink) (event : EventEnvelope Payload)
    (sink' : NotificationSink) : Prop
  /-- The first low event of an episode adds its stub. -/
  | stubbed (payload : InventoryLowPayload) (hpayload : event.payload = .inventory_low payload)
      (hnew : sink.stub payload.episode_id = none) (stub : NotificationStub)
      (hstubs : sink'.stubs = sink.stubs ++ [stub]) (hepisode : stub.episode_id = payload.episode_id)
      (hingredient : stub.ingredient_id = payload.ingredient_id)
      (hevent : stub.event_id = event.event_id)
      (hcreated : stub.outcome = .created ↔ Current db payload.ingredient_id payload.episode_id)
  /-- A further one adds nothing. -/
  | repeated (payload : InventoryLowPayload) (hpayload : event.payload = .inventory_low payload)
      (stub : NotificationStub) (hstub : sink.stub payload.episode_id = some stub)
      (hsame : sink' = sink)
  /-- Another event leaves the stubs. -/
  | diagnosed (hpayload : ∀ payload, event.payload ≠ .inventory_low payload)
      (hstubs : sink'.stubs = sink.stubs)

/-- The constraints of the tables of the sink. -/
structure NotificationSink.Sound (sink : NotificationSink) : Prop where
  /-- An episode has one stub. -/
  stubs : Keyed.Unique NotificationStub.episode_id sink.stubs
  /-- The key of its ingredient is positive. -/
  positive : ∀ stub ∈ sink.stubs, 0 < stub.ingredient_id
  /-- An event has one diagnostic row. -/
  diagnostics : Keyed.Unique EventDiagnostic.event_id sink.diagnostics

/-- A flush changes nothing, and fails exactly if a constraint is violated. -/
theorem flush_eq_ok {sink sink' : NotificationSink} :
    sink.flush = .ok sink' ↔ sink' = sink ∧ sink.Sound := by
  constructor
  · intro h
    obtain ⟨_, hensure, hpure⟩ := bind_eq_ok.mp h
    obtain ⟨hstubs, hpositive, hdiagnostics⟩ := ensure_eq_ok.mp hensure
    exact ⟨(pure_eq_ok.mp hpure).symm, hstubs, hpositive, hdiagnostics⟩
  · rintro ⟨rfl, hsound⟩
    exact ensure_bind ⟨hsound.stubs, hsound.positive, hsound.diagnostics⟩ _

/-- What the handler does. There are three branches: a stub that is there already, a new stub, and a
diagnostic row. -/
theorem apply_notification_event_cases {db : Branch} (hepisodic : db.Episodic) (hkeys : db.Keys)
    {now : Timestamp} {event : EventEnvelope Payload} {sink sink' : NotificationSink}
    {outcome : Alerts.Outcome} (hsound : sink.Sound)
    (h : apply_notification_event db now event sink = .ok (sink', outcome)) :
    Processes db sink event sink' ∧ sink'.Sound := by
  unfold apply_notification_event at h
  split at h
  · rename_i payload hpayload
    obtain ⟨current, hcurrent, h⟩ := bind_eq_ok.mp h
    -- The episode has a stub.
    split_ifs at h with hexisting
    · obtain ⟨rfl, -⟩ := Prod.mk.inj (pure_eq_ok.mp h)
      obtain ⟨stub, hstub⟩ := Option.isSome_iff_exists.mp hexisting
      exact ⟨.repeated payload hpayload stub hstub rfl, hsound⟩
    · -- It has none, and the flush has checked the constraints of the new row.
      obtain ⟨facts, hfacts, h⟩ := bind_eq_ok.mp h
      obtain ⟨flushed, hflush, h⟩ := bind_eq_ok.mp h
      obtain ⟨rfl, -⟩ := Prod.mk.inj (pure_eq_ok.mp h)
      obtain ⟨rfl, hsound'⟩ := flush_eq_ok.mp hflush
      rw [Option.not_isSome_iff_eq_none] at hexisting
      exact ⟨.stubbed payload hpayload hexisting _ rfl rfl rfl rfl
        (stub_outcome_created hepisodic hkeys hcurrent hfacts), hsound'⟩
  · rename_i payload hother
    obtain ⟨facts, -, h⟩ := bind_eq_ok.mp h
    obtain ⟨flushed, hflush, h⟩ := bind_eq_ok.mp h
    obtain ⟨rfl, -⟩ := Prod.mk.inj (pure_eq_ok.mp h)
    obtain ⟨rfl, hsound'⟩ := flush_eq_ok.mp hflush
    exact ⟨.diagnosed hother rfl, hsound'⟩

/-- A low event of the restaurant about one of its ingredients can be processed. The state and the
episode are loaded, a stub that exists is left alone, and a new one meets the constraints. -/
theorem apply_notification_event_ok {db : Branch} (hepisodic : db.Episodic) {now : Timestamp}
    {event : EventEnvelope Payload} {sink : NotificationSink} (hsound : sink.Sound)
    {payload : InventoryLowPayload} (hpayload : event.payload = .inventory_low payload)
    (hscope : event.restaurant_id = db.restaurant_id ∧ event.organization_id = db.organization_id)
    (hpositive : 0 < payload.ingredient_id) {record : IngredientRecord}
    (hlookup : Keyed.lookup IngredientRecord.id payload.ingredient_id db.ingredients = some record)
    (hbalance : record.balance.isSome) :
    ∃ result, apply_notification_event db now event sink = .ok result := by
  -- The ingredient of the event has a balance, which the handler loads.
  obtain ⟨balance, hbalance⟩ := Option.isSome_iff_exists.mp hbalance
  have hrecord : db.ingredient payload.ingredient_id = .ok (record, balance) := by
    unfold Branch.ingredient
    rw [hlookup]
    dsimp only
    rw [hbalance]
    rfl
  have hstate : ∃ current, load_state db db.organization_id record balance = .ok current :=
    exists_of_fails (load_state_fails hepisodic.restaurant
      (hepisodic.sound record (Keyed.lookup_mem hlookup)))
  obtain ⟨current, hcurrent⟩ := hstate
  have hload : load_inventory_state db event.organization_id event.restaurant_id
      payload.ingredient_id = .ok current := by
    unfold load_inventory_state
    rw [ensure_bind hscope, ok_bind hrecord, hscope.2]
    exact hcurrent
  -- The facts of an episode fail to load only if they contradict each other, which no history makes
  -- them do.
  obtain ⟨facts, hfacts⟩ : ∃ facts, load_inventory_episode_facts db payload.episode_id = .ok facts :=
    exists_of_fails (current_facts_fails fun episode hepisode => by
      obtain ⟨owner, howner, hmem⟩ := mem_episodes.mp (Keyed.lookup_mem hepisode)
      exact (hepisodic.sound owner howner).checked episode hmem)
  unfold apply_notification_event
  rw [hpayload]
  dsimp only
  rw [ok_bind hload]
  split_ifs with hexisting
  · exact ⟨_, rfl⟩
  · rw [ok_bind hfacts]
    rw [Option.not_isSome_iff_eq_none] at hexisting
    -- The constraints of the table hold of the new row.
    refine ⟨_, bind_eq_ok.mpr ⟨_, flush_eq_ok.mpr ⟨rfl, ?_⟩, rfl⟩⟩
    refine ⟨?_, fun stub hstub => ?_, hsound.diagnostics⟩
    · exact hsound.stubs.append (Keyed.lookup_eq_none.mp hexisting)
    · -- The identifiers of the old rows are positive by the invariant, and that of the new one by
      -- the payload.
      rcases List.mem_append.mp hstub with hold | hnew
      · exact hsound.positive stub hold
      · rw [List.mem_singleton.mp hnew]
        exact hpositive

/-! ## A restaurant with its sink -/

/-- The steps of a restaurant and its sink. -/
inductive Op
  /-- A request is served. -/
  | request (a : Act)
  /-- The effect of one of the emitted events is applied: `_effect`. -/
  | process (position : ℕ) (now : Timestamp)

/-- A restaurant with its sink, and the events that have been processed. -/
structure Site where
  /-- The steps of the requests so far. -/
  requests : List Act
  /-- The sink. -/
  sink : NotificationSink
  /-- The events that have been processed. -/
  processed : List (EventEnvelope Payload)

section Site

variable (lib : Library) (start : ℕ → LegacyBranch) (k : ℕ)

/-- The rows of the restaurant. They are those after the commands that the site has seen, whatever
has been processed. -/
def Site.db (site : Site) : Branch := (RestaurantOS.run lib start site.requests).rows k

/-- The restaurant before its first request. There are neither stubs nor diagnostic rows. -/
def Site.new : Site := ⟨[], ⟨[], [], 0⟩, []⟩

/-- One step. A transaction that fails leaves no trace. The effect of an event may be applied again,
and is applied only where the sink has subscribed to its type. -/
def Site.step (site : Site) : Op → Site
  | .request a => { site with requests := site.requests ++ [a] }
  | .process position now =>
    match (site.db lib start k).events[position]? with
    | none => site
    | some event =>
      if .notification_sink ∈ SUBSCRIPTIONS event.payload.event_type then
        match apply_notification_event (site.db lib start k) now event site.sink with
        | .ok (sink, _) =>
          { site with
            sink := sink
            processed := site.processed ++ [event] }
        | .error _ => site
      else site

/-- The site after a run. It starts from the restaurant before its first request. -/
def Site.run (ops : List Op) : Site := Transition.run (Site.step lib start k) Site.new ops

/-- An event tells that an episode has opened. -/
def Opens (event : EventEnvelope Payload) (episode_id : UUID) : Prop :=
  ∃ payload, event.payload = .inventory_low payload ∧ payload.episode_id = episode_id

/-- The stubs are those of the processed low events. -/
structure Site.Sound (site : Site) : Prop where
  /-- The constraints of the tables hold. -/
  sink : site.sink.Sound
  /-- A stub comes from an event. -/
  told : ∀ stub ∈ site.sink.stubs, ∃ event ∈ site.processed, Opens event stub.episode_id
  /-- An event leaves a stub. -/
  stubbed : ∀ event ∈ site.processed, ∀ episode_id, Opens event episode_id →
    ∃ stub ∈ site.sink.stubs, stub.episode_id = episode_id

variable {site : Site}

/-- What a step does: nothing to the sink, or it processes an emitted event. The handler fails or is
not subscribed in the first case. -/
theorem Site.step_cases (h : site.sink.Sound) (op : Op) :
    ((Site.step lib start k site op).sink = site.sink ∧
      (Site.step lib start k site op).processed = site.processed) ∨
    ∃ event ∈ (site.db lib start k).events, ∃ sink,
      Processes (site.db lib start k) site.sink event sink ∧ sink.Sound ∧
        Site.step lib start k site op =
          { site with
            sink := sink
            processed := site.processed ++ [event] } := by
  -- The cases are the operations of the site.
  cases op with
  | request a => exact Or.inl ⟨rfl, rfl⟩
  | process position now =>
    unfold Site.step
    simp only
    split
    · -- The position is past the end of the outbox.
      exact Or.inl ⟨rfl, rfl⟩
    · rename_i event hevent
      split_ifs
      · split
        · rename_i sink outcome happly
          obtain ⟨hprocesses, hsound⟩ := apply_notification_event_cases
            (run_episodic lib start site.requests k) (run_sane lib start site.requests k).keys h
            happly
          exact Or.inr ⟨event, List.mem_of_getElem? hevent, sink, hprocesses, hsound, rfl⟩
        · exact Or.inl ⟨rfl, rfl⟩
      · exact Or.inl ⟨rfl, rfl⟩

variable {lib start k}

/-- Processing an event leaves the rows of the restaurant. The sink has tables of its own. -/
theorem Site.requests_process (position : ℕ) (now : Timestamp) :
    (Site.step lib start k site (.process position now)).requests = site.requests := by
  unfold Site.step
  simp only
  split
  · rfl
  · split_ifs
    · split <;> rfl
    · rfl

/-- Processing an event only appends to the stubs. -/
theorem Processes.extends {db : Branch} {sink sink' : NotificationSink}
    {event : EventEnvelope Payload} (h : Processes db sink event sink') :
    sink.stubs <+: sink'.stubs := by
  cases h with
  | stubbed payload hpayload hnew stub hstubs => exact ⟨[stub], hstubs.symm⟩
  | repeated payload hpayload stub hstub hsame => rw [hsame]
  | diagnosed hpayload hstubs => rw [hstubs]

/-- Every step keeps the site sound. A stub is kept, its episode has been told by a processed event,
and every processed opening has its stub. -/
theorem Site.Sound.step (h : site.Sound) (op : Op) : (Site.step lib start k site op).Sound := by
  -- A step that does not touch the sink keeps all of it.
  rcases Site.step_cases lib start k h.sink op with
    ⟨hsink, hprocessed⟩ | ⟨event, hevent, sink, hprocesses, hsound, hstep⟩
  · refine ⟨hsink ▸ h.sink, ?_, ?_⟩
    · rw [hsink, hprocessed]
      exact h.told
    · rw [hsink, hprocessed]
      exact h.stubbed
  rw [hstep]
  -- What held before the step is kept, since stubs are only added.
  have hold : ∀ stub ∈ site.sink.stubs, ∃ event' ∈ site.processed ++ [event],
      Opens event' stub.episode_id := by
    intro stub hstub
    obtain ⟨event', hevent', hopens⟩ := h.told stub hstub
    exact ⟨event', List.mem_append_left _ hevent', hopens⟩
  have hkept : ∀ event' ∈ site.processed, ∀ episode_id, Opens event' episode_id →
      ∃ stub ∈ sink.stubs, stub.episode_id = episode_id := by
    intro event' hevent' episode_id hopens
    obtain ⟨stub, hstub, hid⟩ := h.stubbed event' hevent' episode_id hopens
    exact ⟨stub, hprocesses.extends.subset hstub, hid⟩
  -- What is left is the event itself.
  have hnew : (∀ stub ∈ sink.stubs, stub ∈ site.sink.stubs ∨ Opens event stub.episode_id) ∧
      ∀ episode_id, Opens event episode_id → ∃ stub ∈ sink.stubs, stub.episode_id = episode_id := by
    -- The cases are the branches of the handler.
    cases hprocesses with
    | stubbed payload hpayload hnone stub hstubs hepisode =>
      refine ⟨fun stub' hstub' => ?_, ?_⟩
      · rw [hstubs] at hstub'
        rcases List.mem_append.mp hstub' with hold | hnew
        · exact Or.inl hold
        · rw [List.mem_singleton.mp hnew]
          exact Or.inr ⟨payload, hpayload, hepisode.symm⟩
      · rintro episode_id ⟨payload', hpayload', rfl⟩
        obtain rfl := Payload.inventory_low.inj (hpayload.symm.trans hpayload')
        exact ⟨stub, hstubs ▸ List.mem_append_right _ List.mem_cons_self, hepisode⟩
    -- The stub was there already.
    | repeated payload hpayload stub hstub hsame =>
      refine ⟨fun stub' hstub' => Or.inl (hsame ▸ hstub'), ?_⟩
      rintro episode_id ⟨payload', hpayload', rfl⟩
      obtain rfl := Payload.inventory_low.inj (hpayload.symm.trans hpayload')
      exact ⟨stub, hsame ▸ Keyed.lookup_mem hstub, Keyed.lookup_key hstub⟩
    -- A diagnostic row is no stub.
    | diagnosed hother hstubs =>
      refine ⟨fun stub' hstub' => Or.inl (hstubs ▸ hstub'), ?_⟩
      rintro episode_id ⟨payload, hpayload, -⟩
      exact absurd hpayload (hother payload)
  refine ⟨hsound, fun stub hstub => ?_, fun event' hevent' => ?_⟩
  · rcases hnew.1 stub hstub with hstub | hopens
    · exact hold stub hstub
    · exact ⟨event, List.mem_append_right _ List.mem_cons_self, hopens⟩
  · rcases List.mem_append.mp hevent' with hevent' | hlast
    · exact hkept event' hevent'
    · rw [List.mem_singleton.mp hlast]
      exact hnew.2

variable (lib start k)

/-- The site is sound in every reachable state. -/
theorem run_sound (ops : List Op) : (Site.run lib start k ops).Sound :=
  Transition.run_invariant (fun _ op h => h.step op)
    ⟨⟨List.nodup_nil, by simp [Site.new], List.nodup_nil⟩, by simp [Site.new], by simp [Site.new]⟩ ops

/-- Stubs are only appended. No operation removes or rewrites one. -/
theorem run_stubs (ops later : List Op) :
    (Site.run lib start k ops).sink.stubs <+: (Site.run lib start k (ops ++ later)).sink.stubs := by
  induction later using List.reverseRecOn with
  | nil => rw [List.append_nil]
  | append_singleton later op ih =>
    refine ih.trans ?_
    rw [← List.append_assoc]
    unfold Site.run
    rw [Transition.run_concat]
    rcases Site.step_cases lib start k
      (run_sound lib start k (ops ++ later)).sink op with
      ⟨hsink, -⟩ | ⟨event, -, sink, hprocesses, -, hstep⟩
    · unfold Site.run at hsink
      rw [hsink]
    · unfold Site.run at hstep hprocesses
      rw [hstep]
      exact hprocesses.extends

/-! ## The first low event of an episode -/

/-- After `pre`, a run processes the first low event of an episode. -/
structure FirstProcessed (ops : List Op) (episode_id : UUID) (pre : List Op)
    (event : EventEnvelope Payload) : Prop where
  /-- The event is processed. -/
  step : ∃ op, pre ++ [op] <+: ops ∧ (Site.run lib start k (pre ++ [op])).processed =
    (Site.run lib start k pre).processed ++ [event]
  /-- It tells of the episode. -/
  opens : Opens event episode_id
  /-- No event before it does. -/
  first : ∀ other ∈ (Site.run lib start k pre).processed, ¬ Opens other episode_id

variable {lib start k}

/-- A longer run processes the same first event. -/
theorem FirstProcessed.mono {ops ops' : List Op} {episode_id : UUID} {pre : List Op}
    {event : EventEnvelope Payload} (h : FirstProcessed lib start k ops episode_id pre event)
    (hbefore : ops <+: ops') : FirstProcessed lib start k ops' episode_id pre event := by
  obtain ⟨op, hpre, hprocessed⟩ := h.step
  exact ⟨⟨op, hpre.trans hbefore, hprocessed⟩, h.opens, h.first⟩

variable (lib start k)

/-- Every stub comes from the first low event of its episode. The induction is on the run from its
end: a new stub comes from the last event, and no earlier event can have opened its episode, or it
would have a stub already. -/
theorem exists_first (ops : List Op) : ∀ stub ∈ (Site.run lib start k ops).sink.stubs,
    ∃ pre event, FirstProcessed lib start k ops stub.episode_id pre event := by
  induction ops using List.reverseRecOn with
  | nil => exact fun stub hstub => absurd hstub List.not_mem_nil
  | append_singleton ops op ih =>
    intro stub hstub
    -- A stub that was there before the last operation has its first event before it.
    have hkept : stub ∈ (Site.run lib start k ops).sink.stubs → ∃ pre event,
        FirstProcessed lib start k (ops ++ [op]) stub.episode_id pre event := by
      intro hold
      obtain ⟨pre, event, hfirst⟩ := ih stub hold
      exact ⟨pre, event, hfirst.mono (List.prefix_append ops [op])⟩
    have hrun : Site.run lib start k (ops ++ [op]) =
        Site.step lib start k (Site.run lib start k ops) op := Transition.run_concat _ _ ops op
    have hsound := run_sound lib start k ops
    rcases Site.step_cases lib start k hsound.sink op with
      ⟨hsink, -⟩ | ⟨event, -, sink, hprocesses, -, hstep⟩
    · rw [hrun, hsink] at hstub
      exact hkept hstub
    have hprocessed : (Site.run lib start k (ops ++ [op])).processed =
        (Site.run lib start k ops).processed ++ [event] := by
      rw [hrun, hstep]
    rw [hrun, hstep] at hstub
    cases hprocesses with
    -- Only here a stub is new.
    | stubbed payload hpayload hnew stub' hstubs hepisode =>
      rw [hstubs] at hstub
      rcases List.mem_append.mp hstub with hold | hlast
      · exact hkept hold
      · obtain rfl := List.mem_singleton.mp hlast
        refine ⟨ops, event, ⟨op, List.prefix_rfl, hprocessed⟩, ⟨payload, hpayload, hepisode.symm⟩,
          fun other hother hopens => ?_⟩
        obtain ⟨old, hold, hid⟩ := hsound.stubbed other hother _ hopens
        exact Keyed.lookup_eq_none.mp hnew old hold (hid.trans hepisode)
    | repeated payload hpayload stub' hstub' hsame => exact hkept (hsame ▸ hstub)
    | diagnosed hother hstubs => exact hkept (hstubs ▸ hstub)

variable {lib start k}

/-- The outcome of a stub was decided when the first low event of its episode was processed. The row
is written by that event and never changed, so it still carries the decision. -/
theorem FirstProcessed.outcome {ops : List Op} {pre : List Op} {event : EventEnvelope Payload}
    {stub : NotificationStub} (hstub : stub ∈ (Site.run lib start k ops).sink.stubs)
    (h : FirstProcessed lib start k ops stub.episode_id pre event) :
    stub.event_id = event.event_id ∧ (stub.outcome = .created ↔
      Current ((Site.run lib start k pre).db lib start k) stub.ingredient_id stub.episode_id) := by
  obtain ⟨op, ⟨later, rfl⟩, hprocessed⟩ := h.step
  -- The stub that is there after the whole run is the one the step has written, as stubs are unique
  -- by episode and kept.
  have hunique := (run_sound lib start k (pre ++ [op] ++ later)).sink.stubs
  have hextends := run_stubs lib start k (pre ++ [op]) later
  have hsound := run_sound lib start k pre
  rw [show Site.run lib start k (pre ++ [op]) =
    Site.step lib start k (Site.run lib start k pre) op from Transition.run_concat _ _ pre op]
    at hextends hprocessed
  rcases Site.step_cases lib start k hsound.sink op with
    ⟨-, hsame⟩ | ⟨event', -, sink, hprocesses, -, hstep⟩
  · -- A step that processes nothing is not the step of the event.
    rw [hsame] at hprocessed
    simpa using congrArg List.length hprocessed
  rw [hstep] at hextends hprocessed
  obtain rfl : event' = event := by simpa using hprocessed
  obtain ⟨payload', hpayload', hid⟩ := h.opens
  cases hprocesses with
  | stubbed payload hpayload hnew first hstubs hepisode hingredient hevent hcreated =>
    obtain rfl := Payload.inventory_low.inj (hpayload.symm.trans hpayload')
    have hmem : first ∈ sink.stubs := hstubs ▸ List.mem_append_right _ List.mem_cons_self
    obtain rfl := hunique.eq_of_key (hextends.subset hmem) hstub (hepisode.trans hid)
    rw [← hingredient, ← hepisode] at hcreated
    exact ⟨hevent, hcreated⟩
  -- A stub that was there already would have been opened by an earlier event.
  | repeated payload hpayload first hfirst hsame =>
    obtain rfl := Payload.inventory_low.inj (hpayload.symm.trans hpayload')
    obtain ⟨other, hother, hopens⟩ := hsound.told first (Keyed.lookup_mem hfirst)
    rw [Keyed.lookup_key hfirst, hid] at hopens
    exact absurd hopens (h.first other hother)
  | diagnosed hother hstubs => exact absurd hpayload' (hother payload')

/-! ## Low periods -/

/-- While an ingredient stays low, a request leaves its open episode open. The record is untouched,
or it evolves by one change; every kind of change that closes the episode also ends the low period.
-/
theorem open_episode_step {acts : List Act} {a : Act} {record record' : IngredientRecord}
    (hrecord : record ∈ ((RestaurantOS.run lib start acts).rows k).ingredients)
    (hrecord' : record' ∈ ((RestaurantOS.run lib start (acts ++ [a])).rows k).ingredients)
    (hid : record'.id = record.id) (hlow : record.is_low = true) (hlow' : record'.is_low = true)
    {episode : InventoryLowStockEpisode} (hopen : record.open_episode = some episode) :
    record'.open_episode = some episode := by
  have hsane := RestaurantOS.run_sane lib start acts k
  have hepisodic := run_episodic lib start acts k
  have hkept : record' ∈ ((RestaurantOS.run lib start acts).rows k).ingredients →
      record'.open_episode = some episode := by
    intro hold
    rwa [hsane.keys.unique.eq_of_key hold hrecord hid]
  -- Another restaurant, or a failed request.
  rcases run_step lib start acts a k with hsame | ⟨command, heffect⟩
  · exact hkept (hsame ▸ hrecord')
  -- Another record.
  rcases heffect.record_cases hsane.keys hrecord' with hold |
    ⟨purpose, events, episode_id, hfresh, hchange, -⟩
  · exact hkept hold
  rw [hid, hsane.keys.unique.lookup_eq_some.mpr ⟨hrecord, rfl⟩] at hchange
  have hdrawn : ∀ e ∈ record.episodes, e.episode_id ≠ episode_id :=
    fun e hmem => ne_of_lt ((hepisodic.drawn record hrecord e hmem).trans_le hfresh)
  obtain ⟨-, ⟨-, hevolves⟩ | ⟨-, hmarked⟩⟩ :=
    hchange.evolves (hepisodic.sound record hrecord) hepisodic.restaurant hdrawn
  · -- The cases are the ways a record evolves.
    unfold IngredientRecord.open_episode at hopen ⊢
    cases hevolves with
    | kept hrevision hsame hepisodes => rw [hepisodes, hopen]
    | advanced hrevision hsame hepisodes => rw [hepisodes, hopen]
    | opened hrevision hwas => rw [hwas] at hlow; cases hlow
    | resolved hrevision hwas hnot => rw [hnot] at hlow'; cases hlow'
    | untracked hrevision hwas hnot => rw [hnot] at hlow'; cases hlow'
  · -- Marking the baseline only concerns records without an open episode.
    exact absurd (hmarked.unresolved.symm.trans hopen) (by simp)

variable (lib start k) in
/-- An ingredient is low from one point of a run to another. -/
def LowThrough (id : ℕ) (pre post : List Op) : Prop :=
  ∀ mid, pre <+: mid → mid <+: post →
    ∃ record ∈ ((Site.run lib start k mid).db lib start k).ingredients,
      record.id = id ∧ record.is_low = true

/-- As long as an ingredient is low, its open episode is the same. The induction is on the
operations after the first point, with the ingredient low at each of them. -/
theorem open_episode_kept {id : ℕ} {pre post : List Op} (hpre : pre <+: post)
    (hlow : LowThrough lib start k id pre post) {record : IngredientRecord}
    (hrecord : record ∈ ((Site.run lib start k pre).db lib start k).ingredients)
    (hid : record.id = id) {episode : InventoryLowStockEpisode}
    (hopen : record.open_episode = some episode) :
    ∃ record' ∈ ((Site.run lib start k post).db lib start k).ingredients, record'.id = id ∧
      record'.open_episode = some episode := by
  obtain ⟨later, rfl⟩ := hpre
  induction later using List.reverseRecOn with
  | nil => exact ⟨record, by rwa [List.append_nil], hid, hopen⟩
  | append_singleton later op ih =>
    rw [← List.append_assoc] at hlow ⊢
    have hbefore := List.prefix_append (pre ++ later) [op]
    -- It was the open episode just before the last operation.
    obtain ⟨record₁, hrecord₁, hid₁, hopen₁⟩ :=
      ih fun mid hmid hle => hlow mid hmid (hle.trans hbefore)
    obtain ⟨record₂, hrecord₂, hid₂, hlow₂⟩ := hlow _ (List.prefix_append pre later) hbefore
    obtain ⟨record', hrecord', hid', hlow'⟩ := hlow _
      ((List.prefix_append pre later).trans hbefore) List.prefix_rfl
    obtain rfl := (RestaurantOS.run_sane lib start _ k).keys.unique.eq_of_key hrecord₁ hrecord₂
      (hid₁.trans hid₂.symm)
    refine ⟨record', hrecord', hid', ?_⟩
    have hrun : Site.run lib start k (pre ++ later ++ [op]) =
        Site.step lib start k (Site.run lib start k (pre ++ later)) op :=
      Transition.run_concat _ _ _ op
    -- Only a request can change the record.
    cases op with
    | request a =>
      rw [hrun] at hrecord'
      exact open_episode_step hrecord₁ hrecord' (hid'.trans hid₁.symm) hlow₂ hlow' hopen₁
    -- Processing an event reads the records and writes the sink.
    | process position now =>
      unfold Site.db at hrecord' hrecord₁
      rw [hrun, Site.requests_process] at hrecord'
      rwa [(RestaurantOS.run_sane lib start _ k).keys.unique.eq_of_key hrecord' hrecord₁
        (hid'.trans hid₁.symm)]

/-- In one low period of an ingredient, one stub at most is created. -/
theorem created_unique {ops : List Op} {stub stub' : NotificationStub}
    (hstub : stub ∈ (Site.run lib start k ops).sink.stubs)
    (hstub' : stub' ∈ (Site.run lib start k ops).sink.stubs) (hcreated : stub.outcome = .created)
    (hcreated' : stub'.outcome = .created) (hsame : stub.ingredient_id = stub'.ingredient_id)
    {pre pre' : List Op} {event event' : EventEnvelope Payload}
    (hfirst : FirstProcessed lib start k ops stub.episode_id pre event)
    (hfirst' : FirstProcessed lib start k ops stub'.episode_id pre' event') (hpre : pre <+: pre')
    (hlow : LowThrough lib start k stub.ingredient_id pre pre') : stub = stub' := by
  obtain ⟨record, hrecord, hid, -, -, episode, hopen, hepisode, -⟩ :=
    (hfirst.outcome hstub).2.mp hcreated
  obtain ⟨record', hrecord', hid', -, -, episode', hopen', hepisode', -⟩ :=
    (hfirst'.outcome hstub').2.mp hcreated'
  obtain ⟨kept, hkept, hkept_id, hkept_open⟩ :=
    open_episode_kept hpre hlow hrecord hid (Option.mem_def.mp hopen)
  have hkeys := (RestaurantOS.run_sane lib start (Site.run lib start k pre').requests k).keys
  obtain rfl : kept = record' := hkeys.unique.eq_of_key hkept hrecord'
    (hkept_id.trans (hsame.trans hid'.symm))
  obtain rfl : episode = episode' := Option.some.inj (hkept_open.symm.trans hopen')
  exact (run_sound lib start k ops).sink.stubs.eq_of_key hstub hstub'
    (hepisode.symm.trans hepisode')

/-- A low event that has been emitted is processed when its turn comes. Its payload is valid, its
ingredient has a balance, and the notification sink subscribes to it, so the handler returns. -/
theorem Site.Sound.processes (h : site.Sound) {position : ℕ} {event : EventEnvelope Payload}
    (hevent : (site.db lib start k).events[position]? = some event) {episode_id : UUID}
    (hopens : Opens event episode_id) (now : Timestamp) :
    event ∈ (Site.step lib start k site (.process position now)).processed := by
  obtain ⟨payload, hpayload, -⟩ := hopens
  have hmem := List.mem_of_getElem? hevent
  obtain ⟨horganization, hrestaurant, hall⟩ := run_enveloped lib start site.requests k
  have henveloped := hall event hmem
  -- The event is about an ingredient that still has its record.
  have habout : event ∈ (site.db lib start k).ingredient_events payload.ingredient_id := by
    refine List.mem_filter.mpr ⟨hmem, ?_⟩
    rw [hpayload]
    exact decide_eq_true rfl
  obtain ⟨record, hlookup, -, hbalance, -⟩ :=
    (run_recounted lib start site.requests k payload.ingredient_id).backed event habout
  -- The identifier is positive by the validation of the payload.
  have hpositive : 0 < payload.ingredient_id := by
    have hvalid := henveloped.valid.2.2.2.2.2
    rw [hpayload] at hvalid
    exact hvalid.1
  -- The event carries the identifiers of the restaurant.
  have hscope : event.restaurant_id = (site.db lib start k).restaurant_id ∧
      event.organization_id = (site.db lib start k).organization_id := by
    unfold Site.db
    rw [horganization, hrestaurant]
    exact ⟨henveloped.restaurant_id, henveloped.organization_id⟩
  have happly : ∃ result,
      apply_notification_event (site.db lib start k) now event site.sink = .ok result :=
    apply_notification_event_ok (run_episodic lib start site.requests k) h.sink hpayload hscope
      hpositive hlookup hbalance
  obtain ⟨⟨sink, outcome⟩, happly⟩ := happly
  unfold Site.step
  simp only
  -- The turn of the event is the given position.
  rw [hevent]
  simp only
  have hsubscribed : ConsumerName.notification_sink ∈ SUBSCRIPTIONS event.payload.event_type := by
    rw [hpayload]
    exact List.mem_cons_of_mem _ List.mem_cons_self
  rw [if_pos hsubscribed, happly]
  exact List.mem_append_right _ List.mem_cons_self

variable (lib start k)

/-- Notification stubs are unique, final and current. In every state that requests and processed
events lead to, an episode has one stub at most, and it has one once a low event about it has been
processed, which an emitted one can be at any time; in every later state the same stubs are there, and
further ones come after them. A stub comes from the first low event of its episode that is processed,
and it is "created" exactly if at that time the episode is the open one of its ingredient, is not
suppressed, and the ingredient is active and low; the episode is then not resolved. Two "created"
stubs of an ingredient are separated by a time at which it is not low. -/
theorem notification_stubs_final_and_current (ops later : List Op) :
    let site := Site.run lib start k ops
    let stubs := site.sink.stubs
    Keyed.Unique NotificationStub.episode_id stubs ∧
    (∀ event ∈ site.processed, ∀ episode_id, Opens event episode_id →
      ∃ stub ∈ stubs, stub.episode_id = episode_id) ∧
    (∀ position, ∀ event ∈ (site.db lib start k).events[position]?, ∀ episode_id,
      Opens event episode_id → ∀ now,
        event ∈ (Site.step lib start k site (.process position now)).processed) ∧
    stubs <+: (Site.run lib start k (ops ++ later)).sink.stubs ∧
    (∀ stub ∈ stubs,
      (∃ pre event, FirstProcessed lib start k ops stub.episode_id pre event) ∧
      ∀ pre event, FirstProcessed lib start k ops stub.episode_id pre event →
        let db := (Site.run lib start k pre).db lib start k
        stub.event_id = event.event_id ∧
        (stub.outcome = .created ↔ Current db stub.ingredient_id stub.episode_id) ∧
        (stub.outcome = .created → ∀ episode ∈ episodes db,
          episode.episode_id = stub.episode_id → episode.resolved_at = none)) ∧
    ∀ stub ∈ stubs, ∀ stub' ∈ stubs, stub.outcome = .created → stub'.outcome = .created →
      stub.ingredient_id = stub'.ingredient_id → ∀ pre event pre' event',
        FirstProcessed lib start k ops stub.episode_id pre event →
        FirstProcessed lib start k ops stub'.episode_id pre' event' → pre <+: pre' →
        LowThrough lib start k stub.ingredient_id pre pre' → stub = stub' := by
  intro site stubs
  -- The induction over the operations is `run_sound`.
  have hsound := run_sound lib start k ops
  refine ⟨hsound.sink.stubs, hsound.stubbed, ?_, run_stubs lib start k ops later, ?_, ?_⟩
  · exact fun position event hevent episode_id hopens now => hsound.processes hevent hopens now
  · -- A stub has a first event, and that one decided its outcome.
    refine fun stub hstub => ⟨exists_first lib start k ops stub hstub, fun pre event hfirst => ?_⟩
    obtain ⟨hevent, hcreated⟩ := hfirst.outcome hstub
    refine ⟨hevent, hcreated, fun hyes episode hmem hid => ?_⟩
    -- The episode is the open one of the ingredient.
    obtain ⟨record, hrecord, -, -, -, opened, hopened, hopened_id, -⟩ := hcreated.mp hyes
    have hunresolved := List.find?_some hopened
    have hmem' : opened ∈ record.episodes := List.mem_of_find?_eq_some hopened
    have hsame : episode = opened := episode_unique
      (run_episodic lib start (Site.run lib start k pre).requests k)
      (RestaurantOS.run_sane lib start (Site.run lib start k pre).requests k).keys hmem
      (mem_episodes.mpr ⟨record, hrecord, hmem'⟩) (hid.trans hopened_id.symm)
    rw [hsame]
    exact Option.isNone_iff_eq_none.mp hunresolved
  · -- The open episode stays the same while the ingredient is low, and an episode has one stub.
    intro stub hstub stub' hstub' hcreated hcreated' hsame pre event pre' event' hfirst hfirst'
    exact created_unique hstub hstub' hcreated hcreated' hsame hfirst hfirst'

end Site

end RestaurantOS.Notifications
