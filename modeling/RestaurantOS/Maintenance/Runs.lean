import RestaurantOS.Maintenance.Initialization

/-!
# Initialization at any time

The steps of a restaurant with its deliveries, projections, sink and operations: requests are served
in any interleaving, the consumers apply the effects of emitted events, and operations run. An
operation takes the lock of its restaurant, so it comes between the transactions of the commands, and
on the rows of the commands it is a transaction of its own (`Serial.Act.alone`). -/

namespace RestaurantOS.Maintenance

open Fallible Inventory
open Events (ConsumerName DeliveryRecord EventEnvelope Payload SUBSCRIPTIONS)

/-! ## Steps -/

/-- A command on its own does not initialize a restaurant: its row is locked by the operation. -/
def starts_initialization (k : ℕ) : Act → Bool
  | .request ⟨restaurant_id, .maintenance_initialization _⟩ => restaurant_id = k
  | _ => false

/-- The steps. They may interleave with the requests in any order. -/
inductive Op
  /-- A request is served. -/
  | request (a : Act)
  /-- The effect of one of the emitted events is applied: `_effect`. -/
  | process (consumer : ConsumerName) (position : ℕ) (now : Timestamp)
  /-- The deliveries are worked on. -/
  | deliver (deliveries : List DeliveryRecord)
  /-- An operation is run. -/
  | maintain (request : MaintenanceRequest) (draw : MaintenanceDraw)

/-- A restaurant in all modules. The rows of the commands are those of the run of `requests`. -/
structure Site where
  /-- The steps of the requests so far, and of the operations on their rows. -/
  requests : List Act
  /-- The deliveries. -/
  deliveries : List DeliveryRecord
  /-- The analytics projection. -/
  analytics : Analytics.Projection
  /-- The alert projection. -/
  alerts : Alerts.AlertProjection
  /-- The notification sink. -/
  sink : Notifications.NotificationSink
  /-- The operations. -/
  operations : List MaintenanceOperation

section Site

variable (lib : Library) (start : ℕ → LegacyBranch) (k : ℕ)

/-- The rows of the commands. They are those after the commands that the site has seen. -/
def Site.db (site : Site) : Branch := (RestaurantOS.run lib start site.requests).rows k

/-- The rows of all modules. The operation reads and writes all of them in one transaction. -/
def Site.database (site : Site) : Database :=
  ⟨site.db lib start k, site.deliveries, site.analytics, site.alerts, site.sink, site.operations⟩

/-- The restaurant before its first request. Nothing is delivered, projected or recorded. -/
def Site.new : Site :=
  ⟨[], [], ⟨(start k).organization_id, (start k).restaurant_id, [], []⟩, ⟨[], []⟩, ⟨[], [], 0⟩, []⟩

/-- The effect of an event for a consumer. -/
def Site.effect (site : Site) (consumer : ConsumerName) (event : EventEnvelope Payload)
    (now : Timestamp) : Except Failure Site :=
  match consumer with
  | .analytics => do
    let (analytics, _) ← Analytics.apply_order_event event site.analytics
    pure { site with analytics := analytics }
  | .alerts => do
    let (alerts, _) ← Alerts.apply_alert_event (site.db lib start k) event site.alerts
    pure { site with alerts := alerts }
  | .notification_sink => do
    let (sink, _) ← Notifications.apply_notification_event (site.db lib start k) now event site.sink
    pure { site with sink := sink }

/-- The transaction of an operation on the rows of the commands. -/
def Site.transaction (site : Site) (request : MaintenanceRequest) (draw : MaintenanceDraw) :
    MaintenanceOutcome → List Act
  | .completed =>
    match request.kind with
    | .initialization => Serial.Act.alone ⟨k, .maintenance_initialization request.organization_id⟩
        draw.draw (RestaurantOS.run lib start site.requests).processes.length
    | .analytics_rebuild => []
  | .already_initialized => []

/-- One step. A transaction that fails leaves no trace, and an operation waits for the lock of the
restaurant. -/
def Site.step (site : Site) : Op → Site
  | .request a =>
    if starts_initialization k a then site else { site with requests := site.requests ++ [a] }
  | .process consumer position now =>
    match (site.db lib start k).events[position]? with
    | none => site
    | some event =>
      if consumer ∈ SUBSCRIPTIONS event.payload.event_type then
        match site.effect lib start k consumer event now with
        | .ok site => site
        | .error _ => site
      else site
  | .deliver deliveries => { site with deliveries := deliveries }
  | .maintain request draw =>
    if (RestaurantOS.run lib start site.requests).free (system lib) k then
      match EventMaintenanceService.run lib.toText request draw (site.database lib start k) with
      | .ok (database, result) =>
        { requests := site.requests ++ site.transaction lib start k request draw result.outcome
          deliveries := database.deliveries
          analytics := database.analytics
          alerts := database.alerts
          sink := database.sink
          operations := database.operations }
      | .error _ => site
    else site

/-- The restaurant after a run. It starts from the restaurant before its first request. -/
def Site.run (ops : List Op) : Site := Transition.run (Site.step lib start k) (Site.new start k) ops

/-- The projections are what they are meant to be, and the operation is the only initialization. -/
structure Site.Sound (site : Site) : Prop where
  /-- The alert projection mirrors the restaurant. -/
  alerts : Alerts.Mirrors lib start k site.requests site.alerts
  /-- The analytics projection represents its contributions. -/
  analytics : Analytics.Represents site.analytics
  /-- No command that initializes the restaurant is under way. -/
  quiet : ∀ p ∈ (RestaurantOS.run lib start site.requests).processes, p.request.restaurant_id = k →
    ∀ organization_id, p.request.command = .maintenance_initialization organization_id →
      ∃ response, p.phase = .committed response
  /-- The marker of the commands is the row of the operation. -/
  marked : (site.database lib start k).rows.initialized =
    (site.database lib start k).initialization.isSome

variable {lib start k} {site : Site}

/-- The restaurant is sound before its first request. -/
theorem sound_new : (Site.new start k).Sound lib start k :=
  ⟨⟨List.nodup_nil, List.nodup_nil, fun _ hrow => absurd hrow List.not_mem_nil,
      fun _ hrow => absurd hrow List.not_mem_nil⟩,
    ⟨⟨.nil, .nil, fun _ => rfl⟩, by simp [Site.new], by simp [Site.new]⟩,
    fun _ hp => absurd hp List.not_mem_nil, (start k).legacy.uninitialized⟩

/-- A command that is served keeps the restaurant sound. The commands that are served exclude the
initialization itself, which only the operation `maintain` runs. -/
theorem Site.Sound.request (h : site.Sound lib start k) {a : Act}
    (ha : starts_initialization k a = false) :
    Site.Sound lib start k { site with requests := site.requests ++ [a] } := by
  have hstep : RestaurantOS.run lib start (site.requests ++ [a]) =
      (RestaurantOS.run lib start site.requests).step (system lib) a :=
    Transition.run_concat _ _ site.requests a
  refine ⟨h.alerts.request a, h.analytics, fun q hq hkey organization_id hcommand => ?_, ?_⟩
  · -- A process of the new state has been started now, or was there before.
    rw [hstep] at hq
    rcases Serial.step_processes hq with ⟨request, rfl, rfl⟩ | ⟨p, hp, hrequest, hsame⟩
    · -- A request that starts is not an initialization of the restaurant.
      obtain ⟨restaurant_id, command⟩ := request
      obtain rfl : command = .maintenance_initialization organization_id := hcommand
      obtain rfl : restaurant_id = k := hkey
      simp [starts_initialization] at ha
    · rw [hrequest] at hkey hcommand
      obtain ⟨response, hphase⟩ := h.quiet p hp hkey organization_id hcommand
      exact ⟨response, hsame response hphase ▸ hphase⟩
  · refine Eq.trans ?_ h.marked
    have hsane := run_sane lib start site.requests k
    -- The marker of the branch changes only with a command that is committed.
    rcases run_step_exec lib start site.requests a k with hsame |
      ⟨i, request, draw, value, response, -, hkey, hprocess, -, hexec, hrows⟩
    · exact congrArg Branch.initialized hsame
    · -- The request that is committed is not an initialization, which would be committed already.
      have heffect := exec_effect hsane.keys hsane.range hexec
      refine (congrArg Branch.initialized hrows).trans (heffect.initialized_kept ?_)
      intro organization_id hcommand
      obtain ⟨response', hphase⟩ :=
        h.quiet _ (List.mem_of_getElem? hprocess) hkey organization_id hcommand
      cases hphase

/-- The initialization as a transaction on its own. Nobody is before it in the queue, so it commits
on the rows it reads. -/
theorem run_initialization {organization_id : UUID} {draw : Draw} {rows : Branch}
    (hfree : (RestaurantOS.run lib start site.requests).free (system lib) k = true)
    (hrows : maintenance_initialization organization_id draw (site.db lib start k) = .ok rows) :
    RestaurantOS.run lib start (site.requests ++ Serial.Act.alone
        ⟨k, .maintenance_initialization organization_id⟩ draw
        (RestaurantOS.run lib start site.requests).processes.length) =
      ⟨Function.update (RestaurantOS.run lib start site.requests).rows k rows,
        (RestaurantOS.run lib start site.requests).processes ++
          [⟨⟨k, .maintenance_initialization organization_id⟩, .committed .done⟩]⟩ := by
  have hexec : (system lib).exec ⟨k, .maintenance_initialization organization_id⟩ draw
      (site.db lib start k) = .ok (rows, .done) := ok_bind hrows _
  have happend : RestaurantOS.run lib start (site.requests ++ Serial.Act.alone
        ⟨k, .maintenance_initialization organization_id⟩ draw
        (RestaurantOS.run lib start site.requests).processes.length) =
      Transition.run ((Serial.World.step (system lib))) (RestaurantOS.run lib start site.requests)
        (Serial.Act.alone ⟨k, .maintenance_initialization organization_id⟩ draw
          (RestaurantOS.run lib start site.requests).processes.length) :=
    Transition.run_append ..
  rw [happend]
  exact Serial.run_alone hfree hexec

/-- An initialization leaves the restaurant sound. Its marker is there afterwards, and the process that
has set it is done. -/
theorem Site.Sound.after_initialization (h : site.Sound lib start k) {after : Site} {rows : Branch}
    {organization_id : UUID} {operation : MaintenanceOperation}
    (hworld : RestaurantOS.run lib start after.requests =
      ⟨Function.update (RestaurantOS.run lib start site.requests).rows k rows,
        (RestaurantOS.run lib start site.requests).processes ++
          [⟨⟨k, .maintenance_initialization organization_id⟩, .committed .done⟩]⟩)
    (hinitialized : rows.initialized = true)
    (halerts : Alerts.Mirrors lib start k after.requests after.alerts)
    (hanalytics : Analytics.Represents after.analytics)
    (hoperations : after.operations = site.operations ++ [operation])
    (hoperation : operation.kind = .initialization) : after.Sound lib start k := by
  refine ⟨halerts, hanalytics, ?_, ?_⟩
  · -- The new process is the one of the operation itself, which has its response.
    intro p hp hkey organization_id' hcommand
    rw [hworld] at hp
    rcases List.mem_append.mp hp with hold | hnew
    · exact h.quiet p hold hkey organization_id' hcommand
    · rw [List.mem_singleton.mp hnew]
      exact ⟨_, rfl⟩
  · have hrows : (after.database lib start k).rows.initialized = true := by
      show ((RestaurantOS.run lib start after.requests).rows k).initialized = true
      rw [hworld]
      exact (congrArg Branch.initialized (Function.update_self ..)).trans hinitialized
    have hmem : operation ∈ after.operations := by
      rw [hoperations]
      exact List.mem_append_right _ (List.mem_singleton.mpr rfl)
    have hfound : (after.database lib start k).initialization.isSome = true :=
      List.find?_isSome.mpr ⟨operation, hmem, decide_eq_true hoperation⟩
    rw [hfound, hrows]

/-- An initialization of a restaurant that is not initialized. The operation runs alone, since it
holds the lock of the restaurant, so the run of the command is the run of a single process. -/
theorem Site.Sound.initialization (h : site.Sound lib start k) {request : MaintenanceRequest}
    {draw : MaintenanceDraw} (hkind : request.kind = .initialization)
    (hmarker : (site.database lib start k).rows.initialized = false)
    (hfree : (RestaurantOS.run lib start site.requests).free (system lib) k = true)
    {analytics : Analytics.Projection}
    (hanalytics : Analytics.rebuild_analytics_projection request.organization_id
      request.restaurant_id (site.db lib start k).orders (site.db lib start k).events
        site.analytics = .ok analytics)
    {rows : Branch}
    (hrows : maintenance_initialization request.organization_id draw.draw (site.db lib start k) =
      .ok rows)
    {alerts : Alerts.AlertProjection}
    (halerts : Alerts.rebuild rows request.organization_id draw.now site.alerts = .ok alerts)
    {operation : MaintenanceOperation} (hoperation : operation.kind = .initialization) :
    let after : Site :=
      { requests := site.requests ++ site.transaction lib start k request draw .completed
        deliveries := site.deliveries
        analytics := analytics
        alerts := alerts
        sink := site.sink
        operations := site.operations ++ [operation] }
    after.db lib start k = rows ∧ after.Sound lib start k ∧
      Initialized draw.now (site.database lib start k) (after.database lib start k) := by
  intro after
  -- Its transaction is the initialization command, from start to commit.
  have htransaction : site.transaction lib start k request draw .completed = Serial.Act.alone
      ⟨k, .maintenance_initialization request.organization_id⟩ draw.draw
      (RestaurantOS.run lib start site.requests).processes.length := by
    unfold Site.transaction
    rw [hkind]
  have hworld := run_initialization hfree hrows
  rw [← htransaction] at hworld
  have hdb : after.db lib start k = rows := by
    unfold Site.db
    rw [hworld]
    exact Function.update_self ..
  have hrows' : (RestaurantOS.run lib start after.requests).rows k = rows := hdb
  have hkeys := (run_sane lib start site.requests k).keys
  -- The command changes the ingredients and the marker, and gives every ingredient its baseline.
  obtain ⟨hframe, hids, hbaselined⟩ := maintenance_initialization_frame hkeys hmarker hrows
  have hinitialized : rows.initialized = true := congrArg Branch.initialized hframe
  have horders : rows.orders = (site.db lib start k).orders := by
    have hsame := congrArg Branch.orders hframe
    exact hsame
  -- The rebuild of the alert projection reads the rows with the baselines.
  have hmirrors := h.alerts.served (site.transaction lib start k request draw .completed)
  have hrebuild : Alerts.rebuild ((RestaurantOS.run lib start after.requests).rows k)
      request.organization_id draw.now site.alerts = .ok alerts := by rw [hrows', halerts]
  obtain ⟨hmirrors', -⟩ := hmirrors.rebuild hrebuild
  have hsound : after.Sound lib start k :=
    h.after_initialization hworld hinitialized hmirrors' (h.analytics.rebuild hanalytics) rfl hoperation
  obtain ⟨-, values, hrebuilt⟩ := Analytics.rebuild_ok h.analytics.contributions hanalytics
  obtain ⟨hepisodes, states, hstates, hexact⟩ := hmirrors.rebuild_exact hrebuild
  obtain ⟨_, horganization, -⟩ := bind_eq_ok.mp hrebuild
  rw [ensure_eq_ok.mp horganization] at hstates
  -- What is left are the parts of `Initialized`, one by one.
  refine ⟨hdb, hsound, ⟨?_, operation, hoperation, rfl⟩, ?_, ?_, ?_, ?_, ?_, ?_, ?_, rfl, rfl⟩
  · have hnone := h.marked.symm.trans hmarker
    rwa [Option.isSome_eq_false_iff, Option.isNone_iff_eq_none] at hnone
  · -- With the marker set, an ingredient is low exactly if an episode is open.
    intro record hrecord
    have hsound := (run_episodic lib start after.requests k).sound record hrecord
    refine (run_followed lib start k after.requests record hrecord).low_iff hsound ?_
    exact Or.inr (Or.inl (hrows'.symm ▸ hinitialized))
  · show (after.db lib start k).ingredients.map IngredientRecord.id = _
    rw [hdb]
    exact hids
  · show ∀ record ∈ (site.db lib start k).ingredients,
      ∃ record' ∈ (after.db lib start k).ingredients, Baselined record record'
    rw [hdb]
    exact hbaselined
  · show after.db lib start k = { site.db lib start k with
      ingredients := (after.db lib start k).ingredients
      next_uuid := (after.db lib start k).next_uuid
      initialized := true }
    rw [hdb]
    exact hframe
  · -- The totals are those of the orders, which the initialization does not touch.
    intro day
    show analytics.daily day = Analytics.authoritative (after.db lib start k).orders day
    rw [hdb, horders]
    exact hrebuilt.authoritative h.analytics.contributions
      (run_order_book lib start site.requests k).unique
      (run_order_kept lib start site.requests k) day
  · -- The alert projection is the image of the rows with the baselines.
    exact ⟨hmirrors'.unique_episodes, hepisodes⟩
  · exact ⟨hmirrors'.unique_states, fun row => (hexact row).trans (mem_loaded_states hstates)⟩

/-- The effect of an event keeps the restaurant sound, and is no operation. -/
theorem Site.Sound.effect (h : site.Sound lib start k) {consumer : ConsumerName}
    {event : EventEnvelope Payload} (hevent : event ∈ (site.db lib start k).events) {now : Timestamp}
    {site' : Site} (heffect : site.effect lib start k consumer event now = .ok site') :
    site'.Sound lib start k ∧ site'.operations = site.operations := by
  cases consumer with
  | analytics =>
    obtain ⟨⟨analytics, outcome⟩, happly, hsite⟩ := bind_eq_ok.mp heffect
    obtain rfl := pure_eq_ok.mp hsite
    exact ⟨⟨h.alerts, h.analytics.apply happly, h.quiet, h.marked⟩, rfl⟩
  | alerts =>
    obtain ⟨⟨alerts, outcome⟩, happly, hsite⟩ := bind_eq_ok.mp heffect
    obtain rfl := pure_eq_ok.mp hsite
    obtain ⟨id, hid⟩ := Alerts.ingredient_of_apply happly
    exact ⟨⟨(h.alerts.apply_alert_event hid hevent happly).1, h.analytics, h.quiet, h.marked⟩, rfl⟩
  | notification_sink =>
    obtain ⟨⟨sink, outcome⟩, happly, hsite⟩ := bind_eq_ok.mp heffect
    obtain rfl := pure_eq_ok.mp hsite
    exact ⟨⟨h.alerts, h.analytics, h.quiet, h.marked⟩, rfl⟩

/-- What an operation that is committed does. The cases are those of `Ran`, lifted to the
restaurant. -/
inductive Maintained (site : Site) (request : MaintenanceRequest) (draw : MaintenanceDraw) :
    MaintenanceOutcome → Site → Prop
  /-- The restaurant has been initialized before. -/
  | already (hkind : request.kind = .initialization)
      (hmarker : (site.database lib start k).initialization.isSome = true) :
    Maintained site request draw .already_initialized site
  /-- The restaurant is initialized. -/
  | initialized {after : Site} (hkind : request.kind = .initialization)
      (hsound : after.Sound lib start k)
      (hinitialized : Initialized draw.now (site.database lib start k) (after.database lib start k)) :
    Maintained site request draw .completed after
  /-- The analytics projection is rebuilt. -/
  | rebuilt (hkind : request.kind = .analytics_rebuild) (analytics : Analytics.Projection)
      (hanalytics : Analytics.rebuild_analytics_projection request.organization_id
        request.restaurant_id (site.db lib start k).orders (site.db lib start k).events
          site.analytics = .ok analytics)
      (operation : MaintenanceOperation) (hoperation : operation.kind = .analytics_rebuild) :
    Maintained site request draw .completed { site with
      analytics := analytics
      operations := site.operations ++ [operation] }

/-- The commit of an operation stores what it returns, and does one of these. The cases are those of
`run_ran`, each lifted to the step of the site. -/
theorem Site.Sound.maintained (h : site.Sound lib start k) {request : MaintenanceRequest}
    {draw : MaintenanceDraw} {database : Database} {result : MaintenanceResult}
    (hfree : (RestaurantOS.run lib start site.requests).free (system lib) k = true)
    (hrun : EventMaintenanceService.run lib.toText request draw (site.database lib start k) =
      .ok (database, result)) :
    (Site.step lib start k site (.maintain request draw)).database lib start k = database ∧
      @Maintained lib start k site request draw result.outcome
        (Site.step lib start k site (.maintain request draw)) := by
  have hran := run_ran h.marked hrun
  unfold Site.step
  simp only [hfree, if_true, hrun]
  generalize result.outcome = outcome at hran
  cases hran with
  -- The transaction of an operation that finds the marker is empty.
  | already hkind hmarker =>
    unfold Site.transaction
    simp only [List.append_nil]
    exact ⟨rfl, .already hkind hmarker⟩
  | initialized hkind hmarker analytics hanalytics rows hrows alerts halerts operation hoperation =>
    obtain ⟨hdb, hsound, hinitialized⟩ :=
      h.initialization hkind hmarker hfree hanalytics hrows halerts hoperation
    refine ⟨?_, .initialized hkind hsound hinitialized⟩
    rw [← hdb]
    rfl
  -- A rebuild runs no command.
  | rebuilt hkind analytics hanalytics operation hoperation =>
    have hnil : site.transaction lib start k request draw .completed = [] := by
      unfold Site.transaction
      rw [hkind]
    rw [hnil, List.append_nil]
    exact ⟨rfl, .rebuilt hkind analytics hanalytics operation hoperation⟩

/-- An operation changes nothing, or it is committed. It commits only where nobody holds the
restaurant. -/
theorem Site.step_maintain (request : MaintenanceRequest) (draw : MaintenanceDraw) :
    Site.step lib start k site (.maintain request draw) = site ∨
      (RestaurantOS.run lib start site.requests).free (system lib) k = true ∧
        ∃ database result, EventMaintenanceService.run lib.toText request draw
          (site.database lib start k) = .ok (database, result) := by
  unfold Site.step
  simp only
  split_ifs with hfree
  · split
    · rename_i database result hrun
      exact Or.inr ⟨hfree, database, result, hrun⟩
    · exact Or.inl rfl
  · exact Or.inl rfl

/-- Every step keeps the restaurant sound, and no operation is forgotten. Requests and events are
sound by the modules of the projections; the operations are the cases of `Maintained`. -/
theorem Site.Sound.step (h : site.Sound lib start k) (op : Op) :
    (Site.step lib start k site op).Sound lib start k ∧
      site.operations <+: (Site.step lib start k site op).operations := by
  cases op with
  | request a =>
    unfold Site.step
    simp only
    split_ifs with ha
    · -- A request that would start an initialization is not served.
      exact ⟨h, List.prefix_rfl⟩
    · exact ⟨h.request (by simpa using ha), List.prefix_rfl⟩
  | process consumer position now =>
    unfold Site.step
    simp only
    split
    · exact ⟨h, List.prefix_rfl⟩
    · -- The event is handled by its consumer, or the consumer refuses it.
      rename_i event hevent
      split_ifs
      · split
        · rename_i site' heffect
          obtain ⟨hsound, hoperations⟩ := h.effect (List.mem_of_getElem? hevent) heffect
          exact ⟨hsound, hoperations ▸ List.prefix_rfl⟩
        · exact ⟨h, List.prefix_rfl⟩
      · exact ⟨h, List.prefix_rfl⟩
  | deliver deliveries =>
    -- The bookkeeping of the deliveries reads nothing else.
    exact ⟨⟨h.alerts, h.analytics, h.quiet, h.marked⟩, List.prefix_rfl⟩
  | maintain request draw =>
    -- The lock is held by somebody else, the operation fails, or it is committed.
    rcases @Site.step_maintain lib start k site request draw with hsame |
      ⟨hfree, database, result, hrun⟩
    · rw [hsame]
      exact ⟨h, List.prefix_rfl⟩
    · obtain ⟨-, hmaintained⟩ := h.maintained hfree hrun
      generalize Site.step lib start k site (.maintain request draw) = after at hmaintained
      generalize result.outcome = outcome at hmaintained
      cases hmaintained with
      | already hkind => exact ⟨h, List.prefix_rfl⟩
      | initialized hkind hsound hinitialized =>
        obtain ⟨-, operation, -, hoperations⟩ := hinitialized.operations
        exact ⟨hsound, [operation], hoperations.symm⟩
      | rebuilt hkind analytics hanalytics operation hoperation =>
        refine ⟨⟨h.alerts, h.analytics.rebuild hanalytics, h.quiet, h.marked.trans ?_⟩,
          List.prefix_append _ _⟩
        -- The marker is looked up among the operations, and this one is not an initialization.
        show Option.isSome (List.find? _ site.operations) =
          Option.isSome (List.find? _ (site.operations ++ [operation]))
        rw [List.find?_append]
        simp [hoperation]

variable (lib start k)

/-- The restaurant is sound in every reachable state. -/
theorem run_sound (ops : List Op) : (Site.run lib start k ops).Sound lib start k :=
  @Transition.run_invariant _ _ (Site.step lib start k) (fun site => site.Sound lib start k)
    (fun _ op h => (h.step op).1) _ sound_new ops

/-- No operation is forgotten. -/
theorem run_operations (ops later : List Op) :
    (Site.run lib start k ops).operations <+: (Site.run lib start k (ops ++ later)).operations := by
  unfold Site.run
  rw [Transition.run_append]
  exact @Transition.run_related _ _ (Site.step lib start k) (fun site => site.Sound lib start k)
    (fun site site' => site.operations <+: site'.operations) (fun _ => List.prefix_rfl)
    (fun _ _ _ h h' => h.trans h') (fun _ op h => (h.step op).1) (fun _ op h => (h.step op).2) _
    (run_sound lib start k ops) later

variable {lib start k}

/-- An initialized restaurant is not initialized again. The row is found, and the transaction
returns what it says. -/
theorem Site.Sound.again (h : site.Sound lib start k)
    (hsome : (site.database lib start k).initialization.isSome = true) {request : MaintenanceRequest}
    (hkind : request.kind = .initialization) (draw : MaintenanceDraw) :
    Site.step lib start k site (.maintain request draw) = site := by
  rcases @Site.step_maintain lib start k site request draw with hsame |
    ⟨hfree, database, result, hrun⟩
  · exact hsame
  · obtain ⟨-, hmaintained⟩ := h.maintained hfree hrun
    generalize Site.step lib start k site (.maintain request draw) = after at hmaintained ⊢
    generalize result.outcome = outcome at hmaintained
    cases hmaintained with
    | already hkind => rfl
    | initialized _ hsound hinitialized =>
      rw [hinitialized.operations.1] at hsome
      cases hsome
    | rebuilt hrebuild =>
      rw [hkind] at hrebuild
      cases hrebuild

/-- The ingredients of an initialized restaurant are tracked, and low exactly if one episode is
open. -/
theorem Site.Sound.low_iff (h : site.Sound lib start k)
    (hsome : (site.database lib start k).initialization.isSome = true) {record : IngredientRecord}
    (hrecord : record ∈ (site.db lib start k).ingredients) : record.is_low = true ↔
      record.episodes.countP (fun episode => episode.resolved_at.isNone) = 1 := by
  have hsound := (run_episodic lib start site.requests k).sound record hrecord
  refine (run_followed lib start k site.requests record hrecord).low_iff hsound ?_
  exact Or.inr (Or.inl (h.marked.trans hsome))

variable (lib start k)

/-- Initialization at any time. After every run from a legacy database, the operation `initialize` of
a restaurant either fails, or waits for the lock, or finds the restaurant initialized, and nothing
changes; or it is committed and leaves an initialized restaurant (`Initialized`). It reports a
restaurant as initialized before only where that is so. Once a restaurant has been initialized, and
whatever comes after that, the operation changes nothing, and every ingredient is low exactly if one
episode is open. -/
theorem initialization_establishes (ops later : List Op) (request : MaintenanceRequest)
    (draw : MaintenanceDraw) :
    let request := { request with kind := .initialization }
    let site := Site.run lib start k ops
    let before := site.database lib start k
    let step := fun site : Site => Site.step lib start k site (.maintain request draw)
    (step site = site ∨ Initialized draw.now before ((step site).database lib start k)) ∧
    (∀ failure, EventMaintenanceService.run lib.toText request draw before = .error failure →
      step site = site) ∧
    ((RestaurantOS.run lib start site.requests).free (system lib) k = true →
      ∀ database result,
        EventMaintenanceService.run lib.toText request draw before = .ok (database, result) →
          (step site).database lib start k = database ∧
          (result.outcome = .already_initialized ∧ before.initialization.isSome = true ∧
              database = before ∨
            result.outcome = .completed ∧ before.initialization = none ∧
              Initialized draw.now before database)) ∧
    (before.initialization.isSome = true →
      let site' := Site.run lib start k (ops ++ later)
      step site' = site' ∧ ∀ record ∈ (site'.db lib start k).ingredients,
        (record.is_low = true ↔
          record.episodes.countP (fun episode => episode.resolved_at.isNone) = 1)) := by
  intro request site before step
  -- The invariant at the state before the operation carries all of the parts.
  have hsound : site.Sound lib start k := run_sound lib start k ops
  -- A committed operation either found the marker or has initialized.
  have hcommitted : ∀ {database : Database} {result : MaintenanceResult},
      (RestaurantOS.run lib start site.requests).free (system lib) k = true →
      EventMaintenanceService.run lib.toText request draw before = .ok (database, result) →
        (step site).database lib start k = database ∧
          (result.outcome = .already_initialized ∧ before.initialization.isSome = true ∧
              step site = site ∨
            result.outcome = .completed ∧
              Initialized draw.now before ((step site).database lib start k)) := by
    intro database result hfree hrun
    obtain ⟨hdatabase, hmaintained⟩ := hsound.maintained hfree hrun
    refine ⟨hdatabase, ?_⟩
    change @Maintained lib start k site request draw result.outcome (step site) at hmaintained
    generalize step site = after at hmaintained
    generalize result.outcome = outcome at hmaintained
    cases hmaintained with
    | already hkind hmarker => exact Or.inl ⟨rfl, hmarker, rfl⟩
    | initialized hkind hafter hinitialized => exact Or.inr ⟨rfl, hinitialized⟩
    | rebuilt hkind => cases hkind
  refine ⟨?_, fun failure hrun => ?_, fun hfree database result hrun => ?_, fun hsome => ?_⟩
  · -- A step without a commit changes nothing.
    rcases @Site.step_maintain lib start k site request draw with hsame |
      ⟨hfree, database, result, hrun⟩
    · exact Or.inl hsame
    · rcases (hcommitted hfree hrun).2 with ⟨-, -, hsame⟩ | ⟨-, hinitialized⟩
      · exact Or.inl hsame
      · exact Or.inr hinitialized
  · -- A failure is not a commit.
    rcases @Site.step_maintain lib start k site request draw with hsame |
      ⟨hfree, database, result, hok⟩
    · exact hsame
    · rw [show EventMaintenanceService.run lib.toText request draw (site.database lib start k) =
        .error failure from hrun] at hok
      cases hok
  · -- The report tells which of the two it was.
    obtain ⟨rfl, houtcome⟩ := hcommitted hfree hrun
    refine ⟨rfl, ?_⟩
    rcases houtcome with ⟨houtcome, hmarker, hsame⟩ | ⟨houtcome, hinitialized⟩
    · exact Or.inl ⟨houtcome, hmarker,
        congrArg (fun site : Site => site.database lib start k) hsame⟩
    · exact Or.inr ⟨houtcome, hinitialized.operations.1, hinitialized⟩
  · -- The marker is never forgotten, so later operations find it.
    have hsound' := run_sound lib start k (ops ++ later)
    have hsome' : ((Site.run lib start k (ops ++ later)).database lib start k).initialization.isSome =
        true := by
      obtain ⟨operation, hmem, hoperation⟩ := List.find?_isSome.mp hsome
      exact List.find?_isSome.mpr
        ⟨operation, (run_operations lib start k ops later).subset hmem, hoperation⟩
    exact ⟨hsound'.again hsome' rfl draw, fun record hrecord => hsound'.low_iff hsome' hrecord⟩

end Site

end RestaurantOS.Maintenance
