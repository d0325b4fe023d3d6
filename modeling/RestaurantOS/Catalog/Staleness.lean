import RestaurantOS.Catalog.CacheContents

/-!
# Cached lists are at most ten seconds old

Along every interleaving of commits, invalidations and reads, a list on its way through the cache is
what its statement returned at some time of the run since its reading began (`history`). A lookup
accepts it for ten seconds from that beginning, so what it accepts was current less than ten seconds
ago, whatever has become of the invalidations (`cached_reads_bounded_staleness`). The availability of
cached items is read later, at the time of the response. -/

namespace RestaurantOS.Catalog.Reads

open MenuCache Recipes Tenancy

variable (services : Services) (start : ℕ → ListedBranch) (now : ℚ)

/-- A list is what its statement returned in a state of the run, no earlier than its reading began. -/
def history (acts : List Act) : Facts where
  menus restaurant_id started menus := ∃ pre, pre <+: acts ∧
    started ≤ (run services start now pre).now ∧
    menus = ((run services start now pre).rows restaurant_id).listed_menus
  items menu_id restaurant_id started items := ∃ pre, pre <+: acts ∧
    started ≤ (run services start now pre).now ∧
    items = ((run services start now pre).rows restaurant_id).listed_items menu_id

/-- What was so in a run is so in every longer one. -/
theorem history_implies {acts acts' : List Act} (h : acts <+: acts') :
    (history services start now acts).Implies (history services start now acts') := by
  constructor
  · rintro restaurant_id started menus ⟨pre, hpre, hstarted, hmenus⟩
    exact ⟨pre, hpre.trans h, hstarted, hmenus⟩
  · rintro menu_id restaurant_id started items ⟨pre, hpre, hstarted, hitems⟩
    exact ⟨pre, hpre.trans h, hstarted, hitems⟩

/-- The rows at the end of a run are those of a state of the run. -/
theorem history_current (acts : List Act) :
    Current (history services start now acts) (run services start now acts).now
      (run services start now acts).rows := by
  intro restaurant_id started hstarted
  refine ⟨⟨acts, List.prefix_rfl, hstarted, rfl⟩, fun menu_id => ?_⟩
  exact ⟨acts, List.prefix_rfl, hstarted, rfl⟩

/-- Every list on its way through the cache was current in a state of the run. -/
theorem run_sound (acts : List Act) :
    Sound services (fun k => (start k).toBranch) (history services start now acts)
      (run services start now acts) := by
  induction acts using List.reverseRecOn with
  | nil =>
    exact ⟨fun k => (start k).listed, fun _ hmem => absurd hmem List.not_mem_nil,
      fun _ _ _ hmem => absurd hmem List.not_mem_nil, fun _ _ hmem => absurd hmem List.not_mem_nil⟩
  | append_singleton acts a ih =>
    have hstep : run services start now (acts ++ [a]) = step services (run services start now acts) a :=
      Transition.run_concat _ _ acts a
    rw [hstep]
    exact (ih.step (history_current services start now acts) a).mono
      (history_implies services start now (List.prefix_append acts [a]))

variable {services}

/-- The clock does not go back. Only the tick moves it, and never back. -/
theorem step_now (w : World) (a : Act) : w.now ≤ (step services w a).now := by
  cases a with
  | tick later => exact le_max_left _ _
  | commit request draw =>
    show _ ≤ (w.commit services request draw).now
    unfold World.commit
    dsimp only
    split
    · exact le_rfl
    · exact le_rfl
  | start query =>
    show _ ≤ (w.start query).now
    unfold World.start
    split
    · exact le_rfl
    · exact le_rfl
  | reply i reply =>
    show _ ≤ (w.reply services i reply).now
    unfold World.reply
    split
    · cases reply
      · exact le_rfl
      · exact le_rfl
    · exact le_rfl
  | proceed i monotonic =>
    show _ ≤ (w.proceed services i monotonic).now
    unfold World.proceed
    split
    · exact le_rfl
    · exact le_rfl
  | deliver j =>
    show _ ≤ (w.deliver j).now
    unfold World.deliver
    split
    · rename_i command _
      cases command
      · exact le_rfl
      · exact le_rfl
    · exact le_rfl
  | lose j => exact le_rfl
  | evict key => exact le_rfl

/-- The clock of a part of a run is not ahead. -/
theorem run_now {pre acts : List Act} (h : pre <+: acts) :
    (run services start now pre).now ≤ (run services start now acts).now := by
  obtain ⟨rest, rfl⟩ := h
  have hsplit : run services start now (pre ++ rest) =
      Transition.run (step services) (run services start now pre) rest :=
    Transition.run_append _ _ pre rest
  rw [hsplit]
  exact @Transition.run_invariant _ _ (step services)
    (fun w => (run services start now pre).now ≤ w.now) (fun w a h => h.trans (step_now w a)) _ le_rfl
    rest

/-- A list that was current when or after its reading began, and is accepted, was current less than ten
seconds ago. -/
theorem age_of_accepted {acts pre : List Act} {started : ℚ} (hpre : pre <+: acts)
    (hstarted : started ≤ (run services start now pre).now)
    (hfresh : (run services start now acts).now - 10 < started) :
    (run services start now acts).now - 10 < (run services start now pre).now ∧
      (run services start now pre).now ≤ (run services start now acts).now :=
  ⟨hfresh.trans_le hstarted, run_now start now hpre⟩

variable (services)

/-- Along every run: the menus that a lookup accepts are those that the statement of the request
returned less than ten seconds ago; so are the items, in their stored fields; and a response that is
made of accepted items has only items that are still in the menu, with their present tracking and
stock. -/
theorem cached_reads_bounded_staleness (acts : List Act) :
    (∀ (i : ℕ) (context : AccessContext) (restaurant_id : ℕ) (raw : Events.Value)
        (menus : List CachedMenu),
      (run services start now acts).reads[i]? =
        some ⟨.list_menus context restaurant_id, .answered (some raw)⟩ →
      valid_payload (run services start now acts).now (decode services.payloads.1 raw) restaurant_id =
        some menus →
      ∃ pre, pre <+: acts ∧
        (run services start now acts).now - 10 < (run services start now pre).now ∧
        (run services start now pre).now ≤ (run services start now acts).now ∧
        menus = list_menus_for_restaurant ((run services start now pre).rows restaurant_id) context) ∧
    (∀ (i : ℕ) (context : AccessContext) (menu_id restaurant_id : ℕ) (raw : Events.Value)
        (items : List CachedMenuItem),
      (run services start now acts).reads[i]? =
        some ⟨.list_menu_items context menu_id restaurant_id, .answered (some raw)⟩ →
      valid_item_payload (run services start now acts).now (decode services.payloads.1 raw) menu_id
        restaurant_id = some items →
      ∃ pre, pre <+: acts ∧
        (run services start now acts).now - 10 < (run services start now pre).now ∧
        (run services start now pre).now ≤ (run services start now acts).now ∧
        items = (list_menu_items_for_menu ((run services start now pre).rows restaurant_id) context
          menu_id).map ((run services start now pre).rows restaurant_id).cached_item) ∧
    ∀ (i : ℕ) (context : AccessContext) (menu_id restaurant_id : ℕ) (items : List CachedMenuItem)
        (monotonic : ℚ) (responses : List MenuItemResponse),
      (run services start now acts).reads[i]? =
        some ⟨.list_menu_items context menu_id restaurant_id, .attaching items⟩ →
      (step services (run services start now acts) (.proceed i monotonic)).reads[i]? =
        some ⟨.list_menu_items context menu_id restaurant_id, .ended (.ok (.items responses))⟩ →
      List.Forall₂ (AttachedTo ((run services start now acts).rows restaurant_id) menu_id)
        (items.map cached_model) responses := by
  have hsound := run_sound services start now acts
  refine ⟨fun i context restaurant_id raw menus hread hvalid => ?_,
    fun i context menu_id restaurant_id raw items hread hvalid => ?_,
    fun i context menu_id restaurant_id items monotonic responses hread hnext => ?_⟩
  · -- The accepted list was filed by a read whose statement ran at an earlier state of the run.
    obtain ⟨hscope, hraw⟩ := hsound.reads _ _ (List.mem_of_getElem? hread)
    obtain ⟨started, ⟨pre, hpre, hstarted, rfl⟩, hfresh, -⟩ := (hraw raw rfl).menus_of_valid hvalid
    obtain ⟨hafter, hbefore⟩ := age_of_accepted start now hpre hstarted hfresh
    refine ⟨pre, hpre, hafter, hbefore, ?_⟩
    have hvisible := hscope.current ((run_sound services start now pre).rows restaurant_id)
    exact (list_menus_of_scope hvisible).symm
  · obtain ⟨hscope, hraw⟩ := hsound.reads _ _ (List.mem_of_getElem? hread)
    obtain ⟨started, ⟨pre, hpre, hstarted, rfl⟩, hfresh, -⟩ := (hraw raw rfl).items_of_valid hvalid
    obtain ⟨hafter, hbefore⟩ := age_of_accepted start now hpre hstarted hfresh
    refine ⟨pre, hpre, hafter, hbefore, ?_⟩
    have hvisible := hscope.current ((run_sound services start now pre).rows restaurant_id)
    dsimp only [Query.restaurant_id, Query.context] at hvisible
    rw [list_menu_items_of_scope menu_id hvisible]
    rfl
  · -- The response is made in this step, from the rows as they are now.
    have hproceed : step services (run services start now acts) (.proceed i monotonic) =
        (run services start now acts).proceed services i monotonic := rfl
    rw [hproceed] at hnext
    unfold World.proceed at hnext
    rw [hread] at hnext
    have hlength := (List.getElem?_eq_some_iff.mp hread).1
    -- The phase after the step is the one that the request has gone on to.
    have hphase : (services.advance (run services start now acts).now monotonic
        (run services start now acts).rows (.list_menu_items context menu_id restaurant_id)
        (.attaching items)).1 = .ended (.ok (.items responses)) := by
      have hset := (List.getElem?_set_self hlength).symm.trans hnext
      exact congrArg Read.phase (Option.some.inj hset)
    unfold Services.advance at hphase
    dsimp only at hphase
    split at hphase
    · rename_i attached hattach
      cases hphase
      exact attach_spec hattach
    · cases hphase

end RestaurantOS.Catalog.Reads
