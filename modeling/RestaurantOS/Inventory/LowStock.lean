import RestaurantOS.Inventory.Faults

/-!
# The low-stock invariant

Along every run, the episodes of an ingredient are the record of the revisions at which it was low
(`EdgeIntervals.Tracks`), from the moment on at which the service tracks it: its creation, the
initialization of its restaurant, or the first revision at which it is not low. The proof follows the
run step by step, and what a step does to the ingredient is `Evolves`, `Marked` or a creation. -/

namespace RestaurantOS

open EdgeIntervals Fallible Events Inventory

section Tracking

variable (lib : Library) (start : ℕ → LegacyBranch) (acts : List Act) (k id : ℕ)

/-- The service tracks the episodes of an ingredient: it has created it, or has initialized its
restaurant, or the ingredient has been at a revision at which it was not low. -/
def Tracked : Prop :=
  (∀ legacy ∈ (start k).ingredients, legacy.id ≠ id) ∨
    ((run lib start acts).rows k).initialized = true ∨
    ∃ pre, pre <+: acts ∧ ∃ record ∈ ((run lib start pre).rows k).ingredients,
      record.id = id ∧ record.is_low = false

/-- The ingredient has been low at a revision while it was tracked. -/
def LowAt (revision : ℕ) : Prop :=
  ∃ pre, pre <+: acts ∧ Tracked lib start pre k id ∧
    ∃ record ∈ ((run lib start pre).rows k).ingredients,
      record.id = id ∧ record.revision = revision ∧ record.is_low = true

variable {lib start acts k id}

/-- A restaurant stays initialized. No command takes the flag back. -/
theorem initialized_mono {pre : List Act} (hpre : pre <+: acts)
    (h : ((run lib start pre).rows k).initialized = true) :
    ((run lib start acts).rows k).initialized = true := by
  obtain ⟨rest, rfl⟩ := hpre
  induction rest using List.reverseRecOn with
  | nil => rwa [List.append_nil]
  | append_singleton rest a ih =>
    rw [← List.append_assoc]
    rcases run_step lib start (pre ++ rest) a k with hsame | ⟨command, heffect⟩
    · rw [hsame, ih]
    · rcases heffect.initialization with heq | ⟨htrue, -⟩
      · rw [heq, ih]
      · exact htrue

/-- An ingredient stays tracked. -/
theorem Tracked.mono {pre : List Act} (hpre : pre <+: acts) (h : Tracked lib start pre k id) :
    Tracked lib start acts k id := by
  rcases h with hnew | hinitialized | ⟨earlier, hearlier, hrecord⟩
  · exact Or.inl hnew
  · exact Or.inr (Or.inl (initialized_mono hpre hinitialized))
  · exact Or.inr (Or.inr ⟨earlier, hearlier.trans hpre, hrecord⟩)

/-- What has been low before an ingredient is tracked does not count. -/
theorem not_lowAt_of_not_tracked (h : ¬ Tracked lib start acts k id) (revision : ℕ) :
    ¬ LowAt lib start acts k id revision :=
  fun ⟨_, hpre, htracked, _⟩ => h (htracked.mono hpre)

/-- An ingredient is not removed. The ingredient may have changed, but its key is still there. -/
theorem ingredient_mono {pre : List Act} (hpre : pre <+: acts) {record : IngredientRecord}
    (hrecord : record ∈ ((run lib start pre).rows k).ingredients) :
    ∃ record' ∈ ((run lib start acts).rows k).ingredients, record'.id = record.id := by
  obtain ⟨rest, rfl⟩ := hpre
  induction rest using List.reverseRecOn with
  | nil => exact ⟨record, by rwa [List.append_nil], rfl⟩
  | append_singleton rest a ih =>
    rw [← List.append_assoc]
    obtain ⟨record', hrecord', hid⟩ := ih
    rcases run_step lib start (pre ++ rest) a k with hsame | ⟨command, heffect⟩
    · exact ⟨record', hsame ▸ hrecord', hid⟩
    · obtain ⟨record₂, hrecord₂, hid₂⟩ :=
        heffect.keeps_ingredients (run_sane lib start (pre ++ rest) k).keys hrecord'
      exact ⟨record₂, hrecord₂, hid₂.trans hid⟩

/-- A prefix of a run with one more action is a prefix of the run, or all of it. -/
theorem prefix_concat {pre : List Act} {a : Act} (h : pre <+: acts ++ [a]) :
    pre <+: acts ∨ pre = acts ++ [a] := by
  rcases List.prefix_concat_iff.mp h with rfl | h
  · exact Or.inr rfl
  · exact Or.inl h

/-- One more action: the ingredient has been low at a revision before, or is so now. -/
theorem lowAt_concat {a : Act} {record : IngredientRecord}
    (hrecord : record ∈ ((run lib start (acts ++ [a])).rows k).ingredients) (revision : ℕ) :
    LowAt lib start (acts ++ [a]) k record.id revision ↔
      LowAt lib start acts k record.id revision ∨ (Tracked lib start (acts ++ [a]) k record.id ∧
        revision = record.revision ∧ record.is_low = true) := by
  constructor
  · rintro ⟨pre, hpre, htracked, other, hother, hid, hrevision, hlow⟩
    rcases prefix_concat hpre with hpre | rfl
    · exact Or.inl ⟨pre, hpre, htracked, other, hother, hid, hrevision, hlow⟩
    · obtain rfl := (run_sane lib start (acts ++ [a]) k).keys.unique.eq_of_key hother hrecord hid
      exact Or.inr ⟨htracked, hrevision.symm, hlow⟩
  · rintro (⟨pre, hpre, hlow⟩ | ⟨htracked, rfl, hlow⟩)
    · exact ⟨pre, hpre.trans (List.prefix_append acts [a]), hlow⟩
    · exact ⟨_, List.prefix_refl _, htracked, record, hrecord, rfl, rfl, hlow⟩

/-- Where the ingredient is tracked, one more action is one more sample. -/
theorem setOf_lowAt_concat {a : Act} {record : IngredientRecord}
    (hrecord : record ∈ ((run lib start (acts ++ [a])).rows k).ingredients)
    (htracked : Tracked lib start (acts ++ [a]) k record.id) :
    {n | LowAt lib start (acts ++ [a]) k record.id n} =
      sample {n | LowAt lib start acts k record.id n} record.revision record.is_low := by
  ext n
  simp only [Set.mem_ofPred_eq, lowAt_concat hrecord n, sample, htracked, true_and]

/-- The episodes of an ingredient are the record of its low revisions from its tracking on; before
that it has none. -/
structure Followed (lib : Library) (start : ℕ → LegacyBranch) (acts : List Act) (k : ℕ)
    (record : IngredientRecord) : Prop where
  /-- From its tracking on. -/
  tracks : Tracked lib start acts k record.id →
    Tracks record.intervals record.revision record.is_low {n | LowAt lib start acts k record.id n}
  /-- Before. -/
  untracked : ¬ Tracked lib start acts k record.id → record.episodes = []

/-- Of sound episodes, one is unresolved exactly if its interval is open. -/
theorem unresolved_eq_none_iff {organization_id : UUID} {restaurant_id : ℕ} {record : IngredientRecord}
    (hsound : record.Sound organization_id restaurant_id) :
    unresolved record.episodes = none ↔ ¬ ∃ i ∈ record.intervals, i.stop = none := by
  rw [unresolved_eq_none]
  constructor
  · rintro hall ⟨i, hi, hstop⟩
    obtain ⟨episode, hmem, rfl⟩ := List.mem_map.mp hi
    exact hall episode hmem ((resolved_iff_of_check (hsound.checked episode hmem)).mpr hstop)
  · intro hnone episode hmem hopen
    exact hnone ⟨episode.interval, List.mem_map_of_mem hmem,
      (resolved_iff_of_check (hsound.checked episode hmem)).mp hopen⟩

/-- An ingredient that is not tracked is low. -/
theorem low_of_not_tracked {record : IngredientRecord}
    (hrecord : record ∈ ((run lib start acts).rows k).ingredients)
    (h : ¬ Tracked lib start acts k record.id) : record.is_low = true := by
  by_contra hlow
  rw [Bool.not_eq_true] at hlow
  exact h (Or.inr (Or.inr ⟨acts, List.prefix_refl _, record, hrecord, rfl, hlow⟩))

/-- A low ingredient that is tracked has an unresolved episode. -/
theorem Followed.open_of_low {organization_id : UUID} {restaurant_id : ℕ} {record : IngredientRecord}
    (h : Followed lib start acts k record) (hsound : record.Sound organization_id restaurant_id)
    (htracked : Tracked lib start acts k record.id) (hlow : record.is_low = true) :
    unresolved record.episodes ≠ none := by
  intro hnone
  exact (unresolved_eq_none_iff hsound).mp hnone ((h.tracks htracked).level_iff.mp hlow)

/-- An ingredient that an action does not touch. It can become tracked only by the initialization,
which then has opened its episode. -/
theorem Followed.untouched {a : Act} {record : IngredientRecord}
    (h : Followed lib start acts k record)
    (hold : record ∈ ((run lib start acts).rows k).ingredients)
    (hrecord : record ∈ ((run lib start (acts ++ [a])).rows k).ingredients)
    (hinitialized : ((run lib start (acts ++ [a])).rows k).initialized =
        ((run lib start acts).rows k).initialized ∨
      (record.is_low = true → unresolved record.episodes ≠ none)) :
    Followed lib start (acts ++ [a]) k record := by
  -- Tracked: what has been seen low is what it was, for the revision is an old one.
  by_cases htracked : Tracked lib start acts k record.id
  · have htracked' := htracked.mono (List.prefix_append acts [a])
    refine ⟨fun _ => ?_, fun hnot => absurd htracked' hnot⟩
    rw [setOf_lowAt_concat hrecord htracked', (h.tracks htracked).sample_eq]
    exact h.tracks htracked
  · -- Not tracked: it has always been low, and it still has no episode.
    have hlow := low_of_not_tracked hold htracked
    have hempty := h.untracked htracked
    refine ⟨fun htracked' => absurd ?_ htracked, fun _ => hempty⟩
    rcases htracked' with hnew | htrue | ⟨pre, hpre, other, hother, hid, hnot⟩
    · exact Or.inl hnew
    · rcases hinitialized with heq | hopen
      · exact Or.inr (Or.inl (heq ▸ htrue))
      · exact absurd (by rw [hempty]; rfl) (hopen hlow)
    · rcases prefix_concat hpre with hpre | rfl
      · exact Or.inr (Or.inr ⟨pre, hpre, other, hother, hid, hnot⟩)
      · obtain rfl := (run_sane lib start _ k).keys.unique.eq_of_key hother hrecord hid
        rw [hlow] at hnot
        cases hnot

/-- An ingredient whose stock an action changes. There is one case for each way in which a row can
evolve, and each is a step of the intervals. -/
theorem Followed.evolves {a : Act} {record record' : IngredientRecord}
    (h : Followed lib start acts k record) (hevolves : Evolves record record')
    (hid : record'.id = record.id)
    (hold : record ∈ ((run lib start acts).rows k).ingredients)
    (hrecord : record' ∈ ((run lib start (acts ++ [a])).rows k).ingredients)
    (hsound : ∃ organization_id restaurant_id, record.Sound organization_id restaurant_id)
    (hinitialized : ((run lib start (acts ++ [a])).rows k).initialized =
        ((run lib start acts).rows k).initialized ∨
      (record'.is_low = true → unresolved record'.episodes ≠ none)) :
    Followed lib start (acts ++ [a]) k record' := by
  obtain ⟨organization_id, restaurant_id, hsound⟩ := hsound
  by_cases htracked : Tracked lib start acts k record.id
  · -- Every change of a tracked ingredient is a step of its intervals.
    have htracks := h.tracks htracked
    have htracked' : Tracked lib start (acts ++ [a]) k record'.id :=
      hid ▸ htracked.mono (List.prefix_append acts [a])
    refine ⟨fun _ => ?_, fun hnot => absurd htracked' hnot⟩
    rw [setOf_lowAt_concat hrecord htracked', hid]
    unfold IngredientRecord.intervals at htracks ⊢
    cases hevolves with
    | kept hrevision hlow hepisodes =>
      rw [hrevision, hlow, hepisodes, htracks.sample_eq]
      exact htracks
    | advanced hrevision hlow hepisodes =>
      rw [hrevision, hlow, hepisodes]
      exact htracks.advance
    | opened hrevision hwas hlow episode hinterval hepisodes =>
      rw [hwas] at htracks
      rw [hrevision, hlow, hepisodes, List.map_append, List.map_singleton, hinterval]
      exact htracks.rise
    | resolved hrevision hwas hlow hopen hintervals =>
      rw [hwas] at htracks
      rw [hrevision, hlow]
      unfold IngredientRecord.intervals at hintervals
      rw [hintervals]
      exact htracks.fall
    | untracked hrevision hwas hlow hnone hepisodes =>
      exact absurd hnone (h.open_of_low hsound htracked hwas)
  · -- One that is not tracked is low and has no episode, until it is not low.
    have hwas := low_of_not_tracked hold htracked
    have hempty := h.untracked htracked
    have hepisodes : record'.episodes = [] := by
      cases hevolves with
      | kept hrevision hlow hepisodes => rw [hepisodes, hempty]
      | advanced hrevision hlow hepisodes => rw [hepisodes, hempty]
      | opened hrevision hnot => rw [hwas] at hnot; cases hnot
      | resolved hrevision _ hlow hopen => exact absurd (by rw [hempty]; rfl) hopen
      | untracked hrevision _ hlow hnone hepisodes => rw [hepisodes, hempty]
    refine ⟨fun htracked' => ?_, fun _ => hepisodes⟩
    have hlow : record'.is_low = false := by
      by_contra hlow
      rw [Bool.not_eq_false] at hlow
      refine htracked ?_
      rw [hid] at htracked'
      -- It is not low now: otherwise it would still be untracked.
      rcases htracked' with hnew | htrue | ⟨pre, hpre, other, hother, hid', hnot⟩
      · exact Or.inl hnew
      · rcases hinitialized with heq | hopen
        · exact Or.inr (Or.inl (heq ▸ htrue))
        · exact absurd (by rw [hepisodes]; rfl) (hopen hlow)
      · rcases prefix_concat hpre with hpre | rfl
        · exact Or.inr (Or.inr ⟨pre, hpre, other, hother, hid', hnot⟩)
        · obtain rfl := (run_sane lib start _ k).keys.unique.eq_of_key hother hrecord
            (hid'.trans hid.symm)
          rw [hlow] at hnot
          cases hnot
    have hnever : {n | LowAt lib start acts k record'.id n} = ∅ := by
      rw [hid]
      exact Set.eq_empty_iff_forall_notMem.mpr fun n => not_lowAt_of_not_tracked htracked n
    rw [setOf_lowAt_concat hrecord htracked', hnever, hlow]
    unfold IngredientRecord.intervals
    rw [hepisodes, (Tracks.empty record'.revision).sample_eq]
    exact Tracks.empty _

/-- A low ingredient that gets a baseline episode. From then on it is tracked, and its one low
revision is the present one. -/
theorem Followed.marked {a : Act} {record record' : IngredientRecord}
    (h : Followed lib start acts k record) (hmarked : Marked record record')
    (hrecord : record' ∈ ((run lib start (acts ++ [a])).rows k).ingredients)
    (hsound : ∃ organization_id restaurant_id, record.Sound organization_id restaurant_id)
    (hinitialized : ((run lib start (acts ++ [a])).rows k).initialized = true) :
    Followed lib start (acts ++ [a]) k record' := by
  obtain ⟨organization_id, restaurant_id, hsound⟩ := hsound
  have hid : record'.id = record.id := congrArg Ingredient.id hmarked.item
  have hrevision : record'.revision = record.revision :=
    congrArg Ingredient.state_revision hmarked.item
  have hlow : record'.is_low = true := by
    have hsame : record'.is_low = record.is_low := by
      unfold IngredientRecord.is_low
      rw [hmarked.item, hmarked.balance]
    rw [hsame, hmarked.low]
  -- It was not tracked, for a tracked low ingredient has an open episode.
  have htracked : ¬ Tracked lib start acts k record.id := fun htracked =>
    h.open_of_low hsound htracked hmarked.low hmarked.unresolved
  have htracked' : Tracked lib start (acts ++ [a]) k record'.id := Or.inr (Or.inl hinitialized)
  refine ⟨fun _ => ?_, fun hnot => absurd htracked' hnot⟩
  have hnever : {n | LowAt lib start acts k record'.id n} = ∅ := by
    rw [hid]
    exact Set.eq_empty_iff_forall_notMem.mpr fun n => not_lowAt_of_not_tracked htracked n
  obtain ⟨episode, hinterval, hepisodes⟩ := hmarked.episodes
  have hmark := Tracks.mark record.revision
  have hsample : sample ∅ record.revision true = {record.revision} := by
    ext n
    simp [sample]
  rw [setOf_lowAt_concat hrecord htracked', hnever, hlow, hrevision, hsample]
  unfold IngredientRecord.intervals
  rw [hepisodes, h.untracked htracked, List.nil_append, List.map_singleton, hinterval]
  exact hmark

/-- An ingredient that is created. It is tracked from its first revision. -/
theorem Followed.created {a : Act} {record' : IngredientRecord}
    (hnone : Keyed.lookup IngredientRecord.id record'.id
      ((run lib start acts).rows k).ingredients = none)
    (hrecord : record' ∈ ((run lib start (acts ++ [a])).rows k).ingredients)
    (hrevision : record'.revision = 1)
    (hepisodes : (record'.is_low = false ∧ record'.episodes = []) ∨
      (record'.is_low = true ∧ ∃ episode : InventoryLowStockEpisode,
        episode.interval = ⟨1, none⟩ ∧ record'.episodes = [episode])) :
    Followed lib start (acts ++ [a]) k record' := by
  have hnew := Keyed.lookup_eq_none.mp hnone
  have htracked : Tracked lib start (acts ++ [a]) k record'.id := by
    refine Or.inl fun legacy hlegacy hid => ?_
    -- No legacy ingredient has its key, for it would be there still.
    have hpre : [] <+: acts := List.nil_prefix
    obtain ⟨record, hrecord, hid'⟩ := @ingredient_mono lib start acts k [] hpre legacy hlegacy
    exact hnew record hrecord (hid'.trans hid)
  have hnever : {n | LowAt lib start acts k record'.id n} = ∅ := by
    refine Set.eq_empty_iff_forall_notMem.mpr ?_
    rintro n ⟨pre, hpre, -, record, hrecord, hid, -⟩
    obtain ⟨record₂, hrecord₂, hid₂⟩ := ingredient_mono hpre hrecord
    exact hnew record₂ hrecord₂ (hid₂.trans hid)
  refine ⟨fun _ => ?_, fun hnot => absurd htracked hnot⟩
  rw [setOf_lowAt_concat hrecord htracked, hnever, hrevision]
  unfold IngredientRecord.intervals
  rcases hepisodes with ⟨hlow, hempty⟩ | ⟨hlow, episode, hinterval, hepisodes⟩
  · -- It starts with no episode if it is not low, and with one otherwise.
    rw [hlow, hempty, (Tracks.empty 1).sample_eq]
    exact Tracks.empty 1
  · have hsample : sample ∅ 1 true = {1} := by
      ext n
      simp [sample]
    rw [hlow, hepisodes, hsample, List.map_singleton, hinterval]
    exact Tracks.mark 1

/-- The episodes of every ingredient are the record of its low revisions in every reachable state.
By induction on the run; the cases of a step are those of the lemmas above. -/
theorem run_followed (lib : Library) (start : ℕ → LegacyBranch) (k : ℕ) (acts : List Act) :
    ∀ record ∈ ((run lib start acts).rows k).ingredients, Followed lib start acts k record := by
  induction acts using List.reverseRecOn with
  | nil =>
    intro record hrecord
    have hempty : record.episodes = [] := (start k).legacy.episodes record hrecord
    refine ⟨fun htracked => ?_, fun _ => hempty⟩
    -- A legacy ingredient is tracked at the start only if it is not low.
    have hlow : record.is_low = false := by
      rcases htracked with hnew | htrue | ⟨pre, hpre, other, hother, hid, hlow⟩
      · exact absurd rfl (hnew record hrecord)
      · rw [show ((run lib start []).rows k).initialized = false from
          (start k).legacy.uninitialized] at htrue
        cases htrue
      · rw [List.prefix_nil.mp hpre] at hother
        rwa [← (start k).legacy.ingredients.eq_of_key hother hrecord hid]
    have hnever : {n | LowAt lib start [] k record.id n} = ∅ := by
      refine Set.eq_empty_iff_forall_notMem.mpr ?_
      rintro n ⟨pre, hpre, -, other, hother, hid, -, hnot⟩
      rw [List.prefix_nil.mp hpre] at hother
      rw [(start k).legacy.ingredients.eq_of_key hother hrecord hid, hlow] at hnot
      cases hnot
    rw [hnever, hlow]
    unfold IngredientRecord.intervals
    rw [hempty]
    exact Tracks.empty _
  | append_singleton acts a ih =>
    intro record' hrecord'
    have hsane := run_sane lib start acts k
    have hepisodic := run_episodic lib start acts k
    have hsound : ∀ record ∈ ((run lib start acts).rows k).ingredients,
        ∃ organization_id restaurant_id, record.Sound organization_id restaurant_id :=
      fun record hrecord => ⟨_, _, hepisodic.sound record hrecord⟩
    -- The action left the rows of the restaurant alone, or committed one command.
    rcases run_step lib start acts a k with hsame | ⟨command, heffect⟩
    · have hold : record' ∈ ((run lib start acts).rows k).ingredients := hsame ▸ hrecord'
      exact (ih record' hold).untouched hold hrecord' (Or.inl (by rw [hsame]))
    have hinitialization : ((run lib start (acts ++ [a])).rows k).initialized =
          ((run lib start acts).rows k).initialized ∨
        (record'.is_low = true → unresolved record'.episodes ≠ none) := by
      rcases heffect.initialization with heq | ⟨-, hopen⟩
      · exact Or.inl heq
      · exact Or.inr (hopen record' hrecord')
    -- The command left the record alone, or changed it.
    rcases heffect.record_cases hsane.keys hrecord' with hold |
      ⟨purpose, events, episode_id, hfresh, hchange, hbaseline⟩
    · exact (ih record' hold).untouched hold hrecord' hinitialization
    · cases hlookup : Keyed.lookup IngredientRecord.id record'.id
          ((run lib start acts).rows k).ingredients with
      | none =>
        rw [hlookup] at hchange
        have hid := ((run_sane lib start (acts ++ [a]) k).keys.below record' hrecord').1
        obtain ⟨-, hrevision, hepisodes⟩ := hchange.created_sound hid hepisodic.restaurant
        exact .created hlookup hrecord' hrevision hepisodes
      | some record =>
        rw [hlookup] at hchange
        have hold := Keyed.lookup_mem hlookup
        have hdrawn : ∀ episode ∈ record.episodes, episode.episode_id ≠ episode_id :=
          fun episode hmem => ne_of_lt ((hepisodic.drawn record hold episode hmem).trans_le hfresh)
        obtain ⟨-, ⟨-, hevolves⟩ | ⟨hpurpose, hmarked⟩⟩ :=
          hchange.evolves (hepisodic.sound record hold) hepisodic.restaurant hdrawn
        · exact (ih record hold).evolves hevolves hchange.id hold hrecord' (hsound record hold)
            hinitialization
        · exact (ih record hold).marked hmarked hrecord' (hsound record hold) (hbaseline hpurpose)

/-- An ingredient that is tracked is low exactly if one episode is unresolved. -/
theorem Followed.low_iff {organization_id : UUID} {restaurant_id : ℕ} {record : IngredientRecord}
    (h : Followed lib start acts k record) (hsound : record.Sound organization_id restaurant_id)
    (htracked : Tracked lib start acts k record.id) : record.is_low = true ↔
      record.episodes.countP (fun episode => episode.resolved_at.isNone) = 1 := by
  have hcount : record.intervals.countP (fun i => i.stop.isNone) =
      record.episodes.countP fun episode => episode.resolved_at.isNone := by
    unfold IngredientRecord.intervals
    rw [List.countP_map]
    refine List.countP_congr fun episode hmem => ?_
    have hiff := resolved_iff_of_check (hsound.checked episode hmem)
    simp only [Function.comp, InventoryLowStockEpisode.interval, Option.isNone_iff_eq_none]
    exact hiff.symm
  exact hcount ▸ (h.tracks htracked).count_open

end Tracking

/-- In every reachable state, the episodes of an ingredient follow one another, end after they start
and cover exactly the revisions at which it was low while tracked; from its tracking on it is low
exactly if one episode is unresolved, and before that it has none. No command ends in one of the
fault checks. An ingredient that the service has created is tracked from its creation on. The last
part is that every commit is of a sound restaurant, where the checks pass. -/
theorem low_stock_episodes (lib : Library) (start : ℕ → LegacyBranch) (acts : List Act) (k : ℕ) :
    (∀ record ∈ ((run lib start acts).rows k).ingredients,
      (¬ Tracked lib start acts k record.id → record.episodes = []) ∧
      (Tracked lib start acts k record.id → (record.is_low = true ↔
        record.episodes.countP (fun episode => episode.resolved_at.isNone) = 1)) ∧
      (∀ episode ∈ record.episodes, ∀ resolution ∈ episode.resolution_revision,
        episode.opening_revision < resolution) ∧
      record.episodes.Pairwise (fun episode later =>
        ∃ resolution ∈ episode.resolution_revision, resolution ≤ later.opening_revision) ∧
      (∀ revision ≤ record.revision, (∃ episode ∈ record.episodes,
          episode.opening_revision ≤ revision ∧
            ∀ resolution ∈ episode.resolution_revision, revision < resolution) ↔
        LowAt lib start acts k record.id revision)) ∧
    ∀ command draw failure, exec lib command draw ((run lib start acts).rows k) = .error failure →
      ¬ failure.is_inventory_fault := by
  have hepisodic := run_episodic lib start acts k
  constructor
  · intro record hrecord
    have hfollowed := run_followed lib start k acts record hrecord
    have hsound := hepisodic.sound record hrecord
    refine ⟨hfollowed.untracked, ?_⟩
    -- For a tracked ingredient the four parts are read off its intervals.
    by_cases htracked : Tracked lib start acts k record.id
    · have htracks := hfollowed.tracks htracked
      refine ⟨fun _ => hfollowed.low_iff hsound htracked, ?_, ?_, ?_⟩
      · exact fun episode hmem => htracks.proper _ (List.mem_map_of_mem hmem)
      · exact List.pairwise_map.mp htracks.ordered
      · intro revision hle
        have hcovers := htracks.covers_iff revision hle
        unfold IngredientRecord.intervals at hcovers
        simp only [List.mem_map, exists_exists_and_eq_and] at hcovers
        exact hcovers
    · -- One that is not tracked has no episode, and so no revision that counts.
      have hempty := hfollowed.untracked htracked
      rw [hempty]
      refine ⟨fun h => absurd h htracked, by simp, .nil, fun revision _ => ?_⟩
      simpa using not_lowAt_of_not_tracked htracked revision
  · exact fun command draw failure h => exec_fails hepisodic (run_sane lib start acts k) command _ h

end RestaurantOS
