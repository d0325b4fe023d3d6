import Mathlib.Tactic.Linarith
import RestaurantOS.Catalog.MenuCache

/-!
# The circuit breaker of the catalog cache

A step of a process does one of four things to its circuit (`Move`): nothing, the circuit opens or
stays open for longer, a probe starts, or a probe ends. `Sound` is what each of them keeps: the flag
is raised exactly while a probe is in flight, there is one probe at most, and the circuit is open
meanwhile. A probe that fails leaves the end of the cool-down where it put it or where it was;
`Cooling` says that no probe starts before that time, along every run.
-/

namespace RestaurantOS.Catalog.MenuCache

/-! ## What is observed -/

/-- A read. Only reads probe Redis. -/
def Command.is_read : Command → Bool
  | .GET _ => true
  | .SET .. => false

/-- The answer of Redis is the only success. -/
def Reply.succeeds : Reply → Bool
  | .answer _ => true
  | .failure _ | .exception => false

/-- The failures that open the circuit. A failed command opens nothing, and neither does an answer.
-/
def Reply.opens : Reply → Bool
  | .failure kind => kind.opens
  | .answer _ | .exception => false

/-- The probe of a lookup is in flight. -/
def Phase.is_probe : Phase → Bool
  | .reading is_probe => is_probe
  | .writing | .returned _ | .raised => false

namespace World

/-- A call is a probe in flight. Its reply decides whether the circuit closes. -/
def probing (w : World) (i : ℕ) : Bool := (w.calls[i]?).any (·.phase.is_probe)

/-- How many reads were sent. They are counted over the whole run. -/
def reads (w : World) : ℕ := w.sent.countP Command.is_read

/-- The circuit is open and its cool-down has not passed. -/
def cooling (w : World) : Prop :=
  ∃ open_until, w.circuit.open_until = some open_until ∧ w.now < open_until

/-- A step starts a probe. A call that was no probe has become one. -/
def starts_probe (w w' : World) : Prop := ∃ i, w.probing i = false ∧ w'.probing i = true

end World

variable {cooldown_seconds : ℚ} {w w' : World} {a : Act}

/-! ## What a step does to the circuit -/

/-- The circuit after the reply to a probe. -/
def Circuit.settle (cooldown_seconds : ℚ) (circuit : Circuit) (now : ℚ) (reply : Reply) : Circuit :=
  (if reply.opens then circuit.open_circuit cooldown_seconds now else circuit).finish_probe
    reply.succeeds

/-- What a step does to the circuit and to the probes in flight. -/
inductive Move (cooldown_seconds : ℚ) (w : World) (a : Act) (w' : World) : Prop
  | idle (hcircuit : w'.circuit = w.circuit) (hnow : w.now ≤ w'.now)
      (hprobing : ∀ i, w'.probing i = w.probing i)
      (hreads : w'.reads = w.reads ∨ w.circuit.open_until = none)
  | opened (hcircuit : w'.circuit = w.circuit.open_circuit cooldown_seconds w.now)
      (hnow : w'.now = w.now) (hprobing : ∀ i, w'.probing i = w.probing i)
      (hreads : w'.reads = w.reads)
  | started (open_until : ℚ) (hopen : w.circuit.open_until = some open_until)
      (hpassed : open_until ≤ w.now) (hflag : w.circuit.probe_in_flight = false)
      (hcircuit : w'.circuit = { w.circuit with probe_in_flight := true })
      (hnow : w'.now = w.now) (i : ℕ) (hnew : w.probing i = false)
      (hprobing : ∀ j, w'.probing j = (w.probing j || decide (j = i)))
  | ended (i : ℕ) (reply : Reply) (wall_time : ℚ) (hact : a = .reply i reply wall_time)
      (hprobe : w.probing i = true)
      (hcircuit : w'.circuit = w.circuit.settle cooldown_seconds w.now reply)
      (hnow : w'.now = w.now) (hprobing : ∀ j, w'.probing j = (w.probing j && decide (j ≠ i)))
      (hreads : w'.reads = w.reads)

namespace World

/-- The probes after a call begins. The new call is one exactly if its phase is. -/
theorem probing_enter (w : World) (request : Request) (phase : Phase) (commands : List Command)
    (i : ℕ) : (w.enter request phase commands).probing i =
      (w.probing i || (phase.is_probe && decide (i = w.calls.length))) := by
  unfold probing enter
  rcases Nat.lt_trichotomy i w.calls.length with h | rfl | h
  · rw [List.getElem?_append_left h]
    simp [Nat.ne_of_lt h]
  · simp
  · rw [List.getElem?_eq_none (by simp; omega), List.getElem?_eq_none (Nat.le_of_lt h)]
    simp [Nat.ne_of_gt h]

/-- A call that begins was no probe. -/
theorem probing_length (w : World) : w.probing w.calls.length = false := by
  simp [probing]

/-- The probes after a call moves on. It is none at its new phase, and the others stay what they
were. -/
theorem probing_move (w : World) (i : ℕ) {phase : Phase} (h : phase.is_probe = false) (j : ℕ) :
    (w.move i phase).probing j = (w.probing j && decide (j ≠ i)) := by
  unfold probing move
  rw [List.getElem?_modify]
  by_cases hij : i = j
  · subst hij
    cases w.calls[i]? with
    | none => simp
    | some call => simp [h]
  · cases w.calls[j]? with
    | none => simp
    | some call => simp [hij, Ne.symm hij]

/-- A call that is no probe moves on. -/
theorem probing_move_of_not (w : World) {i : ℕ} {phase : Phase} (h : phase.is_probe = false)
    (hi : w.probing i = false) (j : ℕ) : (w.move i phase).probing j = w.probing j := by
  rw [probing_move w i h]
  by_cases hij : j = i
  · subst hij
    rw [hi, Bool.false_and]
  · simp [hij]

/-- The reads after a call begins. -/
theorem reads_enter (w : World) (request : Request) (phase : Phase) (commands : List Command) :
    (w.enter request phase commands).reads = w.reads + commands.countP Command.is_read :=
  List.countP_append

end World

open World

/-- A lookup bypasses Redis, reads it, or probes it. Which of the three depends on whether the
circuit is open, and then on its cool-down and its flag. -/
theorem begin_read_move (request : Request) (key : String) :
    Move cooldown_seconds w a (w.begin_read request key) := by
  -- The circuit is closed, so the lookup reads without being a probe.
  cases hopen : w.circuit.open_until with
  | none =>
    have hbegin : w.circuit.begin_lookup w.now = ((true, false), w.circuit) := by
      simp only [Circuit.begin_lookup, hopen]
    rw [World.begin_read, hbegin]
    refine .idle rfl le_rfl (fun i => ?_) (Or.inr hopen)
    exact (probing_enter w request (.reading false) [.GET key] i).trans (Bool.or_false _)
  | some open_until =>
    -- The circuit is open: its cool-down is running or a probe is under way, or the lookup is the
    -- probe.
    by_cases hbypass : w.now < open_until ∨ w.circuit.probe_in_flight = true
    · have hbegin : w.circuit.begin_lookup w.now = ((false, false), w.circuit) := by
        simp only [Circuit.begin_lookup, hopen, if_pos hbypass]
      rw [World.begin_read, hbegin]
      refine .idle rfl le_rfl (fun i => ?_) (Or.inl (reads_enter w _ _ _))
      exact (probing_enter w request (.returned (request.miss false)) [] i).trans (Bool.or_false _)
    · have hbegin : w.circuit.begin_lookup w.now =
          ((true, true), { w.circuit with probe_in_flight := true }) := by
        simp only [Circuit.begin_lookup, hopen, if_neg hbypass]
      obtain ⟨hpassed, hflag⟩ := not_or.mp hbypass
      rw [World.begin_read, hbegin]
      exact .started open_until hopen (not_lt.mp hpassed) (Bool.eq_false_iff.mpr hflag) rfl rfl
        w.calls.length w.probing_length (probing_enter _ request (.reading true) [.GET key])

/-- A store leaves the circuit as it is until its reply. -/
theorem begin_write_move (request : Request) (key : String) (value : Value)
    (source_started_monotonic : ℚ) :
    Move cooldown_seconds w a (w.begin_write request key value source_started_monotonic) := by
  unfold World.begin_write
  dsimp only
  split_ifs
  · refine .idle rfl le_rfl (fun i => ?_) (Or.inl (reads_enter w _ _ _))
    rw [probing_enter]
    exact Bool.or_false _
  · refine .idle rfl le_rfl (fun i => ?_) (Or.inl (reads_enter w _ _ _))
    rw [probing_enter]
    exact Bool.or_false _

/-- The rest of a lookup does to the circuit what its reply says. -/
theorem end_read_facts (i : ℕ) (request : Request) (is_probe : Bool) (reply : Reply)
    (wall_time : ℚ) :
    let ended := w.end_read cooldown_seconds i request is_probe reply wall_time
    let opened := if reply.opens then w.circuit.open_circuit cooldown_seconds w.now else w.circuit
    ended.circuit = (if is_probe then opened.finish_probe reply.succeeds else opened) ∧
      ended.now = w.now ∧ ended.reads = w.reads ∧
      ∀ j, ended.probing j = (w.probing j && decide (j ≠ i)) := by
  -- Ending a probe and opening the circuit leave the calls alone, so only the phase of this call
  -- matters.
  have hfinish : ∀ (v : World) (success : Bool), (v.finish is_probe success).calls = v.calls := by
    intro v success
    unfold World.finish
    split_ifs <;> rfl
  have hfail : ∀ kind, (w.fail cooldown_seconds kind).calls = w.calls := by
    intro kind
    unfold World.fail
    split_ifs <;> rfl
  have hprobing : ∀ (v : World) (phase : Phase), v.calls = w.calls → phase.is_probe = false →
      ∀ j, (v.move i phase).probing j = (w.probing j && decide (j ≠ i)) := by
    intro v phase hcalls hphase j
    rw [probing_move v i hphase, probing, probing, hcalls]
  -- An answer closes the circuit for a probe, and a failure may open it.
  cases reply with
  | answer raw =>
    refine ⟨?_, ?_, ?_, hprobing _ _ (hfinish _ _) rfl⟩
    · cases is_probe <;> rfl
    · cases is_probe <;> rfl
    · cases is_probe <;> rfl
  | failure kind =>
    refine ⟨?_, ?_, ?_, hprobing _ _ ((hfinish _ _).trans (hfail kind)) rfl⟩
    · cases is_probe <;> cases kind <;> rfl
    · cases is_probe <;> cases kind <;> rfl
    · cases is_probe <;> cases kind <;> rfl
  | exception =>
    refine ⟨?_, ?_, ?_, hprobing _ _ (hfinish _ _) rfl⟩
    · cases is_probe <;> rfl
    · cases is_probe <;> rfl
    · cases is_probe <;> rfl

/-- A step does one of the four things to the circuit. -/
theorem step_move (w : World) (a : Act) : Move cooldown_seconds w a (step cooldown_seconds w a) := by
  cases a with
  | tick later => exact .idle rfl (le_max_left _ _) (fun _ => rfl) (Or.inl rfl)
  | call request =>
    cases request with
    | lookup key => exact begin_read_move _ key
    | lookup_menu_items key => exact begin_read_move _ key
    | store key => exact begin_write_move _ key _ _
    | store_menu_items key => exact begin_write_move _ key _ _
  -- A reply goes to a call that waits for one; to any other call it does nothing.
  | reply i reply wall_time =>
    have hidle : Move cooldown_seconds w (.reply i reply wall_time) w :=
      .idle rfl le_rfl (fun _ => rfl) (Or.inl rfl)
    unfold step
    dsimp only
    split
    · -- The read of a lookup has ended; only that of a probe ends a probe.
      rename_i request is_probe hcall
      obtain ⟨hcircuit, hnow, hreads, hprobing⟩ :=
        @end_read_facts cooldown_seconds w i request is_probe reply wall_time
      have hprobe : w.probing i = is_probe := by rw [probing, hcall]; rfl
      cases is_probe with
      | true => exact .ended i reply wall_time rfl hprobe hcircuit hnow hprobing hreads
      | false =>
        -- This call was no probe, so the probes are the same as before.
        have hsame : ∀ j, (w.probing j && decide (j ≠ i)) = w.probing j := by
          intro j
          by_cases hij : j = i
          · subst hij
            rw [hprobe, Bool.false_and]
          · simp [hij]
        rw [if_neg Bool.false_ne_true] at hcircuit
        -- The failure of an ordinary read opens the circuit or leaves it.
        by_cases hopens : reply.opens = true
        · rw [if_pos hopens] at hcircuit
          exact .opened hcircuit hnow (fun j => (hprobing j).trans (hsame j)) hreads
        · rw [if_neg hopens] at hcircuit
          exact .idle hcircuit hnow.ge (fun j => (hprobing j).trans (hsame j)) (Or.inl hreads)
    · -- The write of a store has ended.
      rename_i request hcall
      have hi : w.probing i = false := by rw [probing, hcall]; rfl
      -- A write is never a probe, but its failure may open the circuit as well.
      cases reply with
      | answer raw => exact .idle rfl le_rfl (probing_move_of_not w rfl hi) (Or.inl rfl)
      | failure kind =>
        unfold World.end_write World.fail
        dsimp only
        split_ifs
        · exact .opened rfl rfl (probing_move_of_not w rfl hi) rfl
        · exact .idle rfl le_rfl (probing_move_of_not w rfl hi) (Or.inl rfl)
      | exception => exact .idle rfl le_rfl (probing_move_of_not w rfl hi) (Or.inl rfl)
    · exact hidle

/-! ## What every step keeps -/

/-- The flag is raised exactly while a probe is in flight, of which there is one at most, and the
circuit is open meanwhile. -/
structure Sound (w : World) : Prop where
  /-- A probe in flight raises the flag. -/
  flag : ∀ i, w.probing i = true → w.circuit.probe_in_flight = true
  /-- The flag is that of a probe in flight. -/
  probe : w.circuit.probe_in_flight = true → ∃ i, w.probing i = true
  /-- There is one probe at most. -/
  unique : ∀ i j, w.probing i = true → w.probing j = true → i = j
  /-- The circuit is open. -/
  is_open : w.circuit.probe_in_flight = true → w.circuit.open_until.isSome = true

/-- The end of a probe lowers the flag. -/
theorem settle_flag (circuit : Circuit) (now : ℚ) (reply : Reply) :
    (circuit.settle cooldown_seconds now reply).probe_in_flight = false := by
  unfold Circuit.settle Circuit.finish_probe
  split_ifs <;> rfl

/-- A failed probe leaves the circuit open, until a full cool-down from now if its failure is one
that opens the circuit, and as long as before otherwise. -/
theorem settle_open_until (circuit : Circuit) (now : ℚ) {reply : Reply}
    (h : reply.succeeds = false) : (circuit.settle cooldown_seconds now reply).open_until =
      if reply.opens then some (now + cooldown_seconds) else circuit.open_until := by
  unfold Circuit.settle Circuit.finish_probe
  rw [h, Bool.false_and, if_neg Bool.false_ne_true]
  split_ifs <;> rfl

/-- The circuit of a new process. -/
theorem Sound.initial (now : ℚ) : Sound (World.initial now) where
  flag := fun _ h => by cases h
  probe := fun h => by cases h
  unique := fun _ _ h => by cases h
  is_open := fun h => by cases h

/-- Each of the four things keeps the flag sound. The flag is set exactly while a probe is in
flight. -/
theorem Sound.move (hsound : Sound w) (h : Move cooldown_seconds w a w') : Sound w' := by
  cases h with
  -- The circuit and the probes are as they were.
  | idle hcircuit _ hprobing =>
    refine ⟨fun i hi => ?_, fun hflag => ?_, fun i j hi hj => ?_, fun hflag => ?_⟩
    · rw [hcircuit]
      exact hsound.flag i ((hprobing i).symm.trans hi)
    · rw [hcircuit] at hflag
      obtain ⟨i, hi⟩ := hsound.probe hflag
      exact ⟨i, (hprobing i).trans hi⟩
    · exact hsound.unique i j ((hprobing i).symm.trans hi) ((hprobing j).symm.trans hj)
    · rw [hcircuit] at hflag ⊢
      exact hsound.is_open hflag
  -- Opening sets the time until which the circuit is open, and keeps the flag.
  | opened hcircuit _ hprobing =>
    refine ⟨fun i hi => ?_, fun hflag => ?_, fun i j hi hj => ?_, fun _ => ?_⟩
    · rw [hcircuit]
      exact hsound.flag i ((hprobing i).symm.trans hi)
    · rw [hcircuit] at hflag
      obtain ⟨i, hi⟩ := hsound.probe hflag
      exact ⟨i, (hprobing i).trans hi⟩
    · exact hsound.unique i j ((hprobing i).symm.trans hi) ((hprobing j).symm.trans hj)
    · rw [hcircuit]
      rfl
  | started open_until hopen _ hflag hcircuit _ i _ hprobing =>
    -- The flag was down, so the new probe is the only one.
    have honly : ∀ j, w'.probing j = true → j = i := by
      intro j hj
      rw [hprobing, Bool.or_eq_true, decide_eq_true_eq] at hj
      refine hj.resolve_left fun hold => ?_
      rw [hsound.flag j hold] at hflag
      cases hflag
    refine ⟨fun _ _ => ?_, fun _ => ⟨i, ?_⟩, fun j k hj hk => ?_, fun _ => ?_⟩
    · rw [hcircuit]
    · rw [hprobing, decide_eq_true rfl, Bool.or_true]
    · rw [honly j hj, honly k hk]
    · rw [hcircuit]
      exact Option.isSome_iff_exists.mpr ⟨open_until, hopen⟩
  -- The probe that ends was the only one, so the flag goes down with it.
  | ended i reply _ _ hprobe hcircuit _ hprobing =>
    have hflag : w'.circuit.probe_in_flight = false := by rw [hcircuit, settle_flag]
    -- No other call can have been a probe.
    have hnone : ∀ j, w'.probing j = false := by
      intro j
      rw [hprobing, Bool.and_eq_false_iff, decide_eq_false_iff_not, not_not]
      by_cases hj : w.probing j = true
      · exact Or.inr (hsound.unique j i hj hprobe)
      · exact Or.inl (Bool.eq_false_iff.mpr hj)
    refine ⟨fun j hj => ?_, fun h => ?_, fun j _ hj => ?_, fun h => ?_⟩
    · exact absurd hj (Bool.eq_false_iff.mp (hnone j))
    · exact absurd h (Bool.eq_false_iff.mp hflag)
    · exact absurd hj (Bool.eq_false_iff.mp (hnone j))
    · exact absurd h (Bool.eq_false_iff.mp hflag)

/-- The flag is sound in every state that a process reaches. -/
theorem run_sound (cooldown_seconds now : ℚ) (acts : List Act) :
    Sound (run cooldown_seconds (World.initial now) acts) :=
  Transition.run_invariant (fun w a hsound => hsound.move (step_move w a)) (Sound.initial now) acts

/-! ## The cool-down -/

/-- Since some time a cool-down is to pass, and until it has passed the circuit stays open and no
probe is in flight. -/
def Cooling (cooldown_seconds since : ℚ) (w : World) : Prop :=
  since ≤ w.now ∧ (since + cooldown_seconds ≤ w.now ∨
    (∃ open_until, w.circuit.open_until = some open_until ∧
      since + cooldown_seconds ≤ max w.now open_until) ∧ ∀ i, w.probing i = false)

/-- Whatever a step does to the circuit, the cool-down goes on. -/
theorem Cooling.move {since : ℚ} (hcooling : Cooling cooldown_seconds since w)
    (h : Move cooldown_seconds w a w') : Cooling cooldown_seconds since w' := by
  obtain ⟨hsince, hcooling⟩ := hcooling
  cases h with
  -- Nothing has happened to the circuit, and time has only gone on.
  | idle hcircuit hnow hprobing =>
    refine ⟨hsince.trans hnow, hcooling.imp (fun h => h.trans hnow) fun ⟨⟨u, hopen, hu⟩, hnone⟩ => ?_⟩
    exact ⟨⟨u, hcircuit ▸ hopen, hu.trans (max_le_max hnow le_rfl)⟩,
      fun i => (hprobing i).trans (hnone i)⟩
  -- Opening afresh starts a cool-down that ends later than the one required.
  | opened hcircuit hnow hprobing =>
    refine ⟨hnow ▸ hsince, hcooling.imp (fun h => hnow ▸ h) fun ⟨_, hnone⟩ => ?_⟩
    refine ⟨⟨w.now + cooldown_seconds, by rw [hcircuit]; rfl, ?_⟩,
      fun i => (hprobing i).trans (hnone i)⟩
    exact le_max_of_le_right (by linarith)
  -- A probe starts after the old cool-down, which covers the required one.
  | started open_until hopen hpassed _ _ hnow =>
    refine ⟨hnow ▸ hsince, Or.inl ?_⟩
    rcases hcooling with h | ⟨⟨u, hu, h⟩, -⟩
    · exact hnow ▸ h
    · obtain rfl := Option.some.inj (hopen.symm.trans hu)
      rw [max_eq_left hpassed] at h
      exact hnow ▸ h
  -- A probe cannot end while no call is one.
  | ended i reply _ _ hprobe _ hnow =>
    refine ⟨hnow ▸ hsince, Or.inl ?_⟩
    rcases hcooling with h | ⟨-, hnone⟩
    · exact hnow ▸ h
    · rw [hnone i] at hprobe
      cases hprobe

/-- A probe starts only after the cool-down. Only a lookup after `_open_until` is allowed to probe.
-/
theorem Cooling.starts {since : ℚ} (hcooling : Cooling cooldown_seconds since w)
    (h : Move cooldown_seconds w a w') (hstarts : w.starts_probe w') :
    since + cooldown_seconds ≤ w.now := by
  obtain ⟨i, hold, hnew⟩ := hstarts
  cases h with
  | idle _ _ hprobing =>
    rw [hprobing, hold] at hnew
    cases hnew
  | opened _ _ hprobing =>
    rw [hprobing, hold] at hnew
    cases hnew
  -- Only this move starts a probe, and it requires that the cool-down is over.
  | started open_until hopen hpassed =>
    rcases hcooling.2 with h | ⟨⟨u, hu, h⟩, -⟩
    · exact h
    · obtain rfl := Option.some.inj (hopen.symm.trans hu)
      rwa [max_eq_left hpassed] at h
  | ended _ _ _ _ _ _ _ hprobing =>
    rw [hprobing, hold] at hnew
    cases hnew

/-- A lookup probes a circuit whose cool-down has passed and that no other lookup probes. -/
theorem starts_probe_of_passed (request : Request) (key : String) {open_until : ℚ}
    (hopen : w.circuit.open_until = some open_until) (hpassed : open_until ≤ w.now)
    (hflag : w.circuit.probe_in_flight = false) : w.starts_probe (w.begin_read request key) := by
  have hbegin : w.circuit.begin_lookup w.now =
      ((true, true), { w.circuit with probe_in_flight := true }) := by
    simp only [Circuit.begin_lookup, hopen]
    rw [if_neg (not_or.mpr ⟨not_lt.mpr hpassed, Bool.eq_false_iff.mp hflag⟩)]
  refine ⟨w.calls.length, w.probing_length, ?_⟩
  rw [World.begin_read, hbegin]
  exact (probing_enter _ request (.reading true) [.GET key] _).trans (by simp [Phase.is_probe])

/-! ## The circuit breaker -/

/-- From here on no probe starts before a full cool-down has passed since some time. -/
def World.waits (cooldown_seconds since : ℚ) (w : World) : Prop :=
  ∀ (later : List Act) (a : Act),
    let v := run cooldown_seconds w later
    v.starts_probe (step cooldown_seconds v a) → since + cooldown_seconds ≤ v.now

/-- A failed probe is followed by a full cool-down exactly if its failure is one that opens the
circuit, or the cool-down that stands already is as long. -/
theorem waits_iff (hsound : Sound w) {i : ℕ} {reply : Reply} (wall_time : ℚ)
    (hprobe : w.probing i = true) (hfailed : reply.succeeds = false) :
    (step cooldown_seconds w (.reply i reply wall_time)).waits cooldown_seconds w.now ↔
      reply.opens = true ∨ ∃ open_until, w.circuit.open_until = some open_until ∧
        w.now + cooldown_seconds ≤ max w.now open_until := by
  have hended : ∃ w', step cooldown_seconds w (.reply i reply wall_time) = w' ∧
      w'.circuit = w.circuit.settle cooldown_seconds w.now reply ∧ w'.now = w.now ∧
        ∀ j, w'.probing j = false := by
    refine ⟨_, rfl, ?_⟩
    -- The call is the probe whose read has been replied to.
    obtain ⟨⟨request, phase⟩, hcall, hphase⟩ :
        ∃ call, w.calls[i]? = some call ∧ call.phase.is_probe := by
      unfold World.probing at hprobe
      cases hcall : w.calls[i]? with
      | none => rw [hcall] at hprobe; cases hprobe
      | some call => rw [hcall] at hprobe; exact ⟨call, rfl, hprobe⟩
    cases phase with
    | reading is_probe =>
      obtain rfl : is_probe = true := hphase
      obtain ⟨hcircuit, hnow, -, hprobing⟩ :=
        @end_read_facts cooldown_seconds w i request true reply wall_time
      simp only [step, hcall]
      refine ⟨hcircuit, hnow, fun j => ?_⟩
      rw [hprobing, Bool.and_eq_false_iff, decide_eq_false_iff_not, not_not]
      by_cases hj : w.probing j = true
      · exact Or.inr (hsound.unique j i hj hprobe)
      · exact Or.inl (Bool.eq_false_iff.mpr hj)
    | _ => cases hphase
  obtain ⟨w', hstep, hcircuit, hnow, hnone⟩ := hended
  rw [hstep]
  -- The circuit was open while the probe was under way.
  obtain ⟨u, hu⟩ := Option.isSome_iff_exists.mp (hsound.is_open (hsound.flag i hprobe))
  have hopen : w'.circuit.open_until =
      if reply.opens then some (w.now + cooldown_seconds) else some u := by
    rw [hcircuit, settle_open_until _ _ hfailed, hu]
  constructor
  · intro hwaits
    by_contra hcontra
    obtain ⟨hopens, hshort⟩ := not_or.mp hcontra
    rw [if_neg hopens] at hopen
    -- The old cool-down passes, and the next lookup probes at once.
    have hstarts := hwaits [.tick u] (.call (.lookup "" 0))
      (starts_probe_of_passed _ _ hopen (le_max_right _ _) (by
        change w'.circuit.probe_in_flight = false
        rw [hcircuit, settle_flag]))
    refine hshort ⟨u, hu, ?_⟩
    rw [← hnow] at hstarts ⊢
    exact hstarts
  · -- In the other direction the cool-down is carried along the run until a probe starts.
    intro hcond later b v hstarts
    have hcooling : Cooling cooldown_seconds w.now w' := by
      refine ⟨hnow.ge, Or.inr ⟨?_, hnone⟩⟩
      by_cases hopens : reply.opens = true
      · rw [if_pos hopens] at hopen
        exact ⟨_, hopen, le_max_right _ _⟩
      · rw [if_neg hopens] at hopen
        obtain ⟨v, hv, hle⟩ := hcond.resolve_left hopens
        obtain rfl := Option.some.inj (hu.symm.trans hv)
        exact ⟨u, hopen, hnow.symm ▸ hle⟩
    have hrun : Cooling cooldown_seconds w.now (run cooldown_seconds w' later) :=
      Transition.run_invariant (fun v c hv => hv.move (step_move v c)) hcooling later
    exact hrun.starts (step_move _ b) hstarts

/-- In every state that a process reaches: while the circuit is open and its cool-down has not passed,
no step sends a read; there is one probe at most, and a read that is sent while the circuit is open is
a probe; a step closes the circuit only as a probe is answered; and a probe that ends without an answer
is followed by a full cool-down before the next probe starts exactly if it ends with a timeout or a
failed or closed connection, or the cool-down that stands already is as long. -/
theorem circuit_breaker (cooldown_seconds now : ℚ) (acts : List Act) :
    let w := run cooldown_seconds (World.initial now) acts
    (∀ a, w.cooling → (step cooldown_seconds w a).reads = w.reads) ∧
      (∀ i j, w.probing i = true → w.probing j = true → i = j) ∧
      (∀ a, w.circuit.open_until.isSome = true → (step cooldown_seconds w a).reads ≠ w.reads →
        w.starts_probe (step cooldown_seconds w a)) ∧
      (∀ a, w.circuit.open_until.isSome = true →
        (step cooldown_seconds w a).circuit.open_until = none →
          ∃ i raw wall_time, a = .reply i (.answer raw) wall_time ∧ w.probing i = true) ∧
      ∀ i reply wall_time, w.probing i = true → reply.succeeds = false →
        ((step cooldown_seconds w (.reply i reply wall_time)).waits cooldown_seconds w.now ↔
          reply.opens = true ∨ ∃ open_until, w.circuit.open_until = some open_until ∧
            w.now + cooldown_seconds ≤ max w.now open_until) := by
  intro w
  have hsound : Sound w := run_sound cooldown_seconds now acts
  refine ⟨fun a hcool => ?_, hsound.unique, fun a hopen hreads => ?_, fun a hopen hclosed => ?_,
    fun i reply wall_time hprobe hfailed => waits_iff hsound wall_time hprobe hfailed⟩
  · -- During the cool-down no move sends a read.
    obtain ⟨u, hu, hlt⟩ := hcool
    cases @step_move cooldown_seconds w a with
    | idle _ _ _ hreads => exact hreads.resolve_right fun hnone => by rw [hnone] at hu; cases hu
    | opened _ _ _ hreads => exact hreads
    -- Starting a probe would require that the time has passed.
    | started v hv hpassed =>
      obtain rfl := Option.some.inj (hu.symm.trans hv)
      exact absurd hpassed (not_le.mpr hlt)
    | ended _ _ _ _ _ _ _ _ hreads => exact hreads
  · cases @step_move cooldown_seconds w a with
    | idle _ _ _ hsame =>
      refine absurd (hsame.resolve_right fun hnone => ?_) hreads
      rw [hnone] at hopen
      cases hopen
    | opened _ _ _ hsame => exact absurd hsame hreads
    | started _ _ _ _ _ _ i hnew hprobing =>
      exact ⟨i, hnew, by rw [hprobing, decide_eq_true rfl, Bool.or_true]⟩
    | ended _ _ _ _ _ _ _ _ hsame => exact absurd hsame hreads
  · -- The circuit is closed by the answer of a probe and by nothing else.
    cases @step_move cooldown_seconds w a with
    | idle hcircuit =>
      rw [hcircuit] at hclosed
      rw [hclosed] at hopen
      cases hopen
    | opened hcircuit =>
      rw [hcircuit] at hclosed
      cases hclosed
    | started u hu _ _ hcircuit =>
      rw [hcircuit] at hclosed
      rw [hclosed] at hopen
      cases hopen
    -- A failed probe leaves the circuit open.
    | ended i reply wall_time hact hprobe hcircuit =>
      refine ⟨i, ?_⟩
      cases reply with
      | answer raw => exact ⟨raw, wall_time, hact, hprobe⟩
      | failure kind =>
        rw [hcircuit, settle_open_until _ _ rfl] at hclosed
        split_ifs at hclosed
        rw [hclosed] at hopen
        cases hopen
      | exception =>
        rw [hcircuit, settle_open_until _ _ rfl] at hclosed
        split_ifs at hclosed
        rw [hclosed] at hopen
        cases hopen

/-- A probe that Redis rejects is followed by the next probe at once. -/
theorem rejected_probe_probes_again : ¬ ∀ (acts : List Act) (i : ℕ) (reply : Reply) (wall_time : ℚ),
    (run 5 (World.initial 0) acts).probing i = true → reply.succeeds = false →
      (step 5 (run 5 (World.initial 0) acts) (.reply i reply wall_time)).waits 5
        (run 5 (World.initial 0) acts).now := by
  intro h
  have hwaits := h [.call (.lookup "menus" 1), .reply 0 (.failure .CONNECTION) 0, .tick 5,
    .call (.lookup "menus" 1)] 1 (.failure .COMMAND) 0 (by decide +kernel) rfl
  have hnext := hwaits [] (.call (.lookup "menus" 1)) ⟨2, by decide +kernel, by decide +kernel⟩
  revert hnext
  decide +kernel

end RestaurantOS.Catalog.MenuCache
