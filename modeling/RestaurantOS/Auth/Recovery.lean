import Mathlib.Tactic.Linarith
import RestaurantOS.Auth.LocalLimiter

/-!
# Recovery of the limiter

Which calls are at a probe, and what has happened to the mode since the last degradation. A step of
the limiter does one of six things to its mode (`Move`); `Steady` is what each of them keeps. A
success counts only for a probe of the current generation, which is one that was sent after the last
degradation, and the probes of a generation are sent five seconds apart.
-/

namespace RestaurantOS.Auth.LocalLimiter

open RateLimit (Script Execution Mode)

/-! ## What a step does to the mode -/

/-- A probe is in flight, or its outcome has just been recorded. -/
def Phase.at_probe : Phase → Bool
  | .probing _ | .probed _ => true
  | _ => false

namespace World

/-- Where a call is. It is `none` for a call that has not been entered. -/
def phase_at (w : World) (i : ℕ) : Option Phase := (w.calls[i]?).map (·.phase)

/-- The phases after a call moves on. The other calls stay where they are. -/
theorem phase_at_modify (w : World) (f : Call → Call) {i : ℕ} {p : Phase}
    (hf : ∀ call, (f call).phase = p) (j : ℕ) :
    phase_at { w with calls := w.calls.modify i f } j =
      if i = j then (w.phase_at j).map fun _ => p else w.phase_at j := by
  unfold phase_at
  rw [List.getElem?_modify]
  split_ifs
  · cases w.calls[j]? with
    | none => rfl
    | some call => simp [hf]
  · cases w.calls[j]? <;> rfl

/-- The phases after a call moves on. -/
theorem phase_at_move (w : World) (i : ℕ) (p : Phase) (j : ℕ) :
    (w.move i p).phase_at j = if i = j then (w.phase_at j).map fun _ => p else w.phase_at j :=
  phase_at_modify w (fun call => { call with phase := p }) (fun _ => rfl) j

/-- The phases after a call sends a command. -/
theorem phase_at_send (w : World) (i : ℕ) (p : Phase) (script : Script) (j : ℕ) :
    (w.send i p script).phase_at j = if i = j then (w.phase_at j).map fun _ => p else w.phase_at j :=
  phase_at_modify w (fun call => { call with phase := p, sent := some script, answer := none })
    (fun _ => rfl) j

end World

/-- Calls that are at no probe move on, or a call is entered. -/
def Calm (w w' : World) : Prop :=
  ∀ i, w'.phase_at i = w.phase_at i ∨ (w.phase_at i = none ∧ w'.phase_at i = some .entered) ∨
    ∃ p p', w.phase_at i = some p ∧ w'.phase_at i = some p' ∧ p.at_probe = false ∧
      p'.at_probe = false ∧ p' ≠ .entered

/-- One call moves from one phase to another. -/
def Moves (w w' : World) (i : ℕ) (p p' : Phase) : Prop :=
  w.phase_at i = some p ∧ ∀ j, w'.phase_at j = if i = j then some p' else w.phase_at j

/-- What a step does to the mode of the limiter. -/
inductive Move (w w' : World) : Prop
  | calm (hcalm : Calm w w') (hnow : w.now ≤ w'.now)
      (hstate : w'.state = { w.state with entries := w'.state.entries }) (hevents : w'.events = w.events)
  | degraded {reading : Reading} (hreads : w.reads reading) (hcalm : Calm w w')
      (hnow : w'.now = reading.second) (hstate : w'.state = w.state.degrade reading)
      (hevents : w'.events = .degraded reading.second :: w.events)
  | started {reading : Reading} (hreads : w.reads reading) (i : ℕ)
      (hmoves : Moves w w' i .entered (.probing w.state.generation)) (hnow : w'.now = reading.second)
      (hprobe : w.state.probe reading = true)
      (hstate : w'.state = { w.state with
        probing := true
        next_probe := reading.second + 5 })
      (hevents : w'.events = .probe_started i reading.second :: w.events)
  | succeeded {reading : Reading} (hreads : w.reads reading) (i generation : ℕ)
      (hmoves : Moves w w' i (.probing generation) (.probed false)) (hnow : w'.now = reading.second)
      (hstate : w'.state = w.state.succeed generation)
      (hevents : w'.events = .probe_succeeded i reading.second :: w.events)
  | failed {reading : Reading} (hreads : w.reads reading) (i generation : ℕ) (raises : Bool)
      (hmoves : Moves w w' i (.probing generation) (.probed raises)) (hnow : w'.now = reading.second)
      (hstate : w'.state = w.state.degrade reading)
      (hevents : w'.events = .degraded reading.second :: w.events)
  | cleared (i : ℕ) (raises : Bool) (p : Phase) (hp : p.at_probe = false) (hentered : p ≠ .entered)
      (hmoves : Moves w w' i (.probed raises) p) (hnow : w.now ≤ w'.now)
      (hstate : w'.state = { w.state with probing := false }) (hevents : w'.events = w.events)

/-- Nothing moves. -/
theorem Move.refl (w : World) : Move w w := .calm (fun _ => Or.inl rfl) le_rfl rfl rfl

variable {config : Config} {w : World} {reading : Reading} {i : ℕ} {p : Phase}

/-- A call at no probe moves on. No other call moves, so no probe begins or ends. -/
theorem calm_of_phases {w' : World} {p' : Phase} (hphase : w.phase_at i = some p)
    (hp : p.at_probe = false) (hp' : p'.at_probe = false) (hentered : p' ≠ .entered)
    (h : ∀ j, w'.phase_at j = if i = j then (w.phase_at j).map fun _ => p' else w.phase_at j) :
    Calm w w' := by
  intro j
  rw [h]
  by_cases hij : i = j
  · subst hij
    rw [if_pos rfl]
    exact Or.inr (Or.inr ⟨p, p', hphase, by rw [hphase]; rfl, hp, hp', hentered⟩)
  · rw [if_neg hij]
    exact Or.inl rfl

/-- A call moves between two phases. No other call moves. -/
theorem moves_of_phases {w' : World} {p' : Phase} (hphase : w.phase_at i = some p)
    (h : ∀ j, w'.phase_at j = if i = j then (w.phase_at j).map fun _ => p' else w.phase_at j) :
    Moves w w' i p p' := by
  refine ⟨hphase, fun j => ?_⟩
  rw [h]
  split_ifs with hij
  · subst hij
    rw [hphase]
    rfl
  · rfl

/-- `_local_admit` changes the buckets, and the call goes on in one of two ways. -/
theorem admit_locally_rule {P : World → Prop} {keys : List String} {identifier : String}
    {guard : Bool} {next : Bool → World → World} {rejected : World → World}
    (hnext : ∀ is_local entries,
      P (next is_local { w with state := { w.state with entries := entries } }))
    (hrejected : ∀ entries, P (rejected { w with state := { w.state with entries := entries } })) :
    P (w.admit_locally config reading keys identifier guard next rejected) := by
  unfold World.admit_locally
  dsimp only
  split
  · exact hnext _ _
  · exact hrejected _

/-- A call at no probe moves on, and only the buckets change. -/
theorem move_of_phases {w' : World} (p' : Phase) (hphase : w.phase_at i = some p)
    (hp : p.at_probe = false) (hp' : p'.at_probe = false) (hentered : p' ≠ .entered)
    (hnow : w.now ≤ w'.now) (hstate : w'.state = { w.state with entries := w'.state.entries })
    (hevents : w'.events = w.events)
    (h : ∀ j, w'.phase_at j = if i = j then (w.phase_at j).map fun _ => p' else w.phase_at j) :
    Move w w' :=
  .calm (calm_of_phases hphase hp hp' hentered h) hnow hstate hevents

/-- A critical section of a call does one of the six things. Only the first section of an admission
and the end of its probe touch the state of the mode. -/
theorem critical_move (hreads : w.reads reading) {request : Request} (hphase : w.phase_at i = some p) :
    Move w ({ w with now := reading.second }.critical config i reading request p) := by
  have hnow : w.now ≤ reading.second := hreads.1.trans hreads.2
  -- What the call does to the buckets is no matter here, so its phase is all that counts.
  have hreturn : ∀ (entries : Entries) (admission : Admission), p.at_probe = false →
      Move w (World.return_admission { w with
        now := reading.second
        state := { w.state with entries := entries } } i admission) := fun entries admission hp =>
    move_of_phases .returned hphase hp rfl (by simp) hnow rfl rfl
      (World.phase_at_move _ i .returned)
  have hmove : ∀ (entries : Entries) (counted : List (String × String)) (p' : Phase),
      p.at_probe = false → p'.at_probe = false → p' ≠ .entered →
      Move w (World.move { w with
        now := reading.second
        state := { w.state with entries := entries }
        counted := counted } i p') := fun entries counted p' hp hp' hentered =>
    move_of_phases p' hphase hp hp' hentered hnow rfl rfl (World.phase_at_move _ i p')
  have hsend : ∀ (entries : Entries) (counted : List (String × String)) (p' : Phase) (script : Script),
      p.at_probe = false → p'.at_probe = false → p' ≠ .entered →
      Move w (World.send { w with
        now := reading.second
        state := { w.state with entries := entries }
        counted := counted } i p' script) := fun entries counted p' script hp hp' hentered =>
    move_of_phases p' hphase hp hp' hentered hnow rfl rfl (World.phase_at_send _ i p' script)
  have hidle : Move w { w with now := reading.second } :=
    .calm (fun _ => Or.inl rfl) hnow rfl rfl
  cases request with
  | admission identifier probe_identifier keys =>
    cases p with
    -- The call starts a probe, or chooses its way.
    | entered =>
      unfold World.critical
      dsimp only
      split_ifs with hprobe
      · exact .started hreads i (moves_of_phases hphase (World.phase_at_send _ i _ _)) rfl hprobe rfl rfl
      · exact hmove w.state.entries w.counted _ rfl rfl (by simp)
    -- The end of the probe takes the flag down.
    | probed raises =>
      refine .cleared i raises (if raises then .raised else .cleared) ?_ ?_
        (moves_of_phases hphase (World.phase_at_move _ i _)) hnow rfl rfl
      · cases raises <;> rfl
      · cases raises <;> simp
    | cleared => exact hmove w.state.entries w.counted _ rfl rfl (by simp)
    | chosen degraded =>
      cases degraded with
      | true =>
        unfold World.critical
        refine admit_locally_rule (P := Move w) (fun _ entries => ?_) (fun entries => ?_)
        · exact hreturn entries _ rfl
        · exact hmove entries w.counted .raised rfl rfl (by simp)
      | false =>
        unfold World.critical
        refine admit_locally_rule (P := Move w) (fun is_local entries => ?_) (fun entries => ?_)
        · exact hsend entries w.counted (.admitting is_local) _ rfl rfl (by simp)
        · exact hmove entries w.counted .raised rfl rfl (by simp)
    | withdrawing => exact hmove _ _ .raised rfl rfl (by simp)
    | failing => exact hmove _ _ .falling rfl rfl (by simp)
    | falling =>
      unfold World.critical
      refine admit_locally_rule (P := Move w) (fun _ entries => ?_) (fun entries => ?_)
      · exact hreturn entries _ rfl
      · exact hmove entries w.counted .raised rfl rfl (by simp)
    | _ => exact hidle
  | finalize admission count discard =>
    cases p with
    | entered =>
      change Move w (if admission.redis then _ else _)
      by_cases hredis : admission.redis
      · rw [if_pos hredis]
        exact hsend _ _ .finalizing _ rfl rfl (by simp)
      · rw [if_neg hredis]
        exact hmove _ _ .returned rfl rfl (by simp)
    | recounting =>
      unfold World.critical
      refine admit_locally_rule (P := Move w) (fun _ entries => ?_) (fun entries => ?_)
      · exact hmove entries w.counted .recounted rfl rfl (by simp)
      · exact hmove entries w.counted .returned rfl rfl (by simp)
    | recounted => exact hmove _ _ .returned rfl rfl (by simp)
    | _ => exact hidle

/-- A reply to a call does one of the six things. -/
theorem reply_move (hreads : w.reads reading) {request : Request} {reply : Reply} {result : ℕ}
    (hphase : w.phase_at i = some p) :
    Move w ({ w with now := reading.second }.reply i reading reply result request p) := by
  have hnow : w.now ≤ reading.second := hreads.1.trans hreads.2
  have hidle : Move w { w with now := reading.second } :=
    .calm (fun _ => Or.inl rfl) hnow rfl rfl
  have hmove : ∀ p' : Phase, p.at_probe = false → p'.at_probe = false → p' ≠ .entered →
      Move w (World.move { w with now := reading.second } i p') := fun p' hp hp' hentered =>
    move_of_phases p' hphase hp hp' hentered hnow rfl rfl (World.phase_at_move _ i p')
  -- A failure of Redis degrades the mode, whichever command has failed.
  have hdegrade : ∀ p' : Phase, p.at_probe = false → p'.at_probe = false → p' ≠ .entered →
      Move w (({ w with now := reading.second } : World).degrade reading |>.move i p') :=
    fun p' hp hp' hentered => .degraded hreads
      (calm_of_phases hphase hp hp' hentered (World.phase_at_move _ i p')) rfl rfl rfl
  cases request with
  | admission identifier probe_identifier keys =>
    cases p with
    -- The probe has succeeded, failed or been cancelled; only an expected answer is a success.
    | probing generation =>
      have hfailed : ∀ raises, Move w (({ w with now := reading.second } : World).degrade reading
          |>.move i (.probed raises)) := fun raises =>
        .failed hreads i generation raises (moves_of_phases hphase (World.phase_at_move _ i _)) rfl rfl
          rfl
      cases reply with
      | answer =>
        unfold World.reply
        dsimp only
        split_ifs
        · exact .succeeded hreads i generation
            (moves_of_phases hphase (World.phase_at_move _ i _)) rfl rfl rfl
        · exact hfailed false
      | garbage => exact hfailed false
      | failure => exact hfailed false
      | cancelled => exact hfailed true
    -- An admission whose command fails degrades the mode before it falls back.
    | admitting is_local =>
      cases reply with
      | answer =>
        unfold World.reply
        dsimp only
        split_ifs
        · exact move_of_phases .returned hphase rfl rfl (by simp) hnow rfl rfl
            (World.phase_at_move _ i .returned)
        · exact hmove .withdrawing rfl rfl (by simp)
      | garbage => exact hdegrade .failing rfl rfl (by simp)
      | failure => exact hdegrade .failing rfl rfl (by simp)
      | cancelled => exact hmove .withdrawing rfl rfl (by simp)
    | _ => exact hidle
  | finalize admission count discard =>
    cases p with
    | finalizing =>
      cases reply with
      | answer => exact hmove .returned rfl rfl (by simp)
      | garbage => exact hmove .returned rfl rfl (by simp)
      -- So does a finalization.
      | failure =>
        cases count with
        | true => exact hdegrade .recounting rfl rfl (by simp)
        | false => exact hdegrade .returned rfl rfl (by simp)
      | cancelled => exact hmove .raised rfl rfl (by simp)
    | _ => exact hidle

/-- Every step does one of the six things. They are what the recovery can see of a step. -/
theorem step_move (config : Config) (w : World) (a : Act) : Move w (w.step config a) := by
  cases a with
  | call request =>
    unfold World.step
    dsimp only
    split_ifs
    · -- A new call is at no probe.
      refine .calm (fun i => ?_) le_rfl rfl rfl
      rcases lt_trichotomy i w.calls.length with hlt | rfl | hgt
      · exact Or.inl (by unfold World.phase_at; rw [List.getElem?_append_left hlt])
      · exact Or.inr (Or.inl ⟨by unfold World.phase_at; simp, by unfold World.phase_at; simp⟩)
      · refine Or.inl ?_
        unfold World.phase_at
        rw [List.getElem?_eq_none (by simp; omega), List.getElem?_eq_none (by omega)]
    · exact .refl w
  | proceed i reading =>
    unfold World.step
    dsimp only
    split
    · rename_i call hcall
      split_ifs with hreads
      · exact critical_move hreads (by unfold World.phase_at; rw [hcall]; rfl)
      · exact .refl w
    · exact .refl w
  | execute i now =>
    unfold World.step
    dsimp only
    split
    · split_ifs
      · -- A script that runs in Redis moves no phase.
        refine .calm (fun j => Or.inl ?_) le_rfl rfl rfl
        unfold World.phase_at
        rw [List.getElem?_modify]
        split_ifs
        · cases w.calls[j]? <;> rfl
        · cases w.calls[j]? <;> rfl
      · exact .refl w
    · exact .refl w
  | other execution =>
    unfold World.step
    dsimp only
    split_ifs
    · exact .refl w
    · exact .calm (fun _ => Or.inl rfl) le_rfl rfl rfl
  | reply i reply reading redis_now =>
    unfold World.step
    dsimp only
    split
    · rename_i call hcall
      -- The reply goes to a call that is known, at its phase.
      have hphase : w.phase_at i = some call.phase := by
        unfold World.phase_at
        rw [hcall]
        rfl
      split_ifs with hreads
      · split
        · exact .refl w
        · split_ifs
          · exact reply_move hreads hphase
          · exact .refl w
        · exact reply_move hreads hphase
      · exact .refl w
    · exact .refl w

/-! ## What has happened since the last degradation -/

/-- When an event happened. Times are readings of the monotonic clock. -/
def Event.time : Event → ℚ
  | .degraded time | .probe_started _ time | .probe_succeeded _ time => time

/-- A degradation, or the start of a probe. -/
def Event.paced : Event → Bool
  | .degraded _ | .probe_started _ _ => true
  | .probe_succeeded _ _ => false

/-- When the limiter was degraded last. The events come with the latest first. -/
def last_degradation : List Event → Option ℚ
  | [] => none
  | .degraded time :: _ => some time
  | .probe_started _ _ :: events | .probe_succeeded _ _ :: events => last_degradation events

/-- The calls that have sent a probe since the last degradation. -/
def started : List Event → List ℕ
  | [] | .degraded _ :: _ => []
  | .probe_started i _ :: events => i :: started events
  | .probe_succeeded _ _ :: events => started events

/-- The calls whose probe was sent and has succeeded since the last degradation. -/
def completed : List Event → List ℕ
  | [] | .degraded _ :: _ => []
  | .probe_started _ _ :: events => completed events
  | .probe_succeeded i _ :: events =>
    if i ∈ started events then i :: completed events else completed events

/-- Only probes that were sent are completed. A success is counted only for a probe that was started
after the last degradation. -/
theorem completed_subset : ∀ events, completed events ⊆ started events
  | [] => List.Subset.refl _
  | .degraded _ :: _ => List.Subset.refl _
  | .probe_started i _ :: events => fun _ h => List.mem_cons_of_mem i (completed_subset events h)
  | .probe_succeeded i _ :: events => by
    change (if i ∈ started events then i :: completed events else completed events) ⊆ started events
    split_ifs with h
    · exact List.cons_subset.mpr ⟨h, completed_subset events⟩
    · exact completed_subset events

/-- Probes are sent five seconds apart, and five seconds after a degradation. -/
def Spaced (events : List Event) : Prop :=
  events.Pairwise fun later earlier =>
    ∀ i t, later = .probe_started i t → earlier.paced = true → earlier.time + 5 ≤ t

/-! ## The invariant -/

/-- What every step keeps. It is the invariant of the recovery, and speaks of the flag, the probes
and the count. -/
structure Steady (w : World) : Prop where
  /-- Events are past. -/
  past : ∀ e ∈ w.events, e.time ≤ w.now
  /-- A call at a probe has set the flag. -/
  flagged : ∀ i p, w.phase_at i = some p → p.at_probe = true → w.state.probing = true
  /-- At most one call is at a probe. -/
  alone : ∀ i j p q, w.phase_at i = some p → p.at_probe = true → w.phase_at j = some q →
    q.at_probe = true → i = j
  /-- A call has sent no probe before its first critical section. -/
  fresh : ∀ i, w.phase_at i = none ∨ w.phase_at i = some .entered → i ∉ started w.events
  /-- A probe of the current generation was sent since the last degradation, and has not succeeded. -/
  current : ∀ i g, w.phase_at i = some (.probing g) →
    g ≤ w.state.generation ∧ (g = w.state.generation ↔ i ∈ started w.events) ∧
      i ∉ completed w.events
  /-- The successes are counted. -/
  counted : w.state.successes = (completed w.events).length
  /-- No probe is counted twice. -/
  nodup : (completed w.events).Nodup
  /-- A degraded limiter was degraded, and has counted fewer than three successes. -/
  degraded : w.state.degraded_at.isSome = true →
    w.state.successes < 3 ∧ (last_degradation w.events).isSome = true
  /-- The next probe is five seconds from the last, and from the last degradation. -/
  paced : ∀ e ∈ w.events, e.paced = true → e.time + 5 ≤ w.state.next_probe
  /-- So are all probes. -/
  spaced : Spaced w.events
  /-- The probes since the last degradation took their time. -/
  slow : ∀ t, last_degradation w.events = some t →
    t + 5 * (started w.events).length ≤ w.now ∧
      t + 5 * (started w.events).length + 5 ≤ w.state.next_probe

/-- The invariant holds at the start. There are neither calls nor events. -/
theorem Steady.initial : Steady .initial where
  past e he := by cases he
  flagged i p h := by cases h
  alone i j p q h := by cases h
  fresh i h hi := by cases hi
  current i g h := by cases h
  counted := rfl
  nodup := List.nodup_nil
  degraded h := by cases h
  paced e he := by cases he
  spaced := List.Pairwise.nil
  slow t ht := by cases ht

/-! ## The invariant is kept -/

/-- No call sends a probe. It is what the steps other than those of the admission do. -/
structure Quiet (w w' : World) : Prop where
  /-- Calls at a probe were at one. -/
  at_probe : ∀ i p', w'.phase_at i = some p' → p'.at_probe = true →
    ∃ p, w.phase_at i = some p ∧ p.at_probe = true
  /-- Calls that wait for a probe waited for it. -/
  probing : ∀ i g, w'.phase_at i = some (.probing g) → w.phase_at i = some (.probing g)
  /-- No call is back before its first critical section. -/
  fresh : ∀ i, w'.phase_at i = none ∨ w'.phase_at i = some .entered →
    w.phase_at i = none ∨ w.phase_at i = some .entered

/-- A calm step is quiet. What a quiet step leaves alone is all the invariant speaks of. -/
theorem Calm.quiet {w' : World} (h : Calm w w') : Quiet w w' := by
  have hback : ∀ i p, w'.phase_at i = some p → p.at_probe = true → w.phase_at i = some p := by
    intro i p hphase hp
    rcases h i with heq | ⟨-, heq⟩ | ⟨q, q', -, heq, -, hq', -⟩
    · rw [← heq]
      exact hphase
    · rw [hphase, Option.some_inj] at heq
      rw [heq] at hp
      cases hp
    · rw [hphase, Option.some_inj] at heq
      rw [heq, hq'] at hp
      cases hp
  refine ⟨fun i p hphase hp => ⟨p, hback i p hphase hp, hp⟩, fun i g hphase => hback i _ hphase rfl,
    fun i hphase => ?_⟩
  rcases h i with heq | ⟨hnone, -⟩ | ⟨q, q', -, heq, -, -, hq'⟩
  · rw [← heq]
    exact hphase
  · exact Or.inl hnone
  · rw [heq] at hphase
    rcases hphase with hphase | hphase
    · cases hphase
    · exact absurd (Option.some_inj.mp hphase) hq'

/-- A step in which a call leaves its probe is quiet. -/
theorem Moves.quiet {w' : World} {p' : Phase} (h : Moves w w' i p p') (hp : p.at_probe = true)
    (hp' : ∀ g, p' ≠ .probing g) (hentered : p' ≠ .entered) : Quiet w w' := by
  obtain ⟨hphase, hphases⟩ := h
  refine ⟨fun j q hq hprobe => ?_, fun j g hq => ?_, fun j hq => ?_⟩
  · by_cases hij : i = j
    · exact ⟨p, hij ▸ hphase, hp⟩
    · rw [hphases, if_neg hij] at hq
      exact ⟨q, hq, hprobe⟩
  · rw [hphases] at hq
    split_ifs at hq with hij
    · exact absurd (Option.some_inj.mp hq) (hp' g)
    · exact hq
  · rw [hphases] at hq
    split_ifs at hq with hij
    · rcases hq with hq | hq
      · cases hq
      · exact absurd (Option.some_inj.mp hq) hentered
    · exact hq

/-- Without a new probe, one call is at a probe at most. -/
theorem Quiet.alone {w' : World} (hquiet : Quiet w w') (h : Steady w) (i j : ℕ) (p q : Phase)
    (hi : w'.phase_at i = some p) (hp : p.at_probe = true) (hj : w'.phase_at j = some q)
    (hq : q.at_probe = true) : i = j := by
  obtain ⟨p', hi', hp'⟩ := hquiet.at_probe i p hi hp
  obtain ⟨q', hj', hq'⟩ := hquiet.at_probe j q hj hq
  exact h.alone i j p' q' hi' hp' hj' hq'

namespace Steady

variable {w' : World}

/-- The invariant is kept where the mode does not change. -/
theorem calm (h : Steady w) (hquiet : Quiet w w') (hnow : w.now ≤ w'.now)
    (hflag : ∀ i p, w'.phase_at i = some p → p.at_probe = true → w'.state.probing = true)
    (hstate : w'.state = { w.state with
      entries := w'.state.entries
      probing := w'.state.probing })
    (hevents : w'.events = w.events) : Steady w' where
  past e he := (h.past e (hevents ▸ he)).trans hnow
  flagged := hflag
  alone := hquiet.alone h
  fresh i hi := hevents ▸ h.fresh i (hquiet.fresh i hi)
  current i g hi := by
    rw [hstate, hevents]
    exact h.current i g (hquiet.probing i g hi)
  counted := by
    rw [hstate, hevents]
    exact h.counted
  nodup := hevents ▸ h.nodup
  degraded := by
    rw [hstate, hevents]
    exact h.degraded
  paced := by
    rw [hstate, hevents]
    exact h.paced
  spaced := hevents ▸ h.spaced
  slow t ht := by
    rw [hstate, hevents]
    obtain ⟨hslow, hnext⟩ := h.slow t (hevents ▸ ht)
    exact ⟨hslow.trans hnow, hnext⟩

/-- A degradation keeps the invariant. The probes are counted from it on, and the next one is put
off by five seconds. -/
theorem degrade (h : Steady w) (hreads : w.reads reading) (hquiet : Quiet w w')
    (hnow : w'.now = reading.second) (hstate : w'.state = w.state.degrade reading)
    (hevents : w'.events = .degraded reading.second :: w.events) : Steady w' where
  past e he := by
    rw [hnow]
    rw [hevents] at he
    rcases List.mem_cons.mp he with rfl | he
    · exact le_rfl
    · exact (h.past e he).trans (hreads.1.trans hreads.2)
  flagged i p hi hp := by
    rw [hstate]
    obtain ⟨q, hq, hprobe⟩ := hquiet.at_probe i p hi hp
    exact h.flagged i q hq hprobe
  alone := hquiet.alone h
  fresh i _ := by
    rw [hevents]
    exact List.not_mem_nil
  current i g hi := by
    -- The generation of every probe in flight is over.
    have hle := (h.current i g (hquiet.probing i g hi)).1
    have hlt : g < w.state.generation + 1 := Nat.lt_succ_of_le hle
    rw [hstate, hevents]
    exact ⟨hlt.le, ⟨fun heq => absurd heq hlt.ne, fun hmem => absurd hmem List.not_mem_nil⟩,
      List.not_mem_nil⟩
  counted := by
    rw [hstate, hevents]
    rfl
  nodup := by
    rw [hevents]
    exact List.nodup_nil
  degraded _ := by
    rw [hstate, hevents]
    exact ⟨Nat.succ_pos 2, rfl⟩
  paced e he _ := by
    rw [hstate]
    change e.time + 5 ≤ reading.second + 5
    rw [hevents] at he
    rcases List.mem_cons.mp he with rfl | he
    · exact le_rfl
    · have hpast := h.past e he
      linarith [hreads.1, hreads.2]
  spaced := by
    rw [hevents]
    exact List.pairwise_cons.mpr ⟨fun e _ i t heq => (by cases heq), h.spaced⟩
  slow t ht := by
    rw [hevents] at ht
    rw [hstate, hnow, hevents, ← Option.some_inj.mp ht]
    exact ⟨by simp [started], by simp [started, State.degrade]⟩

/-- Sending a probe keeps the invariant. No other probe is in flight, and the last one was at least
five seconds before. -/
theorem start (h : Steady w) (hreads : w.reads reading)
    (hmoves : Moves w w' i .entered (.probing w.state.generation)) (hnow : w'.now = reading.second)
    (hprobe : w.state.probe reading = true)
    (hstate : w'.state = { w.state with
      probing := true
      next_probe := reading.second + 5 })
    (hevents : w'.events = .probe_started i reading.second :: w.events) : Steady w' := by
  obtain ⟨hphase, hphases⟩ := hmoves
  unfold State.probe at hprobe
  rw [Bool.and_eq_true, Bool.and_eq_true, Bool.not_eq_true', decide_eq_true_eq] at hprobe
  -- The guard of the source: degraded, no probe under way, and the next one due.
  obtain ⟨⟨hdegraded, hflag⟩, hnext⟩ := hprobe
  -- No other call is at a probe, since the flag was not set.
  have hnone : ∀ j p, w.phase_at j = some p → p.at_probe = true → False := fun j p hj hp => by
    rw [h.flagged j p hj hp] at hflag
    cases hflag
  have honly : ∀ j p, w'.phase_at j = some p → p.at_probe = true → i = j := fun j p hj hp => by
    by_contra hij
    rw [hphases, if_neg hij] at hj
    exact hnone j p hj hp
  have hfresh : i ∉ started w.events := h.fresh i (Or.inr hphase)
  have hlater : w.now ≤ reading.second := hreads.1.trans hreads.2
  refine ⟨fun e he => ?_, fun _ _ _ _ => by rw [hstate], fun j k p q hj hp hk hq => ?_,
    fun j hj => ?_, fun j g hj => ?_, ?_, ?_, ?_, fun e he _ => ?_, ?_, fun t ht => ?_⟩
  · -- The new event is of now, and the earlier ones are of the past.
    rw [hnow]
    rw [hevents] at he
    rcases List.mem_cons.mp he with rfl | he
    · exact le_rfl
    · exact (h.past e he).trans hlater
  · exact (honly j p hj hp).symm.trans (honly k q hk hq)
  · -- A call that has not entered has started nothing.
    rw [hevents]
    rw [hphases] at hj
    split_ifs at hj with hij
    · rcases hj with hj | hj <;> cases hj
    · exact List.not_mem_cons_of_ne_of_not_mem (fun heq => hij heq.symm) (h.fresh j hj)
  · have hij : i = j := honly j _ hj rfl
    subst hij
    rw [hphases, if_pos rfl, Option.some_inj, Phase.probing.injEq] at hj
    rw [hstate, hevents, ← hj]
    exact ⟨le_rfl, ⟨fun _ => List.mem_cons_self, fun _ => rfl⟩, fun hmem =>
      hfresh (completed_subset _ hmem)⟩
  · rw [hstate, hevents]
    exact h.counted
  · rw [hevents]
    exact h.nodup
  · rw [hstate, hevents]
    exact h.degraded
  · -- The next probe is five seconds away, and so it was for every event before.
    rw [hstate]
    change e.time + 5 ≤ reading.second + 5
    rw [hevents] at he
    rcases List.mem_cons.mp he with rfl | he
    · exact le_rfl
    · have hpast := h.past e he
      linarith
  · -- The probe starts no earlier than five seconds after the event that paces it.
    rw [hevents]
    refine List.pairwise_cons.mpr ⟨fun e he j t heq hpaced => ?_, h.spaced⟩
    rw [Event.probe_started.injEq] at heq
    have hpaced' := h.paced e he hpaced
    linarith [heq.2, hreads.2]
  · -- One more probe has started, and five more seconds have passed since.
    rw [hevents] at ht
    obtain ⟨-, hslow⟩ := h.slow t ht
    rw [hstate, hnow, hevents]
    change t + 5 * ((started w.events).length + 1 : ℕ) ≤ reading.second ∧
      t + 5 * ((started w.events).length + 1 : ℕ) + 5 ≤ reading.second + 5
    push_cast
    constructor
    · linarith [hreads.2]
    · linarith [hreads.2]

/-- The success of a probe keeps the invariant. It is counted if nothing was degraded meanwhile, and
the third one ends the degradation. -/
theorem succeed (h : Steady w) (hreads : w.reads reading) {generation : ℕ}
    (hmoves : Moves w w' i (.probing generation) (.probed false)) (hnow : w'.now = reading.second)
    (hstate : w'.state = w.state.succeed generation)
    (hevents : w'.events = .probe_succeeded i reading.second :: w.events) : Steady w' := by
  have hquiet : Quiet w w' := hmoves.quiet rfl (by simp) (by simp)
  obtain ⟨-, hcurrent, hpending⟩ := h.current i generation hmoves.1
  have hlater : w.now ≤ reading.second := hreads.1.trans hreads.2
  -- A success leaves generation, flag and time of the next probe alone.
  have hkept : w'.state.generation = w.state.generation ∧ w'.state.probing = w.state.probing ∧
      w'.state.next_probe = w.state.next_probe := by
    rw [hstate]
    unfold State.succeed
    by_cases heq : generation = w.state.generation
    · rw [if_pos heq]
      exact ⟨rfl, rfl, rfl⟩
    · rw [if_neg heq]
      exact ⟨rfl, rfl, rfl⟩
  -- The probe counts as completed only if it was started since the last degradation.
  have hcompleted : completed w'.events =
      if i ∈ started w.events then i :: completed w.events else completed w.events := by
    rw [hevents]
    rfl
  refine ⟨fun e he => ?_, fun j p hj hp => ?_, hquiet.alone h, fun j hj => ?_, fun j g hj => ?_, ?_,
    ?_, fun hdegraded => ?_, fun e he hpaced => ?_, ?_, fun t ht => ?_⟩
  · rw [hnow]
    rw [hevents] at he
    rcases List.mem_cons.mp he with rfl | he
    · exact le_rfl
    · exact (h.past e he).trans hlater
  · rw [hkept.2.1]
    obtain ⟨q, hq, hprobe⟩ := hquiet.at_probe j p hj hp
    exact h.flagged j q hq hprobe
  · rw [hevents]
    exact h.fresh j (hquiet.fresh j hj)
  · -- No other call waits for a probe.
    have hij : i = j := h.alone i j _ _ hmoves.1 rfl (hquiet.probing j g hj) rfl
    rw [← hij, hmoves.2, if_pos rfl, Option.some_inj] at hj
    cases hj
  · -- A probe of an earlier generation is not counted.
    rw [hstate, hcompleted]
    unfold State.succeed
    by_cases heq : generation = w.state.generation
    · rw [if_pos heq, if_pos (hcurrent.mp heq)]
      exact congrArg (· + 1) h.counted
    · rw [if_neg heq, if_neg fun hmem => heq (hcurrent.mpr hmem)]
      exact h.counted
  · rw [hcompleted]
    split_ifs
    · exact List.nodup_cons.mpr ⟨hpending, h.nodup⟩
    · exact h.nodup
  · -- With the third success the degraded mode ends; until then it goes on.
    rw [hstate] at hdegraded ⊢
    rw [hevents]
    unfold State.succeed at hdegraded ⊢
    by_cases heq : generation = w.state.generation
    · rw [if_pos heq] at hdegraded ⊢
      dsimp only at hdegraded ⊢
      by_cases hthree : w.state.successes + 1 = 3
      · rw [if_pos hthree] at hdegraded
        cases hdegraded
      · rw [if_neg hthree] at hdegraded
        have hdeg := h.degraded hdegraded
        exact ⟨by omega, hdeg.2⟩
    · rw [if_neg heq] at hdegraded ⊢
      exact h.degraded hdegraded
  · rw [hkept.2.2]
    rw [hevents] at he
    rcases List.mem_cons.mp he with rfl | he
    · cases hpaced
    · exact h.paced e he hpaced
  · rw [hevents]
    exact List.pairwise_cons.mpr ⟨fun e _ j t heq => (by cases heq), h.spaced⟩
  · rw [hevents] at ht
    rw [hkept.2.2, hnow, hevents]
    obtain ⟨hslow, hnext⟩ := h.slow t ht
    exact ⟨hslow.trans hlater, hnext⟩

/-- Every step keeps the invariant. The six cases have a lemma each. -/
theorem move (h : Steady w) (hmove : Move w w') : Steady w' := by
  cases hmove with
  | calm hcalm hnow hstate hevents =>
    have hquiet := hcalm.quiet
    refine h.calm hquiet hnow (fun i p hi hp => ?_) ?_ hevents
    · rw [hstate]
      obtain ⟨q, hq, hprobe⟩ := hquiet.at_probe i p hi hp
      exact h.flagged i q hq hprobe
    · rw [hstate]
  | degraded hreads hcalm hnow hstate hevents =>
    exact h.degrade hreads hcalm.quiet hnow hstate hevents
  | started hreads i hmoves hnow hprobe hstate hevents =>
    exact h.start hreads hmoves hnow hprobe hstate hevents
  | succeeded hreads i generation hmoves hnow hstate hevents =>
    exact h.succeed hreads hmoves hnow hstate hevents
  | failed hreads i generation raises hmoves hnow hstate hevents =>
    exact h.degrade hreads (hmoves.quiet rfl (by simp) (by simp)) hnow hstate hevents
  | cleared i raises p hp hentered hmoves hnow hstate hevents =>
    have hquiet : Quiet w w' := hmoves.quiet rfl (fun g heq => by rw [heq] at hp; cases hp) hentered
    refine h.calm hquiet hnow (fun j q hj hq => ?_) ?_ hevents
    · -- The call that clears the flag was the one at a probe.
      obtain ⟨q', hj', hq'⟩ := hquiet.at_probe j q hj hq
      have hij : i = j := h.alone i j _ _ hmoves.1 rfl hj' hq'
      rw [← hij, hmoves.2, if_pos rfl, Option.some_inj] at hj
      rw [← hj, hp] at hq
      cases hq
    · rw [hstate]

/-- The invariant holds in every run. -/
theorem run (config : Config) (acts : List Act) : Steady (.run config acts) :=
  Transition.run_invariant (fun w a h => h.move (step_move config w a)) initial acts

end Steady

/-! ## Recovery -/

/-- A step that counts a success or ends degraded mode is the success of a probe that was sent since
the last degradation. -/
theorem advance_origin {w' : World} (hmove : Move w w') (h : Steady w)
    (hadvance : w.state.successes < w'.state.successes ∨
      w.state.degraded_at.isSome = true ∧ w'.state.degraded_at.isSome = false) :
    ∃ i generation, w.phase_at i = some (.probing generation) ∧
      w'.phase_at i = some (.probed false) ∧ i ∈ started w.events ∧
      w'.state = w.state.succeed generation ∧ generation = w.state.generation ∧
      ∃ time, w'.events = .probe_succeeded i time :: w.events := by
  -- What leaves the successes and the mode as they are is excluded.
  have hkept : ∀ {state : State}, w'.state = state → state.successes ≤ w.state.successes →
      state.degraded_at.isSome = true ∨ state.degraded_at = w.state.degraded_at → False := by
    rintro state rfl hle hmode
    rcases hadvance with hlt | ⟨hbefore, hafter⟩
    · omega
    · rcases hmode with hmode | hmode
      · rw [hmode] at hafter
        cases hafter
      · rw [hmode, hbefore] at hafter
        cases hafter
  -- A degradation ends in degraded mode.
  have hdegrade : ∀ reading, (w.state.degrade reading).degraded_at.isSome = true := fun reading => by
    change (w.state.degraded_at.or (some reading.first)).isSome = true
    cases w.state.degraded_at <;> rfl
  cases hmove with
  | calm hcalm hnow hstate hevents => exact (hkept hstate le_rfl (Or.inr rfl)).elim
  | degraded hreads hcalm hnow hstate hevents =>
    exact (hkept hstate (Nat.zero_le _) (Or.inl (hdegrade _))).elim
  | started hreads i hmoves hnow hprobe hstate hevents =>
    exact (hkept hstate le_rfl (Or.inr rfl)).elim
  -- The probe is of this generation, since a stale one would have changed nothing.
  | succeeded hreads i generation hmoves hnow hstate hevents =>
    obtain ⟨-, hcurrent, -⟩ := h.current i generation hmoves.1
    by_cases heq : generation = w.state.generation
    · exact ⟨i, generation, hmoves.1, by rw [hmoves.2, if_pos rfl], hcurrent.mp heq, hstate, heq, _,
        hevents⟩
    · unfold State.succeed at hstate
      rw [if_neg heq] at hstate
      exact (hkept hstate le_rfl (Or.inr rfl)).elim
  | failed hreads i generation raises hmoves hnow hstate hevents =>
    exact (hkept hstate (Nat.zero_le _) (Or.inl (hdegrade _))).elim
  | cleared i raises p hp hentered hmoves hnow hstate hevents =>
    exact (hkept hstate le_rfl (Or.inr rfl)).elim

/-- Recovery takes three probes, and fifteen seconds. The probes that completed were started at
least five seconds apart. -/
theorem Steady.recover {w' : World} (h : Steady w) (h' : Steady w') (hmove : Move w w')
    (hbefore : w.state.degraded_at.isSome = true) (hafter : w'.state.degraded_at.isSome = false) :
    (completed w'.events).length = 3 ∧
      ∃ t, last_degradation w'.events = some t ∧ t + 15 ≤ w'.now := by
  obtain ⟨i, generation, -, -, -, hstate, heq, time, hevents⟩ :=
    advance_origin hmove h (Or.inr ⟨hbefore, hafter⟩)
  have hthree : w'.state.successes = 3 := by
    rw [hstate] at hafter ⊢
    unfold State.succeed at hafter ⊢
    rw [if_pos heq] at hafter ⊢
    by_contra hne
    rw [if_neg hne, hbefore] at hafter
    cases hafter
  have hlength : (completed w'.events).length = 3 := h'.counted.symm.trans hthree
  obtain ⟨t, ht⟩ := Option.isSome_iff_exists.mp (h.degraded hbefore).2
  have hlast : last_degradation w'.events = some t := by
    rw [hevents]
    exact ht
  refine ⟨hlength, t, hlast, ?_⟩
  have hslow := (h'.slow t hlast).1
  have hstarted : 3 ≤ (started w'.events).length := by
    rw [← hlength]
    exact (h'.nodup.subperm (completed_subset w'.events)).length_le
  have hcast : (3 : ℚ) ≤ ((started w'.events).length : ℚ) := by exact_mod_cast hstarted
  linarith

/-- In every run at most one probe is in flight, and probes are sent five seconds apart and five
seconds after a degradation. The limiter leaves degraded mode only when the probes of three calls,
all sent since the last degradation, have succeeded, at least fifteen seconds after it; and nothing
but the success of a probe that was sent since the last degradation brings this nearer. -/
theorem recovery_after_three_probes (config : Config) (acts : List Act) :
    let w := World.run config acts
    (∀ i j g g', w.phase_at i = some (.probing g) → w.phase_at j = some (.probing g') → i = j) ∧
    Spaced w.events ∧
    ∀ a, let w' := w.step config a
      (w.state.degraded_at.isSome = true → w'.state.degraded_at.isSome = false →
        (completed w'.events).length = 3 ∧ (completed w'.events).Nodup ∧
          ∃ t, last_degradation w'.events = some t ∧ t + 15 ≤ w'.now) ∧
      (w.state.successes < w'.state.successes ∨
          w.state.degraded_at.isSome = true ∧ w'.state.degraded_at.isSome = false →
        ∃ i g, w.phase_at i = some (.probing g) ∧ w'.phase_at i = some (.probed false) ∧
          i ∈ started w.events) := by
  intro w
  have h : Steady w := .run config acts
  refine ⟨fun i j g g' hi hj => h.alone i j _ _ hi rfl hj rfl, h.spaced, fun a => ?_⟩
  have hmove : Move w (w.step config a) := step_move config w a
  have h' : Steady (w.step config a) := h.move hmove
  refine ⟨fun hbefore hafter => ?_, fun hadvance => ?_⟩
  · obtain ⟨hlength, hlate⟩ := h.recover h' hmove hbefore hafter
    exact ⟨hlength, h'.nodup, hlate⟩
  · obtain ⟨i, g, hi, hi', hstarted, -⟩ := advance_origin hmove h hadvance
    exact ⟨i, g, hi, hi', hstarted⟩

end RestaurantOS.Auth.LocalLimiter
