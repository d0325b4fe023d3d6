import RestaurantOS.Auth.Login
import RestaurantOS.Auth.Settlement

/-!
# The bound on guessing

What every run of the logins keeps. `Shaped` says which commands a login has sent in each of its
phases, and how it decided to count; `Tied` relates its commands to the buckets. A failure is counted
for a login exactly if its counting `FINALIZE` was executed and no compensation was: the reservation
is held until then, because the scripts of other admissions do not touch it, and after a compensation
it is gone, so that a late `FINALIZE` finds nothing to count. The logins that have surfaced a failure
in a window are therefore as many as the failures counted in it, which the bucket bounds.
-/

namespace RestaurantOS.Auth.Login

open RateLimit (Script Execution Recorded Reserved Backed)

/-! ## The buckets of a login -/

/-- The kind of a bucket of a login. The name has no colon, so it ends before the first one. -/
theorem kind_key (lib : Library) (identifiers : List String) {name : String}
    (hname : ':' ∉ name.toList) : kind (_key lib name identifiers) = name := by
  unfold kind _key
  dsimp only
  rw [String.toList_append, String.toList_append, List.append_assoc, List.takeWhile_append_of_pos]
  · rw [show (":" : String).toList = [':'] from rfl, List.singleton_append,
      List.takeWhile_cons_of_neg (by simp), List.append_nil, String.ofList_toList]
  · intro c hc
    exact decide_eq_true fun heq => hname (heq ▸ hc)

/-- The bounds of the bucket of a pair. -/
theorem policy_pair_key (settings : Settings) (lib : Library) (email ip : String) :
    settings.policy (pair_key lib email ip) = settings.pair := by
  unfold Settings.policy pair_key
  rw [kind_key lib _ (by decide), if_pos rfl]

/-- The bounds of the bucket of a network address. -/
theorem policy_ip_key (settings : Settings) (lib : Library) (ip : String) :
    settings.policy (ip_key lib ip) = settings.ip := by
  unfold Settings.policy ip_key
  rw [kind_key lib _ (by decide), if_neg (by decide), if_pos rfl]

/-- The buckets of a login, with the bounds of their keys. So the buckets that the scripts of a login
work on in a world are the ones that the source passes to them. -/
theorem login_buckets_eq (settings : Settings) (lib : Library) (l : State) :
    (login_buckets settings lib l.email l.ip).map (·.toBucket) =
      (l.keys lib).map (RateLimit.Limit.bucket settings.policy) := by
  unfold login_buckets State.keys RateLimit.Limit.bucket
  simp only [List.map_cons, List.map_nil, policy_pair_key, policy_ip_key]

/-! ## The phases of a login -/

/-- A command was executed. Its effect is in Redis, whether or not the reply arrives. -/
def Command.is_executed : Command → Bool
  | .executed _ _ => true
  | _ => false

/-- Redis has admitted the login. Its `ADMIT` was executed and has returned no waiting time. -/
def State.admitted (l : State) : Prop := ∃ now, l.admission = .executed 0 now

/-- Which commands a login has sent in its phase, and what it has decided. -/
def Shaped (l : State) : Prop :=
  match l.phase with
  | .admitting => l.finalization = .unsent ∧ l.compensation = .unsent ∧ l.evaluated = false
  | .finding | .verifying _ | .flushing | .leaving_transaction _ | .closing_session _ =>
    l.admitted ∧ l.finalization = .unsent ∧ l.compensation = .unsent
  | .finishing outcome => l.admitted ∧ l.finalization ≠ .unsent ∧ l.compensation = .unsent ∧
      l.count = decide (outcome = .authentication_error) ∧ ∃ raised, outcome = State.surfaces raised
  | .compensating => l.admitted ∧ l.finalization ≠ .unsent ∧ l.compensation ≠ .unsent
  | .ended .authentication_error =>
    l.admitted ∧ l.finalization.is_executed = true ∧ l.compensation = .unsent ∧ l.count = true
  | .ended (.rate_limited _) =>
    l.finalization = .unsent ∧ l.compensation = .unsent ∧ l.evaluated = false
  | .ended .cancelled => l.finalization = .unsent ∧ l.compensation = .unsent
  | .ended _ => l.admitted ∧ l.finalization ≠ .unsent ∧
      ((l.compensation = .unsent ∧ l.count = false) ∨ l.compensation.is_executed = true)

/-- A login goes from one state to another without Redis: it may send the settlement, with what it has
decided to count, and then the compensation. -/
structure Advances (l l' : State) : Prop where
  /-- The buckets are the same. -/
  email : l'.email = l.email
  /-- The buckets are the same. -/
  ip : l'.ip = l.ip
  /-- The identifier is the same. -/
  identifier : l'.identifier = l.identifier
  /-- The admission is as it was. -/
  admission : l'.admission = l.admission
  /-- The settlement is sent once. -/
  finalization : (l'.finalization = l.finalization ∧ l'.count = l.count) ∨
    (l.finalization = .unsent ∧ l'.finalization = .sent)
  /-- So is the compensation. -/
  compensation : l'.compensation = l.compensation ∨
    (l.compensation = .unsent ∧ l'.compensation = .sent)

/-- A login that only changes its phase advances. -/
theorem Advances.of_phase (l : State) (phase : Phase) (expires : ℚ) (was_cancelled evaluated : Bool) :
    Advances l { l with
      phase := phase
      expires := expires
      was_cancelled := was_cancelled
      evaluated := evaluated } :=
  ⟨rfl, rfl, rfl, rfl, Or.inl ⟨rfl, rfl⟩, Or.inl rfl⟩

variable {lib : Library} {l : State} {now : ℚ}

/-- The end of the deadline. -/
theorem finish_shaped (hadmitted : l.admitted) (hcompensation : l.compensation = .unsent)
    (raised : Option Raised) : Shaped (l.finish now raised) := by
  unfold State.finish Shaped
  exact ⟨hadmitted, by simp, hcompensation, rfl, _, rfl⟩

/-- What surfaces from the deadline is no rejection by the limiter, and no cancellation. -/
theorem surfaces_cases (raised : Option Raised) :
    State.surfaces raised = .success ∨ State.surfaces raised = .authentication_error ∨
      State.surfaces raised = .storage_error ∨ State.surfaces raised = .error := by
  cases raised with
  | none => exact Or.inl rfl
  | some raised => cases raised <;> simp [State.surfaces]

/-- A login that goes on keeps its shape. What the login sends in Redis depends on its phase, which
is all that `Shaped` says. -/
theorem proceed_shaped (h : Shaped l) (found : Option User) :
    Shaped (l.proceed lib now found) ∧ Advances l (l.proceed lib now found) := by
  obtain ⟨email, password, ip, identifier, phase, admission, finalization, compensation, count,
    expires, was_cancelled, evaluated⟩ := l
  unfold Shaped at h
  cases phase with
  -- The admission has been answered: the login goes on, is throttled, or fails.
  | admitting =>
    obtain ⟨hfinalization, hcompensation, hevaluated⟩ := h
    unfold State.proceed
    dsimp only
    split
    · exact ⟨⟨⟨_, rfl⟩, hfinalization, hcompensation⟩, .of_phase _ _ _ _ _⟩
    · exact ⟨⟨hfinalization, hcompensation, hevaluated⟩, .of_phase _ _ _ _ _⟩
    · exact ⟨⟨hfinalization, hcompensation, hevaluated⟩, .of_phase _ _ _ _ _⟩
  -- Finding the user and verifying the password only choose the next phase.
  | finding =>
    unfold State.proceed
    dsimp only
    split_ifs
    · exact ⟨h, .of_phase _ _ _ _ _⟩
    · exact ⟨h, .of_phase _ _ _ _ _⟩
  | verifying user =>
    unfold State.proceed
    dsimp only
    split_ifs
    · exact ⟨h, .of_phase _ _ _ _ _⟩
    · exact ⟨h, .of_phase _ _ _ _ _⟩
    · exact ⟨h, .of_phase _ _ _ _ _⟩
  | flushing =>
    unfold State.proceed
    dsimp only
    split_ifs
    · exact ⟨h, .of_phase _ _ _ _ _⟩
    · exact ⟨h, .of_phase _ _ _ _ _⟩
  | leaving_transaction raised => exact ⟨h, .of_phase _ _ _ _ _⟩
  -- The end of the session is where the settlement is sent.
  | closing_session raised =>
    obtain ⟨hadmitted, hfinalization, hcompensation⟩ := h
    exact ⟨finish_shaped hadmitted hcompensation raised,
      ⟨rfl, rfl, rfl, rfl, Or.inr ⟨hfinalization, rfl⟩, Or.inl rfl⟩⟩
  -- The settlement has been answered; a surfaced failure ends the login or is compensated.
  | finishing outcome =>
    obtain ⟨hadmitted, hfinalization, hcompensation, hcount, raised, houtcome⟩ := h
    unfold State.proceed
    dsimp only at hcount ⊢
    split
    · refine ⟨?_, .of_phase _ _ _ _ _⟩
      -- What was raised decides whether the settlement counts a failure.
      rcases surfaces_cases raised with heq | heq | heq | heq
      · rw [houtcome, heq] at hcount ⊢
        split_ifs
        · exact ⟨hadmitted, hfinalization, Or.inl ⟨hcompensation, hcount⟩⟩
        · exact ⟨hadmitted, hfinalization, Or.inl ⟨hcompensation, hcount⟩⟩
      · rw [houtcome, heq] at hcount ⊢
        exact ⟨hadmitted, rfl, hcompensation, hcount⟩
      · rw [houtcome, heq] at hcount ⊢
        exact ⟨hadmitted, hfinalization, Or.inl ⟨hcompensation, hcount⟩⟩
      · rw [houtcome, heq] at hcount ⊢
        exact ⟨hadmitted, hfinalization, Or.inl ⟨hcompensation, hcount⟩⟩
    · exact ⟨⟨hadmitted, hfinalization, hcompensation, hcount, raised, houtcome⟩, .of_phase _ _ _ _ _⟩
  -- The compensation ends the login, whatever its answer.
  | compensating =>
    obtain ⟨hadmitted, hfinalization, hcompensation⟩ := h
    unfold State.proceed
    dsimp only
    split
    · exact ⟨⟨hadmitted, hfinalization, Or.inr rfl⟩, .of_phase _ _ _ _ _⟩
    · exact ⟨⟨hadmitted, hfinalization, hcompensation⟩, .of_phase _ _ _ _ _⟩
  | ended outcome => exact ⟨h, .of_phase _ _ _ _ _⟩

/-- A login that is interrupted keeps its shape. No command is executed or forgotten, and what was
counted stays. -/
theorem interrupt_shaped (h : Shaped l) (raised : Raised) :
    Shaped (l.interrupt now raised) ∧ Advances l (l.interrupt now raised) := by
  obtain ⟨email, password, ip, identifier, phase, admission, finalization, compensation, count,
    expires, was_cancelled, evaluated⟩ := l
  unfold State.interrupt
  unfold Shaped at h
  cases phase with
  | admitting =>
    dsimp only
    split_ifs
    · exact ⟨⟨h.1, h.2.1⟩, .of_phase _ _ _ _ _⟩
    · exact ⟨h, .of_phase _ _ _ _ _⟩
  | finding => exact ⟨h, .of_phase _ _ _ _ _⟩
  | verifying user => exact ⟨h, .of_phase _ _ _ _ _⟩
  | flushing => exact ⟨h, .of_phase _ _ _ _ _⟩
  | leaving_transaction raised => exact ⟨h, .of_phase _ _ _ _ _⟩
  -- An interruption while the session closes still sends the settlement.
  | closing_session raised =>
    obtain ⟨hadmitted, hfinalization, hcompensation⟩ := h
    exact ⟨finish_shaped hadmitted hcompensation _,
      ⟨rfl, rfl, rfl, rfl, Or.inr ⟨hfinalization, rfl⟩, Or.inl rfl⟩⟩
  -- An interruption of the settlement sends the compensation, unless the login ends as it is.
  | finishing outcome =>
    obtain ⟨hadmitted, hfinalization, hcompensation, hrest⟩ := h
    dsimp only
    split_ifs
    · exact ⟨⟨hadmitted, hfinalization, by simp⟩,
        ⟨rfl, rfl, rfl, rfl, Or.inl ⟨rfl, rfl⟩, Or.inr ⟨hcompensation, rfl⟩⟩⟩
    · exact ⟨⟨hadmitted, hfinalization, hcompensation, hrest⟩, .of_phase _ _ _ _ _⟩
  | compensating => exact ⟨h, .of_phase _ _ _ _ _⟩
  | ended outcome => exact ⟨h, .of_phase _ _ _ _ _⟩

/-- A login whose settlement has been sent was admitted. -/
theorem Shaped.admitted_of_finalization (h : Shaped l) (hsent : l.finalization ≠ .unsent) :
    l.admitted := by
  unfold Shaped at h
  split at h
  all_goals first
    | exact h.1
    | exact absurd h.1 hsent

/-- A login whose admission has not been executed has sent nothing else. -/
theorem Shaped.unsent_of_admission (h : Shaped l) (hadmission : l.admission = .sent) :
    l.finalization = .unsent ∧ l.compensation = .unsent := by
  have hnot : ¬l.admitted := by
    rintro ⟨admitted_at, heq⟩
    rw [hadmission] at heq
    cases heq
  unfold Shaped at h
  split at h
  all_goals first
    | exact absurd h.1 hnot
    | exact ⟨h.1, h.2.1⟩
    | exact h

/-- The shape is that of the phase and of the commands, up to what the answers are. -/
theorem Shaped.of_commands {l' : State} (h : Shaped l) (hphase : l'.phase = l.phase)
    (hcount : l'.count = l.count) (hevaluated : l'.evaluated = l.evaluated)
    (hadmitted : l.admitted → l'.admitted)
    (hfinalization : l'.finalization = .unsent ↔ l.finalization = .unsent)
    (hsettled : l.finalization.is_executed = true → l'.finalization.is_executed = true)
    (hcompensation : l'.compensation = .unsent ↔ l.compensation = .unsent)
    (hcompensated : l.compensation.is_executed = true → l'.compensation.is_executed = true) :
    Shaped l' := by
  unfold Shaped at h ⊢
  rw [hphase, hcount, hevaluated]
  simp only [ne_eq, hfinalization, hcompensation]
  cases hcase : l.phase with
  | ended outcome =>
    rw [hcase] at h
    cases outcome with
    | authentication_error => exact ⟨hadmitted h.1, hsettled h.2.1, h.2.2⟩
    | rate_limited retry => exact h
    | cancelled => exact h
    | _ => exact ⟨hadmitted h.1, h.2.1, h.2.2.imp_right hcompensated⟩
  | admitting =>
    rw [hcase] at h
    exact h
  | _ =>
    rw [hcase] at h
    exact ⟨hadmitted h.1, h.2⟩

/-- The execution of a command keeps the shape. The command was sent, and its phase or a later one
waits for it. -/
theorem executed_shaped (h : Shaped l) {which : Which} (hsent : l.command which = .sent)
    (result executed_at : ℕ) : Shaped (l.set_executed result executed_at which) := by
  cases which with
  | admission =>
    refine h.of_commands rfl rfl rfl (fun ⟨admitted_at, heq⟩ => ?_) Iff.rfl id Iff.rfl id
    rw [show l.admission = .sent from hsent] at heq
    cases heq
  | finalization =>
    refine h.of_commands rfl rfl rfl id ?_ (fun _ => rfl) Iff.rfl id
    rw [show l.finalization = .sent from hsent]
    simp [State.set_executed]
  | compensation =>
    refine h.of_commands rfl rfl rfl id Iff.rfl id ?_ (fun _ => rfl)
    rw [show l.compensation = .sent from hsent]
    simp [State.set_executed]

/-! ## The commands of a login and the buckets -/

/-- How the commands of a login stand to the buckets. -/
structure Tied (lib : Library) (redis : RateLimit.World) (l : State) : Prop where
  /-- A failure is counted for a login that has counted it and has not been compensated. -/
  counted : ∀ r ∈ redis.limiter.counted, r.id = l.identifier → r.key ∈ l.keys lib ∧
    l.count = true ∧ (∃ result, l.finalization = .executed result r.recorded_at) ∧
      l.compensation.is_executed = false
  /-- A login that has counted, and was not compensated, has a failure in each of its buckets. -/
  records : ∀ result executed_at, l.finalization = .executed result executed_at → l.count = true →
    l.compensation.is_executed = false → ∀ key ∈ l.keys lib,
      (⟨key, l.identifier, executed_at⟩ : Recorded) ∈ redis.limiter.counted
  /-- A login that was admitted holds its reservations until it settles them. -/
  reserved : ∀ admitted_at, l.admission = .executed 0 admitted_at →
    l.finalization.is_executed = false → l.compensation.is_executed = false →
      Reserved redis (l.keys lib) l.identifier (admitted_at + 10000)
  /-- A login that was compensated holds none. -/
  gone : l.compensation.is_executed = true → ∀ key ∈ l.keys lib,
    (redis.limiter.redis key).zscore (RateLimit.reservation l.identifier) = none
  /-- A reservation is that of an admission, for the lease. -/
  lease : ∀ key expires,
    (redis.limiter.redis key).zscore (RateLimit.reservation l.identifier) = some expires →
      ∃ admitted_at, l.admission = .executed 0 admitted_at ∧ expires = admitted_at + 10000
  /-- The identifier is new until the admission is executed. -/
  fresh : l.admission.is_executed = false → l.identifier ∉ redis.admitted

variable {settings : Settings} {redis : RateLimit.World} {l' : State}

/-- A login that advances stays tied to the buckets. Nothing is executed by it, so what Redis holds
for it stays. -/
theorem Tied.advances (h : Tied lib redis l) (ha : Advances l l') : Tied lib redis l' := by
  have hkeys : l'.keys lib = l.keys lib := by
    unfold State.keys
    rw [ha.email, ha.ip]
  -- Advancing executes nothing, so what has been executed is the same.
  have hsettled : l'.finalization.is_executed = l.finalization.is_executed := by
    rcases ha.finalization with ⟨heq, -⟩ | ⟨hbefore, hafter⟩
    · rw [heq]
    · rw [hbefore, hafter]
      rfl
  have hcompensated : l'.compensation.is_executed = l.compensation.is_executed := by
    rcases ha.compensation with heq | ⟨hbefore, hafter⟩
    · rw [heq]
    · rw [hbefore, hafter]
      rfl
  -- A failure that is counted stays that of the settlement, which is executed already.
  refine ⟨fun r hr hid => ?_, fun result executed_at hexecuted hcount hnot => ?_, ?_, ?_, ?_, ?_⟩
  · rw [ha.identifier] at hid
    obtain ⟨hkey, hcount, ⟨result, hexecuted⟩, hnot⟩ := h.counted r hr hid
    rw [hkeys, hcompensated]
    rcases ha.finalization with ⟨heq, hcount'⟩ | ⟨hbefore, -⟩
    · exact ⟨hkey, hcount'.trans hcount, ⟨result, heq.trans hexecuted⟩, hnot⟩
    · rw [hbefore] at hexecuted
      cases hexecuted
  · rw [hkeys, ha.identifier]
    rw [hcompensated] at hnot
    rcases ha.finalization with ⟨heq, hcount'⟩ | ⟨-, hafter⟩
    · exact h.records result executed_at (heq.symm.trans hexecuted) (hcount'.symm.trans hcount) hnot
    · rw [hafter] at hexecuted
      cases hexecuted
  · rw [hkeys, hsettled, hcompensated, ha.identifier, ha.admission]
    exact h.reserved
  · rw [hkeys, hcompensated, ha.identifier]
    exact h.gone
  · rw [ha.identifier, ha.admission]
    exact h.lease
  · rw [ha.identifier, ha.admission]
    exact h.fresh

/-- An execution for another admission leaves a login tied to the buckets. -/
theorem Tied.other (h : Tied lib redis l) (hsound : redis.Sound settings.policy)
    {execution : Execution} (hne : l.identifier ≠ execution.script.id) :
    Tied lib (redis.step settings.policy execution) l := by
  obtain ⟨hcounted, hreservations⟩ := hsound.step_other hne
  refine ⟨fun r hr hid => h.counted r ((hcounted r hid).mp hr) hid,
    fun result executed_at hexecuted hcount hnot key hkey =>
      (hcounted _ rfl).mpr (h.records result executed_at hexecuted hcount hnot key hkey),
    fun admitted_at hadmission hsettled hcompensated =>
      hsound.step_reserved (h.reserved admitted_at hadmission hsettled hcompensated) hne,
    fun hcompensated key hkey => Option.eq_none_iff_forall_ne_some.mpr fun score hscore => ?_,
    fun key expires hscore => h.lease key expires (hreservations key expires hscore),
    fun hnot hmem => ?_⟩
  · -- Other admissions do not bring reservations back.
    have hnone := h.gone hcompensated key hkey
    rw [hreservations key score hscore] at hnone
    cases hnone
  · -- The identifier of the login is drawn by no other execution.
    obtain ⟨now, script⟩ := execution
    rcases RateLimit.World.step_cases settings.policy redis ⟨now, script⟩ with heq | ⟨hclock, hnew⟩
    · rw [heq] at hmem
      exact h.fresh hnot hmem
    · cases script with
      | admission id keys probe =>
        rw [RateLimit.World.step_admission hclock (hnew id keys probe rfl)] at hmem
        rcases List.mem_cons.mp hmem with heq | hmem
        · exact hne heq
        · exact h.fresh hnot hmem
      | finalize id keys mode =>
        rw [RateLimit.World.step_finalize hclock] at hmem
        exact h.fresh hnot hmem

/-- The execution of the admission of a login. It reserves both buckets or none, which the result
tells the login. -/
theorem Tied.admission (h : Tied lib redis l) (hshaped : Shaped l)
    (hsound : redis.Sound settings.policy) (hsent : l.admission = .sent) {now : ℕ}
    (hclock : redis.clock ≤ now) :
    Tied lib (redis.step settings.policy ⟨now, l.script lib .admission⟩)
      (l.set_executed (World.result settings lib redis now l .admission) now .admission) := by
  obtain ⟨hfinalization, hcompensation⟩ := hshaped.unsent_of_admission hsent
  -- The identifier has not been admitted before.
  have hnew : l.identifier ∉ redis.admitted := h.fresh (by rw [hsent]; rfl)
  have hstep : redis.step settings.policy ⟨now, l.script lib .admission⟩ = _ :=
    RateLimit.World.step_admission hclock hnew
  refine ⟨fun r hr hid => ?_, fun result executed_at hexecuted => ?_,
    fun admitted_at hadmission _ _ => ?_, fun hcompensated => ?_, fun key expires hscore => ?_,
    fun hnot => by cases hnot⟩
  · -- Nothing can have been settled before the admission.
    rw [hstep] at hr
    obtain ⟨-, -, ⟨result, hexecuted⟩, -⟩ := h.counted r hr hid
    rw [hfinalization] at hexecuted
    cases hexecuted
  · rw [show (l.set_executed _ now .admission).finalization = l.finalization from rfl,
      hfinalization] at hexecuted
    cases hexecuted
  · -- The reservation is held in every bucket for the lease.
    obtain ⟨hzero, rfl⟩ := Command.executed.inj hadmission
    exact hsound.admission_reserved hclock hnew hzero
  · rw [show (l.set_executed _ now .admission).compensation = l.compensation from rfl,
      hcompensation] at hcompensated
    cases hcompensated
  · rw [hstep] at hscore
    dsimp only at hscore
    obtain ⟨hzero, hexpires⟩ := hsound.admission_reservation hnew (l.keys lib) false hscore
    exact ⟨now, congrArg₂ Command.executed hzero rfl, hexpires⟩

/-- The execution of the settlement of a login, within its lease. -/
theorem Tied.finalization (h : Tied lib redis l) (hsound : redis.Sound settings.policy)
    (hsent : l.finalization = .sent) {now admitted_at result : ℕ} (hclock : redis.clock ≤ now)
    (hadmission : l.admission = .executed 0 admitted_at) (hlease : now < admitted_at + 10000) :
    Tied lib (redis.step settings.policy ⟨now, l.script lib .finalization⟩)
      (l.set_executed result now .finalization) := by
  have hstep : redis.step settings.policy ⟨now, l.script lib .finalization⟩ = _ :=
    RateLimit.World.step_finalize hclock
  refine ⟨fun r hr hid => ?_, fun result' executed_at hexecuted hcount hnot key hkey => ?_,
    fun admitted_at _ hsettled => (by cases hsettled),
    fun hcompensated key hkey => Option.eq_none_iff_forall_ne_some.mpr fun score hscore => ?_,
    fun key expires hscore => ?_, fun hnot hmem => ?_⟩
  · rw [hstep] at hr
    -- A failure that is counted now is the one of this settlement.
    rcases (RateLimit.mem_finalize_counted (l.keys lib)).mp hr with ⟨hold, -⟩ | ⟨hcount, hkey, heq, hheld⟩
    · obtain ⟨-, -, ⟨result', hexecuted⟩, -⟩ := h.counted r hold hid
      rw [hsent] at hexecuted
      cases hexecuted
    · refine ⟨hkey, ?_, ⟨result, ?_⟩, ?_⟩
      · change l.count = true
        by_contra hcontra
        rw [if_neg hcontra] at hcount
        cases hcount
      · rw [heq]
        rfl
      · -- After a compensation nothing is held.
        refine Bool.eq_false_iff.mpr fun hcompensated => ?_
        have hsome := hheld.isSome (hsound.lasting r.key)
        rw [h.gone hcompensated r.key hkey] at hsome
        cases hsome
  · -- Within the lease the reservation is held, so the failure is written in every bucket.
    obtain ⟨-, rfl⟩ := Command.executed.inj hexecuted
    rw [hstep]
    have hscore := h.reserved admitted_at hadmission (by rw [hsent]; rfl) hnot key hkey
      (hclock.trans_lt hlease)
    refine (RateLimit.mem_finalize_counted (l.keys lib)).mpr (Or.inr ⟨if_pos hcount, hkey, rfl, ?_⟩)
    exact RateLimit.held_of_zscore (hsound.lasting key) hscore hlease
  · -- Settling never brings a reservation back.
    rw [hstep] at hscore
    have hbefore := (RateLimit.finalize_reservation (l.keys lib) hsound.lasting hscore).1
    exact absurd (hbefore.symm.trans (h.gone hcompensated key hkey)) (by simp)
  · rw [hstep] at hscore
    exact h.lease key expires (RateLimit.finalize_reservation (l.keys lib) hsound.lasting hscore).1
  · rw [hstep] at hmem
    exact h.fresh hnot hmem

/-- The execution of the compensation of a login. It discards the failure that the finalization may
have counted. -/
theorem Tied.compensation (h : Tied lib redis l) (hsound : redis.Sound settings.policy)
    {now result : ℕ} (hclock : redis.clock ≤ now) :
    Tied lib (redis.step settings.policy ⟨now, l.script lib .compensation⟩)
      (l.set_executed result now .compensation) := by
  have hstep : redis.step settings.policy ⟨now, l.script lib .compensation⟩ = _ :=
    RateLimit.World.step_finalize hclock
  refine ⟨fun r hr hid => ?_, fun _ _ _ _ hnot => (by cases hnot), fun _ _ _ hnot => (by cases hnot),
    fun _ key hkey => Option.eq_none_iff_forall_ne_some.mpr fun score hscore => ?_,
    fun key expires hscore => ?_, fun hnot hmem => ?_⟩
  · rw [hstep] at hr
    rcases (RateLimit.mem_finalize_counted (l.keys lib)).mp hr with ⟨hold, hkept⟩ | ⟨hcount, -⟩
    · exact absurd ⟨rfl, (h.counted r hold hid).1, hid⟩ hkept
    · cases hcount
  · rw [hstep] at hscore
    exact (RateLimit.finalize_reservation (l.keys lib) hsound.lasting hscore).2 hkey rfl
  · rw [hstep] at hscore
    exact h.lease key expires (RateLimit.finalize_reservation (l.keys lib) hsound.lasting hscore).1
  · rw [hstep] at hmem
    exact h.fresh hnot hmem

/-! ## Runs -/

/-- The invariant of the logins. Every step of a login keeps it, also one that is interrupted. -/
structure Guarded (settings : Settings) (lib : Library) (w : World) : Prop where
  /-- The scripts are sound. -/
  sound : w.redis.Sound settings.policy
  /-- The failures that stand are counted. -/
  backed : Backed w.redis.limiter
  /-- The identifiers are those of the logins. -/
  identifiers : w.identifiers = w.logins.map (·.identifier)
  /-- No two are the same. -/
  nodup : w.identifiers.Nodup
  /-- Every login has its shape. -/
  shaped : ∀ (i : ℕ) (l : State), w.logins[i]? = some l → Shaped l
  /-- Every login is tied to the buckets. -/
  tied : ∀ (i : ℕ) (l : State), w.logins[i]? = some l → Tied lib w.redis l

variable {w : World}

namespace Guarded

/-- The invariant holds at the start. -/
theorem initial (settings : Settings) (lib : Library) : Guarded settings lib .initial where
  sound := RateLimit.World.initial_sound
  backed key id h := by cases h
  identifiers := rfl
  nodup := List.nodup_nil
  shaped i l h := by cases h
  tied i l h := by cases h

/-- The identifiers do not change when a login changes and keeps its own. -/
theorem map_identifier_modify (logins : List State) (i : ℕ) {f : State → State}
    (hf : ∀ l ∈ logins, (f l).identifier = l.identifier) :
    (logins.modify i f).map (·.identifier) = logins.map (·.identifier) := by
  refine List.ext_getElem? fun j => ?_
  rw [List.getElem?_map, List.getElem?_map, List.getElem?_modify]
  cases hj : logins[j]? with
  | none => rfl
  | some l =>
    simp only [Option.map_eq_map, Option.map_some]
    split_ifs
    · rw [hf l (List.mem_of_getElem? hj)]
    · rfl

/-- Two logins with an identifier are one. Identifiers are drawn once. -/
theorem same_login (h : Guarded settings lib w) {i j : ℕ} {l l' : State} (hl : w.logins[i]? = some l)
    (hl' : w.logins[j]? = some l') (heq : l.identifier = l'.identifier) : i = j := by
  have hnodup := h.nodup
  rw [h.identifiers] at hnodup
  have hlt : i < (w.logins.map (·.identifier)).length := by
    rw [List.length_map]
    exact (List.getElem?_eq_some_iff.mp hl).1
  refine (List.getElem?_inj hlt hnodup).mp ?_
  rw [List.getElem?_map, List.getElem?_map, hl, hl', Option.map_some, Option.map_some, heq]

/-- A login that goes on without Redis keeps the invariant. -/
theorem moves (h : Guarded settings lib w) (i : ℕ) (now : ℚ) {f : State → State}
    (hf : ∀ l, Shaped l → Shaped (f l) ∧ Advances l (f l)) :
    Guarded settings lib { w with now := now, logins := w.logins.modify i f } := by
  -- The login that moves is tied as before, and the others are not touched.
  have hget : ∀ (j : ℕ) (l' : State), (w.logins.modify i f)[j]? = some l' →
      ∃ l, w.logins[j]? = some l ∧ Shaped l' ∧ Tied lib w.redis l' := by
    intro j l' hl'
    rw [List.getElem?_modify] at hl'
    cases hj : w.logins[j]? with
    | none =>
      rw [hj] at hl'
      cases hl'
    | some l =>
      rw [hj] at hl'
      simp only [Option.map_eq_map, Option.map_some, Option.some_inj] at hl'
      have hshaped := h.shaped j l hj
      have htied := h.tied j l hj
      split_ifs at hl'
      · subst hl'
        exact ⟨l, rfl, (hf l hshaped).1, htied.advances (hf l hshaped).2⟩
      · subst hl'
        exact ⟨l, rfl, hshaped, htied⟩
  refine ⟨h.sound, h.backed, ?_, h.nodup, fun j l' hl' => ?_, fun j l' hl' => ?_⟩
  · refine h.identifiers.trans (map_identifier_modify w.logins i fun l hl => ?_).symm
    obtain ⟨j, hj⟩ := List.mem_iff_getElem?.mp hl
    exact (hf l (h.shaped j l hj)).2.identifier
  · obtain ⟨-, -, hshaped, -⟩ := hget j l' hl'
    exact hshaped
  · obtain ⟨-, -, -, htied⟩ := hget j l' hl'
    exact htied

/-- The execution of a command of a login keeps the invariant. -/
theorem executes (h : Guarded settings lib w) {i : ℕ} {l : State} (hl : w.logins[i]? = some l)
    {which : Which} {now : ℕ} (hsent : l.command which = .sent) (hclock : w.redis.clock ≤ now)
    (hlease : l.in_lease now which = true) :
    Guarded settings lib { w with
      redis := w.redis.step settings.policy ⟨now, l.script lib which⟩
      logins := w.logins.modify i
        (State.set_executed · (World.result settings lib w.redis now l which) now which) } := by
  have hshaped := h.shaped i l hl
  have htied := h.tied i l hl
  have hidentifier : ∀ (l : State) result, (l.set_executed result now which).identifier =
      l.identifier := fun l result => by cases which <;> rfl
  have hscript : (l.script lib which).id = l.identifier := by cases which <;> rfl
  have hself : Tied lib (w.redis.step settings.policy ⟨now, l.script lib which⟩)
      (l.set_executed (World.result settings lib w.redis now l which) now which) := by
    cases which with
    -- Each of the three commands has its own lemma.
    | admission => exact htied.admission hshaped h.sound hsent hclock
    | finalization =>
      obtain ⟨admitted_at, hadmission⟩ := hshaped.admitted_of_finalization
        (by rw [show l.finalization = .sent from hsent]; simp)
      unfold State.in_lease at hlease
      rw [hadmission] at hlease
      exact htied.finalization h.sound hsent hclock hadmission (of_decide_eq_true hlease)
    | compensation => exact htied.compensation h.sound hclock
  have hget : ∀ (j : ℕ) (l' : State), (w.logins.modify i
      (State.set_executed · (World.result settings lib w.redis now l which) now which))[j]? = some l' →
      Shaped l' ∧ Tied lib (w.redis.step settings.policy ⟨now, l.script lib which⟩) l' := by
    intro j l' hl'
    -- The login whose command runs, or another one.
    by_cases hij : i = j
    · subst hij
      rw [List.getElem?_modify_eq, hl] at hl'
      obtain rfl := Option.some_inj.mp hl'
      exact ⟨executed_shaped hshaped hsent _ _, hself⟩
    · rw [List.getElem?_modify_ne _ _ hij] at hl'
      refine ⟨h.shaped j l' hl', (h.tied j l' hl').other h.sound fun heq => hij ?_⟩
      exact h.same_login hl hl' (hscript.symm.trans heq.symm)
  refine ⟨h.sound.step _, h.sound.step_backed h.backed _, ?_, h.nodup,
    fun j l' hl' => (hget j l' hl').1, fun j l' hl' => (hget j l' hl').2⟩
  exact h.identifiers.trans (map_identifier_modify w.logins i fun l _ => hidentifier l _).symm

/-- Every step keeps the invariant. The cases are the actions, and each concerns one login or one
command. -/
theorem step (h : Guarded settings lib w) (a : Act) : Guarded settings lib (w.step settings lib a) := by
  cases a with
  | login email password ip identifier =>
    unfold World.step
    dsimp only
    split_ifs with hknown
    · exact h
    · obtain ⟨hnew, hfresh⟩ := not_or.mp hknown
      -- A new login has sent nothing.
      refine ⟨h.sound, h.backed, ?_, ?_, fun i l hl => ?_, fun i l hl => ?_⟩
      · dsimp only
        rw [List.map_append, ← h.identifiers]
        rfl
      · refine List.nodup_append.mpr ⟨h.nodup, List.nodup_singleton _, fun id hid id' hid' heq => ?_⟩
        rw [List.mem_singleton.mp hid'] at heq
        exact hnew (heq ▸ hid)
      · rw [List.getElem?_append] at hl
        split_ifs at hl
        · exact h.shaped i l hl
        · rw [List.mem_singleton.mp (List.mem_of_getElem? hl)]
          exact ⟨rfl, rfl, rfl⟩
      · rw [List.getElem?_append] at hl
        split_ifs at hl
        · exact h.tied i l hl
        · rw [List.mem_singleton.mp (List.mem_of_getElem? hl)]
          -- Nothing in Redis is that of a new identifier.
          refine ⟨fun r hr hid => ?_, fun _ _ hexecuted => (by cases hexecuted),
            fun _ hadmission => (by cases hadmission), fun hcompensated => (by cases hcompensated),
            fun key expires hscore => ?_, fun _ => hfresh⟩
          · exact absurd (h.sound.known r (h.sound.counted.subset hr)) (hid ▸ hfresh)
          · exact absurd (h.sound.reserved key identifier (by rw [hscore]; rfl)) hfresh
  | proceed i now found =>
    unfold World.step
    dsimp only
    split_ifs
    · exact h.moves i now fun l hshaped => proceed_shaped hshaped found
    · exact h
  -- An interruption of a login that has ended is none.
  | interrupt i now raised =>
    unfold World.step
    dsimp only
    split_ifs
    · refine h.moves i now fun l hshaped => ?_
      split_ifs
      · exact interrupt_shaped hshaped raised
      · exact ⟨hshaped, .of_phase l _ _ _ _⟩
    · exact h
  | execute i which now =>
    unfold World.step
    dsimp only
    split
    · rename_i l hl
      split_ifs with hexecutes
      · exact h.executes hl hexecutes.1 hexecutes.2.1 hexecutes.2.2
      · exact h
    · exact h
  | other execution =>
    unfold World.step
    dsimp only
    split_ifs with hmem
    · exact h
    · -- An execution of others is for identifiers that no login has drawn.
      refine ⟨h.sound.step _, h.sound.step_backed h.backed _, h.identifiers, h.nodup, h.shaped,
        fun i l hl => (h.tied i l hl).other h.sound fun heq => hmem ?_⟩
      rw [← heq, h.identifiers]
      exact List.mem_map_of_mem (List.mem_of_getElem? hl)

/-- The invariant holds in every run. -/
theorem run (settings : Settings) (lib : Library) (acts : List Act) :
    Guarded settings lib (.run settings lib acts) :=
  Transition.run_invariant (fun _ a h => h.step a) (initial settings lib) acts

end Guarded

/-! ## The bound -/

/-- A login surfaced an authentication failure, which was counted in a window of a bucket. -/
def State.failed_in (settings : Settings) (key : String) (window : ℕ) (l : State) : Bool :=
  match l.phase, l.finalization with
  | .ended .authentication_error, .executed _ now =>
    now / ((settings.policy key).window * 1000) = window
  | _, _ => false

/-- A login that has surfaced an authentication failure has counted it. -/
theorem State.failed_in_iff {key : String} {window : ℕ} : l.failed_in settings key window = true ↔
    l.phase = .ended .authentication_error ∧ ∃ result now, l.finalization = .executed result now ∧
      now / ((settings.policy key).window * 1000) = window := by
  unfold State.failed_in
  constructor
  · intro h
    split at h
    · rename_i result now hphase hfinalization
      exact ⟨hphase, result, now, hfinalization, of_decide_eq_true h⟩
    · cases h
  · rintro ⟨hphase, result, now, hfinalization, hwindow⟩
    rw [hphase, hfinalization]
    exact decide_eq_true hwindow

namespace Guarded

/-- A login that has surfaced an authentication failure has one counted in each of its buckets. -/
theorem failure_counted (h : Guarded settings lib w) (hl : l ∈ w.logins)
    (hphase : l.phase = .ended .authentication_error) {result now : ℕ}
    (hfinalization : l.finalization = .executed result now) {key : String} (hkey : key ∈ l.keys lib) :
    (⟨key, l.identifier, now⟩ : Recorded) ∈ w.redis.limiter.counted := by
  obtain ⟨i, hi⟩ := List.mem_iff_getElem?.mp hl
  have hshaped := h.shaped i l hi
  unfold Shaped at hshaped
  rw [hphase] at hshaped
  obtain ⟨-, -, hcompensation, hcount⟩ := hshaped
  exact (h.tied i l hi).records result now hfinalization hcount (by rw [hcompensation]; rfl) key hkey

/-- As many logins have surfaced a failure in a window of a bucket as its bound allows. -/
theorem failures_le (h : Guarded settings lib w) (key : String) (window : ℕ) (p : State → Bool)
    (hp : ∀ l, p l = true → key ∈ l.keys lib ∧ l.failed_in settings key window = true) :
    (w.logins.filter p).length ≤ (settings.policy key).maximum := by
  have hnodup : ((w.logins.filter p).map (·.identifier)).Nodup := by
    refine (List.filter_sublist.map _).nodup ?_
    rw [← h.identifiers]
    exact h.nodup
  have hsub : (w.logins.filter p).map (·.identifier) ⊆
      (RateLimit.failures_in settings.policy key window w.redis.limiter.counted).map (·.id) := by
    intro id hid
    obtain ⟨l, hl, rfl⟩ := List.mem_map.mp hid
    obtain ⟨hmem, hpl⟩ := List.mem_filter.mp hl
    obtain ⟨hkey, hfailed⟩ := hp l hpl
    obtain ⟨hphase, result, now, hfinalization, hwindow⟩ := State.failed_in_iff.mp hfailed
    refine List.mem_map.mpr ⟨⟨key, l.identifier, now⟩, List.mem_filter.mpr
      ⟨h.failure_counted hmem hphase hfinalization hkey, ?_⟩, rfl⟩
    exact decide_eq_true ⟨rfl, hwindow⟩
  calc (w.logins.filter p).length = ((w.logins.filter p).map (·.identifier)).length :=
        (List.length_map _).symm
    _ ≤ ((RateLimit.failures_in settings.policy key window w.redis.limiter.counted).map
          (·.id)).length := (hnodup.subperm hsub).length_le
    _ = (RateLimit.failures_in settings.policy key window w.redis.limiter.counted).length :=
        List.length_map _
    _ ≤ (settings.policy key).maximum := h.sound.quota key window

/-- A login that has ended otherwise has no failure counted. -/
theorem uncounted (h : Guarded settings lib w) (hl : l ∈ w.logins) {outcome : Outcome}
    (hphase : l.phase = .ended outcome) (hne : outcome ≠ .authentication_error) {r : Recorded}
    (hr : r ∈ w.redis.limiter.counted) : r.id ≠ l.identifier := by
  obtain ⟨i, hi⟩ := List.mem_iff_getElem?.mp hl
  have hshaped := h.shaped i l hi
  intro hid
  obtain ⟨-, hcount, ⟨result, hfinalization⟩, hcompensated⟩ := (h.tied i l hi).counted r hr hid
  have hunsent : l.finalization ≠ .unsent := by
    rw [hfinalization]
    simp
  unfold Shaped at hshaped
  rw [hphase] at hshaped
  cases outcome with
  | authentication_error => exact hne rfl
  | rate_limited retry => exact hunsent hshaped.1
  | cancelled => exact hunsent hshaped.1
  | _ =>
    rcases hshaped.2.2 with ⟨-, hcount'⟩ | hcompensated'
    · rw [hcount'] at hcount
      cases hcount
    · rw [hcompensated'] at hcompensated
      cases hcompensated

end Guarded

/-- **The bound on guessing.** In every run of concurrent logins, a login that surfaces an
authentication failure has exactly one failure counted in the bucket of its pair and one in that of
its network address, each of which stands there until its window ends. A login that ends otherwise has
none, and its reservations last no longer than their lease. A login that was throttled has not
evaluated its password. So at most as many failures are surfaced in a window for a pair of addresses,
or for a network address, as its bucket admits. -/
theorem login_guessing_bound (settings : Settings) (lib : Library) (acts : List Act) :
    let w := World.run settings lib acts
    (∀ l ∈ w.logins,
      (l.phase = .ended .authentication_error → ∀ key ∈ l.keys lib, ∃ r,
        (w.redis.limiter.counted.filter fun r => r.key = key ∧ r.id = l.identifier) = [r] ∧
          (w.redis.clock < r.window_end settings.policy →
            (w.redis.limiter.redis key).zscore (RateLimit.failure l.identifier) =
              some (r.window_end settings.policy))) ∧
      (∀ outcome, l.phase = .ended outcome → outcome ≠ .authentication_error →
        (∀ r ∈ w.redis.limiter.counted, r.id ≠ l.identifier) ∧
          ∀ key, (w.redis.limiter.redis key).zscore (RateLimit.failure l.identifier) = none) ∧
      (∀ key expires,
        (w.redis.limiter.redis key).zscore (RateLimit.reservation l.identifier) = some expires →
          ∃ admitted_at, l.admission = .executed 0 admitted_at ∧ expires = admitted_at + 10000) ∧
      (∀ retry, l.phase = .ended (.rate_limited retry) → l.evaluated = false)) ∧
    (∀ email ip window, (w.logins.filter fun l => decide (l.email = email) && decide (l.ip = ip) &&
      l.failed_in settings (pair_key lib email ip) window).length ≤ settings.pair.maximum) ∧
    ∀ ip window, (w.logins.filter fun l => decide (l.ip = ip) &&
      l.failed_in settings (ip_key lib ip) window).length ≤ settings.ip.maximum := by
  intro w
  have h : Guarded settings lib w := .run settings lib acts
  refine ⟨fun l hl => ⟨fun hphase key hkey => ?_, fun outcome hphase hne => ?_, ?_, fun retry hphase =>
    ?_⟩, fun email ip window => ?_, fun ip window => ?_⟩
  · -- The login has ended with a failure, so its settlement has been executed and counts.
    obtain ⟨i, hi⟩ := List.mem_iff_getElem?.mp hl
    have hshaped := h.shaped i l hi
    unfold Shaped at hshaped
    rw [hphase] at hshaped
    obtain ⟨-, hexecuted, -⟩ := hshaped
    cases hfinalization : l.finalization with
    | executed result now =>
      have hmem := h.failure_counted hl hphase hfinalization hkey
      refine ⟨⟨key, l.identifier, now⟩, ?_, fun hlt => h.sound.standing _ hmem hlt⟩
      have hunique : Keyed.Unique (fun r : Recorded => (r.key, r.id)) w.redis.limiter.counted :=
        h.sound.once.sublist (h.sound.counted.map _)
      have hfilter := Keyed.filter_key hunique hmem
      simpa only [Prod.mk.injEq] using hfilter
    | unsent =>
      rw [hfinalization] at hexecuted
      cases hexecuted
    | sent =>
      rw [hfinalization] at hexecuted
      cases hexecuted
  · -- A login that ends otherwise has no failure counted, hence none in its buckets.
    have hnone : ∀ r ∈ w.redis.limiter.counted, r.id ≠ l.identifier := fun r hr =>
      h.uncounted hl hphase hne hr
    refine ⟨hnone, fun key => Option.not_isSome_iff_eq_none.mp fun hsome => ?_⟩
    obtain ⟨r, hr, -, hid⟩ := h.backed key l.identifier hsome
    exact hnone r hr hid
  · obtain ⟨i, hi⟩ := List.mem_iff_getElem?.mp hl
    exact (h.tied i l hi).lease
  · obtain ⟨i, hi⟩ := List.mem_iff_getElem?.mp hl
    have hshaped := h.shaped i l hi
    unfold Shaped at hshaped
    rw [hphase] at hshaped
    exact hshaped.2.2
  · -- The failures of a pair are in the bucket of the pair, and those of an address in its own.
    rw [← policy_pair_key settings lib email ip]
    refine h.failures_le _ window _ fun l hp => ?_
    rw [Bool.and_eq_true, Bool.and_eq_true, decide_eq_true_eq, decide_eq_true_eq] at hp
    obtain ⟨⟨rfl, rfl⟩, hfailed⟩ := hp
    exact ⟨List.mem_cons_self, hfailed⟩
  · rw [← policy_ip_key settings lib ip]
    refine h.failures_le _ window _ fun l hp => ?_
    rw [Bool.and_eq_true, decide_eq_true_eq] at hp
    obtain ⟨rfl, hfailed⟩ := hp
    exact ⟨List.mem_cons_of_mem _ List.mem_cons_self, hfailed⟩

end RestaurantOS.Auth.Login
