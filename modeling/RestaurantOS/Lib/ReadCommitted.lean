import Mathlib.Logic.Function.Basic
import RestaurantOS.Lib.Run

/-!
# Transactions that read what is committed

A store is a value of `σ`. A transaction is a sequence of statements (`Program`): a statement reads
the rows that are committed by then, and what the transaction itself has changed; it waits for a
lock on a key of `κ`, which it shares with others or has for itself; or it changes rows, which nobody
else sees before the commit. The statements of different transactions interleave in any order, a
transaction may be ended at any point, and a change that violates a constraint ends it at the latest
when it is committed.

What a statement has read may be changed by others before the next one, within the `Discipline` of
the store: `view key` is the part that only who has `key` for itself changes, and `keeps` is what
nobody breaks. `Ensures` is the weakest precondition of a program with respect to what it knows of the views
it has locked and of the rows it has seen last, and `Inv.step` turns the preconditions of all programs
into an invariant of the concurrent system. -/

namespace ReadCommitted

/-- How a key is locked: with others, or for oneself. -/
inductive Mode
  | share
  | exclusive
  deriving DecidableEq, Repr

/-- What a transaction still has to do. Its statements see the committed rows with its own changes.
-/
inductive Program (κ σ ε α : Type)
  /-- It commits. -/
  | done (value : α)
  /-- It fails. -/
  | fail (failure : ε)
  /-- It reads the rows. -/
  | select (next : σ → Program κ σ ε α)
  /-- It locks a key. -/
  | lock (key : κ) (mode : Mode) (next : Program κ σ ε α)
  /-- It changes rows, or violates a constraint. -/
  | write (change : σ → Except ε σ) (next : Program κ σ ε α)

variable {κ σ τ ρ ε α β : Type}

namespace Program

/-- One program after another. The second one depends on what the first returns. -/
def bind : Program κ σ ε α → (α → Program κ σ ε β) → Program κ σ ε β
  | .done value, f => f value
  | .fail failure, _ => .fail failure
  | .select next, f => .select fun rows => (next rows).bind f
  | .lock key mode next, f => .lock key mode (next.bind f)
  | .write change next, f => .write change (next.bind f)

/-- Programs are sequenced with `do`. -/
instance : Monad (Program κ σ ε) where
  pure := .done
  bind := bind

/-- What needs no statement. A failure ends the program. -/
def lift : Except ε α → Program κ σ ε α
  | .ok value => .done value
  | .error failure => .fail failure

/-- A statement that reads, and may fail on what it reads. -/
def read (f : σ → Except ε α) : Program κ σ ε α := .select fun rows => lift (f rows)

/-- A statement that locks a key. It waits until nobody else holds the key in a conflicting mode. -/
def take (key : κ) (mode : Mode) : Program κ σ ε Unit := .lock key mode (.done ())

/-- A statement that changes rows. The change becomes visible to others with the commit. -/
def put (change : σ → Except ε σ) : Program κ σ ε Unit := .write change (.done ())

end Program

/-! ## The system -/

/-- Where a transaction is. There is one phase for each process, which runs one transaction. -/
inductive Phase (κ σ ρ ε α : Type)
  /-- It has not started. -/
  | idle
  /-- It is under way, with what it has changed so far. -/
  | running (request : ρ) (change : σ → Except ε σ) (program : Program κ σ ε α)
  /-- It is committed. -/
  | committed (request : ρ) (value : α)
  /-- It has failed; an error of its environment has no `failure`. -/
  | failed (request : ρ) (failure : Option ε)

/-- It is under way. Its locks are held. -/
def Phase.active : Phase κ σ ρ ε α → Bool
  | .running .. => true
  | _ => false

/-- It is over. It holds no lock any more. -/
def Phase.over : Phase κ σ ρ ε α → Bool
  | .committed .. | .failed .. => true
  | _ => false

/-- The store, the holders of the locks, and the transactions by number. -/
structure World (κ σ ρ ε α : Type) where
  /-- The committed rows. -/
  rows : σ
  /-- The transactions that hold a key, each with its mode. -/
  locks : κ → List (ℕ × Mode)
  /-- The transactions. -/
  phases : ℕ → Phase κ σ ρ ε α

/-- What transactions may rely on. Each key protects a part of the store from changes by others. -/
structure Discipline (κ σ τ : Type) where
  /-- The part of the store that only who has a key for itself changes. -/
  view : κ → σ → τ
  /-- What every change keeps. -/
  keeps : σ → σ → Prop
  /-- No change keeps it. -/
  refl : ∀ rows, keeps rows rows
  /-- Neither do two changes break it. -/
  trans : ∀ {rows₁ rows₂ rows₃}, keeps rows₁ rows₂ → keeps rows₂ rows₃ → keeps rows₁ rows₃

/-- A change by others, who hold no lock. -/
def Interference (d : Discipline κ σ τ) : Type :=
  { f : σ → σ // ∀ rows, d.keeps rows (f rows) ∧ ∀ key, d.view key (f rows) = d.view key rows }

/-- The actions. They interleave the transactions statement by statement. -/
inductive Act (ρ ι : Type)
  /-- A transaction starts. -/
  | start (process : ℕ) (request : ρ)
  /-- The next statement of a transaction, or its commit. -/
  | step (process : ℕ)
  /-- A transaction is ended by an error of its environment. -/
  | abort (process : ℕ)
  /-- The rows are changed by others. -/
  | interfere (change : ι)

namespace World

/-- The locks of a transaction are released. The locks of the others stay. -/
def release (w : World κ σ ρ ε α) (process : ℕ) : κ → List (ℕ × Mode) :=
  fun key => (w.locks key).filter fun holder => holder.1 ≠ process

/-- No other transaction holds the key in a mode that excludes this one. -/
def Free (w : World κ σ ρ ε α) (key : κ) (mode : Mode) (process : ℕ) : Prop :=
  ∀ holder ∈ w.locks key, holder.1 = process ∨ (holder.2 = .share ∧ mode = .share)

/-- Finitely many transactions hold the key. -/
instance (w : World κ σ ρ ε α) (key : κ) (mode : Mode) (process : ℕ) :
    Decidable (w.Free key mode process) :=
  inferInstanceAs (Decidable (∀ holder ∈ w.locks key, _))

/-- A transaction moves on. The rows and the locks stay. -/
def move (w : World κ σ ρ ε α) (process : ℕ) (phase : Phase κ σ ρ ε α) : World κ σ ρ ε α :=
  { w with phases := Function.update w.phases process phase }

/-- A transaction ends, with the rows it leaves. -/
def finish (w : World κ σ ρ ε α) (process : ℕ) (phase : Phase κ σ ρ ε α) (rows : σ) :
    World κ σ ρ ε α :=
  ⟨rows, w.release process, Function.update w.phases process phase⟩

variable [DecidableEq κ]

/-- A transaction takes a lock and moves on. -/
def take (w : World κ σ ρ ε α) (key : κ) (mode : Mode) (process : ℕ) (phase : Phase κ σ ρ ε α) :
    World κ σ ρ ε α :=
  ⟨w.rows, Function.update w.locks key ((process, mode) :: w.locks key),
    Function.update w.phases process phase⟩

/-- The next statement of a transaction. A lock that is not free leaves it where it is. -/
def advance (w : World κ σ ρ ε α) (i : ℕ) (request : ρ) (change : σ → Except ε σ) :
    Program κ σ ε α → World κ σ ρ ε α
  | .done value =>
    match change w.rows with
    | .ok rows => w.finish i (.committed request value) rows
    | .error failure => w.finish i (.failed request (some failure)) w.rows
  | .fail failure => w.finish i (.failed request (some failure)) w.rows
  | .select next =>
    match change w.rows with
    | .ok rows => w.move i (.running request change (next rows))
    | .error failure => w.finish i (.failed request (some failure)) w.rows
  | .lock key mode next =>
    if w.Free key mode i then w.take key mode i (.running request change next) else w
  | .write change' next => w.move i (.running request (fun rows => change rows >>= change') next)

/-- One action. An action that cannot be taken changes nothing. -/
def step (program : ρ → Program κ σ ε α) (d : Discipline κ σ τ) (w : World κ σ ρ ε α) :
    Act ρ (Interference d) → World κ σ ρ ε α
  | .start i request =>
    match w.phases i with
    | .idle => w.move i (.running request .ok (program request))
    | _ => w
  | .step i =>
    match w.phases i with
    | .running request change program => w.advance i request change program
    | _ => w
  | .abort i =>
    match w.phases i with
    | .running request _ _ => w.finish i (.failed request none) w.rows
    | _ => w
  | .interfere change => { w with rows := change.1 w.rows }

/-- The store before any transaction. No key is locked. -/
def initial (rows : σ) : World κ σ ρ ε α := ⟨rows, fun _ => [], fun _ => .idle⟩

/-- The state after a run from a store. -/
def run (program : ρ → Program κ σ ε α) (d : Discipline κ σ τ) (rows : σ)
    (acts : List (Act ρ (Interference d))) : World κ σ ρ ε α :=
  Transition.run (step program d) (initial rows) acts

end World

/-! ## The logic -/

section Logic

variable (d : Discipline κ σ τ)

/-- The rows are as known, under the keys that are locked. -/
def Agrees (known : List ((κ × Mode) × τ)) (rows : σ) : Prop :=
  ∀ entry ∈ known, d.view entry.1.1 rows = entry.2

/-- The weakest precondition of a program that has seen the rows `seen`: whatever it reads that agrees
with what is known and comes after what it has seen, the postcondition holds of what is known, seen
and changed when it commits. -/
def Program.Ensures (post : List ((κ × Mode) × τ) → σ → (σ → Except ε σ) → α → Prop) :
    Program κ σ ε α → List ((κ × Mode) × τ) → σ → (σ → Except ε σ) → Prop
  | .done value, known, seen, change => post known seen change value
  | .fail _, _, _, _ => True
  | .select next, known, seen, change =>
    ∀ rows rows', d.keeps seen rows → Agrees d known rows → change rows = .ok rows' →
      (next rows').Ensures post known rows change
  | .lock key mode next, known, seen, change =>
    ∀ value, next.Ensures post (((key, mode), value) :: known) seen change
  | .write change' next, known, seen, change =>
    next.Ensures post known seen fun rows => change rows >>= change'

variable {d} {known : List ((κ × Mode) × τ)} {seen : σ} {change : σ → Except ε σ}

/-- The precondition of one program after another. What the first ensures is what the second starts
from. -/
theorem Program.ensures_bind {post : List ((κ × Mode) × τ) → σ → (σ → Except ε σ) → β → Prop}
    (p : Program κ σ ε α) (f : α → Program κ σ ε β) :
    (p >>= f).Ensures d post known seen change ↔
      p.Ensures d (fun known seen change value => (f value).Ensures d post known seen change) known
        seen change := by
  show (p.bind f).Ensures d post known seen change ↔ _
  induction p generalizing known seen change with
  | done value => exact Iff.rfl
  | fail failure => exact Iff.rfl
  | select next ih =>
    exact forall_congr' fun rows => forall_congr' fun rows' => imp_congr_right fun _ =>
      imp_congr_right fun _ => imp_congr_right fun _ => ih rows'
  | lock key mode next ih => exact forall_congr' fun value => ih
  | write change' next ih => exact ih

variable {post : List ((κ × Mode) × τ) → σ → (σ → Except ε σ) → α → Prop}

/-- The precondition of what needs no statement. -/
theorem Program.ensures_lift {result : Except ε α}
    (h : ∀ value, result = .ok value → post known seen change value) :
    (lift result : Program κ σ ε α).Ensures d post known seen change := by
  cases result with
  | ok value => exact h value rfl
  | error failure => trivial

/-- The precondition of a statement that reads. -/
theorem Program.ensures_read {f : σ → Except ε α}
    (h : ∀ rows rows' value, d.keeps seen rows → Agrees d known rows → change rows = .ok rows' →
      f rows' = .ok value → post known rows change value) :
    (read f : Program κ σ ε α).Ensures d post known seen change :=
  fun rows rows' hkeeps hagrees hok => ensures_lift fun value hvalue =>
    h rows rows' value hkeeps hagrees hok hvalue

end Logic

/-! ## Soundness -/

section Soundness

variable {program : ρ → Program κ σ ε α} {d : Discipline κ σ τ}
  {good : ρ → α → List (κ × Mode) → σ → σ → Prop}

/-- What a program has to guarantee when it commits: it changes only views that it has locked for
itself, and what it does under its locks is `good`. -/
def Guarantees (d : Discipline κ σ τ) (good : ρ → α → List (κ × Mode) → σ → σ → Prop) (request : ρ)
    (known : List ((κ × Mode) × τ)) (seen : σ) (change : σ → Except ε σ) (value : α) : Prop :=
  ∀ rows rows', d.keeps seen rows → Agrees d known rows → change rows = .ok rows' →
    d.keeps rows rows' ∧
    (∀ key, (key, Mode.exclusive) ∉ known.map Prod.fst → d.view key rows' = d.view key rows) ∧
      good request value (known.map Prod.fst) rows rows'

/-- What a transaction that is under way knows and has seen, and that it suffices for the rest of
it. -/
structure Backed (d : Discipline κ σ τ) (good : ρ → α → List (κ × Mode) → σ → σ → Prop)
    (w : World κ σ ρ ε α) (i : ℕ) (request : ρ) (change : σ → Except ε σ)
    (program : Program κ σ ε α) (known : List ((κ × Mode) × τ)) (seen : σ) : Prop where
  /-- It knows the views that it has locked. -/
  locks : ∀ key mode, (i, mode) ∈ w.locks key ↔ (key, mode) ∈ known.map Prod.fst
  /-- The rows come after those it has seen. -/
  keeps : d.keeps seen w.rows
  /-- The views are as it knows them. -/
  agrees : Agrees d known w.rows
  /-- The rest of it has its precondition. -/
  ensures : program.Ensures d (Guarantees d good request) known seen change

/-- The invariant of the concurrent system. What a transaction knows is kept until its commit. -/
structure Inv (d : Discipline κ σ τ) (good : ρ → α → List (κ × Mode) → σ → σ → Prop)
    (w : World κ σ ρ ε α) : Prop where
  /-- Only a transaction that is under way holds locks. -/
  held : ∀ key i mode, (i, mode) ∈ w.locks key → (w.phases i).active = true
  /-- Who has a key for itself is alone. -/
  alone : ∀ key i j mode, (i, Mode.exclusive) ∈ w.locks key → (j, mode) ∈ w.locks key → j = i
  /-- A transaction that is under way is backed. -/
  backed : ∀ i request change program, w.phases i = .running request change program →
    ∃ known seen, Backed d good w i request change program known seen

/-- What is known stays known where the views that are locked stay. -/
theorem Agrees.kept {known : List ((κ × Mode) × τ)} {rows rows' : σ} (h : Agrees d known rows)
    (hsame : ∀ key mode, (key, mode) ∈ known.map Prod.fst → d.view key rows' = d.view key rows) :
    Agrees d known rows' :=
  fun entry hentry =>
    (hsame entry.1.1 entry.1.2 (List.mem_map_of_mem hentry)).trans (h entry hentry)

/-- A lock that is held after a release was held before it, by another transaction. -/
theorem mem_release {w : World κ σ ρ ε α} {i j : ℕ} {key : κ} {mode : Mode} :
    (j, mode) ∈ w.release i key ↔ (j, mode) ∈ w.locks key ∧ j ≠ i := by
  unfold World.release
  rw [List.mem_filter, decide_eq_true_eq]

variable {w : World κ σ ρ ε α} {i : ℕ} {request : ρ}

/-- A transaction that ends keeps the invariant, where it keeps to the discipline. What it writes is
seen only through the views that it holds exclusively, so nothing that another transaction knows has
become false. -/
theorem Inv.finish (h : Inv d good w) {phase : Phase κ σ ρ ε α} (hphase : phase.active = false)
    {rows : σ} (hkeeps : d.keeps w.rows rows)
    (hrows : ∀ key, (i, Mode.exclusive) ∉ w.locks key → d.view key rows = d.view key w.rows) :
    Inv d good (w.finish i phase rows) := by
  constructor
  · -- Its own locks are released, and those of the others are as they were.
    intro key j mode hheld
    obtain ⟨hheld, hij⟩ := mem_release.mp hheld
    rw [show (w.finish i phase rows).phases j = w.phases j from Function.update_of_ne hij _ _]
    exact h.held key j mode hheld
  · intro key j k mode hexclusive hheld
    exact h.alone key j k mode (mem_release.mp hexclusive).1 (mem_release.mp hheld).1
  · -- The phase of the transaction itself is over; the others keep what they know.
    intro j request' change program hj
    by_cases hij : j = i
    · subst hij
      rw [show (w.finish j phase rows).phases j = phase from Function.update_self ..] at hj
      rw [hj] at hphase
      cases hphase
    · rw [show (w.finish i phase rows).phases j = w.phases j from Function.update_of_ne hij _ _] at hj
      obtain ⟨known, seen, hbacked⟩ := h.backed j request' change program hj
      refine ⟨known, seen, fun key mode => ?_, d.trans hbacked.keeps hkeeps,
        hbacked.agrees.kept fun key mode hkey => hrows key fun hexclusive => hij ?_, hbacked.ensures⟩
      · rw [← hbacked.locks key mode]
        exact mem_release.trans (and_iff_left hij)
      · -- A view that another transaction has locked is not changed.
        exact h.alone key i j mode hexclusive ((hbacked.locks key mode).mpr hkey)

/-- A transaction that moves on keeps the invariant, where it is still backed. Moving on changes
neither the rows nor the locks, only what this transaction is about to do. -/
theorem Inv.move (h : Inv d good w) {change : σ → Except ε σ} {program : Program κ σ ε α}
    (hbacked : ∃ known seen, Backed d good w i request change program known seen) :
    Inv d good (w.move i (.running request change program)) := by
  have hself : (w.move i (.running request change program)).phases i =
      .running request change program := Function.update_self ..
  have hother : ∀ {j : ℕ}, j ≠ i →
      (w.move i (.running request change program)).phases j = w.phases j :=
    fun hij => Function.update_of_ne hij _ _
  constructor
  · intro key j mode hheld
    by_cases hij : j = i
    · rw [hij, hself]
      rfl
    · rw [hother hij]
      exact h.held key j mode hheld
  · exact h.alone
  · intro j request' change' program' hj
    by_cases hij : j = i
    · subst hij
      rw [hself] at hj
      obtain ⟨rfl, rfl, rfl⟩ := Phase.running.inj hj
      obtain ⟨known, seen, hbacked⟩ := hbacked
      exact ⟨known, seen, hbacked.locks, hbacked.keeps, hbacked.agrees, hbacked.ensures⟩
    · rw [hother hij] at hj
      obtain ⟨known, seen, hbacked⟩ := h.backed j request' change' program' hj
      exact ⟨known, seen, hbacked.locks, hbacked.keeps, hbacked.agrees, hbacked.ensures⟩

variable [DecidableEq κ]

/-- Who holds a key once a transaction has taken a lock. -/
theorem mem_take {key : κ} {mode : Mode} {phase : Phase κ σ ρ ε α} {j : ℕ} {key' : κ}
    {mode' : Mode} : (j, mode') ∈ (w.take key mode i phase).locks key' ↔
      (key' = key ∧ j = i ∧ mode' = mode) ∨ (j, mode') ∈ w.locks key' := by
  show (j, mode') ∈ Function.update w.locks key ((i, mode) :: w.locks key) key' ↔ _
  by_cases hkey : key' = key
  · subst hkey
    rw [Function.update_self, List.mem_cons, Prod.mk.injEq]
    simp
  · rw [Function.update_of_ne hkey]
    simp [hkey]

/-- A transaction that takes a free lock keeps the invariant: it knows the view from then on. Nobody
else can change that view before the transaction is over. -/
theorem Inv.lock (h : Inv d good w) {key : κ} {mode : Mode} (hfree : w.Free key mode i)
    {change : σ → Except ε σ} {next : Program κ σ ε α}
    (hphase : w.phases i = .running request change (.lock key mode next)) :
    Inv d good (w.take key mode i (.running request change next)) := by
  have hother : ∀ {j : ℕ}, j ≠ i →
      (w.take key mode i (.running request change next)).phases j = w.phases j :=
    fun hij => Function.update_of_ne hij _ _
  have hself : (w.take key mode i (.running request change next)).phases i =
      .running request change next := Function.update_self ..
  constructor
  · -- Whoever holds a lock is active: the transaction itself, or a holder from before.
    intro key' j mode' hheld
    by_cases hij : j = i
    · rw [hij, hself]
      rfl
    · rw [hother hij]
      rcases mem_take.mp hheld with ⟨-, hsame, -⟩ | hheld
      · exact absurd hsame hij
      · exact h.held key' j mode' hheld
  · intro key' j k mode' hexclusive hheld
    rcases mem_take.mp hexclusive with ⟨rfl, rfl, rfl⟩ | hfirst
    · -- The lock was free for it alone.
      rcases mem_take.mp hheld with ⟨-, hsame, -⟩ | hsecond
      · exact hsame
      · rcases hfree _ hsecond with hsame | ⟨-, hshare⟩
        · exact hsame
        · cases hshare
    · rcases mem_take.mp hheld with ⟨rfl, rfl, rfl⟩ | hsecond
      · rcases hfree _ hfirst with hsame | ⟨hshare, -⟩
        · exact hsame.symm
        · cases hshare
      · exact h.alone key' j k mode' hfirst hsecond
  · -- The transaction knows one view more; the others know what they knew.
    intro j request' change' program' hj
    by_cases hij : j = i
    · subst hij
      rw [hself] at hj
      obtain ⟨rfl, rfl, rfl⟩ := Phase.running.inj hj
      obtain ⟨known, seen, hbacked⟩ := h.backed j _ _ _ hphase
      refine ⟨((key, mode), d.view key w.rows) :: known, seen, fun key' mode' => ?_, hbacked.keeps,
        ?_, hbacked.ensures _⟩
      · rw [mem_take, List.map_cons, List.mem_cons, hbacked.locks key' mode', Prod.mk.injEq]
        simp
      · intro entry hentry
        rcases List.mem_cons.mp hentry with rfl | hentry
        · rfl
        · exact hbacked.agrees entry hentry
    · rw [hother hij] at hj
      obtain ⟨known, seen, hbacked⟩ := h.backed j request' change' program' hj
      refine ⟨known, seen, fun key' mode' => ?_, hbacked.keeps, hbacked.agrees, hbacked.ensures⟩
      rw [mem_take, ← hbacked.locks key' mode']
      exact or_iff_right fun hsame => hij hsame.2.1

/-- The next statement of a transaction keeps the invariant. One case for each kind of statement;
only the last one, the commit, changes rows. -/
theorem Inv.advance (h : Inv d good w) {change : σ → Except ε σ} {p : Program κ σ ε α}
    (hphase : w.phases i = .running request change p) :
    Inv d good (w.advance i request change p) := by
  obtain ⟨known, seen, hbacked⟩ := h.backed i request change p hphase
  have hfail : ∀ failure, Inv d good (w.finish i (.failed request failure) w.rows) :=
    fun failure => h.finish rfl (d.refl w.rows) fun key _ => rfl
  cases p with
  | done value =>
    simp only [World.advance]
    split
    · rename_i rows hrows
      -- The precondition that is left over at the end is what the commit has to keep.
      obtain ⟨hkeeps, hframe, -⟩ := hbacked.ensures w.rows rows hbacked.keeps hbacked.agrees hrows
      refine h.finish rfl hkeeps fun key hkey => hframe key fun hmem => hkey ?_
      exact (hbacked.locks key _).mpr hmem
    · exact hfail _
  | fail failure => exact hfail _
  | select next =>
    simp only [World.advance]
    split
    · rename_i rows hrows
      exact h.move ⟨known, w.rows, hbacked.locks, d.refl w.rows, hbacked.agrees,
        hbacked.ensures w.rows rows hbacked.keeps hbacked.agrees hrows⟩
    · exact hfail _
  | lock key mode next =>
    simp only [World.advance]
    split_ifs with hfree
    · exact h.lock hfree hphase
    · exact h
  | write change' next =>
    exact h.move ⟨known, seen, hbacked.locks, hbacked.keeps, hbacked.agrees, hbacked.ensures⟩

/-- Every action keeps the invariant, where every program has its precondition. The interference of
other programs is free to change rows, within the discipline and outside the views. -/
theorem Inv.step (h : Inv d good w)
    (hprogram : ∀ request seen, (program request).Ensures d (Guarantees d good request) [] seen .ok)
    (a : Act ρ (Interference d)) : Inv d good (w.step program d a) := by
  cases a with
  | start i request =>
    unfold World.step
    simp only
    split
    · rename_i hidle
      refine h.move ⟨[], w.rows, fun key mode => ?_, d.refl w.rows,
        fun _ hentry => absurd hentry List.not_mem_nil, hprogram request w.rows⟩
      -- A transaction that has not started holds no lock.
      refine iff_of_false (fun hheld => ?_) List.not_mem_nil
      have hactive := h.held key i mode hheld
      rw [hidle] at hactive
      cases hactive
    · exact h
  | step i =>
    unfold World.step
    simp only
    split
    · rename_i request change p hphase
      exact h.advance hphase
    · exact h
  | abort i =>
    unfold World.step
    simp only
    split
    · exact h.finish rfl (d.refl w.rows) fun key _ => rfl
    · exact h
  -- A change from outside is one that the discipline allows and that no view shows.
  | interfere change =>
    refine ⟨h.held, h.alone, fun i request change' p hphase => ?_⟩
    obtain ⟨known, seen, hbacked⟩ := h.backed i request change' p hphase
    obtain ⟨hkeeps, hview⟩ := change.2 w.rows
    exact ⟨known, seen, hbacked.locks, d.trans hbacked.keeps hkeeps,
      hbacked.agrees.kept fun key _ _ => hview key, hbacked.ensures⟩

/-- What an action does to the transactions and the rows. -/
inductive Stepped (w : World κ σ ρ ε α) :
    Act ρ (Interference d) → World κ σ ρ ε α → Prop
  /-- Nothing happens. -/
  | stuck (a : Act ρ (Interference d)) : Stepped w a w
  /-- A transaction moves on. -/
  | moved (a : Act ρ (Interference d)) (i : ℕ) (request : ρ) (change : σ → Except ε σ)
      (program : Program κ σ ε α) (hphase : (w.phases i).over = false) :
    Stepped w a (w.move i (.running request change program))
  /-- A transaction takes a lock. -/
  | locked (i : ℕ) (request : ρ) (change : σ → Except ε σ) (program : Program κ σ ε α)
      (hphase : (w.phases i).over = false) (key : κ) (mode : Mode) (hfree : w.Free key mode i) :
    Stepped w (.step i) (w.take key mode i (.running request change program))
  /-- A transaction fails. -/
  | failed (a : Act ρ (Interference d)) (i : ℕ) (request : ρ) (failure : Option ε)
      (hphase : (w.phases i).over = false) :
    Stepped w a (w.finish i (.failed request failure) w.rows)
  /-- A transaction is committed. -/
  | committed (i : ℕ) (request : ρ) (change : σ → Except ε σ) (value : α)
      (hphase : w.phases i = .running request change (.done value)) (rows : σ)
      (hrows : change w.rows = .ok rows) :
    Stepped w (.step i) (w.finish i (.committed request value) rows)
  /-- Others change the rows. -/
  | interfered (change : Interference d) :
    Stepped w (.interfere change) { w with rows := change.1 w.rows }

/-- The next statement of a transaction is one of these. It names what a step can be once, so that
no later proof unfolds the machine. -/
theorem advance_stepped {change : σ → Except ε σ} {p : Program κ σ ε α}
    (hphase : w.phases i = .running request change p) :
    @Stepped _ _ _ _ _ _ d _ w (.step i) (w.advance i request change p) := by
  have hover : (w.phases i).over = false := by
    rw [hphase]
    rfl
  cases p with
  | done value =>
    simp only [World.advance]
    split
    · rename_i rows hrows
      exact .committed i request change value hphase rows hrows
    · exact .failed _ i request _ hover
  | fail failure => exact .failed _ i request _ hover
  | select next =>
    simp only [World.advance]
    split
    · exact .moved _ i request change _ hover
    · exact .failed _ i request _ hover
  | lock key mode next =>
    simp only [World.advance]
    split_ifs with hfree
    · exact .locked i request change next hover key mode hfree
    · exact .stuck _
  | write change' next => exact .moved _ i request _ next hover

variable (w)

/-- Every action is one of these. Starting, taking a step, waiting for a lock, committing and
rolling back. -/
theorem step_stepped (program : ρ → Program κ σ ε α) (a : Act ρ (Interference d)) :
    Stepped w a (w.step program d a) := by
  cases a with
  | start i request =>
    unfold World.step
    simp only
    split
    · rename_i hidle
      exact .moved _ i request _ _ (by rw [hidle]; rfl)
    · exact .stuck _
  | step i =>
    unfold World.step
    simp only
    split
    · rename_i request change p hphase
      exact advance_stepped hphase
    · exact .stuck _
  | abort i =>
    unfold World.step
    simp only
    split
    · rename_i request change p hphase
      exact .failed _ i request none (by rw [hphase]; rfl)
    · exact .stuck _
  | interfere change => exact .interfered change

variable {w}

/-- A transaction that is over stays so. Neither its own actions nor those of others change its
phase. -/
theorem step_over (h : (w.phases i).over = true) (a : Act ρ (Interference d)) :
    (w.step program d a).phases i = w.phases i := by
  have hne : ∀ {j : ℕ}, (w.phases j).over = false → i ≠ j := by
    rintro j hj rfl
    rw [h] at hj
    cases hj
  have hstepped := step_stepped w program a
  generalize w.step program d a = w' at hstepped
  cases hstepped with
  | stuck => rfl
  | moved _ j request change program hphase => exact Function.update_of_ne (hne hphase) _ _
  | locked j request change program hphase => exact Function.update_of_ne (hne hphase) _ _
  | failed _ j request failure hphase => exact Function.update_of_ne (hne hphase) _ _
  | committed j request change value hphase =>
    exact Function.update_of_ne (hne (by rw [hphase]; rfl)) _ _
  | interfered => rfl

omit [DecidableEq κ] in
/-- What a commit does is good, and it changes only views that the transaction has locked for
itself. -/
theorem Inv.commit (h : Inv d good w) {change : σ → Except ε σ} {value : α} {rows : σ}
    (hphase : w.phases i = .running request change (.done value)) (hrows : change w.rows = .ok rows) :
    (∀ key, (i, Mode.exclusive) ∉ w.locks key → d.view key rows = d.view key w.rows) ∧
      ∃ keys, (∀ key mode, (i, mode) ∈ w.locks key ↔ (key, mode) ∈ keys) ∧
        good request value keys w.rows rows := by
  obtain ⟨known, seen, hbacked⟩ := h.backed i request change _ hphase
  obtain ⟨-, hframe, hgood⟩ := hbacked.ensures w.rows rows hbacked.keeps hbacked.agrees hrows
  exact ⟨fun key hkey => hframe key fun hmem => hkey ((hbacked.locks key _).mpr hmem), _,
    hbacked.locks, hgood⟩

omit [DecidableEq κ] in
/-- A transaction that is over holds no lock. Its locks were released when it ended. -/
theorem Inv.released (h : Inv d good w) (hover : (w.phases i).over = true) (key : κ) (mode : Mode) :
    (i, mode) ∉ w.locks key := by
  intro hheld
  have hactive := h.held key i mode hheld
  cases hphase : w.phases i <;> rw [hphase] at hactive hover
  · cases hactive
  · cases hover
  · cases hactive
  · cases hactive

/-- A transaction that is committed has made its change. It is made on the rows as they are at the
commit. -/
theorem committed_rows {change : σ → Except ε σ} {value : α}
    (hphase : w.phases i = .running request change (.done value))
    (hafter : ∃ request value, (w.step program d (.step i)).phases i = .committed request value) :
    ∃ rows, change w.rows = .ok rows ∧
      w.step program d (.step i) = w.finish i (.committed request value) rows := by
  obtain ⟨request', value', hafter⟩ := hafter
  cases hrows : change w.rows with
  | ok rows =>
    refine ⟨rows, rfl, ?_⟩
    simp only [World.step, hphase, World.advance, hrows]
  | error failure =>
    have hstep : w.step program d (.step i) = w.finish i (.failed request (some failure)) w.rows := by
      simp only [World.step, hphase, World.advance, hrows]
    rw [hstep, show (w.finish i (.failed request (some failure)) w.rows).phases i = _ from
      Function.update_self ..] at hafter
    cases hafter

/-- The view of a key that a transaction holds stays as it is until the transaction is over. It is
the lemma by which a fact that is read under a lock is still a fact at the commit. -/
theorem Inv.step_view (h : Inv d good w) {key : κ} {mode : Mode} (hheld : (i, mode) ∈ w.locks key)
    (a : Act ρ (Interference d)) :
    ((i, mode) ∈ (w.step program d a).locks key ∧
      d.view key (w.step program d a).rows = d.view key w.rows) ∨
    ((w.step program d a).phases i).over = true := by
  -- A transaction that ends is this one, which is then over, or another, which leaves the lock in
  -- place.
  have hfinish : ∀ {j : ℕ} {phase : Phase κ σ ρ ε α} {rows : σ}, phase.over = true →
      (j ≠ i → d.view key rows = d.view key w.rows) →
      ((i, mode) ∈ (w.finish j phase rows).locks key ∧
        d.view key (w.finish j phase rows).rows = d.view key w.rows) ∨
      ((w.finish j phase rows).phases i).over = true := by
    intro j phase rows hphase hrows
    by_cases hij : j = i
    · right
      subst hij
      rw [show (w.finish j phase rows).phases j = phase from Function.update_self ..]
      exact hphase
    · exact Or.inl ⟨mem_release.mpr ⟨hheld, Ne.symm hij⟩, hrows hij⟩
  have hstepped := step_stepped w program a
  generalize w.step program d a = w' at hstepped
  cases hstepped with
  | stuck => exact Or.inl ⟨hheld, rfl⟩
  | moved => exact Or.inl ⟨hheld, rfl⟩
  | locked => exact Or.inl ⟨mem_take.mpr (Or.inr hheld), rfl⟩
  | failed _ j request failure => exact hfinish rfl fun _ => rfl
  -- The commit of another writes only under its own exclusive locks, and this lock excludes them.
  | committed j request change value hphase rows hrows =>
    refine hfinish rfl fun hij => (h.commit hphase hrows).1 key fun hexclusive => hij ?_
    exact (h.alone key j i mode hexclusive hheld).symm
  | interfered change => exact Or.inl ⟨hheld, (change.2 w.rows).2 key⟩

/-! ## Runs -/

variable (program d) (rows : σ)

/-- The invariant holds in every reachable state. -/
theorem run_inv
    (hprogram : ∀ request seen, (program request).Ensures d (Guarantees d good request) [] seen .ok)
    (acts : List (Act ρ (Interference d))) : Inv d good (World.run program d rows acts) := by
  refine Transition.run_invariant (fun w a (h : Inv d good w) => h.step hprogram a) ?_ acts
  exact ⟨fun _ _ _ hheld => (by cases hheld), fun _ _ _ _ hheld => (by cases hheld),
    fun _ _ _ _ hphase => (by cases hphase)⟩

/-- A key that a transaction holds is held from then on, with the same view, until the transaction
is over. By induction on the later part of the run, step by step with `step_view`. -/
theorem run_held
    (hprogram : ∀ request seen, (program request).Ensures d (Guarantees d good request) [] seen .ok)
    {key : κ} {mode : Mode} {pre acts : List (Act ρ (Interference d))} (hpre : pre <+: acts)
    (hheld : (i, mode) ∈ (World.run program d rows pre).locks key) :
    ((i, mode) ∈ (World.run program d rows acts).locks key ∧
      d.view key (World.run program d rows acts).rows =
        d.view key (World.run program d rows pre).rows) ∨
      ((World.run program d rows acts).phases i).over = true := by
  obtain ⟨later, rfl⟩ := hpre
  induction later using List.reverseRecOn with
  | nil => exact Or.inl ⟨by rw [List.append_nil]; exact hheld, by rw [List.append_nil]⟩
  | append_singleton later a ih =>
    have hstep : World.run program d rows (pre ++ (later ++ [a])) =
        (World.run program d rows (pre ++ later)).step program d a := by
      rw [← List.append_assoc]
      exact Transition.run_concat _ _ (pre ++ later) a
    rw [hstep]
    rcases ih with ⟨hlocks, hview⟩ | hover
    · have hinv := run_inv program d rows hprogram (pre ++ later)
      rcases hinv.step_view hlocks a with ⟨hlocks', hview'⟩ | hover
      · exact Or.inl ⟨hlocks', hview'.trans hview⟩
      · exact Or.inr hover
    · exact Or.inr (by rw [step_over hover, hover])

/-- A transaction that is over stays so in a longer run. -/
theorem run_over {pre acts : List (Act ρ (Interference d))} (hpre : pre <+: acts)
    (hover : ((World.run program d rows pre).phases i).over = true) :
    (World.run program d rows acts).phases i = (World.run program d rows pre).phases i := by
  obtain ⟨later, rfl⟩ := hpre
  induction later using List.reverseRecOn with
  | nil => rw [List.append_nil]
  | append_singleton later a ih =>
    have hstep : World.run program d rows (pre ++ (later ++ [a])) =
        (World.run program d rows (pre ++ later)).step program d a := by
      rw [← List.append_assoc]
      exact Transition.run_concat _ _ (pre ++ later) a
    rw [hstep, step_over (ih ▸ hover), ih]

/-- A committed transaction has been committed by one of the actions. So a fact about a commit can
be looked up at the moment of the commit, with the run before it. -/
theorem run_committed {acts : List (Act ρ (Interference d))} {value : α}
    (h : (World.run program d rows acts).phases i = .committed request value) :
    ∃ pre change, pre ++ [.step i] <+: acts ∧
      (World.run program d rows pre).phases i = .running request change (.done value) ∧
        (World.run program d rows (pre ++ [.step i])).phases i = .committed request value := by
  induction acts using List.reverseRecOn with
  | nil => cases h
  | append_singleton acts a ih =>
    have hstep : World.run program d rows (acts ++ [a]) =
        (World.run program d rows acts).step program d a := Transition.run_concat _ _ acts a
    have hold : (World.run program d rows acts).phases i = .committed request value →
        ∃ pre change, pre ++ [.step i] <+: acts ++ [a] ∧
          (World.run program d rows pre).phases i = .running request change (.done value) ∧
            (World.run program d rows (pre ++ [.step i])).phases i =
              .committed request value := by
      intro hcommitted
      obtain ⟨pre, change, hpre, hrest⟩ := ih hcommitted
      exact ⟨pre, change, hpre.trans (List.prefix_append acts [a]), hrest⟩
    have hafter := h
    rw [hstep] at h
    have hstepped := step_stepped (World.run program d rows acts) program a
    generalize (World.run program d rows acts).step program d a = w' at h hstepped
    -- An action that brings no process to a commit has found this one committed.
    have hother : ∀ {j : ℕ} {phase : Phase κ σ ρ ε α}, (∀ r v, phase ≠ .committed r v) →
        Function.update (World.run program d rows acts).phases j phase i =
          .committed request value →
        (World.run program d rows acts).phases i = .committed request value := by
      intro j phase hphase hcommitted
      by_cases hij : i = j
      · subst hij
        rw [Function.update_self] at hcommitted
        exact absurd hcommitted (hphase _ _)
      · rwa [Function.update_of_ne hij] at hcommitted
    cases hstepped with
    | stuck => exact hold h
    | moved => exact hold (hother (by simp) h)
    | locked => exact hold (hother (by simp) h)
    | failed => exact hold (hother (by simp) h)
    | committed j request' change value' hphase rows' hrows =>
      by_cases hij : i = j
      · subst hij
        rw [show (World.finish _ i (.committed request' value') rows').phases i = _ from
          Function.update_self ..] at h
        obtain ⟨rfl, rfl⟩ := Phase.committed.inj h
        exact ⟨acts, change, List.prefix_rfl, hphase, hafter⟩
      · rw [show (World.finish _ j (.committed request' value') rows').phases i = _ from
          Function.update_of_ne hij _ _] at h
        exact hold h
    | interfered => exact hold h

end Soundness

end ReadCommitted
