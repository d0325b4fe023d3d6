import RestaurantOS.Idempotency

/-!
# Idempotency keys of orders

A creation of an order looks for a submission with its key before it reads a menu, a recipe or a
balance. A submission is never removed, and a deletion only cuts its link to the order: `Branch.filed`
is what it says besides the link, and every command either keeps it or files one submission under a
key that had none (`exec_filed`). So a repeated creation finds the snapshot of the first one
(`submits_again`). -/

namespace RestaurantOS

open Fallible Catalog Events Inventory Orders Tenancy

namespace Orders

/-- A submission without its link. The link is cleared when the order is deleted. -/
def OrderSubmission.unlinked (submission : OrderSubmission) : OrderSubmission :=
  { submission with order_id := none }

/-- Two creations ask for the same, but for the key. -/
structure CreateOrder.Same (command command' : CreateOrder) : Prop where
  /-- The table. -/
  table_number : command'.table_number = command.table_number
  /-- The customer. -/
  customer_name : command'.customer_name = command.customer_name
  /-- Notes. -/
  notes : command'.notes = command.notes
  /-- Menu item, portions and notes of each item, in their order. -/
  items : command'.items.map (fun item => (item.menu_item_id, item.quantity, item.notes)) =
    command.items.map fun item => (item.menu_item_id, item.quantity, item.notes)

/-- The failure of a creation whose key has been used for another one. -/
def order_conflict : Failure :=
  .ConflictError "Idempotency key was already used for a different order"

end Orders

/-- What the submissions say besides their links. It only grows. -/
def Branch.filed (db : Branch) : List OrderSubmission :=
  db.submissions.map OrderSubmission.unlinked

/-- A legacy branch whose submissions have different keys. -/
structure SubmittedBranch extends LegacyBranch where
  /-- The keys are used once. -/
  submissions_unique : Keyed.Unique OrderSubmission.idempotency_key toBranch.submissions

/-- The small restaurant with an order is one. -/
instance : Nonempty SubmittedBranch :=
  ⟨{ toBranch := Branch.small_served
     legacy := Branch.small_served_legacy
     submissions_unique := List.nodup_singleton _ }⟩

namespace Orders

/-- The submission of a key is found among those that are filed. -/
theorem submission_unlinked (db : Branch) (key : String) :
    (submission db key).map OrderSubmission.unlinked =
      Keyed.lookup OrderSubmission.idempotency_key key db.filed :=
  (Keyed.lookup_map (f := OrderSubmission.unlinked) (fun _ _ => rfl) key).symm

/-- The keys of the submissions are different exactly if those of the filed ones are. -/
theorem unique_filed (db : Branch) : Keyed.Unique OrderSubmission.idempotency_key db.filed ↔
    Keyed.Unique OrderSubmission.idempotency_key db.submissions := by
  unfold Branch.filed Keyed.Unique
  rw [List.map_map]
  rfl

/-- What a command does to the filed submissions: nothing, or it files the one of the creation that it
is, under a new key. -/
inductive Files (db : Branch) (command : Command) (response : Response) (db' : Branch) : Prop
  | kept (hfiled : db'.filed = db.filed)
  | filed {context : AccessContext} {data : CreateOrder} {snapshot : OrderSnapshot}
      {fingerprint : String} (hcommand : command = .create_order context data)
      (hresponse : response = .snapshot snapshot) (hnone : submission db data.idempotency_key = none)
      (hfiled : db'.filed = db.filed ++ [⟨data.idempotency_key, none, fingerprint, snapshot⟩])

/-- Every command keeps the filed submissions, or files one under a new key. Only a creation files
one; everything else keeps the list as it was, up to the link to an order that a deletion cuts. -/
theorem exec_filed {lib : Library} {command : Command} {draw : Draw} {db db' : Branch}
    {response : Response} (hsane : db.Sane) (h : exec lib command draw db = .ok (db', response)) :
    Files db command response db' := by
  -- Commands that leave the table alone keep what is filed.
  have hkept : db'.submissions = db.submissions → Files db command response db' := fun hsame =>
    .kept (by unfold Branch.filed; rw [hsame])
  have hcatalog : command.is_catalog = true → Files db command response db' := fun hcommand =>
    hkept (exec_catalog hcommand h).2.1
  cases command with
  | create_order context data =>
    obtain ⟨⟨db₁, snapshot⟩, hcreate, h⟩ := bind_eq_ok.mp h
    obtain ⟨rfl, rfl⟩ := Prod.mk.inj (pure_eq_ok.mp h)
    -- A replay writes nothing, and a creation appends its submission.
    rcases OrderService.create_ok hcreate with ⟨-, rfl⟩ |
      ⟨hnone, order, -, -, -, -, -, -, -, -, -, hsubmissions, -⟩
    · exact hkept rfl
    · have hfiled : db₁.filed = db.filed ++ [⟨data.idempotency_key, none,
          OrderService.create_signature lib data, snapshot⟩] := by
        unfold Branch.filed
        rw [hsubmissions, List.map_append]
        rfl
      exact .filed rfl rfl hnone hfiled
  | delete_order context order_id =>
    obtain ⟨db₁, hdelete, h⟩ := bind_eq_ok.mp h
    obtain ⟨rfl, rfl⟩ := Prod.mk.inj (pure_eq_ok.mp h)
    obtain ⟨order, event, -, -, -, -, -, -, -, -, hsubmissions, -⟩ := OrderService.delete_ok hdelete
    -- The deletion cuts links, which is all that `filed` leaves out.
    refine .kept ?_
    unfold Branch.filed
    rw [hsubmissions, List.map_map]
    refine List.map_congr_left fun submission _ => ?_
    simp only [Function.comp_apply]
    split_ifs <;> rfl
  | update_order context order_id data =>
    obtain ⟨⟨db₁, order⟩, hupdate, h⟩ := bind_eq_ok.mp h
    obtain ⟨rfl, rfl⟩ := Prod.mk.inj (pure_eq_ok.mp h)
    obtain ⟨-, -, -, -, -, -, -, -, -, -, -, -, -, -, hsubmissions, -⟩ :=
      OrderService.update_ok hsane.range hupdate
    exact hkept hsubmissions
  | create_ingredient context data =>
    obtain ⟨⟨db₁, view⟩, hcreate, h⟩ := bind_eq_ok.mp h
    obtain ⟨rfl, rfl⟩ := Prod.mk.inj (pure_eq_ok.mp h)
    -- The other services never write the submissions, which their frames say.
    obtain ⟨-, -, -, -, -, ⟨-, rfl⟩ | ⟨-, movement, -, -, -, -, -, hwrite⟩⟩ :=
      InventoryService.create_ok hsane.keys hcreate
    · exact hkept rfl
    · exact hkept hwrite.frame.submissions
  | update_ingredient context ingredient_id data =>
    obtain ⟨⟨db₁, view⟩, hupdate, h⟩ := bind_eq_ok.mp h
    obtain ⟨rfl, rfl⟩ := Prod.mk.inj (pure_eq_ok.mp h)
    exact hkept (InventoryService.update_ok hupdate).frame.submissions
  | change_stock context ingredient_id data =>
    obtain ⟨⟨db₁, movement⟩, hchange, h⟩ := bind_eq_ok.mp h
    obtain ⟨rfl, rfl⟩ := Prod.mk.inj (pure_eq_ok.mp h)
    obtain ⟨record, kind, amount, -, -, -, -, -, ⟨-, rfl⟩ | ⟨-, -, -, -, hwrite⟩⟩ :=
      InventoryService.change_ok hchange
    · exact hkept rfl
    · exact hkept hwrite.frame.submissions
  | maintenance_initialization organization_id =>
    obtain ⟨db₁, hmaintenance, h⟩ := bind_eq_ok.mp h
    obtain ⟨rfl, rfl⟩ := Prod.mk.inj (pure_eq_ok.mp h)
    rcases maintenance_initialization_writes hsane.keys hmaintenance with ⟨-, rfl⟩ |
      ⟨-, ws, db₂, hwrites, -, -, rfl⟩
    · exact hkept rfl
    · exact hkept hwrites.frame.submissions
  | create_menu | update_menu | delete_menu | create_menu_item | update_menu_item
  | delete_menu_item | replace_recipe => exact hcatalog rfl

/-- A command files no key twice. The only one that is filed was looked up before, and was not
there. -/
theorem Files.unique {db db' : Branch} {command : Command} {response : Response}
    (h : Files db command response db')
    (hunique : Keyed.Unique OrderSubmission.idempotency_key db.filed) :
    Keyed.Unique OrderSubmission.idempotency_key db'.filed := by
  cases h with
  | kept hfiled =>
    rw [hfiled]
    exact hunique
  | @filed context data snapshot fingerprint hcommand hresponse hnone hfiled =>
    have hlookup := submission_unlinked db data.idempotency_key
    rw [hnone, Option.map_none] at hlookup
    rw [hfiled]
    exact hunique.append (Keyed.lookup_eq_none.mp hlookup.symm)

/-- A command keeps what is filed. -/
theorem Files.keeps {db db' : Branch} {command : Command} {response : Response}
    (h : Files db command response db') {submission : OrderSubmission}
    (hmem : submission ∈ db.filed) : submission ∈ db'.filed := by
  cases h with
  | kept hfiled => rwa [hfiled]
  | filed hcommand hresponse hnone hfiled =>
    rw [hfiled]
    exact List.mem_append_left _ hmem

/-! ## Repeated creations -/

/-- What a creation with the key of the creation `data` does: with the same payload it returns the
snapshot of that one, with another one it fails. -/
structure SubmitsAgain (lib : Library) (db : Branch) (data : CreateOrder) (snapshot : OrderSnapshot) :
    Prop where
  /-- The same payload: the snapshot is returned, and nothing is written. -/
  same : ∀ (context : AccessContext) (data' : CreateOrder) (draw : Draw),
    db.restaurant context = .ok () → context.require .order_create = .ok () →
    data'.idempotency_key = data.idempotency_key → data.Same data' →
    exec lib (.create_order context data') draw db = .ok (db, .snapshot snapshot)
  /-- Another payload: a conflict. -/
  different : ∀ (context : AccessContext) (data' : CreateOrder) (draw : Draw),
    db.restaurant context = .ok () → context.require .order_create = .ok () →
    data'.idempotency_key = data.idempotency_key → ¬ data.Same data' →
    exec lib (.create_order context data') draw db = .error order_conflict
  /-- Whoever asks, a success is the snapshot and writes nothing. -/
  success : ∀ (context : AccessContext) (data' : CreateOrder) (draw : Draw) (db' : Branch)
    (response : Response), data'.idempotency_key = data.idempotency_key →
    exec lib (.create_order context data') draw db = .ok (db', response) →
    data.Same data' ∧ db' = db ∧ response = .snapshot snapshot

/-- The fingerprints of two creations agree exactly if they ask for the same. -/
theorem create_signature_eq (lib : DigestLibrary) (data data' : CreateOrder) :
    OrderService.create_signature lib.1 data = OrderService.create_signature lib.1 data' ↔
      data.Same data' := by
  unfold OrderService.create_signature
  rw [lib.2.2.eq_iff]
  constructor
  · intro heq
    injection heq with htable hcustomer hnotes hitems
    exact ⟨htable.symm, hcustomer.symm, hnotes.symm, hitems.symm⟩
  · rintro ⟨htable, hcustomer, hnotes, hitems⟩
    rw [htable, hcustomer, hnotes, hitems]

/-- Where the submission of a creation is, a repetition finds it. The three parts are a repetition,
a conflict, and the converse for a repetition that succeeded. -/
theorem submits_again (lib : DigestLibrary) {db : Branch}
    (hunique : Keyed.Unique OrderSubmission.idempotency_key db.filed) {data : CreateOrder}
    {snapshot : OrderSnapshot} (hkey : valid_key data.idempotency_key)
    (hmem : ⟨data.idempotency_key, none, OrderService.create_signature lib.1 data, snapshot⟩ ∈
      db.filed) : SubmitsAgain lib.1 db data snapshot := by
  -- The submission is found by its key, up to the link to its order.
  obtain ⟨found, hfound, hsignature, hsnapshot⟩ : ∃ found,
      submission db data.idempotency_key = some found ∧
      found.request_fingerprint = OrderService.create_signature lib.1 data ∧
      found.response_snapshot = snapshot := by
    have hlookup := submission_unlinked db data.idempotency_key
    rw [hunique.lookup_eq_some.mpr ⟨hmem, rfl⟩] at hlookup
    obtain ⟨found, hfound, heq⟩ := Option.map_eq_some_iff.mp hlookup
    injection heq with _ _ hsignature hsnapshot
    exact ⟨found, hfound, hsignature, hsnapshot⟩
  -- With the key, a creation only compares the fingerprints.
  have hreplay : ∀ (context : AccessContext) (data' : CreateOrder) (draw : Draw),
      db.restaurant context = .ok () → context.require .order_create = .ok () →
      data'.idempotency_key = data.idempotency_key →
      OrderService.create lib.1 context data' draw db = (do
        ensure (found.request_fingerprint = OrderService.create_signature lib.1 data') order_conflict
        pure (db, found.response_snapshot)) := by
    intro context data' draw hrestaurant hrequire hsame
    have hkey' : valid_key data'.idempotency_key := hsame ▸ hkey
    rw [← hsame] at hfound
    unfold OrderService.create
    rw [ok_bind hrestaurant, ok_bind hrequire, ensure_bind hkey']
    simp only [hfound]
    rfl
  refine ⟨?_, ?_, ?_⟩
  · -- The same payload has the same fingerprint.
    intro context data' draw hrestaurant hrequire hsame_key hsame
    have hcreate := hreplay context data' draw hrestaurant hrequire hsame_key
    rw [hsignature, ensure_bind ((create_signature_eq lib data data').mpr hsame), hsnapshot] at hcreate
    exact ok_bind hcreate _
  · intro context data' draw hrestaurant hrequire hsame_key hother
    -- A different payload has another one, as the digest does not collide.
    have hcreate := hreplay context data' draw hrestaurant hrequire hsame_key
    rw [hsignature, ensure_bind_error ((create_signature_eq lib data data').not.mpr hother)] at hcreate
    show (OrderService.create lib.1 context data' draw db >>= _) = _
    rw [hcreate]
    rfl
  · -- What returns has found the submission, since its key is taken.
    intro context data' draw db' response hsame_key hok
    obtain ⟨⟨db₁, snapshot'⟩, hcreate, hok⟩ := bind_eq_ok.mp hok
    obtain ⟨rfl, rfl⟩ := Prod.mk.inj (pure_eq_ok.mp hok)
    rcases OrderService.create_ok hcreate with ⟨⟨found', hfound', hagree, rfl⟩, rfl⟩ | ⟨hnone, -⟩
    · rw [hsame_key, hfound] at hfound'
      obtain rfl := Option.some.inj hfound'
      rw [hsignature] at hagree
      exact ⟨(create_signature_eq lib data data').mp hagree, rfl, by rw [hsnapshot]⟩
    · rw [hsame_key, hfound] at hnone
      cases hnone

/-- A creation that has been executed leaves its submission, whether it has filed it or found it. -/
theorem filed_of_create {lib : Library} {context : AccessContext} {data : CreateOrder} {draw : Draw}
    {db db' : Branch} {response : Response}
    (h : exec lib (.create_order context data) draw db = .ok (db', response)) :
    ∃ snapshot, response = .snapshot snapshot ∧ valid_key data.idempotency_key ∧
      ⟨data.idempotency_key, none, OrderService.create_signature lib data, snapshot⟩ ∈ db'.filed := by
  obtain ⟨⟨db₁, snapshot⟩, hcreate, h⟩ := bind_eq_ok.mp h
  obtain ⟨rfl, rfl⟩ := Prod.mk.inj (pure_eq_ok.mp h)
  -- The key of a creation that returns is a valid one.
  have hkey : valid_key data.idempotency_key := by
    obtain ⟨_, -, h⟩ := bind_eq_ok.mp hcreate
    obtain ⟨_, -, h⟩ := bind_eq_ok.mp h
    obtain ⟨_, hkey, -⟩ := bind_eq_ok.mp h
    exact ensure_eq_ok.mp hkey
  refine ⟨snapshot, rfl, hkey, ?_⟩
  rcases OrderService.create_ok hcreate with ⟨⟨found, hfound, hagree, rfl⟩, rfl⟩ |
    ⟨-, order, -, -, -, -, -, -, -, -, -, hsubmissions, -⟩
  · -- It was found: the submission on record agrees with the fingerprint.
    have hfound_key := List.find?_some hfound
    refine List.mem_map.mpr ⟨found, List.mem_of_find?_eq_some hfound, ?_⟩
    rw [← hagree, ← of_decide_eq_true hfound_key]
    rfl
  · -- It was filed, as the last row of the table.
    unfold Branch.filed
    rw [hsubmissions, List.map_append]
    exact List.mem_append_right _ (List.mem_singleton_self _)

end Orders

/-! ## Runs -/

/-- The submissions have different keys in every reachable state. -/
theorem submissions_unique (lib : Library) (start : ℕ → SubmittedBranch) (acts : List Act) (k : ℕ) :
    Keyed.Unique OrderSubmission.idempotency_key
      ((run lib (fun k => (start k).toLegacyBranch) acts).rows k).filed :=
  run_later (P := fun db => Keyed.Unique OrderSubmission.idempotency_key db.filed)
    (List.nil_prefix : [] <+: acts) ((unique_filed _).mpr (start k).submissions_unique)
    fun hsane h hunique => (exec_filed hsane h).unique hunique

/-- The step `a` after the run `pre` commits a creation with the key that inserts an order. -/
def CreatesOrder (lib : Library) (start : ℕ → LegacyBranch) (k : ℕ) (key : String) (pre : List Act)
    (a : Act) : Prop :=
  ∃ context data response order, Commits lib start k pre a (.create_order context data) response ∧
    data.idempotency_key = key ∧
    ((run lib start (pre ++ [a])).rows k).orders = ((run lib start pre).rows k).orders ++ [order]

/-- After a creation has been committed, every creation with its key repeats it. -/
theorem submits_again_of_commits (lib : DigestLibrary) (start : ℕ → SubmittedBranch) {acts : List Act}
    {k : ℕ} {pre : List Act} {a : Act} (hpart : pre ++ [a] <+: acts) {context : AccessContext}
    {data : CreateOrder} {response : Response}
    (hcommit : Commits lib.1 (fun k => (start k).toLegacyBranch) k pre a (.create_order context data)
      response) :
    ∃ snapshot, response = .snapshot snapshot ∧
      SubmitsAgain lib.1 ((run lib.1 (fun k => (start k).toLegacyBranch) acts).rows k) data snapshot := by
  obtain ⟨draw, hexec⟩ := hcommit.exec
  obtain ⟨snapshot, rfl, hkey, hfiled⟩ := filed_of_create hexec
  have hlater := run_later (P := fun db => _ ∈ db.filed) hpart hfiled
    fun hsane h hmem => (exec_filed hsane h).keeps hmem
  exact ⟨snapshot, rfl, submits_again lib (submissions_unique lib.1 start acts k) hkey hlater⟩

/-- A step after a committed creation inserts no order for its key. -/
theorem creates_order_once (lib : DigestLibrary) (start : ℕ → SubmittedBranch) {k : ℕ} {key : String}
    {pre pre' : List Act} {a a' : Act} (hpart : pre ++ [a] <+: pre')
    (h : CreatesOrder lib.1 (fun k => (start k).toLegacyBranch) k key pre a) :
    ¬ CreatesOrder lib.1 (fun k => (start k).toLegacyBranch) k key pre' a' := by
  rintro ⟨context', data', response', order', hcommit', hkey', horders⟩
  obtain ⟨context, data, response, order, hcommit, hkey, -⟩ := h
  obtain ⟨snapshot, -, hagain⟩ := submits_again_of_commits lib start hpart hcommit
  obtain ⟨draw, hexec⟩ := hcommit'.exec
  obtain ⟨-, hsame, -⟩ := hagain.success context' data' draw _ _ (hkey'.trans hkey.symm) hexec
  rw [hsame] at horders
  have hlength := congrArg List.length horders
  rw [List.length_append, List.length_singleton] at hlength
  omega

/-- Creations of orders are idempotent. In every run of a restaurant's commands, interleaved in any
way: the submissions have different keys; at most one step inserts an order for a key; and once a
creation has been committed, one with its key and its payload returns its snapshot, whatever has
become of the order and of the catalog, one with another payload is refused with a conflict, and
neither changes anything. -/
theorem order_submission_idempotency (lib : DigestLibrary) (start : ℕ → SubmittedBranch)
    (acts : List Act) (k : ℕ) :
    let start := fun k => (start k).toLegacyBranch
    let world := run lib.1 start acts
    Keyed.Unique OrderSubmission.idempotency_key (world.rows k).submissions ∧
    (∀ key pre a pre' a', pre ++ [a] <+: acts → pre' ++ [a'] <+: acts →
      CreatesOrder lib.1 start k key pre a → CreatesOrder lib.1 start k key pre' a' → pre = pre') ∧
    (∀ pre a, pre ++ [a] <+: acts → ∀ context data response,
      Commits lib.1 start k pre a (.create_order context data) response →
      ∃ snapshot, response = .snapshot snapshot ∧ SubmitsAgain lib.1 (world.rows k) data snapshot) := by
  intro start' world
  refine ⟨(unique_filed _).mp (submissions_unique lib.1 start acts k), ?_, ?_⟩
  · -- A key that is filed is never filed again.
    intro key pre a pre' a' hpart hpart' hcreates hcreates'
    -- Of two different steps of a run one comes after the other.
    rcases lt_trichotomy pre.length pre'.length with hlt | heq | hlt
    · have hbefore : pre ++ [a] <+: pre' := by
        refine List.prefix_of_prefix_length_le hpart ((List.prefix_append pre' [a']).trans hpart') ?_
        rw [List.length_append, List.length_singleton]
        omega
      exact absurd hcreates' (creates_order_once lib start hbefore hcreates)
    · have hpre := (List.prefix_append pre [a]).trans hpart
      have hpre' := (List.prefix_append pre' [a']).trans hpart'
      exact (List.prefix_of_prefix_length_le hpre hpre' heq.le).eq_of_length heq
    · have hbefore : pre' ++ [a'] <+: pre := by
        refine List.prefix_of_prefix_length_le hpart' ((List.prefix_append pre [a]).trans hpart) ?_
        rw [List.length_append, List.length_singleton]
        omega
      exact absurd hcreates (creates_order_once lib start hbefore hcreates')
  · intro pre a hpart context data response hcommit
    exact submits_again_of_commits lib start hpart hcommit

end RestaurantOS
