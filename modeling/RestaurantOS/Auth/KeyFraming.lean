import RestaurantOS.Auth.Login
import RestaurantOS.Lib.Numerals
import RestaurantOS.Lib.SelfDelimiting

/-!
# The keys of the limiter

The key of a bucket is its kind and a keyed digest of a message: the kind, a colon, and the
identifiers, each after its length. Two messages are equal only if the kinds and the identifiers are,
so two buckets share a key only if they are about the same subject, unless the digest collides.
-/

namespace RestaurantOS.Auth.Login

open SelfDelimiting Numerals

/-- The message that `_key` authenticates. The kind comes first, and each identifier is framed by
its length. -/
def message (kind : String) (identifiers : List String) : String :=
  kind ++ ":" ++ String.join (identifiers.map fun value => toString value.length ++ ":" ++ value)

/-- A key is its kind and the digest of its message. -/
theorem _key_eq (lib : Library) (kind : String) (identifiers : List String) :
    _key lib kind identifiers = kind ++ ":" ++ lib.digest (message kind identifiers) := rfl

/-- A kind of buckets: it has no colon. -/
abbrev Kind := {kind : String // ':' ∉ kind.toList}

/-! ## Decimal lengths -/

/-- A numeral has no colon. -/
theorem colon_not_mem_toDigits (n : ℕ) : ':' ∉ Nat.toDigits 10 n := by
  intro hmem
  have hdigit : ':'.isDigit = true := isDigit_of_mem_toDigits hmem
  cases hdigit

/-! ## Messages -/

/-- The identifiers of a message are framed by their lengths. -/
theorem message_toList (kind : String) (identifiers : List String) :
    (message kind identifiers).toList =
      kind.toList ++ ':' :: (identifiers.map String.toList).flatMap (frame (Nat.toDigits 10) ':') := by
  have hframe : ∀ value : String, (toString value.length ++ ":" ++ value).toList =
      frame (Nat.toDigits 10) ':' value.toList := by
    intro value
    have hnumeral : (toString value.length).toList = Nat.toDigits 10 value.toList.length := by
      rw [String.length_toList]
      exact Nat.toList_repr
    rw [String.toList_append, String.toList_append, hnumeral, List.append_assoc]
    rfl
  rw [message, String.toList_append, String.toList_append, String.toList_join, List.flatMap_map,
    List.flatMap_map, List.append_assoc]
  simp only [hframe]
  rfl

/-- Two messages are equal only if their kinds and their identifiers are. -/
theorem message_inj {kind kind' : Kind} {identifiers identifiers' : List String} :
    message kind identifiers = message kind' identifiers' ↔
      kind = kind' ∧ identifiers = identifiers' := by
  constructor
  · intro h
    have hlist := congrArg String.toList h
    rw [message_toList, message_toList] at hlist
    obtain ⟨hkind, hframes⟩ := append_separator_inj kind.2 kind'.2 hlist
    have hmap := (framed toDigits_injective colon_not_mem_toDigits).flatMap_injective
      (frame_ne_nil _ _) hframes
    refine ⟨Subtype.ext (String.toList_inj.mp hkind), ?_⟩
    exact List.map_injective_iff.mpr (fun _ _ => String.toList_inj.mp) hmap
  · rintro ⟨rfl, rfl⟩
    rfl

/-- Two keys are equal only if their kinds and their identifiers are, where the digest has no
collision. -/
theorem key_inj {lib : Library} (hdigest : Function.Injective lib.digest) {kind kind' : Kind}
    {identifiers identifiers' : List String} :
    _key lib kind identifiers = _key lib kind' identifiers' ↔
      kind = kind' ∧ identifiers = identifiers' := by
  constructor
  · intro h
    have hlist := congrArg String.toList h
    rw [_key_eq, _key_eq, String.toList_append, String.toList_append, String.toList_append,
      String.toList_append, List.append_assoc, List.append_assoc] at hlist
    obtain ⟨-, hdigests⟩ := append_separator_inj kind.2 kind'.2 hlist
    exact message_inj.mp (hdigest (String.toList_inj.mp hdigests))
  · rintro ⟨rfl, rfl⟩
    rfl

/-! ## Buckets -/

/-- What the limiter has a bucket for. Each has a key of its own kind. -/
inductive Subject
  /-- An address and a network address that log in. -/
  | login_pair (email ip : String)
  /-- A network address that logs in. -/
  | login_ip (ip : String)
  /-- A network address that refreshes sessions. -/
  | refresh_ip (ip : String)
  /-- A family of sessions. -/
  | refresh_family (family : String)

/-- The kind of the bucket of a subject. -/
def Subject.kind : Subject → Kind
  | .login_pair .. => ⟨"login-pair", by decide⟩
  | .login_ip _ => ⟨"login-ip", by decide⟩
  | .refresh_ip _ => ⟨"refresh-ip", by decide⟩
  | .refresh_family _ => ⟨"refresh-family", by decide⟩

/-- The identifiers of a subject. They are the texts that the key is made of, in the order of the
source. -/
def Subject.identifiers : Subject → List String
  | .login_pair email ip => [email, ip]
  | .login_ip ip => [ip]
  | .refresh_ip ip => [ip]
  | .refresh_family family => [family]

/-- The key of the bucket of a subject, as `login_buckets`, `refresh_ip` and `refresh_family` make
it. -/
def Subject.key (lib : Library) (subject : Subject) : String :=
  _key lib subject.kind subject.identifiers

/-- A subject is given by its kind and its identifiers. -/
theorem Subject.eq_of_kind {subject subject' : Subject} (hkind : subject.kind = subject'.kind)
    (hidentifiers : subject.identifiers = subject'.identifiers) : subject = subject' := by
  have hname : subject.kind.val = subject'.kind.val := congrArg Subtype.val hkind
  cases subject with
  | login_pair email ip =>
    cases subject' with
    | login_pair email' ip' =>
      obtain ⟨rfl, hip⟩ := List.cons.inj hidentifiers
      obtain ⟨rfl, -⟩ := List.cons.inj hip
      rfl
    | _ => simp [kind] at hname
  | login_ip ip =>
    cases subject' with
    | login_ip ip' => rw [(List.cons.inj hidentifiers).1]
    | _ => simp [kind] at hname
  | refresh_ip ip =>
    cases subject' with
    | refresh_ip ip' => rw [(List.cons.inj hidentifiers).1]
    | _ => simp [kind] at hname
  | refresh_family family =>
    cases subject' with
    | refresh_family family' => rw [(List.cons.inj hidentifiers).1]
    | _ => simp [kind] at hname

/-- The message that is authenticated determines the kind and the identifiers; and where the digest
has no collision, so does the key, and no two subjects share a bucket. -/
theorem key_framing_injective :
    (∀ (kind kind' : Kind) (identifiers identifiers' : List String),
      message kind identifiers = message kind' identifiers' →
        kind = kind' ∧ identifiers = identifiers') ∧
      ∀ lib : Library, Function.Injective lib.digest →
        (∀ (kind kind' : Kind) (identifiers identifiers' : List String),
          _key lib kind identifiers = _key lib kind' identifiers' →
            kind = kind' ∧ identifiers = identifiers') ∧
          Function.Injective (Subject.key lib) := by
  refine ⟨fun _ _ _ _ h => message_inj.mp h, fun lib hdigest =>
    ⟨fun _ _ _ _ h => (key_inj hdigest).mp h, fun subject subject' h => ?_⟩⟩
  obtain ⟨hkind, hidentifiers⟩ := (key_inj hdigest).mp h
  exact Subject.eq_of_kind hkind hidentifiers

end RestaurantOS.Auth.Login
