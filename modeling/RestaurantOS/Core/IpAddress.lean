import Mathlib.Data.Nat.Notation

/-!
# Network addresses

`ipaddress.ip_address` and `str` of what it returns. An IPv4 address has four decimal octets without
leading zeros; an IPv6 address has eight hexadecimal parts, of which one run of zeros may be left out
as `::` and the last two may be written as an IPv4 address, and an optional scope after a `%`.
-/

namespace RestaurantOS

/-- `IPv4Address` and `IPv6Address`. Octets and hextets are from left to right. -/
inductive IpAddress
  | v4 (octets : List ℕ)
  | v6 (hextets : List ℕ) (scope_id : Option (List Char))
  deriving DecidableEq

namespace IpAddress

/-! ## Reading -/

/-- `_parse_octet`. A leading zero is refused. -/
def parse_octet (text : List Char) : Option ℕ :=
  let octet := Nat.ofDigitChars 10 text 0
  if text ≠ [] ∧ text.all Char.isDigit ∧ text.length ≤ 3 ∧
      (text = ['0'] ∨ text.head? ≠ some '0') ∧ octet ≤ 255 then some octet
  else none

/-- `IPv4Address._ip_int_from_string`, as octets. There must be exactly four of them. -/
def parse_v4 (text : List Char) : Option (List ℕ) :=
  let octets := text.splitOn '.'
  if octets.length = 4 then octets.mapM parse_octet else none

/-- The value of a hexadecimal digit. It is `none` for any other character. -/
def hex_value (c : Char) : Option ℕ :=
  if c.isDigit then some (c.toNat - '0'.toNat)
  else if 'a' ≤ c ∧ c ≤ 'f' then some (c.toNat - 'a'.toNat + 10)
  else if 'A' ≤ c ∧ c ≤ 'F' then some (c.toNat - 'A'.toNat + 10)
  else none

/-- `_parse_hextet`. It has between one and four digits. -/
def parse_hextet (text : List Char) : Option ℕ :=
  if text = [] ∨ 4 < text.length then none
  else text.foldlM (fun n c => (hex_value c).map (16 * n + ·)) 0

/-- The parts of an IPv6 address, where a final IPv4 address is written as two parts. -/
def v6_parts (text : List Char) : Option (List (List Char)) :=
  let parts := text.splitOn ':'
  if parts.length < 3 then none
  else
    let last := parts.getLast?.getD []
    if '.' ∈ last then
      match parse_v4 last with
      | some [a, b, c, d] =>
        some (parts.dropLast ++ [Nat.toDigits 16 (a * 256 + b), Nat.toDigits 16 (c * 256 + d)])
      | _ => none
    else some parts

/-- The positions of `::`: the empty parts that are neither the first nor the last. -/
def skip_indices (parts : List (List Char)) : List ℕ :=
  (List.range parts.length).filter fun i => 0 < i ∧ i + 1 < parts.length ∧ parts[i]? = some []

/-- `IPv6Address._ip_int_from_string`, as eight parts. At most one gap of zeros may be written as an
empty part. -/
def parse_v6 (text : List Char) : Option (List ℕ) := do
  let parts ← v6_parts text
  if 9 < parts.length then none
  else
    match skip_indices parts with
    | [] => if parts.length = 8 then parts.mapM parse_hextet else none
    | [skip_index] =>
      let first_empty := parts.head? = some []
      let last_empty := parts.getLast? = some []
      let parts_hi := if first_empty then skip_index - 1 else skip_index
      let parts_lo := if last_empty then parts.length - skip_index - 2
        else parts.length - skip_index - 1
      if (first_empty ∧ parts_hi ≠ 0) ∨ (last_empty ∧ parts_lo ≠ 0) ∨ 8 ≤ parts_hi + parts_lo then none
      else do
        let high ← (parts.take parts_hi).mapM parse_hextet
        let low ← (parts.drop (parts.length - parts_lo)).mapM parse_hextet
        some (high ++ List.replicate (8 - (parts_hi + parts_lo)) 0 ++ low)
    | _ => none

/-- `_split_scope_id`. The scope follows a percent sign and is not empty. -/
def split_scope_id (text : List Char) : Option (List Char × Option (List Char)) :=
  let address := text.takeWhile (· ≠ '%')
  match text.dropWhile (· ≠ '%') with
  | [] => some (address, none)
  | _ :: scope_id => if scope_id = [] ∨ '%' ∈ scope_id then none else some (address, some scope_id)

/-- `ip_address`; `none` is its `ValueError`. The form of version 4 is tried first. -/
def ip_address (text : List Char) : Option IpAddress :=
  if '/' ∈ text then none
  else
    match parse_v4 text with
    | some octets => some (.v4 octets)
    | none => do
      let (address, scope_id) ← split_scope_id text
      let hextets ← parse_v6 address
      some (.v6 hextets scope_id)

/-! ## Writing -/

/-- A run of zeros: where it starts and how long it is. -/
structure Zeros where
  /-- Where it starts. -/
  start : ℕ
  /-- How long it is. -/
  length : ℕ

/-- The first of the longest runs of zeros among some parts, with the run that ends with them. -/
def longest_zeros (hextets : List ℕ) : Zeros × Zeros :=
  hextets.zipIdx.foldl (fun (best, current) (hextet, index) =>
    if hextet = 0 then
      let current : Zeros := ⟨if current.length = 0 then index else current.start, current.length + 1⟩
      (if best.length < current.length then current else best, current)
    else (best, ⟨0, 0⟩)) (⟨0, 0⟩, ⟨0, 0⟩)

/-- `_compress_hextets`. The first longest run of zeros becomes empty parts. -/
def compress_hextets (hextets : List ℕ) : List (List Char) :=
  let texts := hextets.map (Nat.toDigits 16)
  let best := (longest_zeros hextets).1
  let last := best.start + best.length
  if 1 < best.length then
    (if best.start = 0 then [[]] else []) ++ texts.take best.start ++ [[]] ++ texts.drop last ++
      (if last = hextets.length then [[]] else [])
  else texts

/-- `str` of an address. A scope is written after a percent sign. -/
def text : IpAddress → List Char
  | .v4 octets => List.intercalate ['.'] (octets.map (Nat.toDigits 10))
  | .v6 hextets scope_id =>
    List.intercalate [':'] (compress_hextets hextets) ++
      match scope_id with
      | none => []
      | some scope_id => '%' :: scope_id

/-- Two spellings of one address have one text. -/
example : (ip_address "2001:DB8:0:0:1::1".toList).map text =
    (ip_address "2001:db8::1:0:0.0.0.1".toList).map text := by decide +kernel

end IpAddress

end RestaurantOS
