import RestaurantOS.Core.DecimalText
import RestaurantOS.Core.IpAddress

/-!
# The address of a client

`client_ip` starts at the peer of the connection and walks the entries of `X-Forwarded-For` from the
right to the left, one further for as long as the address where it stands is a trusted proxy. What a
client wrote is to the left of what the proxies have appended: it is read only if every hop to its
right is trusted, and nothing to the left of the first entry that is not trusted is read at all.
-/

namespace RestaurantOS.Auth

variable (unicode : Unicode) (trusted : List String)

/-- The address that an entry names: `str(ip_address(value.strip()))`. It is the normal form of the
address, or `none` where the entry is not one. -/
def entry_address (value : List Char) : Option String :=
  (IpAddress.ip_address (unicode.strip value)).map fun address => String.ofList address.text

/-- The loop of `client_ip` over the entries, the rightmost first. -/
def walk (current : String) : List (List Char) → String
  | [] => current
  | value :: values =>
    if current ∉ trusted then current
    else
      match entry_address unicode value with
      | none => current
      | some address => walk address values

/-- The entries of `X-Forwarded-For`. They are what lies between the commas, from the client to the
last proxy. -/
def forwarded_entries (x_forwarded_for : Option String) : List (List Char) :=
  (x_forwarded_for.getD "").toList.splitOn ','

/-- `client_ip`, for the host of the peer and the header. -/
def client_ip (host x_forwarded_for : Option String) : String :=
  walk unicode trusted (host.getD "unknown") (forwarded_entries x_forwarded_for).reverse

/-! ## What the walk reads -/

/-- An entry is the address of a trusted proxy. -/
def is_trusted (value : List Char) : Bool := (entry_address unicode value).any (· ∈ trusted)

/-- The entries from the rightmost one that is not a trusted proxy, or all of them. -/
def deciding (values : List (List Char)) : List (List Char) :=
  (values.reverse.takeWhile (is_trusted unicode trusted) ++
    (values.reverse.dropWhile (is_trusted unicode trusted)).take 1).reverse

variable {unicode trusted}

/-- An entry is that of a trusted proxy if it names one of the trusted addresses. -/
theorem is_trusted_iff {value : List Char} : is_trusted unicode trusted value = true ↔
    ∃ address ∈ trusted, entry_address unicode value = some address := by
  unfold is_trusted
  cases entry_address unicode value with
  | none => simp
  | some address => simp

/-- The walk ends where it stands if that is no trusted proxy. -/
theorem walk_of_not_mem {current : String} (h : current ∉ trusted) (values : List (List Char)) :
    walk unicode trusted current values = current := by
  cases values with
  | nil => rfl
  | cons value values => rw [walk, if_pos h]

/-- From a trusted proxy the walk goes on to the next entry. -/
theorem walk_of_mem {current : String} (h : current ∈ trusted) (value : List Char)
    (values : List (List Char)) : walk unicode trusted current (value :: values) =
      match entry_address unicode value with
      | none => current
      | some address => walk unicode trusted address values := by
  rw [walk, if_neg (not_not.mpr h)]

/-- The walk reads the trusted entries and the next one. -/
theorem walk_take (current : String) (values : List (List Char)) :
    walk unicode trusted current values = walk unicode trusted current
      (values.takeWhile (is_trusted unicode trusted) ++
        (values.dropWhile (is_trusted unicode trusted)).take 1) := by
  induction values generalizing current with
  | nil => rfl
  | cons value values ih =>
    by_cases hcurrent : current ∈ trusted
    · by_cases hvalue : is_trusted unicode trusted value = true
      · rw [List.takeWhile_cons_of_pos hvalue, List.dropWhile_cons_of_pos hvalue, List.cons_append,
          walk_of_mem hcurrent, walk_of_mem hcurrent]
        cases entry_address unicode value with
        | none => rfl
        | some address => exact ih address
      · rw [List.takeWhile_cons_of_neg hvalue, List.dropWhile_cons_of_neg hvalue, List.nil_append,
          List.take_succ_cons, List.take_zero, walk_of_mem hcurrent, walk_of_mem hcurrent]
        cases haddress : entry_address unicode value with
        | none => rfl
        | some address =>
          -- The entry is an address, but none of a proxy, so the walk ends there.
          have huntrusted : address ∉ trusted :=
            fun hmem => hvalue (is_trusted_iff.mpr ⟨address, hmem, haddress⟩)
          exact walk_of_not_mem huntrusted values
    · rw [walk_of_not_mem hcurrent, walk_of_not_mem hcurrent]

/-- The walk ends where it starts, or at an entry all of whose hops to the right are trusted. -/
theorem walk_origin (current : String) (values : List (List Char)) :
    walk unicode trusted current values = current ∨
      ∃ hops value rest, values = hops ++ value :: rest ∧
        entry_address unicode value = some (walk unicode trusted current values) ∧
        current ∈ trusted ∧ ∀ hop ∈ hops, is_trusted unicode trusted hop = true := by
  induction values generalizing current with
  | nil => exact Or.inl rfl
  | cons value values ih =>
    by_cases htrusted : current ∈ trusted
    · rw [walk_of_mem htrusted]
      cases haddress : entry_address unicode value with
      | none => exact Or.inl rfl
      | some address =>
        refine Or.inr ?_
        dsimp only
        rcases ih address with hend | ⟨hops, next, rest, rfl, hnext, haddress', hhops⟩
        · exact ⟨[], value, values, rfl, by rw [hend, haddress], htrusted,
            fun _ hmem => absurd hmem List.not_mem_nil⟩
        · refine ⟨value :: hops, next, rest, rfl, hnext, htrusted, ?_⟩
          intro hop hmem
          rcases List.mem_cons.mp hmem with rfl | hmem
          · exact is_trusted_iff.mpr ⟨address, haddress', haddress⟩
          · exact hhops hop hmem
    · exact Or.inl (walk_of_not_mem htrusted _)

/-- The address of a client cannot be chosen past the trusted proxies: it depends on the header only
from the rightmost entry on that is not a trusted proxy; it is that of the peer, or that of an entry
all of whose hops to the right, the peer included, are trusted; and behind a peer that is not trusted
it does not depend on the header. -/
theorem client_ip_not_spoofed (unicode : Unicode) (trusted : List String) (host : Option String) :
    (∀ header header' : Option String,
      deciding unicode trusted (forwarded_entries header) =
          deciding unicode trusted (forwarded_entries header') →
        client_ip unicode trusted host header = client_ip unicode trusted host header') ∧
      (∀ header : Option String,
        client_ip unicode trusted host header = host.getD "unknown" ∨
          ∃ left value right, forwarded_entries header = left ++ value :: right ∧
            entry_address unicode value = some (client_ip unicode trusted host header) ∧
            host.getD "unknown" ∈ trusted ∧
            ∀ hop ∈ right, ∃ address ∈ trusted, entry_address unicode hop = some address) ∧
      (host.getD "unknown" ∉ trusted →
        ∀ header, client_ip unicode trusted host header = host.getD "unknown") := by
  refine ⟨fun header header' h => ?_, fun header => ?_, fun hpeer header => ?_⟩
  · have hreverse := List.reverse_injective h
    rw [client_ip, client_ip, walk_take, hreverse, ← walk_take]
  · rcases walk_origin (host.getD "unknown") (forwarded_entries header).reverse with
      hpeer | ⟨hops, value, rest, hvalues, hvalue, hpeer, hhops⟩
    · exact Or.inl hpeer
    · refine Or.inr ⟨rest.reverse, value, hops.reverse, ?_, hvalue, hpeer, fun hop hmem => ?_⟩
      · rw [← List.reverse_reverse (forwarded_entries header), hvalues, List.reverse_append,
          List.reverse_cons, List.append_assoc]
        rfl
      · exact is_trusted_iff.mp (hhops hop (List.mem_reverse.mp hmem))
  · exact walk_of_not_mem hpeer _

end RestaurantOS.Auth
