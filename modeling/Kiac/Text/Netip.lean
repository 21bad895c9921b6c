import Kiac.Text.Address
import Kiac.Text.Cut
import Kiac.Text.HostPort

/-!
# Addresses and ranges

The package `netip`. Unlike those of `net`, its addresses are of one of two families, so an
IPv4-mapped IPv6 address is not an IPv4 address. Ranges are needed for IPv4 only.
-/

namespace Kiac

namespace Netip

inductive Addr where
  | v4 (value : BitVec 32)
  | v6 (groups : Net.Groups) (zone : Str)
deriving DecidableEq

/-- An IPv6 text, after which a zone may stand. -/
def parseV6 (s : Str) : Option Addr :=
  match s.cut (byte '%') with
  | (_, some []) => none
  | (address, zone) => (Net.parseIPv6 address).map fun groups => .v6 groups (zone.getD [])

/-- `netip.ParseAddr`. -/
def parseAddr (s : Str) : Option Addr :=
  match s.find? fun b => b == byte '.' || b == byte ':' || b == byte '%' with
  | some b =>
    if b = byte '.' then
      match Net.parseIPv4 s with
      | some [high, low] => some (.v4 (BitVec.ofNat 32 (65536 * high + low)))
      | _ => none
    else if b = byte ':' then parseV6 s
    else none
  | none => none

/-- `Is4` with the value of the address. -/
def Addr.as4 : Addr → Option (BitVec 32)
  | .v4 value => some value
  | .v6 _ _ => none

/-- `IsGlobalUnicast` of an IPv4 address: neither unspecified nor broadcast, nor in `127.0.0.0/8`,
`224.0.0.0/4` or `169.254.0.0/16`. -/
def isGlobalUnicast (value : BitVec 32) : Bool :=
  value != 0 && value != BitVec.allOnes 32 && value >>> 24 != 127 && value >>> 28 != 14 &&
    value >>> 16 != 0xA9FE

/-- A text of an IPv4 address that is a global unicast address. -/
def parseUnicast4 (s : Str) : Option (BitVec 32) :=
  (parseAddr s >>= Addr.as4).filter isGlobalUnicast

/-- A range of IPv4 addresses. -/
structure Range where
  value : BitVec 32
  bits : ℕ
  bits_le : bits ≤ 32
deriving DecidableEq

/-- `netip.ParsePrefix`; the length of a range has no sign and no leading zeros. -/
def parseRange (s : Str) : Option (Addr × ℕ) :=
  match Str.lastIndex [byte '/'] s with
  | none => none
  | some i =>
    let digits := s.drop (i + 1)
    match parseAddr (s.take i), Str.parseDigits digits with
    | some (.v6 _ (_ :: _)), _ => none
    | some addr, some bits =>
      if (1 < digits.length && digits.head? == some (byte '0')) ||
          (match addr with | .v4 _ => 32 | .v6 _ _ => 128) < bits then none
      else some (addr, bits)
    | _, _ => none

namespace Range

/-- The first bits of an address, as many as the range fixes. -/
def fixed (bits : ℕ) (value : BitVec 32) : BitVec 32 := value >>> (32 - bits)

/-- `Masked`: the other bits are cleared. -/
def masked (range : Range) : Range :=
  { range with value := fixed range.bits range.value <<< (32 - range.bits) }

/-- `Contains`. -/
def contains (range : Range) (value : BitVec 32) : Bool :=
  fixed range.bits value == fixed range.bits range.value

/-- `Overlaps`: the ranges agree on the bits that both fix. -/
def overlaps (range other : Range) : Bool :=
  fixed (min range.bits other.bits) range.value == fixed (min range.bits other.bits) other.value

/-- The addresses of a range, which are consecutive. -/
def addresses (range : Range) : Set (BitVec 32) :=
  let size := 2 ^ (32 - range.bits)
  let first := range.value.toNat / size * size
  {addr | first ≤ addr.toNat ∧ addr.toNat < first + size}

theorem mem_addresses_iff {range : Range} {addr : BitVec 32} :
    addr ∈ range.addresses ↔ range.contains addr := by
  have positive : 0 < 2 ^ (32 - range.bits) := by positivity
  rw [contains, beq_iff_eq, ← BitVec.toNat_inj]
  simp only [fixed, BitVec.toNat_ushiftRight, Nat.shiftRight_eq_div_pow]
  rw [Nat.div_eq_iff positive]
  simp only [addresses, Set.mem_ofPred_eq]
  omega

theorem fixed_fixed {bits bits' : ℕ} (le : bits ≤ bits') (le' : bits' ≤ 32) (value : BitVec 32) :
    fixed bits value = fixed bits' value >>> (bits' - bits) := by
  rw [fixed, fixed, ← BitVec.shiftRight_add]
  congr 1
  omega

theorem addresses_subset {range route : Range} (le : route.bits ≤ range.bits)
    (contains : route.contains range.value) : range.addresses ⊆ route.addresses := by
  intro addr mem
  rw [mem_addresses_iff] at mem ⊢
  simp only [Range.contains, beq_iff_eq] at mem contains ⊢
  rw [← contains, fixed_fixed le range.bits_le, fixed_fixed le range.bits_le, mem]

theorem not_mem_of_not_overlaps {range other : Range} (apart : range.overlaps other = false)
    {addr : BitVec 32} (mem : addr ∈ range.addresses) : addr ∉ other.addresses := by
  intro mem'
  rw [mem_addresses_iff, contains, beq_iff_eq] at mem mem'
  rw [overlaps, beq_eq_false_iff_ne] at apart
  apply apart
  rw [fixed_fixed (Nat.min_le_left _ _) range.bits_le, fixed_fixed (Nat.min_le_right _ _) other.bits_le,
    ← mem, ← mem', ← fixed_fixed (Nat.min_le_left _ _) range.bits_le,
    ← fixed_fixed (Nat.min_le_right _ _) other.bits_le]

theorem fixed_masked (range : Range) :
    fixed range.bits range.masked.value = fixed range.bits range.value := by
  apply BitVec.eq_of_toNat_eq
  have positive : 0 < 2 ^ (32 - range.bits) := by positivity
  have below := range.value.isLt
  have le := Nat.div_mul_le_self range.value.toNat (2 ^ (32 - range.bits))
  simp only [masked, fixed, BitVec.toNat_ushiftRight, BitVec.toNat_shiftLeft,
    Nat.shiftRight_eq_div_pow, Nat.shiftLeft_eq]
  rw [Nat.mod_eq_of_lt (le.trans_lt below), Nat.mul_div_cancel _ positive]

@[simp]
theorem addresses_masked (range : Range) : range.masked.addresses = range.addresses := by
  ext addr
  rw [mem_addresses_iff, mem_addresses_iff, contains, contains, ← fixed_masked range]
  rfl

end Range

theorem parseAddr_v4 {s : Str} {value : BitVec 32} (read : parseAddr s = some (.v4 value)) :
    ∃ high low, Net.parseIPv4 s = some [high, low] ∧
      Net.parseIP s = some (Net.mapped ++ [high, low]) ∧
      value = BitVec.ofNat 32 (65536 * high + low) := by
  unfold parseAddr at read
  split at read
  · rename_i b found
    split at read
    · rename_i isDot
      split at read
      · rename_i high low fields
        cases read
        exact ⟨high, low, fields, by simp [Net.parseIP, found, isDot, fields], rfl⟩
      · cases read
    · split at read
      · unfold parseV6 at read
        split at read
        · cases read
        · rcases Option.map_eq_some_iff.mp read with ⟨groups, _, impossible⟩
          cases impossible
      · cases read
  · cases read

theorem parseRange_append {head tail : Str} (absent : byte '/' ∉ tail) {value : BitVec 32} {bits : ℕ}
    (read : parseRange (head ++ byte '/' :: tail) = some (.v4 value, bits)) :
    parseAddr head = some (.v4 value) ∧ Str.parseDigits tail = some bits := by
  have slash : Str.lastIndex [byte '/'] (head ++ byte '/' :: tail) = some head.length :=
    Net.lastIndexByte_append head absent
  have rest : (head ++ byte '/' :: tail).drop (head.length + 1) = tail := by
    rw [List.drop_append]
    simp
  simp only [parseRange, slash, rest, List.take_left] at read
  split at read
  · cases read
  · rename_i addr bits' isAddr isBits
    split_ifs at read
    cases read
    exact ⟨isAddr, isBits⟩
  · cases read

end Netip

namespace Net

theorem eq_of_parseCIDR {s : Str} {ip : Groups} {ones bits : ℕ}
    (read : parseCIDR s = some (ip, ones, bits)) :
    ∃ head tail, s = head ++ byte '/' :: tail ∧ byte '/' ∉ tail ∧ parseIP head = some ip ∧
      Str.parseDigits tail = some ones := by
  unfold parseCIDR at read
  split at read
  · cases read
  · rename_i i found
    simp only at read
    split at read
    · rename_i ip' ones' isAddr isMask
      have same : ip' = ip ∧ ones' = ones := by
        split_ifs at read <;> cases read <;> exact ⟨rfl, rfl⟩
      rcases same with ⟨rfl, rfl⟩
      refine ⟨s.take i, s.drop (i + 1), ?_, fun slash => ?_, isAddr, isMask⟩
      · rw [← List.singleton_append, ← List.append_assoc, ← take_of_indexByte found,
          List.take_append_drop]
      · exact absurd (Str.isDigit_of_mem_parseDigits isMask slash) (by decide)
    · cases read

end Net

end Kiac
