import Kiac.Text.Decimal

/-!
# Hexadecimal numbers

Numbers are printed in lower case without leading zeros, and read in either case.
-/

namespace Kiac

namespace Str

/-- The value of a hexadecimal digit. -/
def hexDigit? (b : UInt8) : Option ℕ :=
  if isDigit b then some (b.toNat - 48)
  else if 97 ≤ b ∧ b ≤ 102 then some (b.toNat - 87)
  else if 65 ≤ b ∧ b ≤ 70 then some (b.toNat - 55)
  else none

def isHex (b : UInt8) : Bool := (hexDigit? b).isSome

/-- The byte of a hexadecimal digit in lower case. -/
def hexByte (d : ℕ) : UInt8 := if d < 10 then UInt8.ofNat (48 + d) else UInt8.ofNat (87 + d)

/-- The hexadecimal digits of a number, most significant first. -/
def formatHex (n : ℕ) : Str :=
  if n = 0 then [byte '0'] else (Nat.digits 16 n).reverse.map hexByte

/-- `hex.EncodeToString`: two digits for each byte. -/
def encodeHex (bytes : List UInt8) : Str :=
  bytes.flatMap fun b => [hexByte (b.toNat / 16), hexByte (b.toNat % 16)]

/-- The value of a text of hexadecimal digits. -/
def hexValue (s : Str) : ℕ := s.foldl (fun value b => 16 * value + (hexDigit? b).getD 0) 0

variable {d : ℕ} {b : UInt8} {n : ℕ}

theorem hexDigit?_hexByte (small : d < 16) : hexDigit? (hexByte d) = some d := by
  interval_cases d <;> decide

theorem isHex_hexByte (small : d < 16) : isHex (hexByte d) := by
  rw [isHex, hexDigit?_hexByte small]
  rfl

theorem lowerByte_hexByte (small : d < 16) : lowerByte (hexByte d) = hexByte d := by
  interval_cases d <;> decide

theorem hexByte_of_mem_encodeHex {bytes : List UInt8} (mem : b ∈ encodeHex bytes) :
    ∃ d < 16, b = hexByte d := by
  rcases List.mem_flatMap.mp mem with ⟨value, _, isDigit⟩
  have bound := value.toNat_lt
  simp only [List.mem_cons, List.not_mem_nil, or_false] at isDigit
  rcases isDigit with rfl | rfl
  · exact ⟨_, by omega, rfl⟩
  · exact ⟨_, by omega, rfl⟩

theorem length_encodeHex (bytes : List UInt8) :
    (encodeHex bytes).length = 2 * bytes.length := by
  rw [encodeHex, List.length_flatMap]
  simp [mul_comm]

theorem encodeHex_injective : Function.Injective encodeHex := by
  intro left
  induction left with
  | nil =>
    intro right same
    have lengths := congrArg List.length same
    rw [length_encodeHex, length_encodeHex, List.length_nil] at lengths
    exact (List.length_eq_zero_iff.mp (by omega)).symm
  | cons b left ih =>
    intro right same
    cases right with
    | nil => cases same
    | cons c right =>
      have bounds := b.toNat_lt
      have bounds' := c.toNat_lt
      simp only [encodeHex, List.flatMap_cons, List.cons_append, List.nil_append,
        List.cons.injEq] at same
      have high := congrArg hexDigit? same.1
      have low := congrArg hexDigit? same.2.1
      rw [hexDigit?_hexByte (by omega), hexDigit?_hexByte (by omega), Option.some.injEq] at high
      rw [hexDigit?_hexByte (by omega), hexDigit?_hexByte (by omega), Option.some.injEq] at low
      have sameByte : b = c := UInt8.toNat_inj.mp (by omega)
      rw [sameByte, ih same.2.2]

theorem isHex_of_isDigit (digit : isDigit b) : isHex b := by
  simp [isHex, hexDigit?, digit]

theorem formatHex_ne_nil (n : ℕ) : formatHex n ≠ [] := by
  unfold formatHex
  split
  · simp
  · rename_i positive
    simpa [Nat.digits_eq_nil_iff_eq_zero] using positive

theorem isHex_of_mem_formatHex (mem : b ∈ formatHex n) :
    isHex b := by
  unfold formatHex at mem
  split at mem
  · simp only [List.mem_singleton] at mem
    subst mem
    decide
  · simp only [List.mem_map, List.mem_reverse] at mem
    rcases mem with ⟨d, digit, rfl⟩
    exact isHex_hexByte (Nat.digits_lt_base (by omega) digit)

theorem length_formatHex_le (small : n < 65536) : (formatHex n).length ≤ 4 := by
  unfold formatHex
  split
  · simp
  · simp only [List.length_map, List.length_reverse]
    exact (Nat.digits_length_le_iff (by omega) n).mpr (by simpa using small)

private theorem hexValue_digits (digits : List ℕ) (bounded : ∀ d ∈ digits, d < 16) :
    hexValue (digits.reverse.map hexByte) = Nat.ofDigits 16 digits := by
  induction digits with
  | nil => rfl
  | cons d digits ih =>
    have small := bounded d List.mem_cons_self
    have rest := ih fun other mem => bounded other (List.mem_cons_of_mem _ mem)
    unfold hexValue at rest ⊢
    rw [List.reverse_cons, List.map_append, List.foldl_append, rest]
    simp only [List.map_cons, List.map_nil, List.foldl_cons, List.foldl_nil,
      hexDigit?_hexByte small, Option.getD_some, Nat.ofDigits_cons]
    omega

@[simp]
theorem hexValue_formatHex (n : ℕ) : hexValue (formatHex n) = n := by
  unfold formatHex
  split
  · rename_i zero
    subst zero
    decide
  · rw [hexValue_digits _ (fun d mem => Nat.digits_lt_base (by omega) mem), Nat.ofDigits_digits]

theorem hexValue_lt {s : Str} (short : s.length ≤ 4) : hexValue s < 65536 := by
  have digit : ∀ b : UInt8, (hexDigit? b).getD 0 < 16 := by
    intro b
    unfold hexDigit?
    split
    · rename_i isDecimal
      have range := isDigit_iff.mp isDecimal
      simp only [Option.getD_some]
      omega
    · split
      · rename_i range
        simp only [UInt8.le_iff_toNat_le] at range
        have upper : b.toNat ≤ 102 := range.2
        simp only [Option.getD_some]
        omega
      · split
        · rename_i range
          simp only [UInt8.le_iff_toNat_le] at range
          have upper : b.toNat ≤ 70 := range.2
          simp only [Option.getD_some]
          omega
        · simp
  have bound : ∀ (t : Str) (value : ℕ),
      t.foldl (fun value b => 16 * value + (hexDigit? b).getD 0) value <
        16 ^ t.length * (value + 1) := by
    intro t
    induction t with
    | nil => simp
    | cons b t ih =>
      intro value
      rw [List.foldl_cons, List.length_cons, pow_succ, mul_assoc]
      apply lt_of_lt_of_le (ih _)
      apply Nat.mul_le_mul_left
      have small := digit b
      omega
  calc hexValue s < 16 ^ s.length * (0 + 1) := bound s 0
    _ ≤ 16 ^ 4 * (0 + 1) := Nat.mul_le_mul_right _ (Nat.pow_le_pow_right (by omega) short)
    _ = 65536 := by norm_num

end Str

end Kiac
