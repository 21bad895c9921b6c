import Kiac.Text.Basic
import Mathlib.Data.Nat.Digits.Lemmas
import Mathlib.Tactic.IntervalCases

/-!
# Decimal numbers

`strconv.Itoa` and `strconv.Atoi`. A number is printed without leading zeros; a
text is read as an optional sign followed by at least one digit, and refused when
the value does not fit a 64-bit `int`.
-/

namespace Kiac

namespace Str

/-- The byte of a decimal digit. -/
def digitByte (d : ℕ) : UInt8 := UInt8.ofNat (48 + d)

def isDigit (b : UInt8) : Bool := 48 ≤ b && b ≤ 57

/-- The decimal digits of a natural number, most significant first. -/
def formatNat (n : ℕ) : Str :=
  if n = 0 then [byte '0'] else (Nat.digits 10 n).reverse.map digitByte

/-- `strconv.Itoa`. -/
def itoa : ℤ → Str
  | .ofNat n => formatNat n
  | .negSucc n => byte '-' :: formatNat (n + 1)

/-- The value of a text of digits; `none` when it is empty or has another byte. -/
def parseDigits (s : Str) : Option ℕ :=
  if s.isEmpty || !s.all isDigit then none
  else some (s.foldl (fun value b => 10 * value + (b.toNat - 48)) 0)

/-- The largest `int`. -/
def maxInt : ℕ := 2 ^ 63 - 1

/-- `strconv.Atoi`. -/
def atoi : Str → Option ℤ
  | [] => none
  | b :: rest =>
    if b = byte '-' then
      (parseDigits rest).bind fun n => if n ≤ maxInt + 1 then some (-(n : ℤ)) else none
    else
      (parseDigits (if b = byte '+' then rest else b :: rest)).bind fun n =>
        if n ≤ maxInt then some (n : ℤ) else none

theorem digitByte_toNat {d : ℕ} (isDecimal : d < 10) : (digitByte d).toNat = 48 + d := by
  simp only [digitByte, UInt8.toNat_ofNat']
  omega

theorem isDigit_digitByte {d : ℕ} (isDecimal : d < 10) : isDigit (digitByte d) := by
  interval_cases d <;> decide

variable {b : UInt8} {n : ℕ} {value : ℤ} {s : Str}

theorem isDigit_iff : isDigit b ↔ 48 ≤ b.toNat ∧ b.toNat ≤ 57 := by
  simp [isDigit, UInt8.le_iff_toNat_le]

theorem formatNat_ne_nil (n : ℕ) : formatNat n ≠ [] := by
  unfold formatNat
  split
  · simp
  · rename_i positive
    simpa [Nat.digits_eq_nil_iff_eq_zero] using positive

theorem head?_formatNat_ne_zero (positive : 0 < n) :
    (formatNat n).head? ≠ some (byte '0') := by
  have nonzero : n ≠ 0 := Nat.pos_iff_ne_zero.mp positive
  have leading := Nat.getLast_digit_ne_zero 10 nonzero
  have decimal : (Nat.digits 10 n).getLast (Nat.digits_ne_nil_iff_ne_zero.mpr nonzero) < 10 :=
    Nat.digits_lt_base (by decide) (List.getLast_mem _)
  rw [formatNat, if_neg nonzero, List.head?_map, List.head?_reverse,
    List.getLast?_eq_some_getLast (Nat.digits_ne_nil_iff_ne_zero.mpr nonzero), Option.map_some]
  intro zero
  have value := congrArg UInt8.toNat (Option.some.inj zero)
  rw [digitByte_toNat decimal] at value
  have ascii : (byte '0').toNat = 48 := by decide
  omega

theorem isDigit_of_mem_formatNat (mem : b ∈ formatNat n) :
    isDigit b := by
  unfold formatNat at mem
  split at mem
  · simp only [List.mem_singleton] at mem
    subst mem
    decide
  · simp only [List.mem_map, List.mem_reverse] at mem
    rcases mem with ⟨d, digit, rfl⟩
    exact isDigit_digitByte (Nat.digits_lt_base (by omega) digit)

private theorem foldl_digits (digits : List ℕ) (bounded : ∀ d ∈ digits, d < 10) :
    (digits.reverse.map digitByte).foldl (fun value b => 10 * value + (b.toNat - 48)) 0 =
      Nat.ofDigits 10 digits := by
  induction digits with
  | nil => rfl
  | cons d digits ih =>
    have decimal := bounded d List.mem_cons_self
    rw [List.reverse_cons, List.map_append, List.foldl_append,
      ih (fun other mem => bounded other (List.mem_cons_of_mem _ mem))]
    simp only [List.map_cons, List.map_nil, List.foldl_cons, List.foldl_nil,
      digitByte_toNat decimal, Nat.ofDigits_cons]
    omega

@[simp]
theorem parseDigits_formatNat (n : ℕ) : parseDigits (formatNat n) = some n := by
  have digits : (formatNat n).all isDigit := by
    rw [List.all_eq_true]
    intro b mem
    exact isDigit_of_mem_formatNat mem
  have nonempty : (formatNat n).isEmpty = false := by
    rw [Bool.eq_false_iff]
    intro empty
    exact formatNat_ne_nil n (List.isEmpty_iff.mp empty)
  simp only [parseDigits, digits, nonempty, Bool.not_true, Bool.or_false, Bool.false_eq_true,
    if_false, Option.some.injEq]
  unfold formatNat
  split
  · rename_i zero
    subst zero
    decide
  · rw [foldl_digits _ (fun d mem => Nat.digits_lt_base (by omega) mem), Nat.ofDigits_digits]

theorem atoi_formatNat_eq (n : ℕ) :
    atoi (formatNat n) = if n ≤ maxInt then some (n : ℤ) else none := by
  have read := parseDigits_formatNat n
  cases form : formatNat n with
  | nil => exact absurd form (formatNat_ne_nil n)
  | cons b rest =>
    have digit : isDigit b := isDigit_of_mem_formatNat (n := n) (by simp [form])
    have notMinus : b ≠ byte '-' := by
      rintro rfl
      exact absurd digit (by decide)
    have notPlus : b ≠ byte '+' := by
      rintro rfl
      exact absurd digit (by decide)
    rw [form] at read
    simp [atoi, notMinus, notPlus, read]

theorem atoi_formatNat (fits : n ≤ maxInt) : atoi (formatNat n) = some (n : ℤ) := by
  rw [atoi_formatNat_eq, if_pos fits]

theorem eq_of_atoi_formatNat (read : atoi (formatNat n) = some value) :
    value = n := by
  rw [atoi_formatNat_eq] at read
  split at read
  · exact (Option.some.inj read).symm
  · cases read

@[simp]
theorem atoi_itoa_ofNat (fits : n ≤ maxInt) : atoi (itoa n) = some (n : ℤ) :=
  atoi_formatNat fits

theorem isDigit_of_mem_itoa {z : ℤ} (mem : b ∈ itoa z) :
    isDigit b ∨ b = byte '-' := by
  cases z with
  | ofNat n => exact Or.inl (isDigit_of_mem_formatNat mem)
  | negSucc n =>
    rcases List.mem_cons.mp mem with rfl | digit
    · exact Or.inr rfl
    · exact Or.inl (isDigit_of_mem_formatNat digit)

theorem length_formatNat_le (small : n < 65536) : (formatNat n).length ≤ 5 := by
  unfold formatNat
  split
  · simp
  · rw [List.length_map, List.length_reverse, Nat.digits_length_le_iff (by omega)]
    omega

theorem formatNat_injective : Function.Injective formatNat := by
  intro m n eq
  have read := parseDigits_formatNat m
  rw [eq, parseDigits_formatNat] at read
  exact (Option.some.inj read).symm

theorem itoa_injective : Function.Injective itoa := by
  have signed : ∀ m n : ℕ, formatNat m ≠ byte '-' :: formatNat n := by
    intro m n eq
    have digit := isDigit_of_mem_formatNat (eq ▸ List.mem_cons_self : byte '-' ∈ formatNat m)
    exact absurd digit (by decide)
  intro y z eq
  cases y with
  | ofNat m =>
    cases z with
    | ofNat n => exact congrArg Int.ofNat (formatNat_injective eq)
    | negSucc n => exact absurd eq (signed m (n + 1))
  | negSucc m =>
    cases z with
    | ofNat n => exact absurd eq.symm (signed n (m + 1))
    | negSucc n =>
      have same := formatNat_injective (List.cons.inj eq).2
      exact congrArg Int.negSucc (by omega)

theorem isDigit_of_mem_parseDigits {value : ℕ} (read : parseDigits s = some value)
    (mem : b ∈ s) : isDigit b := by
  unfold parseDigits at read
  split_ifs at read with refused
  rw [Bool.or_eq_true, not_or, Bool.not_eq_true', Bool.not_eq_false, List.all_eq_true] at refused
  exact refused.2 b mem

theorem isDigit_of_mem_atoi (read : atoi s = some value)
    (mem : b ∈ s) : isDigit b ∨ b = byte '-' ∨ b = byte '+' := by
  cases s with
  | nil => cases mem
  | cons first rest =>
    simp only [atoi] at read
    split_ifs at read with minus plus
    · rcases Option.bind_eq_some_iff.mp read with ⟨n, digits, _⟩
      rcases List.mem_cons.mp mem with rfl | later
      · exact Or.inr (Or.inl minus)
      · exact Or.inl (isDigit_of_mem_parseDigits digits later)
    · rcases Option.bind_eq_some_iff.mp read with ⟨n, digits, _⟩
      rcases List.mem_cons.mp mem with rfl | later
      · exact Or.inr (Or.inr plus)
      · exact Or.inl (isDigit_of_mem_parseDigits digits later)
    · rcases Option.bind_eq_some_iff.mp read with ⟨n, digits, _⟩
      exact Or.inl (isDigit_of_mem_parseDigits digits mem)

theorem atoi_le_maxInt (read : atoi s = some value) :
    value ≤ maxInt := by
  cases s with
  | nil => simp [atoi] at read
  | cons b rest =>
    simp only [atoi] at read
    split at read
    · simp only [Option.bind_eq_some_iff, Option.ite_none_right_eq_some, Option.some.injEq] at read
      rcases read with ⟨n, _, _, rfl⟩
      omega
    · simp only [Option.bind_eq_some_iff, Option.ite_none_right_eq_some, Option.some.injEq] at read
      rcases read with ⟨n, _, fits, rfl⟩
      omega

end Str

end Kiac
