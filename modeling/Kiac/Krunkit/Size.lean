import Kiac.ExternalWorker.Config

/-!
# Sizes of the VM backend

`parseSizeBytes` ranges over a map of suffixes and stops at the first that fits. No suffix of the
map ends in another one, so at most one of them fits, and the order does not matter.
-/

namespace Kiac.Krunkit

open Worker

def upperByte (b : UInt8) : UInt8 := if 97 ≤ b ∧ b ≤ 122 then b - 32 else b

/-- `strings.ToUpper`, with what it does outside ASCII left open. -/
structure UpperCase where
  upper : Str → Str
  ascii : ∀ s, (∀ b ∈ s, b < 128) → upper s = s.map upperByte
  blank : ∀ s, upper s = [] → s = []

def sizeSuffixes : List (Str × ℕ) :=
  [(str "KIB", 2 ^ 10), (str "KB", 2 ^ 10), (str "K", 2 ^ 10),
    (str "MIB", 2 ^ 20), (str "MB", 2 ^ 20), (str "M", 2 ^ 20),
    (str "GIB", 2 ^ 30), (str "GB", 2 ^ 30), (str "G", 2 ^ 30),
    (str "TIB", 2 ^ 40), (str "TB", 2 ^ 40), (str "T", 2 ^ 40)]

/-- The text of the count and the multiplier, with the map of suffixes ranged over in `order`. -/
def splitSize (order : List (Str × ℕ)) (s : Str) : Str × ℕ :=
  match order.find? fun entry => s.hasSuffix entry.1 with
  | some entry => (Str.trimSpace (s.trimSuffix entry.1), entry.2)
  | none => (s, 1)

/-- `parseSizeBytes`, with a product that may wrap around. -/
def parseSizeBytes (letters : UpperCase) (order : List (Str × ℕ)) (value : Str)
    (defaultBytes : ℤ) : Option ℤ :=
  let s := letters.upper (Str.trimSpace value)
  if s = [] then some defaultBytes
  else
    let (s, multiplier) := splitSize order s
    match Str.atoi s with
    | none => none
    | some n =>
      if n ≤ 0 ∨ Str.maxInt / multiplier < n then none
      else some ((n * multiplier : ℤ).bmod (2 ^ 64))

variable {order : List (Str × ℕ)} {s : Str} {entry : Str × ℕ}

theorem find?_sizeSuffixes (iterates : order.Perm sizeSuffixes) (listed : entry ∈ sizeSuffixes)
    (fits : entry.1 <:+ s) :
    (order.find? fun entry => s.hasSuffix entry.1) = some entry := by
  have apart : ∀ one ∈ sizeSuffixes, ∀ other ∈ sizeSuffixes, one.1 <:+ other.1 → one = other := by
    decide
  cases found : order.find? fun entry => s.hasSuffix entry.1 with
  | none =>
    have misses := List.find?_eq_none.mp found entry (iterates.mem_iff.mpr listed)
    exact absurd (Str.hasSuffix_iff.mpr fits) misses
  | some first =>
    have firstFits : first.1 <:+ s := by simpa [Str.hasSuffix_iff] using List.find?_some found
    have firstListed := iterates.mem_iff.mp (List.mem_of_find?_eq_some found)
    rcases List.suffix_or_suffix_of_suffix firstFits fits with ends | ends
    · rw [apart first firstListed entry listed ends]
    · rw [apart entry listed first firstListed ends]

theorem splitSize_append (iterates : order.Perm sizeSuffixes) (listed : entry ∈ sizeSuffixes) :
    splitSize order (s ++ entry.1) = (Str.trimSpace s, entry.2) := by
  simp [splitSize, find?_sizeSuffixes iterates listed (List.suffix_append s entry.1)]

theorem splitSize_cases (s : Str) :
    (∃ body, ∃ entry ∈ sizeSuffixes, s = body ++ entry.1) ∨
      ∀ order : List (Str × ℕ), order.Perm sizeSuffixes → splitSize order s = (s, 1) := by
  by_cases fits : ∃ entry ∈ sizeSuffixes, entry.1 <:+ s
  · rcases fits with ⟨entry, listed, body, rfl⟩
    exact Or.inl ⟨body, entry, listed, rfl⟩
  · refine Or.inr fun order iterates => ?_
    have misses : (order.find? fun entry => s.hasSuffix entry.1) = none := by
      refine List.find?_eq_none.mpr fun entry mem fit => fits ?_
      exact ⟨entry, iterates.mem_iff.mp mem, Str.hasSuffix_iff.mp fit⟩
    simp [splitSize, misses]

theorem splitSize_congr {order' : List (Str × ℕ)} (iterates : order.Perm sizeSuffixes)
    (iterates' : order'.Perm sizeSuffixes) (s : Str) : splitSize order s = splitSize order' s := by
  rcases splitSize_cases s with ⟨body, entry, listed, rfl⟩ | whole
  · rw [splitSize_append iterates listed, splitSize_append iterates' listed]
  · rw [whole order iterates, whole order' iterates']

theorem plain_of_atoi {n : ℤ} (read : Str.atoi s = some n) :
    (∀ b ∈ s, Str.isGraphic b) ∧ s.map upperByte = s := by
  have plain : ∀ b : UInt8, Str.isDigit b = true ∨ b = byte '-' ∨ b = byte '+' →
      Str.isGraphic b = true ∧ upperByte b = b := Str.forall_byte (by decide +kernel)
  have each := fun b mem => plain b (Str.isDigit_of_mem_atoi read mem)
  refine ⟨fun b mem => (each b mem).1, ?_⟩
  rw [List.map_congr_left fun b mem => (each b mem).2, List.map_id']

theorem exists_unit (iterates : order.Perm sizeSuffixes) {n : ℤ}
    (read : Str.atoi (splitSize order s).1 = some n) :
    ∃ body suffix, (suffix, (splitSize order s).2) ∈ ([], 1) :: sizeSuffixes ∧ s = body ++ suffix ∧
      Str.atoi (Str.trimSpace body) = some n := by
  rcases splitSize_cases s with ⟨body, entry, listed, rfl⟩ | whole
  · rw [splitSize_append iterates listed] at read ⊢
    exact ⟨body, entry.1, List.mem_cons_of_mem _ listed, rfl, read⟩
  · rw [whole order iterates] at read ⊢
    refine ⟨s, [], List.mem_cons_self, by simp, ?_⟩
    rwa [Str.trimSpace_of_isGraphic (plain_of_atoi read).1]

theorem product_fits {n : ℤ} {unit : ℕ} (positive : 0 < n) (fits : n ≤ Str.maxInt / unit) :
    n * unit ≤ Str.maxInt ∧ (n * unit : ℤ).bmod (2 ^ 64) = n * unit := by
  have nonzero : (unit : ℤ) ≠ 0 := by
    intro zero
    rw [zero, Int.ediv_zero] at fits
    omega
  have bounded : n * unit ≤ Str.maxInt :=
    (by gcongr : n * unit ≤ Str.maxInt / unit * unit).trans (Int.ediv_mul_le _ nonzero)
  have lower : 0 ≤ n * unit := by positivity
  refine ⟨bounded, Int.bmod_eq_of_le ?_ ?_⟩ <;> simp only [Str.maxInt] at * <;> omega

/-- The units in lower case, as the regular expression has them. -/
def units : List (UInt8 × ℕ) :=
  [(byte 'k', 2 ^ 10), (byte 'm', 2 ^ 20), (byte 'g', 2 ^ 30), (byte 't', 2 ^ 40)]

theorem exists_unit_letter {rest : Str} {unit : ℕ} (split : sizeUnit s = some (unit, rest))
    (nonzero : unit ≠ 0) : ∃ b, s = b :: rest ∧ (Str.lowerByte b, unit) ∈ units := by
  unfold sizeUnit at split
  split at split
  · simp_all
  · split_ifs at split <;> cases split <;> exact ⟨_, rfl, by simp_all [units]⟩
  · cases split

theorem mem_sizeSuffixes {b : UInt8} {rest : Str} {unit : ℕ}
    (letter : (Str.lowerByte b, unit) ∈ units)
    (ending : Str.toLower rest ∈ [[], str "b", str "ib"]) :
    ((b :: rest).map upperByte, unit) ∈ sizeSuffixes ∧
      ∀ c ∈ b :: rest, Str.isGraphic c := by
  have lowered : ∀ c : UInt8, upperByte (Str.lowerByte c) = upperByte c ∧
      (Str.isGraphic (Str.lowerByte c) = true → Str.isGraphic c = true) :=
    Str.forall_byte (by decide +kernel)
  have raised : ((b :: rest).map Str.lowerByte).map upperByte = (b :: rest).map upperByte := by
    rw [List.map_map]
    exact List.map_congr_left fun c _ => (lowered c).1
  have table : ∀ letter ∈ units, ∀ ending ∈ [[], str "b", str "ib"],
      ((letter.1 :: ending).map upperByte, letter.2) ∈ sizeSuffixes ∧
        ∀ c ∈ letter.1 :: ending, Str.isGraphic c = true := by
    decide +kernel
  rcases table _ letter _ ending with ⟨listed, graphic⟩
  refine ⟨by rwa [← raised], fun c mem => (lowered c).2 (graphic _ ?_)⟩
  exact List.mem_map_of_mem (f := Str.lowerByte) mem

theorem le_foldl (digits : Str) (start : ℕ) :
    start ≤ digits.foldl (fun value b => 10 * value + (b.toNat - 48)) start := by
  induction digits generalizing start with
  | nil => exact le_rfl
  | cons b digits ih => exact le_trans (by omega) (ih (10 * start + (b.toNat - 48)))

theorem atoi_of_parseDigits {first : UInt8} {count : ℕ} (read : Str.parseDigits s = some count)
    (head : s.head? = some first) (nonzero : first ≠ byte '0') (fits : count ≤ Str.maxInt) :
    Str.atoi s = some count ∧ 0 < count := by
  cases s with
  | nil => cases head
  | cons b rest =>
    cases head
    have digit := Str.isDigit_of_mem_parseDigits read List.mem_cons_self
    have facts : ∀ b : UInt8, Str.isDigit b = true → b ≠ byte '0' →
        b ≠ byte '-' ∧ b ≠ byte '+' ∧ 48 < b.toNat := Str.forall_byte (by decide +kernel)
    rcases facts first digit nonzero with ⟨notMinus, notPlus, positive⟩
    refine ⟨by simp [Str.atoi, notMinus, notPlus, read, fits], ?_⟩
    simp only [Str.parseDigits, Option.ite_none_left_eq_some, Option.some.injEq,
      List.foldl_cons] at read
    have grows := le_foldl rest (10 * 0 + (first.toNat - 48))
    omega

theorem externalWorkerSize_eq_ok {value : Str} {bytes : ℕ}
    (ok : externalWorkerSize value = .ok bytes) :
    ∃ (digits suffix : Str) (count unit : ℕ), value = digits ++ suffix ∧
      (suffix.map upperByte, unit) ∈ sizeSuffixes ∧ (∀ c ∈ suffix, Str.isGraphic c) ∧
      Str.atoi digits = some (count : ℤ) ∧ 0 < count ∧ count ≤ Str.maxInt / unit ∧
      bytes = count * unit := by
  simp only [externalWorkerSize] at ok
  split at ok
  · rename_i first unit rest head split
    split at ok
    · cases ok
    · rename_i kept
      rw [not_or, not_not] at kept
      split at ok
      · cases ok
      · rename_i count read
        split_ifs at ok with large zero wraps
        cases ok
        rcases exists_unit_letter split zero with ⟨b, tail, letter⟩
        rcases mem_sizeSuffixes letter kept.2 with ⟨listed, graphic⟩
        rcases atoi_of_parseDigits read head kept.1 (by omega) with ⟨number, positive⟩
        rw [← tail] at listed graphic
        have whole := List.prefix_iff_eq_append.mp (List.takeWhile_prefix (l := value) Str.isDigit)
        exact ⟨_, _, count, unit, whole.symm, listed, graphic, number, positive, by omega, rfl⟩
  · cases ok

theorem parseSizeBytes_of_externalWorkerSize (letters : UpperCase) {value : Str} {bytes : ℕ}
    (iterates : order.Perm sizeSuffixes) (defaultBytes : ℤ)
    (ok : externalWorkerSize value = .ok bytes) :
    parseSizeBytes letters order value defaultBytes = some (bytes : ℤ) := by
  rcases externalWorkerSize_eq_ok ok with
    ⟨digits, suffix, count, unit, rfl, listed, visible, read, positive, fits, rfl⟩
  rcases plain_of_atoi read with ⟨digitsVisible, kept⟩
  have graphic : ∀ b ∈ digits ++ suffix, Str.isGraphic b := fun b mem =>
    (List.mem_append.mp mem).elim (digitsVisible b) (visible b)
  have ascii : ∀ b : UInt8, Str.isGraphic b = true → b < 128 := Str.forall_byte (by decide +kernel)
  have upper := letters.ascii _ fun b mem => ascii b (graphic b mem)
  have filled : digits ++ suffix ≠ [] := by
    rintro empty
    simp_all [Str.atoi]
  rw [parseSizeBytes, Str.trimSpace_of_isGraphic graphic, 
    if_neg (mt (letters.blank _) filled), upper, List.map_append, kept,
    splitSize_append iterates listed, Str.trimSpace_of_isGraphic digitsVisible]
  have bound : (count : ℤ) ≤ Str.maxInt / unit := by exact_mod_cast fits
  have exact := (product_fits (by omega) bound).2
  simp only [read, if_neg (not_or.mpr ⟨(by omega : ¬(count : ℤ) ≤ 0), bound.not_gt⟩), exact,
    Nat.cast_mul]

/-- Sizes mean the same number of bytes in any order of the suffixes, to the validation of workers
and to the VM backend. -/
theorem parseSizeBytes_exact (letters : UpperCase) {order order' : List (Str × ℕ)}
    (iterates : order.Perm sizeSuffixes) (iterates' : order'.Perm sizeSuffixes) (value : Str)
    (defaultBytes : ℤ) :
    parseSizeBytes letters order value defaultBytes =
        parseSizeBytes letters order' value defaultBytes ∧
      (∀ bytes, Str.trimSpace value ≠ [] →
        parseSizeBytes letters order value defaultBytes = some bytes →
        ∃ body suffix count unit, (suffix, unit) ∈ ([], 1) :: sizeSuffixes ∧
          letters.upper (Str.trimSpace value) = body ++ suffix ∧
          Str.atoi (Str.trimSpace body) = some count ∧ 0 < count ∧ bytes = count * unit ∧
          bytes ≤ Str.maxInt) ∧
      ∀ bytes, externalWorkerSize value = .ok bytes →
        parseSizeBytes letters order value defaultBytes = some (bytes : ℤ) := by
  refine ⟨by simp only [parseSizeBytes, splitSize_congr iterates iterates'], ?_, fun bytes ok =>
    parseSizeBytes_of_externalWorkerSize letters iterates defaultBytes ok⟩
  intro bytes filled ok
  rw [parseSizeBytes, if_neg (mt (letters.blank _) filled)] at ok
  simp only at ok
  split at ok
  · cases ok
  · rename_i count read
    split_ifs at ok with refused
    rw [not_or, not_le, not_lt] at refused
    rcases product_fits refused.1 refused.2 with ⟨bounded, exact⟩
    rcases exists_unit iterates read with ⟨body, suffix, listed, written, number⟩
    rw [exact] at ok
    cases ok
    exact ⟨body, suffix, count, _, listed, written, number, refused.1, rfl, bounded⟩

theorem parseSizeBytes_exact_gibibytes :
    parseSizeBytes ⟨(·.map upperByte), fun _ _ => rfl, fun _ => List.map_eq_nil_iff.mp⟩
      sizeSuffixes.reverse (str "4Gib") 0 = some (2 ^ 32) :=
  (parseSizeBytes_exact _ (List.reverse_perm _) (List.Perm.refl _) (str "4Gib") 0).2.2 (2 ^ 32)
    (by decide)

end Kiac.Krunkit
