import Mathlib.Data.List.Basic
import Mathlib.Data.List.Infix
import Mathlib.Tactic.Common

/-!
# Byte strings

Strings are sequences of bytes, as in Go: an arbitrary input need not be valid
UTF-8. The operations carry the names of the `strings` package. Positions are
byte offsets.
-/

namespace Kiac

/-- A string as a sequence of bytes. -/
abbrev Str := List UInt8

instance Str.lawfulBEq : LawfulBEq Str := inferInstance

/-- The bytes of a literal. -/
def str (literal : String) : Str := literal.toUTF8.data.toList

/-- The byte of an ASCII character. -/
def byte (c : Char) : UInt8 := c.toUInt8

namespace Str

/-- `strings.HasPrefix`. -/
def hasPrefix (s start : Str) : Bool := start.isPrefixOf s

/-- `strings.TrimPrefix`: the text after the given start, or the whole text. -/
def trimPrefix (s start : Str) : Str :=
  if s.hasPrefix start then s.drop start.length else s

/-- `strings.LastIndex`, with `none` for the index `-1`. -/
def lastIndex (sub : Str) : Str → Option ℕ
  | [] => if sub.isEmpty then some 0 else none
  | b :: rest =>
    match lastIndex sub rest with
    | some i => some (i + 1)
    | none => if Str.hasPrefix (b :: rest) sub then some 0 else none

/-- `strings.Contains`. -/
def contains (sub : Str) : Str → Bool
  | [] => sub.isEmpty
  | b :: rest => Str.hasPrefix (b :: rest) sub || contains sub rest

/-- The lower-case form of an ASCII letter; other bytes are kept. -/
def lowerByte (b : UInt8) : UInt8 := if 65 ≤ b ∧ b ≤ 90 then b + 32 else b

/-- `strings.ToLower` on ASCII text. -/
def toLower (s : Str) : Str := s.map lowerByte

/-- `strings.EqualFold` on ASCII text. -/
def equalFold (s t : Str) : Bool := s.toLower == t.toLower

theorem forall_byte {p : UInt8 → Prop} (each : ∀ n < 256, p (UInt8.ofNat n)) (b : UInt8) :
    p b := by
  have here := each b.toNat b.toNat_lt
  rwa [UInt8.ofNat_toNat] at here

variable {s start sub : Str} {i : ℕ}

theorem hasPrefix_iff : s.hasPrefix start ↔ start <+: s := by
  rw [hasPrefix, List.isPrefixOf_iff_prefix]

@[simp]
theorem hasPrefix_append (start rest : Str) : Str.hasPrefix (start ++ rest) start :=
  hasPrefix_iff.mpr (List.prefix_append start rest)

theorem contains_iff : Str.contains sub s ↔ sub <:+: s := by
  induction s with
  | nil => simp [contains]
  | cons b rest ih =>
    rw [contains, Bool.or_eq_true, hasPrefix_iff, ih, List.infix_cons_iff]

@[simp]
theorem trimPrefix_append (start rest : Str) : Str.trimPrefix (start ++ rest) start = rest := by
  simp [trimPrefix]

theorem eq_append_of_trimPrefix_ne (changed : s.trimPrefix start ≠ s) :
    s = start ++ s.trimPrefix start := by
  unfold trimPrefix at changed ⊢
  split
  · rename_i starts
    rcases hasPrefix_iff.mp starts with ⟨rest, rfl⟩
    simp
  · rename_i starts
    simp [starts] at changed

theorem prefix_drop_of_lastIndex (found : lastIndex sub s = some i) :
    sub <+: s.drop i := by
  induction s generalizing i with
  | nil =>
    simp only [lastIndex] at found
    split at found
    · rename_i empty
      rw [List.isEmpty_iff.mp empty]
      exact List.nil_prefix
    · simp at found
  | cons b rest ih =>
    simp only [lastIndex] at found
    split at found
    · rename_i j foundRest
      simp only [Option.some.injEq] at found
      subst found
      exact ih foundRest
    · split at found
      · rename_i starts
        simp only [Option.some.injEq] at found
        subst found
        exact hasPrefix_iff.mp starts
      · simp at found

theorem eq_of_lastIndex (found : lastIndex sub s = some i) :
    s = s.take i ++ sub ++ s.drop (i + sub.length) := by
  rcases prefix_drop_of_lastIndex found with ⟨tail, eq⟩
  have after : s.drop (i + sub.length) = tail := by
    rw [← List.drop_drop, ← eq]
    simp
  rw [after, List.append_assoc, eq, List.take_append_drop]

theorem take_append_of_lastIndex (found : lastIndex sub s = some i)
    (atEnd : i + sub.length = s.length) : s = s.take i ++ sub := by
  have split := eq_of_lastIndex found
  rw [atEnd, List.drop_length, List.append_nil] at split
  exact split

theorem lastIndex_append {head tail : Str} (last : ∀ k, 0 < k → ¬sub <+: (sub ++ tail).drop k) :
    lastIndex sub (head ++ (sub ++ tail)) = some head.length := by
  induction head with
  | nil =>
    -- Nothing is found in the proper suffixes, so the start is the last occurrence.
    have none_after : ∀ k, 0 < k → lastIndex sub ((sub ++ tail).drop k) = none := by
      intro k positive
      cases found : lastIndex sub ((sub ++ tail).drop k) with
      | none => rfl
      | some i =>
        exfalso
        apply last (k + i) (by omega)
        rw [← List.drop_drop]
        exact prefix_drop_of_lastIndex found
    cases whole : sub ++ tail with
    | nil =>
      have empty := (List.append_eq_nil_iff.mp whole).1
      simp [lastIndex, empty]
    | cons b rest =>
      have after := none_after 1 (by omega)
      rw [whole] at after
      simp only [List.drop_succ_cons, List.drop_zero] at after
      have starts : Str.hasPrefix (b :: rest) sub := by
        rw [← whole]
        simp
      simp [lastIndex, after, starts]
  | cons b head ih => simp [lastIndex, ih]

variable {separator : UInt8} {left right : Str}

theorem append_separator_inj {left' right' : Str}
    (eq : left ++ separator :: right = left' ++ separator :: right')
    (absent : separator ∉ right) (absent' : separator ∉ right') :
    left = left' ∧ right = right' := by
  rcases List.append_eq_append_iff.mp eq with ⟨gap, rfl, tails⟩ | ⟨gap, rfl, tails⟩
  · cases gap with
    | nil => simpa using tails
    | cons b gap =>
      simp only [List.cons_append, List.cons.injEq] at tails
      rw [tails.2] at absent
      simp at absent
  · cases gap with
    | nil => simpa using tails.symm
    | cons b gap =>
      simp only [List.cons_append, List.cons.injEq] at tails
      rw [tails.2] at absent'
      simp at absent'

theorem separator_prefix_iff (absent : separator ∉ left) (absent' : separator ∉ right) :
    start ++ [separator] <+: left ++ separator :: right ↔ start = left := by
  constructor
  · rintro ⟨rest, eq⟩
    have counts := congrArg (List.count separator) eq
    simp only [List.append_assoc, List.cons_append, List.nil_append, List.count_append,
      List.count_cons_self, List.count_eq_zero.mpr absent, List.count_eq_zero.mpr absent'] at counts
    have absentRest : separator ∉ rest := List.count_eq_zero.mp (by omega)
    rw [List.append_assoc, List.singleton_append] at eq
    exact (append_separator_inj eq absentRest absent').1
  · rintro rfl
    exact ⟨right, by simp⟩

theorem lastIndex_eq_none {b : UInt8} : lastIndex [b] s = none ↔ b ∉ s := by
  constructor
  · intro missing mem
    induction s with
    | nil => cases mem
    | cons c rest ih =>
      simp only [lastIndex] at missing
      split at missing
      · cases missing
      · rename_i later
        split_ifs at missing with starts
        rcases List.mem_cons.mp mem with rfl | inRest
        · exact starts (hasPrefix_append [b] rest)
        · exact ih later inRest
  · intro absent
    cases found : lastIndex [b] s with
    | none => rfl
    | some i =>
      rw [eq_of_lastIndex found] at absent
      simp at absent

theorem lastIndex_byte {b : UInt8} {tail : Str} (head : Str) (absent : b ∉ tail) :
    lastIndex [b] (head ++ b :: tail) = some head.length := by
  apply lastIndex_append
  intro k positive starts
  rcases Nat.exists_eq_add_one_of_ne_zero (by omega : k ≠ 0) with ⟨j, rfl⟩
  exact absent (List.mem_of_mem_drop (starts.subset List.mem_cons_self))

end Str

theorem bind_eq_ok {ε α β : Type} {result : Except ε α} {next : α → Except ε β} {value : β} :
    (result >>= next) = .ok value ↔ ∃ first, result = .ok first ∧ next first = .ok value := by
  cases result with
  | error err => simp [Bind.bind, Except.bind]
  | ok first => simp [Bind.bind, Except.bind]

end Kiac
