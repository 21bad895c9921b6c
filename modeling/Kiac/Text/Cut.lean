import Mathlib.Data.List.TakeWhile
import Kiac.Text.Basic

/-!
# Cutting texts

More of the `strings` package: texts are cut at a byte, and their ends are looked at. A text is
also scanned line by line, as `bufio.Scanner` does.
-/

namespace Kiac

namespace Str

/-- `strings.Cut` at a byte: what stands before it, and what stands after it if it occurs. -/
def cut (b : UInt8) (s : Str) : Str × Option Str :=
  (s.takeWhile (· != b), match s.dropWhile (· != b) with
    | [] => none
    | _ :: rest => some rest)

theorem cut_of_not_mem {b : UInt8} {s : Str} (absent : b ∉ s) : s.cut b = (s, none) := by
  have other : ∀ c ∈ s, (c != b) := by
    intro c mem
    simpa using ne_of_mem_of_not_mem mem absent
  rw [cut, List.takeWhile_eq_self_iff.mpr other, List.dropWhile_eq_nil_iff.mpr other]

theorem cut_append {b : UInt8} {head rest : Str} (absent : b ∉ head) :
    Str.cut b (head ++ b :: rest) = (head, some rest) := by
  have other : ∀ c ∈ head, (c != b) := by
    intro c mem
    simpa using ne_of_mem_of_not_mem mem absent
  rw [cut, List.takeWhile_append_of_pos other, List.dropWhile_append_of_pos other]
  simp

theorem cut_cases (b : UInt8) (s : Str) :
    (b ∉ s ∧ s.cut b = (s, none)) ∨
      ∃ head rest, b ∉ head ∧ s = head ++ b :: rest ∧ s.cut b = (head, some rest) := by
  by_cases mem : b ∈ s
  · rcases List.eq_append_cons_of_mem mem with ⟨head, rest, rfl, absent⟩
    exact Or.inr ⟨head, rest, absent, rfl, cut_append absent⟩
  · exact Or.inl ⟨mem, cut_of_not_mem mem⟩

/-- `strings.HasSuffix`. -/
def hasSuffix (s ending : Str) : Bool := ending.isSuffixOf s

theorem hasSuffix_iff {s ending : Str} : s.hasSuffix ending ↔ ending <:+ s := by
  rw [hasSuffix, List.isSuffixOf_iff_suffix]

@[simp]
theorem hasSuffix_concat (s ending : Str) (b c : UInt8) :
    Str.hasSuffix (s ++ [b]) (ending ++ [c]) = (c == b && s.hasSuffix ending) := by
  rw [hasSuffix, List.isSuffixOf, List.reverse_concat, List.reverse_concat]
  rfl

@[simp]
theorem hasSuffix_nil (s : Str) : s.hasSuffix [] := by
  simp [hasSuffix, List.isSuffixOf]

/-- `strings.TrimSuffix`. -/
def trimSuffix (s ending : Str) : Str :=
  if s.hasSuffix ending then s.take (s.length - ending.length) else s

@[simp]
theorem trimSuffix_append (s ending : Str) : Str.trimSuffix (s ++ ending) ending = s := by
  simp [trimSuffix, hasSuffix_iff]

/-- `strings.Replace` of the first occurrence of a text that is not empty. -/
def replaceFirst (s old new : Str) : Str :=
  match s with
  | [] => []
  | b :: rest =>
    if Str.hasPrefix (b :: rest) old then new ++ (b :: rest).drop old.length
    else b :: replaceFirst rest old new

/-- The lines of a text, with a carriage return at their end if there is one. -/
def rawLines (s : Str) : List Str :=
  let parts := s.splitOn 10
  if parts.getLast? = some [] then parts.dropLast else parts

/-- A line without the carriage return at its end. -/
def dropCR (line : Str) : Str := line.trimSuffix [13]

end Str

end Kiac
