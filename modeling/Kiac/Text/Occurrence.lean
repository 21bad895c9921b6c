import Mathlib.Data.List.Infix
import Mathlib.Tactic.Push

/-!
# Where a word occurs

A word that does not overlap itself occurs in `start ++ word ++ rest` only where it is written, if
neither `start` nor `rest` has it. Texts are also taken apart into lines.
-/

namespace Kiac

variable {α : Type}

/-- No proper end of the word is a beginning of it. -/
def Unbordered (word : List α) : Prop :=
  ∀ k < word.length, 0 < k → ¬ word.drop k <+: word

variable {word start rest : List α}

theorem Unbordered.eq_nil_or_isPrefix (unbordered : Unbordered word)
    (occurs : word <+: start ++ (word ++ rest)) : start = [] ∨ word <+: start := by
  by_cases short : start.length < word.length
  · left
    rcases occurs with ⟨tail, whole⟩
    have dropped := congrArg (List.drop start.length) whole
    rw [List.drop_append_of_le_length short.le, List.drop_left] at dropped
    by_contra nonempty
    refine unbordered start.length short (List.length_pos_iff.mpr nonempty) ?_
    exact List.prefix_of_prefix_length_le ⟨tail, dropped⟩ (List.prefix_append word rest) (by simp)
  · right
    exact List.prefix_of_prefix_length_le occurs (List.prefix_append _ _) (by omega)

theorem Unbordered.eq_of_append {start' rest' : List α}
    (unbordered : Unbordered word) (notBefore : ¬ word <:+: start) (notAfter : ¬ word <:+: rest)
    (whole : start' ++ (word ++ rest') = start ++ (word ++ rest)) : start' = start := by
  rcases List.append_eq_append_iff.mp whole with ⟨between, rfl, tail⟩ | ⟨between, rfl, tail⟩
  · rcases unbordered.eq_nil_or_isPrefix (tail ▸ List.prefix_append word rest') with rfl | within
    · simp
    · exact absurd (within.isInfix.trans (List.suffix_append _ _).isInfix) notBefore
  · rcases unbordered.eq_nil_or_isPrefix (tail ▸ List.prefix_append word rest) with rfl | within
    · simp
    · rcases within with ⟨more, rfl⟩
      rw [List.append_assoc] at tail
      have after := List.append_cancel_left tail
      exact absurd ⟨more, rest', by rw [after, List.append_assoc]⟩ notAfter

theorem isInfix_of_append {letter : α} (absent : letter ∉ start)
    (occurs : letter :: word <:+: start ++ rest) : letter :: word <:+: rest := by
  induction start with
  | nil => exact occurs
  | cons b start ih =>
    rcases List.infix_cons_iff.mp occurs with here | later
    · exact absurd ((List.cons_prefix_cons.mp here).1 ▸ List.mem_cons_self) absent
    · exact ih (fun mem => absent (.tail _ mem)) later

theorem lines_induction (separator : α) {motive : List α → Prop}
    (last : ∀ line, separator ∉ line → motive line)
    (more : ∀ line rest, separator ∉ line → motive rest → motive (line ++ separator :: rest))
    (text : List α) : motive text := by
  induction length : text.length using Nat.strong_induction_on generalizing text with
  | _ n ih =>
    by_cases mem : separator ∈ text
    · rcases List.eq_append_cons_of_mem mem with ⟨line, rest, rfl, absent⟩
      refine more line rest absent (ih rest.length ?_ rest rfl)
      simp only [List.length_append, List.length_cons] at length
      omega
    · exact last text mem

theorem intercalate_append {separator : List α} {lines lines' : List (List α)} (some' : lines ≠ [])
    (some'' : lines' ≠ []) : separator.intercalate (lines ++ lines') =
      separator.intercalate lines ++ (separator ++ separator.intercalate lines') := by
  induction lines with
  | nil => exact absurd rfl some'
  | cons line lines ih =>
    cases lines with
    | nil =>
      cases lines' with
      | nil => exact absurd rfl some''
      | cons line' lines' => simp [List.intercalate, List.intersperse]
    | cons line' lines =>
      have rest := ih (by simp)
      simp only [List.intercalate, List.cons_append, List.intersperse, List.flatten_cons,
        List.append_assoc] at rest ⊢
      rw [rest]

theorem length_splitOnP (p : α → Bool) (text : List α) :
    (text.splitOnP p).length = text.countP p + 1 := by
  induction text with
  | nil => simp
  | cons b text ih =>
    rw [List.splitOnP_cons_eq_if_modifyHead, List.countP_cons]
    split <;> simp_all

end Kiac
