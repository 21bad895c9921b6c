import Kiac.Text.Decimal

/-!
# Replacing a word

The shell command `sed 's#\bword\b#new#g'` replaces the occurrences of a text that are
bounded on both sides, from the left to the right; an occurrence that overlaps one which
was replaced is not looked at. The texts here begin and end with a byte of a word, so that
a boundary is where the neighbouring byte is not one.
-/

namespace Kiac.Str

/-- A byte that `\w` matches. -/
def isWordByte (b : UInt8) : Bool :=
  isDigit b || (byte 'a' ≤ b && b ≤ byte 'z') || (byte 'A' ≤ b && b ≤ byte 'Z') || b == byte '_'

/-- Whether the byte beside a word bounds it. -/
def bounds (beside : Option UInt8) : Bool := !beside.any isWordByte

/-- Whether the bounded word stands at the start of a text, after the byte `prev`. -/
def wordAt (word : Str) (prev : Option UInt8) (s : Str) : Bool :=
  s.hasPrefix word && bounds prev && bounds (s.drop word.length).head?

/-- Whether `grep '\bword\b'` finds the word. -/
def containsWord (word : Str) (prev : Option UInt8) : Str → Bool
  | [] => false
  | b :: rest => wordAt word prev (b :: rest) || containsWord word (some b) rest

/-- The text after `skip` bytes, which belong to a word that was replaced. -/
def replaceWordFrom (word new : Str) : (skip : ℕ) → (prev : Option UInt8) → Str → Str
  | _, _, [] => []
  | skip + 1, _, b :: rest => replaceWordFrom word new skip (some b) rest
  | 0, prev, b :: rest =>
    if wordAt word prev (b :: rest) then
      new ++ replaceWordFrom word new (word.length - 1) (some b) rest
    else b :: replaceWordFrom word new 0 (some b) rest

def replaceWord (word new s : Str) : Str := replaceWordFrom word new 0 none s

/-- How a replacement goes through a text: a byte is kept where the word does not stand, and
the word is swapped where it is bounded. -/
inductive Rewritten (word new : Str) : Option UInt8 → Str → Str → Prop
  | nil (prev : Option UInt8) : Rewritten word new prev [] []
  | keep {prev : Option UInt8} {b : UInt8} {s t : Str} (noWord : wordAt word prev (b :: s) = false)
      (rest : Rewritten word new (some b) s t) : Rewritten word new prev (b :: s) (b :: t)
  | swap {prev : Option UInt8} {s t : Str} (before : bounds prev = true)
      (after : bounds s.head? = true) (rest : Rewritten word new word.getLast? s t) :
      Rewritten word new prev (word ++ s) (new ++ t)

theorem replaceWordFrom_skip (word new skipped s : Str) (prev : Option UInt8) :
    replaceWordFrom word new skipped.length prev (skipped ++ s) =
      replaceWordFrom word new 0 (skipped.getLast?.or prev) s := by
  induction skipped generalizing prev with
  | nil => simp
  | cons b skipped ih =>
    rw [List.cons_append, List.length_cons, replaceWordFrom, ih, List.getLast?_cons]
    cases skipped.getLast? <;> rfl

theorem rewritten_replaceWordFrom {word : Str} (nonempty : word ≠ []) (new : Str)
    (prev : Option UInt8) (s : Str) :
    Rewritten word new prev s (replaceWordFrom word new 0 prev s) := by
  induction length : s.length using Nat.strong_induction_on generalizing prev s with
  | _ n ih =>
    cases s with
    | nil => exact .nil prev
    | cons b rest =>
      rw [replaceWordFrom]
      split
      · rename_i isWord
        simp only [wordAt, Bool.and_eq_true, hasPrefix_iff] at isWord
        rcases isWord with ⟨⟨⟨s, starts⟩, before⟩, after⟩
        rw [← starts, List.drop_left] at after
        rcases List.exists_cons_of_ne_nil nonempty with ⟨first, word, rfl⟩
        rw [List.cons_append, List.cons.injEq] at starts
        rcases starts with ⟨rfl, rfl⟩
        have skipped := replaceWordFrom_skip (first :: word) new word s (some first)
        rw [List.length_cons, Nat.add_sub_cancel, skipped]
        have last : word.getLast?.or (some first) = (first :: word).getLast? := by
          rw [List.getLast?_cons]
          cases word.getLast? <;> rfl
        rw [last]
        refine .swap before after (ih s.length ?_ _ _ rfl)
        rw [← length, List.length_cons, List.length_append]
        omega
      · rename_i noWord
        refine .keep (Bool.eq_false_iff.mpr noWord) (ih rest.length ?_ _ _ rfl)
        rw [← length, List.length_cons]
        omega

theorem rewritten_replaceWord {word : Str} (nonempty : word ≠ []) (new s : Str) :
    Rewritten word new none s (replaceWord word new s) :=
  rewritten_replaceWordFrom nonempty new none s

end Kiac.Str
