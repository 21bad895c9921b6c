import Kiac.Text.Hex

/-!
# JSON strings

The strings that JSON can hold are texts, that is, sequences of characters in UTF-8. `quote` is how
`json.Marshal` writes such a text.
-/

namespace Kiac

namespace Str

/-- The bytes are a text in UTF-8. -/
def IsText (s : Str) : Prop := ∃ chars : List Char, s = chars.flatMap String.utf8EncodeChar

/-- A byte below 128 in a JSON string; what HTML gives a meaning to is escaped as well. -/
def quoteByte (b : UInt8) : Str :=
  if b = byte '"' ∨ b = byte '\\' then [byte '\\', b]
  else if b = 8 then str "\\b"
  else if b = 12 then str "\\f"
  else if b = 10 then str "\\n"
  else if b = 13 then str "\\r"
  else if b = 9 then str "\\t"
  else if b < 32 ∨ b ∈ str "<>&" then
    str "\\u00" ++ [hexByte (b.toNat / 16), hexByte (b.toNat % 16)]
  else [b]

/-- The body of a JSON string; the separators U+2028 and U+2029 are escaped. -/
def quoteBody (skip : ℕ) : Str → Str
  | [] => []
  | b :: rest =>
    match skip with
    | skip + 1 => quoteBody skip rest
    | 0 =>
      if Str.hasPrefix (b :: rest) [0xE2, 0x80, 0xA8] then str "\\u2028" ++ quoteBody 2 rest
      else if Str.hasPrefix (b :: rest) [0xE2, 0x80, 0xA9] then
        str "\\u2029" ++ quoteBody 2 rest
      else quoteByte b ++ quoteBody 0 rest

def quote (s : Str) : Str := byte '"' :: quoteBody 0 s ++ [byte '"']

/-- The bytes that stand for themselves in a JSON string. -/
def isPlain (b : UInt8) : Bool :=
  32 ≤ b && b < 128 && b != byte '"' && b != byte '\\' && b != byte '<' && b != byte '>' &&
    b != byte '&'

theorem lt_of_isPlain {b : UInt8} (plain : isPlain b) : b < 128 := by
  simp only [isPlain, Bool.and_eq_true, decide_eq_true_eq] at plain
  exact plain.1.1.1.1.1.2

theorem quoteByte_of_isPlain {b : UInt8} (plain : isPlain b) : quoteByte b = [b] := by
  have each : ∀ b : UInt8, isPlain b = true → quoteByte b = [b] :=
    forall_byte (by decide +kernel)
  exact each b plain

theorem quoteBody_of_isPlain {s : Str} (plain : ∀ b ∈ s, isPlain b) :
    quoteBody 0 s = s := by
  induction s with
  | nil => rfl
  | cons b rest ih =>
    have isPlain' := plain b List.mem_cons_self
    have small := lt_of_isPlain isPlain'
    have other : ∀ c : UInt8, Str.hasPrefix (b :: rest) [0xE2, 0x80, c] = false := by
      intro c
      rw [← Bool.not_eq_true, hasPrefix_iff, List.cons_prefix_cons]
      rintro ⟨rfl, _⟩
      exact absurd small (by decide)
    rw [quoteBody, other, other, quoteByte_of_isPlain isPlain',
      ih fun c mem => plain c (List.mem_cons_of_mem b mem)]
    rfl

theorem length_quote_of_isPlain {s : Str} (plain : ∀ b ∈ s, isPlain b) :
    (quote s).length = s.length + 2 := by
  rw [quote, quoteBody_of_isPlain plain]
  simp

theorem isText_of_lt {s : Str} (ascii : ∀ b ∈ s, b < 128) : IsText s := by
  refine ⟨s.map fun b => Char.ofNat b.toNat, ?_⟩
  induction s with
  | nil => rfl
  | cons b rest ih =>
    have each : ∀ n < 128, String.utf8EncodeChar (Char.ofNat n) = [UInt8.ofNat n] := by
      decide +kernel
    have first := each b.toNat (UInt8.lt_iff_toNat_lt.mp (ascii b List.mem_cons_self))
    rw [UInt8.ofNat_toNat] at first
    rw [List.map_cons, List.flatMap_cons, first,
      ← ih fun c mem => ascii c (List.mem_cons_of_mem b mem)]
    rfl

end Str

end Kiac
