import Kiac.Text.Quote

/-!
# Characters in any bytes

How a sequence of bytes is read as characters in UTF-8, byte by byte where it is none, and what
`json.Marshal` writes for it.
-/

namespace Kiac.Str

/-- The number of bytes of a character that starts with the byte. -/
def runeWidth (b : UInt8) : ℕ :=
  if b < 0x80 then 1 else if b < 0xC2 then 0 else if b < 0xE0 then 2 else if b < 0xF0 then 3
  else if b < 0xF5 then 4 else 0

/-- The bounds of the second byte of a character. -/
def secondBounds (b : UInt8) : UInt8 × UInt8 :=
  if b = 0xE0 then (0xA0, 0xBF) else if b = 0xED then (0x80, 0x9F)
  else if b = 0xF0 then (0x90, 0xBF) else if b = 0xF4 then (0x80, 0x8F) else (0x80, 0xBF)

/-- The length of the character at the start of a text, and 0 if there is none. -/
def runeLength : Str → ℕ
  | [] => 0
  | b :: rest =>
    let tail := rest.take (runeWidth b - 1)
    if tail.length + 1 = runeWidth b ∧ (tail.all fun c => 0x80 ≤ c && c ≤ 0xBF) = true ∧
        (tail.head?.all fun c => (secondBounds b).1 ≤ c && c ≤ (secondBounds b).2) = true then
      runeWidth b
    else 0

/-- The text with its characters mapped, and another text for every byte of none. -/
def mapRunes (f : Str → Str) (invalid : Str) : ℕ → Str → Str
  | _, [] => []
  | skip + 1, _ :: rest => mapRunes f invalid skip rest
  | 0, b :: rest =>
    match runeLength (b :: rest) with
    | 0 => invalid ++ mapRunes f invalid 0 rest
    | width + 1 => f ((b :: rest).take (width + 1)) ++ mapRunes f invalid width rest

/-- The text with U+FFFD for what is no character. -/
def repair (s : Str) : Str := mapRunes id [0xEF, 0xBF, 0xBD] 0 s

def quoteRune (rune : Str) : Str :=
  if rune = [0xE2, 0x80, 0xA8] then str "\\u2028"
  else if rune = [0xE2, 0x80, 0xA9] then str "\\u2029"
  else rune.flatMap quoteByte

/-- What `json.Marshal` writes between the quotes. -/
def jsonBody (s : Str) : Str := mapRunes quoteRune (str "\\ufffd") 0 s

end Kiac.Str
