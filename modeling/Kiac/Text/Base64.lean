import Kiac.Text.Basic

/-!
# Base64

The standard encoding with padding. Line ends in a text are skipped when it is decoded.
-/

namespace Kiac

namespace Base64

/-- The character of a number below 64. -/
def encodeDigit (n : ℕ) : UInt8 :=
  if n < 26 then UInt8.ofNat (65 + n)
  else if n < 52 then UInt8.ofNat (71 + n)
  else if n < 62 then UInt8.ofNat (n - 4)
  else if n = 62 then byte '+'
  else byte '/'

def digit? (b : UInt8) : Option ℕ :=
  if 65 ≤ b ∧ b ≤ 90 then some (b.toNat - 65)
  else if 97 ≤ b ∧ b ≤ 122 then some (b.toNat - 71)
  else if 48 ≤ b ∧ b ≤ 57 then some (b.toNat + 4)
  else if b = byte '+' then some 62
  else if b = byte '/' then some 63
  else none

/-- `StdEncoding.EncodeToString`. -/
def encode : List UInt8 → Str
  | [] => []
  | [a] => [encodeDigit (a.toNat / 4), encodeDigit (a.toNat % 4 * 16), byte '=', byte '=']
  | [a, b] =>
    [encodeDigit (a.toNat / 4), encodeDigit (a.toNat % 4 * 16 + b.toNat / 16),
      encodeDigit (b.toNat % 16 * 4), byte '=']
  | a :: b :: c :: rest =>
    encodeDigit (a.toNat / 4) :: encodeDigit (a.toNat % 4 * 16 + b.toNat / 16) ::
      encodeDigit (b.toNat % 16 * 4 + c.toNat / 64) :: encodeDigit (c.toNat % 64) :: encode rest

/-- The bytes of groups of four digits, the last of which may be padded. -/
def decodeDigits : Str → Option (List UInt8)
  | [] => some []
  | w :: x :: y :: z :: rest =>
    match digit? w, digit? x, digit? y, digit? z with
    | some p, some q, some r, some s =>
      (decodeDigits rest).map fun bytes =>
        UInt8.ofNat (p * 4 + q / 16) :: UInt8.ofNat (q % 16 * 16 + r / 4) ::
          UInt8.ofNat (r % 4 * 64 + s) :: bytes
    | some p, some q, some r, none =>
      if z = byte '=' ∧ rest = [] then
        some [UInt8.ofNat (p * 4 + q / 16), UInt8.ofNat (q % 16 * 16 + r / 4)]
      else none
    | some p, some q, none, none =>
      if y = byte '=' ∧ z = byte '=' ∧ rest = [] then some [UInt8.ofNat (p * 4 + q / 16)]
      else none
    | _, _, _, _ => none
  | _ => none

/-- `StdEncoding.DecodeString`. -/
def decode (s : Str) : Option (List UInt8) := decodeDigits (s.filter fun b => b != 13 && b != 10)

end Base64

end Kiac
