import GoToSymbol.Text.Quoted

namespace GoToSymbol.Text

/-- Bytes that stand for themselves in the path of a URI. -/
def isUriPlain (b : UInt8) : Bool :=
  let n := b.toNat
  (65 ≤ n && n ≤ 90) || (97 ≤ n && n ≤ 122) || (48 ≤ n && n ≤ 57)
    || n == 45 || n == 46 || n == 47 || n == 95 || n == 126

def upperHexDigit (n : Nat) : Char :=
  if n < 10 then Char.ofNat (48 + n) else Char.ofNat (55 + n)

def percentByte (b : UInt8) : List Char :=
  if isUriPlain b then [Char.ofNat b.toNat]
  else ['%', upperHexDigit (b.toNat / 16), upperHexDigit (b.toNat % 16)]

/-- Percent-encodes the bytes of a text in UTF-8. -/
def percentEncode (s : List Char) : List Char :=
  (s.flatMap String.utf8EncodeChar).flatMap percentByte

def hexValue? (c : Char) : Option Nat :=
  let n := c.toNat
  if 48 ≤ n ∧ n ≤ 57 then some (n - 48)
  else if 65 ≤ n ∧ n ≤ 70 then some (n - 55)
  else if 97 ≤ n ∧ n ≤ 102 then some (n - 87)
  else none

example : percentEncode ['a', ' ', 'é'] = "a%20%C3%A9".toList := by decide

end GoToSymbol.Text
