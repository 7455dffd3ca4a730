/-!
This module contains hexadecimal digits, two for each byte.
-/

namespace Edm.Text

def hexDigit (n : Nat) : Char :=
  if n < 10 then .ofNat ('0'.toNat + n) else .ofNat ('a'.toNat + (n - 10))

def hexValue? (c : Char) : Option Nat :=
  if '0' ≤ c ∧ c ≤ '9' then some (c.toNat - '0'.toNat)
  else if 'a' ≤ c ∧ c ≤ 'f' then some (c.toNat - 'a'.toNat + 10)
  else if 'A' ≤ c ∧ c ≤ 'F' then some (c.toNat - 'A'.toNat + 10)
  else none

def byteHex (b : UInt8) : List Char := [hexDigit (b.toNat / 16), hexDigit (b.toNat % 16)]

def bytesHex (bytes : List UInt8) : List Char := bytes.flatMap byteHex

def bytesHexUpper (bytes : List UInt8) : List Char := (bytesHex bytes).map Char.toUpper

def hexPadded (width n : Nat) : List Char :=
  let digits := Nat.toDigits 16 n
  .replicate (width - digits.length) '0' ++ digits

end Edm.Text
