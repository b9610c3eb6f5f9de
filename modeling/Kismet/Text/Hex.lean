set_option autoImplicit false

/-!
# Text: hexadecimal numbers

Integers are written in upper-case hexadecimal, a minus sign in front counting
towards the width.
-/

namespace Kismet.Text

/-- The upper-case form of a hexadecimal digit. -/
def upperDigit (c : Char) : Char :=
  if c.toNat < 0x61 then c else Char.ofNat (c.toNat - 0x20)

/-- The upper-case hexadecimal digits of a natural number. -/
def hexDigits (n : Nat) : List Char :=
  (Nat.toDigits 16 n).map upperDigit

/-- `cs` filled with zeros on the left to `width` characters. -/
def zeroFill (width : Nat) (cs : List Char) : List Char :=
  List.replicate (width - cs.length) '0' ++ cs

/-- An integer in hexadecimal with at least `width` characters, sign included. -/
def hexChars (width : Nat) (n : Int) : List Char :=
  if n < 0 then '-' :: zeroFill (width - 1) (hexDigits n.natAbs)
  else zeroFill width (hexDigits n.toNat)

/-- An integer in hexadecimal with at least `width` characters. -/
def hex (width : Nat) (n : Int) : String :=
  String.ofList (hexChars width n)

/-- The lower-case hexadecimal digits of `n`, at least `width` of them. -/
def lowerHex (width n : Nat) : List Char :=
  zeroFill width (Nat.toDigits 16 n)

end Kismet.Text
