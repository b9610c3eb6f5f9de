import Kismet.Binary64.Basic
import Kismet.Text.Units
set_option autoImplicit false

/-!
# Text: numbers given as text

A number may be surrounded by blanks, may use the decimal digits of any script
and may have a single `_` between two digits.  Whole numbers have an optional
sign and at most `maxDigits` digits; real numbers have a point, an exponent, or
one of the words for infinity and for what is not a number, in any case.
-/

namespace Kismet.Text.Numeral

/-- A whole number of more digits is refused, when it is read as when it is written. -/
def maxDigits : Nat := 4300

/-- The whole number has few enough decimal digits to be written. -/
def isWritable (n : Int) : Bool :=
  decide ((Nat.toDigits 10 n.natAbs).length ≤ maxDigits)

/-- Blanks around a number; the information separators are not among them. -/
def isMargin (c : Char) : Bool :=
  isBlank c && !(decide (0x1C ≤ c.toNat) && decide (c.toNat ≤ 0x1F))

/-- A decimal digit of any script as a plain one; other characters stay. -/
def plainDigit (c : Char) : Char :=
  match digitValue? c with
  | some d => Char.ofNat (0x30 + d)
  | none => c

/-- Drops each `_` that stands between two digits; `none` if one stands
elsewhere. -/
def joinGroups : List Char → Option (List Char)
  | [] => some []
  | [c] => if c = '_' then none else some [c]
  | c :: '_' :: d :: rest =>
    if c.isDigit && d.isDigit then (joinGroups (d :: rest)).map (c :: ·) else none
  | c :: rest => if c = '_' then none else (joinGroups rest).map (c :: ·)

/-- The characters of a number without margins and groups, digits plain. -/
def prepare (s : String) : Option (List Char) :=
  joinGroups ((trimBoth isMargin s.toList).map plainDigit)

/-- An optional sign in front. -/
def splitSign : List Char → Bool × List Char
  | '-' :: rest => (true, rest)
  | '+' :: rest => (false, rest)
  | cs => (false, cs)

/-- The value of plain decimal digits. -/
def decimalValue (cs : List Char) : Nat :=
  cs.foldl (fun acc c => 10 * acc + (c.toNat - 0x30)) 0

/-- Reads a whole number. -/
def whole? (s : String) : Option Int :=
  match prepare s with
  | none => none
  | some cs =>
    let (neg, digits) := splitSign cs
    if digits.isEmpty || !digits.all Char.isDigit || decide (maxDigits < digits.length) then none
    else some (Binary64.signed neg (decimalValue digits))

/-- The value of an exponent part, `none` if it is malformed; no characters
stand for no exponent. -/
def exponent? : List Char → Option Int
  | [] => some 0
  | c :: rest =>
    if c = 'e' || c = 'E' then
      let (neg, digits) := splitSign rest
      if digits.isEmpty || !digits.all Char.isDigit then none
      else some (Binary64.signed neg (decimalValue digits))
    else none

/-- Digits with an optional point and exponent. -/
def decimal? (neg : Bool) (cs : List Char) : Option Binary64 :=
  let front := cs.takeWhile Char.isDigit
  let rest := cs.dropWhile Char.isDigit
  let (back, tail) := match rest with
    | '.' :: more => (more.takeWhile Char.isDigit, more.dropWhile Char.isDigit)
    | _ => ([], rest)
  if front.isEmpty && back.isEmpty then none
  else (exponent? tail).map fun e =>
    Binary64.ofDecimal neg (decimalValue (front ++ back)) (e - (back.length : Int))

/-- Reads a real number. -/
def real? (s : String) : Option Binary64 :=
  match prepare s with
  | none => none
  | some cs =>
    let (neg, body) := splitSign cs
    let word := String.ofList (body.map Char.toLower)
    if word = "nan" then some .nan
    else if word = "inf" || word = "infinity" then some (.inf neg)
    else decimal? neg body

end Kismet.Text.Numeral
