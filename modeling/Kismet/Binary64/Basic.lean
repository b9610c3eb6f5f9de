set_option autoImplicit false

/-!
# Binary64: double-precision numbers as exact values

A finite double is a sign, a natural mantissa and a power of two, so every
question about it (which integer it truncates to, how it compares with an
integer, which decimal lies nearest) is settled in exact arithmetic.  Rounding
to a double happens in one place, `Binary64.ofRatio`.
-/

namespace Kismet

/-- A double-precision number: not a number, an infinity, or
`± mantissa * 2 ^ exponent`. -/
inductive Binary64 where
  /-- Not a number. -/
  | nan
  /-- An infinity. -/
  | inf (neg : Bool)
  /-- A finite value; zero keeps its sign. -/
  | finite (neg : Bool) (mantissa : Nat) (exponent : Int)
  deriving DecidableEq, Repr, Inhabited

/-- The natural number nearest to `num / den`; a half goes to the even
neighbour. -/
def roundHalfEven (num den : Nat) : Nat :=
  let quotient := num / den
  let rest := num % den
  if 2 * rest < den then quotient
  else if den < 2 * rest then quotient + 1
  else quotient + quotient % 2

namespace Binary64

/-- Number of bits of a mantissa. -/
def precision : Nat := 53

/-- The exponent of the smallest positive double. -/
def minExponent : Int := -1074

/-- The exponent of the largest finite double. -/
def maxExponent : Int := 971

/-- The fraction `num / den` divided by `2 ^ e`, again as a fraction. -/
def descale (num den : Nat) (e : Int) : Nat × Nat :=
  if 0 ≤ e then (num, den * Nat.pow 2 e.toNat) else (num * Nat.pow 2 (-e).toNat, den)

/-- The exponent at which `num / den` has a mantissa of full precision, raised
to the smallest exponent there is. -/
def exponentOf (num den : Nat) : Int :=
  let estimate : Int := (Nat.log2 num : Int) - (Nat.log2 den : Int) - 52
  let (n, d) := descale num den estimate
  let exact := if n / d < Nat.pow 2 (precision - 1) then estimate - 1 else estimate
  max exact minExponent

/-- The double nearest to `± num / den`, a half going to the even mantissa;
values beyond the largest double become infinite. -/
def ofRatio (neg : Bool) (num den : Nat) : Binary64 :=
  if num = 0 then .finite neg 0 minExponent
  else
    let e := exponentOf num den
    let (n, d) := descale num den e
    let m := roundHalfEven n d
    let (m, e) := if m = Nat.pow 2 precision then (Nat.pow 2 (precision - 1), e + 1) else (m, e)
    if maxExponent < e then .inf neg else .finite neg m e

/-- The double nearest to an integer, or `none` if it is too large. -/
def ofInt? (n : Int) : Option Binary64 :=
  match ofRatio (n < 0) n.natAbs 1 with
  | .finite neg m e => some (.finite neg m e)
  | _ => none

/-- Decimal magnitudes outside this many places round to zero or infinity. -/
def decimalReach : Int := 400

/-- The double nearest to `± digits * 10 ^ exponent`. -/
def ofDecimal (neg : Bool) (digits : Nat) (exponent : Int) : Binary64 :=
  let places : Int := exponent + ((Nat.toDigits 10 digits).length : Int)
  if digits = 0 then .finite neg 0 minExponent
  else if decimalReach < places then .inf neg
  else if places < -decimalReach then .finite neg 0 minExponent
  else if 0 ≤ exponent then ofRatio neg (digits * Nat.pow 10 exponent.toNat) 1
  else ofRatio neg digits (Nat.pow 10 (-exponent).toNat)

/-- The magnitude `mantissa * 2 ^ exponent` as a fraction. -/
def ratio (mantissa : Nat) (exponent : Int) : Nat × Nat :=
  if 0 ≤ exponent then (mantissa * Nat.pow 2 exponent.toNat, 1)
  else (mantissa, Nat.pow 2 (-exponent).toNat)

/-- `n` with its sign changed when `neg` holds. -/
def signed (neg : Bool) (n : Nat) : Int :=
  if neg then -(n : Int) else (n : Int)

/-- The integer part of a finite value; `none` for the others. -/
def truncate? : Binary64 → Option Int
  | .finite neg m e =>
    let (n, d) := ratio m e
    some (signed neg (n / d))
  | _ => none

/-- How a double compares with an integer; `none` for what is not a number. -/
def compareInt : Binary64 → Int → Option Ordering
  | .nan, _ => none
  | .inf true, _ => some .lt
  | .inf false, _ => some .gt
  | .finite neg m e, k =>
    let (n, d) := ratio m e
    some (compare (signed neg n) (k * (d : Int)))

/-- The double equals the integer. -/
def eqInt (x : Binary64) (k : Int) : Bool :=
  x.compareInt k == some .eq

/-- The value is positive or negative zero. -/
def isZero : Binary64 → Bool
  | .finite _ m _ => m == 0
  | _ => false

/-- Two doubles stand for the same key of a table: equal values, where both
zeros are one and what is not a number equals itself. -/
def sameKey : Binary64 → Binary64 → Bool
  | .nan, .nan => true
  | .inf a, .inf b => a == b
  | .finite s m e, .finite t n f =>
    (m == 0 && n == 0) || (s == t && m == n && e == f)
  | _, _ => false

end Binary64

end Kismet
