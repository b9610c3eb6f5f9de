import Kismet.Binary64.Basic
set_option autoImplicit false

/-!
# Binary64: the shortest decimal text

A double prints with the fewest significant digits that read back as the same
double.  For each number of digits the value has two neighbours on the decimal
grid; the first grid with a neighbour inside the interval of reals that round to
the double decides.  Where the digits stand is a matter of `Style`.
-/

namespace Kismet.Binary64

/-! ## Digits -/

/-- `digits * 10 ^ exponent`. -/
structure Decimal where
  digits : Nat
  exponent : Int
  deriving DecidableEq, Repr, Inhabited

/-- The power of ten of the leading digit of `num / den`. -/
def leadingPower (num den : Nat) : Int :=
  if den ≤ num then ((Nat.toDigits 10 (num / den)).length : Int) - 1
  else
    let k := (Nat.toDigits 10 (den / num)).length - 1
    if den ≤ num * Nat.pow 10 k then -(k : Int) else -(k : Int) - 1

/-- `c * 10 ^ q` measured in quarters of `2 ^ e`, both sides multiplied out to
naturals: the first component stands for the decimal, the second is the factor
of a count of quarters. -/
def quarterScale (q e : Int) : Nat × Nat :=
  let e' := e - 2
  let decimal := Nat.pow 10 q.toNat * Nat.pow 2 (-e').toNat
  let quarter := Nat.pow 10 (-q).toNat * Nat.pow 2 e'.toNat
  (decimal, quarter)

/-- The neighbour of `m * 2 ^ e` on the grid of multiples of `10 ^ q` that reads
back as that double: the nearer one, and of two equally near the even one. -/
def nearestOnGrid? (m : Nat) (e q : Int) : Option Nat :=
  let (decimal, quarter) := quarterScale q e
  let value := 4 * m * quarter
  let upper := (4 * m + 2) * quarter
  let lower := (if m = Nat.pow 2 (precision - 1) ∧ minExponent < e then 4 * m - 1 else 4 * m - 2)
    * quarter
  let inside (c : Nat) : Bool :=
    if m % 2 = 0 then decide (lower ≤ c * decimal) && decide (c * decimal ≤ upper)
    else decide (lower < c * decimal) && decide (c * decimal < upper)
  let below := value / decimal
  let above := below + 1
  match inside below, inside above with
  | true, true =>
    let down := value - below * decimal
    let up := above * decimal - value
    if down < up then some below
    else if up < down then some above
    else some (below + below % 2)
  | true, false => some below
  | false, true => some above
  | false, false => none

/-- The shortest decimal that reads back as `m * 2 ^ e`, for `m` not zero. -/
def shortestDecimal (m : Nat) (e : Int) : Decimal :=
  let (num, den) := ratio m e
  let top := leadingPower num den
  let found := (List.range 17).findSome? fun (i : Nat) =>
    let q := top - (i : Int)
    (nearestOnGrid? m e q).map fun c => Decimal.mk c q
  found.getD ⟨0, 0⟩

/-- The significant digits without trailing zeros, at least one. -/
def significant (digits : Nat) : List Char :=
  match ((Nat.toDigits 10 digits).reverse.dropWhile (· == '0')).reverse with
  | [] => ['0']
  | cs => cs

/-! ## Text -/

/-- How the digits of a double are laid out. -/
structure Style where
  /-- Least power of ten of the leading digit that is written positionally. -/
  lowestPositional : Int
  /-- First power of ten of the leading digit that is written with an exponent. -/
  firstScientific : Int
  /-- Least number of digits of an exponent. -/
  exponentWidth : Nat
  /-- Text of an infinity, without sign. -/
  infinity : String
  /-- Text of what is not a number. -/
  notANumber : String
  deriving Repr, Inhabited

/-- Positional from `1e-4` up to but not including `1e16`, whole numbers with
one zero after the point, exponents signed and of two digits at least. -/
def plainStyle : Style := ⟨-4, 16, 2, "inf", "nan"⟩

/-- `n` in decimal, filled with zeros on the left to `width` digits. -/
def paddedDecimal (width n : Nat) : List Char :=
  let cs := Nat.toDigits 10 n
  List.replicate (width - cs.length) '0' ++ cs

/-- The digits `cs`, of which the first stands for `10 ^ power`, in `style`. -/
def Style.layout (style : Style) (cs : List Char) (power : Int) : List Char :=
  if power < style.lowestPositional ∨ style.firstScientific ≤ power then
    let fraction := cs.drop 1
    let mantissa := if fraction.isEmpty then cs else cs.take 1 ++ '.' :: fraction
    let sign := if power < 0 then '-' else '+'
    mantissa ++ 'e' :: sign :: paddedDecimal style.exponentWidth power.natAbs
  else if power < 0 then
    '0' :: '.' :: (List.replicate (-power - 1).toNat '0' ++ cs)
  else
    let whole := power.toNat + 1
    let front := cs.take whole ++ List.replicate (whole - cs.length) '0'
    let back := cs.drop whole
    front ++ '.' :: (if back.isEmpty then ['0'] else back)

/-- The text of a double in `style`. -/
def Style.write (style : Style) : Binary64 → String
  | .nan => style.notANumber
  | .inf neg => (if neg then "-" else "") ++ style.infinity
  | .finite neg m e =>
    let sign := if neg then "-" else ""
    if m = 0 then sign ++ String.ofList (style.layout ['0'] 0)
    else
      let d := shortestDecimal m e
      let power := d.exponent + ((Nat.toDigits 10 d.digits).length : Int) - 1
      sign ++ String.ofList (style.layout (significant d.digits) power)

/-- The shortest text that reads back as the double. -/
def display (x : Binary64) : String :=
  plainStyle.write x

end Kismet.Binary64
