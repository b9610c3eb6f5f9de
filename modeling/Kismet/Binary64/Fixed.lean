import Kismet.Binary64.Basic
set_option autoImplicit false

/-!
# Binary64: text with a fixed number of places

Coordinates and float constants print with four places, rounded on the exact
value with halves going to the even neighbour, and then lose trailing zeros down
to one place.
-/

namespace Kismet.Binary64

/-- Places of the fixed text. -/
def places : Nat := 4

/-- The magnitude `m * 2 ^ e` in units of the last place, rounded. -/
def lastPlaceUnits (m : Nat) (e : Int) : Nat :=
  let (num, den) := ratio m e
  roundHalfEven (num * Nat.pow 10 places) den

/-- `n` in decimal, filled with zeros on the left to the number of places. -/
def fractionDigits (n : Nat) : List Char :=
  let cs := Nat.toDigits 10 n
  List.replicate (places - cs.length) '0' ++ cs

/-- The text with all four places; infinities and what is not a number have
none. -/
def fixedChars : Binary64 → List Char
  | .nan => ['n', 'a', 'n']
  | .inf neg => (if neg then ['-'] else []) ++ ['i', 'n', 'f']
  | .finite neg m e =>
    let units := lastPlaceUnits m e
    (if neg then ['-'] else []) ++ Nat.toDigits 10 (units / Nat.pow 10 places)
      ++ '.' :: fractionDigits (units % Nat.pow 10 places)

/-- A fixed text without trailing zeros, except one right after the point. -/
def trimPlaces (cs : List Char) : List Char :=
  if cs.contains '.' then
    match cs.reverse.dropWhile (· == '0') with
    | '.' :: rest => ('0' :: '.' :: rest).reverse
    | rest => rest.reverse
  else cs

/-- The text with one to four places. -/
def brief (x : Binary64) : String :=
  String.ofList (trimPlaces x.fixedChars)

end Kismet.Binary64
