set_option autoImplicit false

/-!
# Text: finding and cutting

Occurrences of one text in another, and texts cut at a separator.
-/

namespace Kismet.Text

/-- The position of the first occurrence of `needle` in `hay`. -/
def indexOf? (needle : List Char) : List Char → Option Nat
  | [] => if needle.isEmpty then some 0 else none
  | c :: rest =>
    if needle.isPrefixOf (c :: rest) then some 0
    else (indexOf? needle rest).map (· + 1)

/-- `needle` occurs in `hay`. -/
def occurs (needle hay : List Char) : Bool :=
  (indexOf? needle hay).isSome

/-- What stands before the last occurrence of `needle`, which is not empty;
`none` if there is no occurrence. -/
def beforeLast? (needle : List Char) : List Char → Option (List Char)
  | [] => none
  | c :: rest =>
    match beforeLast? needle rest with
    | some front => some (c :: front)
    | none => if needle.isPrefixOf (c :: rest) then some [] else none

/-- `hay` without the first `skip` characters and without the occurrences of
`needle` in the others, taken from the left without overlap. -/
def removeAfter (needle : List Char) : Nat → List Char → List Char
  | _, [] => []
  | skip + 1, _ :: rest => removeAfter needle skip rest
  | 0, c :: rest =>
    if needle.isPrefixOf (c :: rest) then removeAfter needle (needle.length - 1) rest
    else c :: removeAfter needle 0 rest

/-- `hay` without the occurrences of `needle`. -/
def removeAll (needle hay : String) : String :=
  String.ofList (removeAfter needle.toList 0 hay.toList)

/-- The pieces of a text between the separators; there is always one. -/
def cutAt (separator : Char) : List Char → List (List Char)
  | [] => [[]]
  | c :: rest =>
    if c = separator then [] :: cutAt separator rest
    else
      match cutAt separator rest with
      | [] => [[c]]
      | piece :: pieces => (c :: piece) :: pieces

/-- The pieces of a text between the separators. -/
def cut (separator : Char) (s : String) : List String :=
  (cutAt separator s.toList).map String.ofList

end Kismet.Text
