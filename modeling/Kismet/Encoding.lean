import Kismet.Document.Convert
set_option autoImplicit false

/-!
# Encoding: switches that change the size of instructions

The encoding of scripts changed between versions of the file format.  An asset's
file versions determine the switches for all of its scripts.
-/

namespace Kismet

/-- How the scripts of an asset are encoded. -/
structure Encoding where
  /-- Coordinates take eight bytes instead of four. -/
  largeWorldCoordinates : Bool := false
  /-- An array assignment names its target by an expression. -/
  setArrayHasProperty : Bool := true
  deriving DecidableEq, Repr, Inhabited

namespace Encoding

/-- The file version from which on an array assignment has a target
expression. -/
def setArrayVersion : Int := 451

/-- The file version from which on coordinates are large. -/
def largeWorldVersion : Int := 1004

/-- Bytes of a coordinate. -/
def coordinateSize (e : Encoding) : Int :=
  if e.largeWorldCoordinates then 8 else 4

/-- The switches for the two file versions of an asset.  Without the first the
asset counts as current, without the second its coordinates are small. -/
def ofVersions (first second : Document) : Except Fault Encoding :=
  match (if first.isNull then .ok true else first.atLeast setArrayVersion) with
  | .error f => .error f
  | .ok setArray =>
    match (if second.isNull then .ok false else second.atLeast largeWorldVersion) with
    | .error f => .error f
    | .ok large => .ok ⟨large, setArray⟩

end Encoding

end Kismet
