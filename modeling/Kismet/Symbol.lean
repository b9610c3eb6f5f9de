import Kismet.Datum
set_option autoImplicit false

/-!
# Symbol: names of properties and objects

Scripts refer to properties by a path of names and to objects by name and outer
object.
-/

namespace Kismet

/-- A property by the path of names that leads to it. -/
structure PropertyPath where
  segments : List String
  deriving DecidableEq, Repr, Inhabited

namespace PropertyPath

/-- The names of the path with a point between them. -/
def display (p : PropertyPath) : String :=
  ".".intercalate p.segments

/-- The path that a text with points stands for. -/
def ofText (s : String) : PropertyPath :=
  ⟨Text.cut '.' s⟩

/-- A path given as the sequence of its segments. -/
def ofParts (d : Document) : Except Fault PropertyPath :=
  d.parts.map fun ps => ⟨ps.map Document.display⟩

/-- A path given as a text, as a sequence of segments, or as an object that
holds either under `path`; `none` if it is absent. -/
def decode : Document → Except Fault (Option PropertyPath)
  | .null => .ok none
  | .text s => .ok (some (ofText s))
  | .object fields =>
    match Fields.getOrNull fields "path" with
    | .null => .ok none
    | d => (ofParts d).map some
  | d => (ofParts d).map some

end PropertyPath

/-- An object by its name and, if it has one, its outer object. -/
structure ObjectRef where
  name : Datum
  outer : Datum
  deriving Repr, Inhabited

namespace ObjectRef

/-- The name of the object, after its outer object if it has one. -/
def qualified (r : ObjectRef) : Datum :=
  if r.outer.holds then .document (.text (r.outer.display ++ "::" ++ r.name.display)) else r.name

/-- The name of the object, after its outer object, can be shown. -/
def isShowable (r : ObjectRef) : Bool :=
  r.name.isShowable && (!r.outer.holds || r.outer.isShowable)

/-- An object given by name, or as an object with `name` and `outer`; `none` if
it is absent. -/
def decode : Document → Except Fault (Option ObjectRef)
  | .null => .ok none
  | .text s => .ok (some ⟨.document (.text s), .null⟩)
  | .object fields =>
    match Fields.get? fields "name" with
    | some name => .ok (some ⟨.document name, .document (Fields.getOrNull fields "outer")⟩)
    | none => .error (.missingKey "name")
  | _ => .error .wrongKind

end ObjectRef

end Kismet
