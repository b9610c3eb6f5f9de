import Kismet.Text.Search
set_option autoImplicit false

/-!
# Path: names of files and directories

A path is a sequence of segments, relative or from the root.  Empty segments and
`.` have no meaning and are dropped; `..` is kept, since what it leads to depends
on the files.
-/

namespace Kismet

/-- A path. -/
structure Path where
  /-- Slashes in front: none, one, or exactly two, which are kept apart. -/
  root : String
  segments : List String
  deriving DecidableEq, Repr, Inhabited

namespace Path

/-- The slashes that a text begins with. -/
def rootOf (cs : List Char) : String :=
  match (cs.takeWhile (· == '/')).length with
  | 0 => ""
  | 2 => "//"
  | _ => "/"

/-- The path that a text stands for. -/
def ofText (s : String) : Path where
  root := rootOf s.toList
  segments := (Text.cut '/' s).filter fun x => x != "" && x != "."

/-- The path starts at the root. -/
def isAbsolute (p : Path) : Bool :=
  p.root != ""

/-- The text of a path. -/
def display (p : Path) : String :=
  if p.root = "" ∧ p.segments = [] then "." else p.root ++ "/".intercalate p.segments

/-- The path `q` as seen from `p`. -/
def join (p q : Path) : Path :=
  if q.isAbsolute then q else ⟨p.root, p.segments ++ q.segments⟩

/-- The path of a name as seen from `p`. -/
def child (p : Path) (name : String) : Path :=
  p.join (ofText name)

/-- The last segment, empty if there is none. -/
def name (p : Path) : String :=
  p.segments.getLast?.getD ""

/-- The position of the last point of a name, unless it is the first or last
character. -/
def suffixStart? (cs : List Char) : Option Nat :=
  match Text.beforeLast? ['.'] cs with
  | none => none
  | some front =>
    if 0 < front.length ∧ front.length + 1 < cs.length then some front.length else none

/-- A name without its suffix. -/
def stemOf (name : String) : String :=
  match suffixStart? name.toList with
  | some i => String.ofList (name.toList.take i)
  | none => name

/-- The last segment without its suffix. -/
def stem (p : Path) : String :=
  stemOf p.name

/-- The path with another suffix of its last segment, which is not empty. -/
def withSuffix (p : Path) (suffix : String) : Path :=
  { p with segments := p.segments.dropLast ++ [stemOf p.name ++ suffix] }

end Path

end Kismet
