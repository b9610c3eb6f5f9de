import Kismet.Binary64.Basic
set_option autoImplicit false

/-!
# Document: structured data

A document is a scalar, a list, or an object whose fields keep their order.
Asset files hold one document each, and operands that have no type of their own
stay documents all the way to the listing.  Documents may be nested to any depth; how
deep a reader can follow them is given by `Limits`.
-/

namespace Kismet

/-- Data without parts.  Whole and real numbers are different things. -/
inductive Scalar where
  | null
  | bool (b : Bool)
  | int (n : Int)
  | real (x : Binary64)
  | text (s : String)
  deriving DecidableEq, Repr, Inhabited

/-- Structured data. -/
inductive Document where
  | scalar (s : Scalar)
  | list (items : List Document)
  | object (fields : List (String × Document))
  deriving Repr, Inhabited

/-- The fields of an object, in order. -/
abbrev Fields := List (String × Document)

namespace Document

/-- The absent value. -/
@[match_pattern] abbrev null : Document := .scalar .null
/-- A truth value. -/
@[match_pattern] abbrev bool (b : Bool) : Document := .scalar (.bool b)
/-- A whole number. -/
@[match_pattern] abbrev int (n : Int) : Document := .scalar (.int n)
/-- A real number. -/
@[match_pattern] abbrev real (x : Binary64) : Document := .scalar (.real x)
/-- A text. -/
@[match_pattern] abbrev text (s : String) : Document := .scalar (.text s)

mutual

/-- How deeply a document is nested; a scalar has depth zero. -/
def depth : Document → Nat
  | .scalar _ => 0
  | .list items => itemsDepth items + 1
  | .object fields => fieldsDepth fields + 1

/-- The greatest depth of the items of a list. -/
def itemsDepth : List Document → Nat
  | [] => 0
  | d :: rest => max d.depth (itemsDepth rest)

/-- The greatest depth of the values of an object. -/
def fieldsDepth : List (String × Document) → Nat
  | [] => 0
  | (_, d) :: rest => max d.depth (fieldsDepth rest)

end

end Document

/-- How deep documents can be read, where there is an end to it. -/
structure Limits where
  /-- The number of lists and objects that may be open at once in the text of a
  document. -/
  brackets : Option Nat := none
  /-- The number of fields, values or instructions that may stand inside each other. -/
  levels : Option Nat := none
  deriving DecidableEq, Repr, Inhabited

namespace Document

/-- The number of levels to which a document is read: as many as it has, unless there is
a limit. -/
def room (d : Document) (limits : Limits) : Nat :=
  limits.levels.getD (d.depth + 1)

/-- The document is absent. -/
def isNull : Document → Bool
  | .null => true
  | _ => false

/-- The document is the text `s`. -/
def isText (d : Document) (s : String) : Bool :=
  match d with
  | .text t => t == s
  | _ => false

/-- Absent, false, zero and empty documents do not hold; all others do. -/
def holds : Document → Bool
  | .null => false
  | .bool b => b
  | .int n => n != 0
  | .real x => !x.isZero
  | .text s => !s.isEmpty
  | .list items => !items.isEmpty
  | .object fields => !fields.isEmpty

end Document

namespace Fields

/-- The value of a field. -/
def get? (fields : Fields) (key : String) : Option Document :=
  (fields.find? fun f => f.1 == key).map (·.2)

/-- The value of a field, absent if there is none. -/
def getOrNull (fields : Fields) (key : String) : Document :=
  (get? fields key).getD .null

/-- The object has the field. -/
def has (fields : Fields) (key : String) : Bool :=
  fields.any fun f => f.1 == key

/-- Sets a field: in place if it is there, else at the end. -/
def set (fields : Fields) (key : String) (value : Document) : Fields :=
  if has fields key then fields.map fun f => if f.1 == key then (key, value) else f
  else fields ++ [(key, value)]

/-- The names of the fields. -/
def keys (fields : Fields) : List String :=
  fields.map (·.1)

end Fields

end Kismet
