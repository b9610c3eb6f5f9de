import Kismet.Binary64.Shortest
import Kismet.Document.Basic
import Kismet.Text.Numeral
import Kismet.Text.Quoted
set_option autoImplicit false

/-!
# Document: display

Documents appear in listings, reports and messages.  A text shows as itself, or
quoted where it has to be told from other data; parts of lists and objects are
always quoted.  A document with a whole number of too many digits cannot be shown.
-/

namespace Kismet

/-- How the scalars that are words show. -/
def truthText (b : Bool) : String :=
  if b then "True" else "False"

/-- The display of a scalar, texts quoted. -/
def Scalar.inspect : Scalar → String
  | .null => "None"
  | .bool b => truthText b
  | .int n => toString n
  | .real x => x.display
  | .text s => Text.quoted s

/-- The display of a scalar. -/
def Scalar.display : Scalar → String
  | .text s => s
  | s => s.inspect

namespace Document

mutual

/-- The display of a document as part of another one. -/
def inspect : Document → String
  | .scalar s => s.inspect
  | .list items => "[" ++ ", ".intercalate (inspectItems items) ++ "]"
  | .object fields => "\x7b" ++ ", ".intercalate (inspectFields fields) ++ "\x7d"

/-- The displays of the items of a list. -/
def inspectItems : List Document → List String
  | [] => []
  | d :: rest => d.inspect :: inspectItems rest

/-- The displays of the fields of an object. -/
def inspectFields : List (String × Document) → List String
  | [] => []
  | (k, d) :: rest => (Text.quoted k ++ ": " ++ d.inspect) :: inspectFields rest

end

/-- The display of a document. -/
def display : Document → String
  | .scalar s => s.display
  | d => d.inspect

/-- The display of a document that is there. -/
def display? (d : Document) : Option String :=
  if d.isNull then none else some d.display

mutual

/-- All whole numbers in the document can be written. -/
def isShowable : Document → Bool
  | .scalar (.int n) => Text.Numeral.isWritable n
  | .scalar _ => true
  | .list items => areShowable items
  | .object fields => haveShowable fields

/-- All whole numbers in the items of a list can be written. -/
def areShowable : List Document → Bool
  | [] => true
  | d :: rest => d.isShowable && areShowable rest

/-- All whole numbers in the fields of an object can be written. -/
def haveShowable : List (String × Document) → Bool
  | [] => true
  | (_, d) :: rest => d.isShowable && haveShowable rest

end

end Document

end Kismet
