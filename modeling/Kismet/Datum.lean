import Kismet.Enumeration
set_option autoImplicit false

/-!
# Datum: anything that can stand in the place of an operand

Operands read from documents are documents.  Those of trees put together by hand
may also be fixed sequences and records, which show differently and cannot be
used as numbers.
-/

namespace Kismet

/-- Data in the place of an operand. -/
inductive Datum where
  | document (d : Document)
  /-- A fixed sequence. -/
  | tuple (items : List Datum)
  /-- Named data under a title. -/
  | record (title : String) (fields : List (String × Datum))
  deriving Repr, Inhabited

instance : Coe Document Datum := ⟨.document⟩

namespace Datum

/-- The absent datum. -/
@[match_pattern] abbrev null : Datum := .document .null

/-! ## Display -/

/-- The displays of the items of a fixed sequence in brackets; a single item is
followed by a comma. -/
def tupleText : List String → String
  | [s] => "(" ++ s ++ ",)"
  | ss => "(" ++ ", ".intercalate ss ++ ")"

mutual

/-- The display of a datum as part of another one. -/
def inspect : Datum → String
  | .document d => d.inspect
  | .tuple items => tupleText (inspectItems items)
  | .record title fields => title ++ "(" ++ ", ".intercalate (inspectFields fields) ++ ")"

/-- The displays of the items of a sequence. -/
def inspectItems : List Datum → List String
  | [] => []
  | d :: rest => d.inspect :: inspectItems rest

/-- The displays of the fields of a record. -/
def inspectFields : List (String × Datum) → List String
  | [] => []
  | (name, d) :: rest => (name ++ "=" ++ d.inspect) :: inspectFields rest

end

/-- The display of a datum. -/
def display : Datum → String
  | .document d => d.display
  | d => d.inspect

/-- The datum is absent. -/
def isNull : Datum → Bool
  | .document d => d.isNull
  | _ => false

mutual

/-- All whole numbers in the datum can be written. -/
def isShowable : Datum → Bool
  | .document d => d.isShowable
  | .tuple items => areShowable items
  | .record _ fields => haveShowable fields

/-- All whole numbers in the items of a sequence can be written. -/
def areShowable : List Datum → Bool
  | [] => true
  | d :: rest => d.isShowable && areShowable rest

/-- All whole numbers in the fields of a record can be written. -/
def haveShowable : List (String × Datum) → Bool
  | [] => true
  | (_, d) :: rest => d.isShowable && haveShowable rest

end

/-- The display of a datum that is there. -/
def display? (d : Datum) : Option String :=
  if d.isNull then none else some d.display

/-- The display of a datum, if it can be shown. -/
def shown (d : Datum) : Except Fault String :=
  if d.isShowable then .ok d.display else .error .badValue

/-- The display of a datum that is there, if it can be shown. -/
def shown? (d : Datum) : Except Fault (Option String) :=
  if d.isShowable then .ok d.display? else .error .badValue

/-! ## Use -/

/-- The datum counts as true. -/
def holds : Datum → Bool
  | .document d => d.holds
  | .tuple items => !items.isEmpty
  | .record _ _ => true

/-- The use of a datum that has to be a document. -/
def withDocument {α : Type} (d : Datum) (use : Document → Except Fault α) : Except Fault α :=
  match d with
  | .document d => use d
  | _ => .error .wrongKind

/-- The datum as a whole number. -/
def toInt (d : Datum) : Except Fault Int :=
  d.withDocument Document.toInt

/-- The datum as a real number. -/
def toReal (d : Datum) : Except Fault Binary64 :=
  d.withDocument Document.toReal

/-- The datum as a number with one to four places. -/
def brief (d : Datum) : Except Fault String :=
  d.withDocument Document.brief

/-- The datum as an address. -/
def address (d : Datum) : Except Fault String :=
  d.withDocument Document.address

/-- The datum is the whole number `k`. -/
def eqInt (d : Datum) (k : Int) : Bool :=
  match d with
  | .document d => d.eqInt k
  | _ => false

/-- The parts of a datum in order; a record has none. -/
def parts : Datum → Except Fault (List Datum)
  | .document d => d.parts.map (List.map .document)
  | .tuple items => .ok items
  | .record _ _ => .error .wrongKind

/-- All of the data as texts; any other datum among them is a fault. -/
def texts : List Datum → Except Fault (List String)
  | [] => .ok []
  | .document (.text s) :: rest => (texts rest).map (s :: ·)
  | _ :: _ => .error .wrongKind

mutual

/-- The datum can be a key of a table. -/
def isKey : Datum → Bool
  | .document d => d.isKey
  | .tuple items => areKeys items
  | .record _ fields => haveKeys fields

/-- All items can be keys. -/
def areKeys : List Datum → Bool
  | [] => true
  | d :: rest => d.isKey && areKeys rest

/-- The data of all fields can be keys. -/
def haveKeys : List (String × Datum) → Bool
  | [] => true
  | (_, d) :: rest => d.isKey && haveKeys rest

end

mutual

/-- How deep a datum is nested. -/
def depth : Datum → Nat
  | .document _ => 0
  | .tuple items => depthOfItems items + 1
  | .record _ fields => depthOfFields fields + 1

/-- The greatest depth of the items of a sequence. -/
def depthOfItems : List Datum → Nat
  | [] => 0
  | d :: rest => max d.depth (depthOfItems rest)

/-- The greatest depth of the fields of a record. -/
def depthOfFields : List (String × Datum) → Nat
  | [] => 0
  | (_, d) :: rest => max d.depth (depthOfFields rest)

end

end Datum

/-- The name of the member that a datum is, or the display of what is none. -/
def Enumeration.labelOf (e : Enumeration) (d : Datum) : Except Fault String :=
  match d with
  | .document m =>
    match e.nameOf? m with
    | some name => .ok name
    | none => d.shown
  | d => d.shown

end Kismet
