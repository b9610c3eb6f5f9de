import Kismet.Binary64.Fixed
import Kismet.Fault
import Kismet.Text.Numeral
import Kismet.Text.Search
set_option autoImplicit false

/-!
# Document: use as a number, a sequence or a table

Operands are kept as they were given and converted where they are used.  Each
conversion says which documents it accepts and which fault the others cause.
-/

namespace Kismet

/-- A whole number as a double; one that is too large is a fault. -/
def Binary64.ofInt (n : Int) : Except Fault Binary64 :=
  match Binary64.ofInt? n with
  | some x => .ok x
  | none => .error .tooLarge

/-- One for true and zero for false. -/
def truthInt (b : Bool) : Int :=
  if b then 1 else 0

namespace Document

/-! ## Numbers -/

/-- The document as a whole number: real numbers lose their fraction, texts are
read. -/
def toInt : Document → Except Fault Int
  | .int n => .ok n
  | .bool b => .ok (truthInt b)
  | .real .nan => .error .badValue
  | .real x =>
    match x.truncate? with
    | some n => .ok n
    | none => .error .tooLarge
  | .text s =>
    match Text.Numeral.whole? s with
    | some n => .ok n
    | none => .error .badValue
  | _ => .error .wrongKind

/-- The document as a real number; texts are read. -/
def toReal : Document → Except Fault Binary64
  | .real x => .ok x
  | .int n => Binary64.ofInt n
  | .bool b => Binary64.ofInt (truthInt b)
  | .text s =>
    match Text.Numeral.real? s with
    | some x => .ok x
    | none => .error .badValue
  | _ => .error .wrongKind

/-- The document as a number with one to four places; texts are refused. -/
def brief : Document → Except Fault String
  | .real x => .ok x.brief
  | .int n => (Binary64.ofInt n).map Binary64.brief
  | .bool b => (Binary64.ofInt (truthInt b)).map Binary64.brief
  | .text _ => .error .badValue
  | _ => .error .wrongKind

/-- A whole number as an address: negative numbers wrap at 32 bits. -/
def addressText (n : Int) : String :=
  "0x" ++ Text.hex 0 (if n < 0 then n % 0x100000000 else n)

/-- The document as an address; only whole numbers have one. -/
def address : Document → Except Fault String
  | .int n => .ok (addressText n)
  | .bool b => .ok (addressText (truthInt b))
  | .real x => if x.compareInt 0 == some .lt then .error .wrongKind else .error .badValue
  | _ => .error .wrongKind

/-- The document is the whole number `k`; truth values and real numbers count by
their value. -/
def eqInt (d : Document) (k : Int) : Bool :=
  match d with
  | .int n => n == k
  | .bool b => truthInt b == k
  | .real x => x.eqInt k
  | _ => false

/-- The document is a number of at least `k`. -/
def atLeast (d : Document) (k : Int) : Except Fault Bool :=
  match d with
  | .int n => .ok (decide (k ≤ n))
  | .bool b => .ok (decide (k ≤ truthInt b))
  | .real x =>
    match x.compareInt k with
    | some .gt | some .eq => .ok true
    | _ => .ok false
  | _ => .error .wrongKind

/-! ## Sequences -/

/-- The characters of a text, each as a text. -/
def ofChars (s : String) : List Document :=
  s.toList.map fun c => .text (String.singleton c)

/-- The parts of a document in order: the items of a list, the characters of a
text, the keys of an object. -/
def parts : Document → Except Fault (List Document)
  | .list items => .ok items
  | .text s => .ok (ofChars s)
  | .object fields => .ok (fields.map fun f => .text f.1)
  | _ => .error .wrongKind

/-- The two parts of a document that has exactly two. -/
def pair (d : Document) : Except Fault (Document × Document) :=
  match d.parts with
  | .ok [a, b] => .ok (a, b)
  | .ok _ => .error .badValue
  | .error f => .error f

/-- All of the documents as texts; any other document among them is a fault. -/
def texts : List Document → Except Fault (List String)
  | [] => .ok []
  | .text s :: rest => (texts rest).map (s :: ·)
  | _ :: _ => .error .wrongKind

/-- The text `needle` occurs in the document: within a text, as an item of a
list, or as a key of an object. -/
def mentions (needle : String) : Document → Except Fault Bool
  | .text s => .ok (Text.occurs needle.toList s.toList)
  | .list items => .ok (items.any (·.isText needle))
  | .object fields => .ok (Fields.has fields needle)
  | _ => .error .wrongKind

/-! ## Tables -/

/-- The value of a field that has to be there. -/
def item (d : Document) (key : String) : Except Fault Document :=
  match d with
  | .object fields =>
    match Fields.get? fields key with
    | some v => .ok v
    | none => .error (.missingKey key)
  | _ => .error .wrongKind

/-- The fields of an object; other documents have none. -/
def fields : Document → Except Fault Fields
  | .object fs => .ok fs
  | _ => .error .noMember

/-- The document can be a key of a table. -/
def isKey : Document → Bool
  | .scalar _ => true
  | _ => false

/-- The scalars that count as numbers in comparisons of keys. -/
def Scalar.number? : Scalar → Option Int
  | .int n => some n
  | .bool b => some (truthInt b)
  | _ => none

/-- Two documents are the same key of a table; numbers count by their value. -/
def sameKey : Document → Document → Bool
  | .scalar a, .scalar b =>
    match Scalar.number? a, Scalar.number? b, a, b with
    | some m, some n, _, _ => m == n
    | some m, none, _, .real x => x.eqInt m
    | none, some n, .real x, _ => x.eqInt n
    | none, none, .real x, .real y => x.sameKey y
    | _, _, .null, .null => true
    | _, _, .text s, .text t => s == t
    | _, _, _, _ => false
  | _, _ => false

end Document

end Kismet
