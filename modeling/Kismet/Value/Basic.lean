import Kismet.Document.Convert
set_option autoImplicit false

/-!
# Value: stored property values

A property value is a scalar or a container of values.  Containers are given as
objects that say by their keys what they hold; a plain list is an array.
-/

namespace Kismet

/-- A property value. -/
inductive Value where
  /-- Data without parts. -/
  | leaf (s : Scalar)
  /-- A structure with its named members. -/
  | struct (type : Document) (members : List (Document × Value))
  /-- A structure whose members are not known. -/
  | unresolved (type : Document)
  /-- An array. -/
  | array (items : List Value)
  /-- A set. -/
  | set (items : List Value)
  /-- A map. -/
  | map (entries : List (Value × Value))
  deriving Repr, Inhabited

namespace Value

/-- A named value, its value read by `self`. -/
def decodeMember (self : Document → Except Fault Value) (d : Document) :
    Except Fault (Document × Value) :=
  match d with
  | .object fields =>
    match Fields.get? fields "name" with
    | none => .error (.missingKey "name")
    | some name => (self (Fields.getOrNull fields "value")).map fun v => (name, v)
  | _ => .error .wrongKind

/-- An entry of a map, its key and value read by `self`. -/
def decodeEntry (self : Document → Except Fault Value) (d : Document) :
    Except Fault (Value × Value) :=
  match d.pair with
  | .error f => .error f
  | .ok (k, v) =>
    match self k with
    | .error f => .error f
    | .ok key => (self v).map fun value => (key, value)

/-- The parts of a document, each read by `read`. -/
def decodeParts {α : Type} (read : Document → Except Fault α) (d : Document) :
    Except Fault (List α) :=
  match d.parts with
  | .error f => .error f
  | .ok ps => ps.mapM read

/-- The value that an object stands for, its parts read by `self`.  The keys
`struct`, `array`, `set` and `map` are looked for in this order. -/
def decodeObject (self : Document → Except Fault Value) (fields : Fields) :
    Except Fault Value :=
  match Fields.get? fields "struct" with
  | some type =>
    if (Fields.getOrNull fields "opaque").holds then .ok (.unresolved type)
    else
      (decodeParts (decodeMember self) ((Fields.get? fields "properties").getD (.list []))).map
        fun members => .struct type members
  | none =>
    match Fields.get? fields "array" with
    | some d => (decodeParts self d).map .array
    | none =>
      match Fields.get? fields "set" with
      | some d => (decodeParts self d).map .set
      | none =>
        match Fields.get? fields "map" with
        | some d => (decodeParts (decodeEntry self) d).map .map
        | none =>
          let keys := (Fields.keys fields).mergeSort fun a b => decide (a ≤ b)
          .error (.unrecognisedValue keys)

/-- One level of a value, its parts read by `self`. -/
def decodeStep (self : Document → Except Fault Value) : Document → Except Fault Value
  | .scalar s => .ok (.leaf s)
  | .list items => (items.mapM self).map .array
  | .object fields => decodeObject self fields

/-- The value of a document, looking at most `bound` levels deep. -/
def decodeWithin : Nat → Document → Except Fault Value
  | 0, _ => .error .tooNested
  | bound + 1, d => decodeStep (decodeWithin bound) d

/-- The value that a document stands for. -/
def decode (d : Document) : Except Fault Value :=
  decodeWithin (d.depth + 1) d

end Value

end Kismet
