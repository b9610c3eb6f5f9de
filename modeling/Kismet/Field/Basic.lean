import Kismet.Flags
set_option autoImplicit false

/-!
# Field: reflected fields

Classes and functions declare fields.  A field's kind is the name of its field
class; which of the other operands matter depends on the kind.
-/

namespace Kismet

/-- A declared field. -/
structure Field where
  /-- The name of the field's class. -/
  kind : Document
  name : Document
  flags : Int
  propertyFlags : Word
  /-- What an array holds. -/
  inner : Option Field
  /-- The keys of a map. -/
  key : Option Field
  /-- The values of a map. -/
  value : Option Field
  /-- What a set holds. -/
  element : Option Field
  /-- The signature of a delegate. -/
  signature : Document
  /-- The class of an object, interface or field path. -/
  className : Document
  /-- The class that a class reference is limited to. -/
  metaClass : Document
  enum : Document
  struct : Document
  deriving Repr, Inhabited

namespace Field

/-- One level of a field, the fields inside it read by `self`. -/
def decodeStep (self : Document → Except Fault (Option Field)) :
    Document → Except Fault (Option Field)
  | .null => .ok none
  | .object fields => do
    let kind ← Document.item (.object fields) "kind"
    let flags ← ((Fields.get? fields "flags").getD (.int 0)).toInt
    let propertyFlags ← Kismet.propertyFlags.parse (Fields.getOrNull fields "property_flags")
    let inner ← self (Fields.getOrNull fields "inner")
    let key ← self (Fields.getOrNull fields "key")
    let value ← self (Fields.getOrNull fields "value")
    let element ← self (Fields.getOrNull fields "element")
    return some {
      kind, flags, propertyFlags, inner, key, value, element
      name := (Fields.get? fields "name").getD (.text "")
      signature := Fields.getOrNull fields "signature"
      className := Fields.getOrNull fields "class_name"
      metaClass := Fields.getOrNull fields "meta_class"
      enum := Fields.getOrNull fields "enum"
      struct := Fields.getOrNull fields "struct" }
  | _ => .error .wrongKind

/-- The field of a document, looking at most `bound` levels deep. -/
def decodeWithin : Nat → Document → Except Fault (Option Field)
  | 0, _ => .error .tooNested
  | bound + 1, d => decodeStep (decodeWithin bound) d

/-- The field that a document describes; `none` if it is absent. -/
def decode (d : Document) : Except Fault (Option Field) :=
  decodeWithin (d.depth + 1) d

end Field

end Kismet
