import Kismet.Field.Basic
set_option autoImplicit false

/-!
# Field: type labels and roles

A field's type label spells out containers and names the classes, enumerations
and structures that it refers to.  A parameter is an output, an input, or else a
local.
-/

namespace Kismet

/-- The mark of the kinds that are properties. -/
def propertyMark : String := "Property"

/-- The label of a kind: what stands between its first letter and the mark of a
property.  Kinds without the mark are their own label. -/
def genericLabel (kind : String) : String :=
  match Text.indexOf? propertyMark.toList kind.toList with
  | some i => String.ofList ((kind.toList.take i).drop 1)
  | none => kind

/-- The label of a kind; only a text has one. -/
def genericLabelOf : Document → Except Fault String
  | .text kind => .ok (genericLabel kind)
  | _ => .error .noMember

/-- The kinds of delegates and what they are called. -/
def delegateKinds : List (String × String) :=
  [("FDelegateProperty", "Delegate"),
   ("FMulticastDelegateProperty", "Multicast Delegate"),
   ("FMulticastInlineDelegateProperty", "Multicast Inline Delegate"),
   ("FMulticastSparseDelegateProperty", "Multicast Delegate")]

/-- The kinds that refer to an object of a class. -/
def objectKinds : List String :=
  ["FObjectProperty", "FObjectPtrProperty", "FWeakObjectProperty", "FLazyObjectProperty",
   "FSoftObjectProperty"]

/-- `d` if it holds, else the text `s`. -/
def Document.orText (d : Document) (s : String) : Document :=
  if d.holds then d else .text s

namespace Field

/-- The label of a field that is not a container. -/
def plainLabel (f : Field) (kind : String) : Document :=
  if kind = "FByteProperty" then f.enum.orText "Byte"
  else if kind = "FEnumProperty" then f.enum.orText (genericLabel kind)
  else
    match delegateKinds.find? fun k => k.1 == kind with
    | some (_, title) => .text (f.signature.display ++ " (" ++ title ++ ")")
    | none =>
      if kind = "FFieldPathProperty" then .text (f.className.display ++ " field path")
      else if kind = "FInterfaceProperty" then .text (f.className.display ++ " interface")
      else if kind = "FClassProperty" ∨ kind = "FClassPtrProperty" then
        .text (f.metaClass.display ++ " Class")
      else if kind = "FSoftClassProperty" then .text (f.metaClass.display ++ " Class (soft)")
      else if objectKinds.contains kind then f.className.orText (genericLabel kind)
      else if kind = "FStructProperty" then f.struct.orText "Struct"
      else .text (genericLabel kind)

mutual

/-- The type label of a field. -/
def label : Field → Except Fault Document
  | ⟨kind, name, flags, propertyFlags, inner, key, value, element, signature, className,
      metaClass, enum, struct⟩ =>
    match kind with
    | .text k =>
      if k = "FArrayProperty" then
        (labelOf inner).map fun t => .text ("Array<" ++ t.display ++ ">")
      else if k = "FSetProperty" then
        (labelOf element).map fun t => .text ("Set<" ++ t.display ++ ">")
      else if k = "FMapProperty" then
        match labelOf key with
        | .error f => .error f
        | .ok a => (labelOf value).map fun b =>
          .text ("Map<" ++ a.display ++ ", " ++ b.display ++ ">")
      else
        .ok (plainLabel ⟨kind, name, flags, propertyFlags, inner, key, value, element, signature,
          className, metaClass, enum, struct⟩ k)
    | .scalar _ => .error .noMember
    | _ => .error .wrongKind

/-- The type label of a field that may be missing. -/
def labelOf : Option Field → Except Fault Document
  | none => .ok (.text "None")
  | some f => label f

end

/-- The field is a property. -/
def isProperty (f : Field) : Except Fault Bool :=
  f.kind.mentions propertyMark

end Field

/-- What a report says about a field. -/
structure Descriptor where
  name : Document
  type : Document
  flags : Int
  propertyFlags : Option Word
  defaultText : Option String
  deriving Repr, Inhabited

/-- The description of a field; only properties have property flags. -/
def Field.describe (f : Field) : Except Fault Descriptor :=
  match f.isProperty with
  | .error e => .error e
  | .ok true => f.label.map fun type => ⟨f.name, type, f.flags, some f.propertyFlags, none⟩
  | .ok false =>
    (genericLabelOf f.kind).map fun type => ⟨f.name, .text type, f.flags, none, none⟩

/-- What a field of a function is for. -/
inductive Role where
  | input
  | output
  | localVariable
  deriving DecidableEq, Repr, Inhabited

namespace Role

/-- The title of the report section for the role. -/
def title : Role → String
  | .input => "Inputs"
  | .output => "Outputs"
  | .localVariable => "Locals"

/-- The role for the bits of a property's flags. -/
def ofBits (n : Int) : Role :=
  if Bits.areSet n 0x100 then .output
  else if Bits.areSet n 0x80 then .input
  else .localVariable

/-- The role for property flags, which may be missing. -/
def ofFlags (w : Option Word) : Role :=
  ofBits ((w.map Word.toInt).getD 0)

/-- The role for a document as property flags. -/
def ofDocument (d : Document) : Except Fault Role :=
  if d.holds then
    match d with
    | .int n => .ok (ofBits n)
    | .bool b => .ok (ofBits (truthInt b))
    | _ => .error .wrongKind
  else .ok (ofBits 0)

end Role

end Kismet
