import Kismet.Document.Convert
set_option autoImplicit false

/-!
# Enumeration: named numbers

An enumeration names whole numbers.  The names of some enumerations begin with a
common mark, which input may leave out and output may drop.
-/

namespace Kismet

/-- Named numbers. -/
structure Enumeration where
  /-- The name of the enumeration in messages. -/
  name : String
  /-- What the names of its members begin with. -/
  mark : String
  /-- The members in order. -/
  members : List (String × Nat)
  deriving Repr, Inhabited

namespace Enumeration

/-- The number of a member. -/
def value? (e : Enumeration) (member : String) : Option Nat :=
  (e.members.find? fun m => m.1 == member).map (·.2)

/-- The name of the first member equal to a document. -/
def nameOf? (e : Enumeration) (d : Document) : Option String :=
  (e.members.find? fun m => d.eqInt m.2).map (·.1)

/-- The name of the member, or the display of what is none. -/
def label (e : Enumeration) (d : Document) : String :=
  (e.nameOf? d).getD d.display

/-- A member given by name or number, as a number. -/
def decode (e : Enumeration) : Document → Except Fault Int
  | .text s =>
    match e.value? s with
    | some n => .ok n
    | none => .error (.unknownMember e.name s)
  | d => d.toInt

end Enumeration

/-! ## Operand enumerations -/

/-- Kinds of primitive conversions. -/
def castTokens : Enumeration where
  name := "CastToken"
  mark := ""
  members :=
    [("ObjectToInterface", 0x46), ("ObjectToBool", 0x47), ("InterfaceToBool", 0x49),
     ("Max", 0xFF)]

/-- How a text constant is stored. -/
def textLiteralTypes : Enumeration where
  name := "TextLiteralType"
  mark := ""
  members :=
    [("Empty", 0x0), ("LocalizedText", 0x1), ("InvariantText", 0x2),
     ("LiteralString", 0x3), ("StringTableEntry", 0x4)]

/-- Kinds of instrumentation events. -/
def instrumentationTypes : Enumeration where
  name := "InstrumentationType"
  mark := ""
  members :=
    [("Class", 0x0), ("ClassScope", 0x1), ("Instance", 0x2),
     ("Event", 0x3), ("InlineEvent", 0x4), ("ResumeEvent", 0x5),
     ("PureNodeEntry", 0x6), ("NodeDebugSite", 0x7), ("NodeEntry", 0x8),
     ("NodeExit", 0x9), ("PushState", 0xA), ("RestoreState", 0xB),
     ("ResetState", 0xC), ("SuspendState", 0xD), ("PopState", 0xE),
     ("TunnelEndOfThread", 0xF), ("Stop", 0x10)]

end Kismet
