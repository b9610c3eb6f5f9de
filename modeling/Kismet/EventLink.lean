import Kismet.Instr.Basic
set_option autoImplicit false

/-!
# EventLink: events that continue in an event graph

The body of an event is a stub: a call of the event graph with one constant, the
offset in the graph where the event continues.
-/

namespace Kismet

/-- A call of a function of the same object with one constant. -/
structure StubCall where
  tag : Tag
  function : Slot ObjectRef
  /-- The tag of the constant. -/
  constantTag : Tag
  constant : Datum

/-- The instruction that makes the call. -/
def StubCall.instr (c : StubCall) : Instr :=
  .mk c.tag (.finalCall c.function (.list [.instr (.mk c.constantTag (.literal c.constant))]))

/-- An event and the call in its stub. -/
structure EventLink where
  name : Document
  call : Instr
  deriving Inhabited

namespace EventLink

/-- The constant that a call forwards, if it has exactly one parameter and that
is a literal. -/
def forwarded? (call : Instr) : Option Datum :=
  match call.body.parameters? with
  | some (.list [.instr (.mk _ (.literal value))]) => some value
  | _ => none

/-- The link for an event and a call, which has to forward one constant. -/
def ofCall (name : Document) (call : Instr) : Except Fault EventLink :=
  match call.body.parameters? with
  | none => .error .noMember
  | some .unusable => .error .wrongKind
  | some (.list _) =>
    match forwarded? call with
    | some _ => .ok ⟨name, call⟩
    | none => .error (.notForwarding name)

/-- The stub call that forwards a constant. -/
def stub (target : Document) : Instr :=
  .mk (.code Opcode.localFinalFunction.code)
    (.finalCall .empty
      (.list [.instr (.mk (.code Opcode.intConst.code) (.literal (.document target)))]))

/-- The link for an event that continues at a given target. -/
def toTarget (name target : Document) : EventLink :=
  ⟨name, stub target⟩

/-- The offset where the event continues. -/
def offset (link : EventLink) : Except Fault Int :=
  match forwarded? link.call with
  | some target => target.toInt
  | none => .error .badValue

end EventLink

/-- Event links by the offset where the event continues, each offset once. -/
structure EventIndex where
  entries : List (Int × EventLink) := []
  deriving Inhabited

namespace EventIndex

/-- The link to an offset. -/
def find? (index : EventIndex) (offset : Int) : Option EventLink :=
  (index.entries.find? fun e => e.1 == offset).map (·.2)

/-- Adds a link; an earlier one to the same offset gives way. -/
def insert (index : EventIndex) (offset : Int) (link : EventLink) : EventIndex :=
  ⟨(offset, link) :: index.entries.filter fun e => e.1 != offset⟩

/-- Adds links in order. -/
def insertAll (index : EventIndex) : List EventLink → Except Fault EventIndex
  | [] => .ok index
  | link :: rest =>
    match link.offset with
    | .error f => .error f
    | .ok offset => (index.insert offset link).insertAll rest

/-- The index of links; the last one to an offset counts. -/
def ofLinks (links : List EventLink) : Except Fault EventIndex :=
  insertAll {} links

end EventIndex

end Kismet
