import Kismet.Listing.Layout
import Kismet.Listing.Line
set_option autoImplicit false

/-!
# Listing: from layouts to lines

The walk goes through a layout in order and keeps count of the bytes, so that
every instruction's line gets the offset at which the instruction begins.  In
front of an instruction at which an event continues stands a note with the name
of the event.

A walk is told how deep it is.  A pass goes through a layout in the same way, but
keeps count of the depth itself.
-/

namespace Kismet.Listing

/-- Instructions may be nested this deep, the top level counting as one. -/
def maxLevel : Nat := 256

/-- What a walk needs to know besides the layout. -/
structure Setting where
  /-- The event that continues at an offset. -/
  eventAt : Int → Option EventLink := fun _ => none
  /-- The name of the function. -/
  function : Document := .text ""
  /-- The function is an event. -/
  isEvent : Bool := false

/-- The note in front of an instruction at which an event continues. -/
def Setting.announce (s : Setting) (offset : Int) (d : Draft) : Draft :=
  match s.eventAt offset with
  | some link => d.note ("Event: " ++ link.name.display)
  | none => d

/-- The fault of an instruction at `offset` that is not accepted. -/
def Verdict.fault? (offset : Int) : Verdict → Option Fault
  | .accepted => none
  | .foreign | .nameless => some .noMember
  | .unsearchable => some .wrongKind
  | .terminator op => some (.strayTerminator op offset)
  | .unsupported shown => some (.unsupported shown offset)
  | .shapeless op => some (.missingShape op)
  | .misshapen op shape => some (.wrongShape op shape offset)

/-- The fault of a text constant of an unknown kind at `offset`; it names the kind. -/
def refusal (kind : Datum) (offset : Int) : Fault :=
  match kind.shown with
  | .ok text => .unexpectedText text offset
  | .error f => f

mutual

/-- Walks what stands in the place of an instruction, `level` instructions being
around it. -/
def walk (s : Setting) (level : Nat) : Layout → Draft → Except Fault Draft
  | .missing, d => .error (.missingOperand d.offset)
  | .node verdict items, d =>
    if maxLevel < level + 1 then .error (.tooDeep maxLevel d.offset)
    else
      match verdict.fault? d.offset with
      | some f => .error f
      | none =>
        match walkItems s (level + 1) d.offset items
            (s.announce d.offset ((d.advance byteSize).shift 1)) with
        | .error f => .error f
        | .ok d' => .ok (d'.shift (-1))

/-- Walks the items of the instruction at offset `start`. -/
def walkItems (s : Setting) (level : Nat) (start : Int) : List Item → Draft → Except Fault Draft
  | [], d => .ok d
  | item :: rest, d =>
    match walkItem s level start item d with
    | .error f => .error f
    | .ok d' => walkItems s level start rest d'

/-- Walks one item of the instruction at offset `start`. -/
def walkItem (s : Setting) (level : Nat) (start : Int) : Item → Draft → Except Fault Draft
  | .bytes count, d => .ok (d.advance count)
  | .line op detail label, d => .ok (d.emit start op detail label)
  | .note text, d => .ok (d.note text)
  | .separator, d => .ok d.separate
  | .indented items, d =>
    match walkItems s level start items (d.shift 1) with
    | .error f => .error f
    | .ok d' => .ok (d'.shift (-1))
  | .nested l, d => walk s level l d
  | .forward call, d =>
    if s.isEvent then
      match EventLink.ofCall s.function call.instr with
      | .error f => .error f
      | .ok link => .ok { d with link := some link }
    else .ok d
  | .refuseText kind, _ => .error (refusal kind start)
  | .fail f, _ => .error f

end

/-- A draft together with the number of instructions around what comes next. -/
structure Pass where
  depth : Int
  draft : Draft

mutual

/-- Processes what stands in the place of an instruction. -/
def process (s : Setting) : Layout → Pass → Except Fault Pass
  | .missing, p => .error (.missingOperand p.draft.offset)
  | .node verdict items, p =>
    if maxLevel < p.depth + 1 then .error (.tooDeep maxLevel p.draft.offset)
    else
      match verdict.fault? p.draft.offset with
      | some f => .error f
      | none =>
        match processItems s p.draft.offset items
            ⟨p.depth + 1, s.announce p.draft.offset ((p.draft.advance byteSize).shift 1)⟩ with
        | .error f => .error f
        | .ok p' => .ok ⟨p'.depth - 1, p'.draft.shift (-1)⟩

/-- Processes the items of the instruction at offset `start`. -/
def processItems (s : Setting) (start : Int) : List Item → Pass → Except Fault Pass
  | [], p => .ok p
  | item :: rest, p =>
    match processItem s start item p with
    | .error f => .error f
    | .ok p' => processItems s start rest p'

/-- Processes one item of the instruction at offset `start`. -/
def processItem (s : Setting) (start : Int) : Item → Pass → Except Fault Pass
  | .indented items, p =>
    match processItems s start items ⟨p.depth, p.draft.shift 1⟩ with
    | .error f => .error f
    | .ok p' => .ok ⟨p'.depth, p'.draft.shift (-1)⟩
  | .nested l, p => process s l p
  -- Other items have nothing inside them, and so the level does not matter.
  | item, p => (walkItem s 0 start item p.draft).map fun d => ⟨p.depth, d⟩

end

/-- Walks instructions one after the other. -/
def walkAll (s : Setting) : List Layout → Draft → Except Fault Draft
  | [], d => .ok d
  | l :: rest, d =>
    match walk s 0 l d with
    | .error f => .error f
    | .ok d' => walkAll s rest d'

end Kismet.Listing

namespace Kismet

/-- The listing of a script: its lines, and the link if it is the stub of an
event. -/
structure Listing where
  lines : List Listing.Line
  link : Option EventLink
  deriving Inhabited

/-- The text of a listing. -/
def Listing.text (l : Listing) : String :=
  Listing.textOf l.lines

/-- Lists a script. -/
def disassemble (e : Encoding) (s : Listing.Setting) (script : List Operand) :
    Except Fault Listing :=
  match Listing.walkAll s (script.map (Listing.operandLayout e)) {} with
  | .error f => .error f
  | .ok d => .ok ⟨d.lines.toList, d.link⟩

end Kismet
