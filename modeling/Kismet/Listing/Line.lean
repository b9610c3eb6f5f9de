import Kismet.EventLink
set_option autoImplicit false

/-!
# Listing: lines

A listing consists of lines for instructions, notes on their operands, and
separators after the instructions that end a block.  Lines are kept as data and
become text at the very end.
-/

namespace Kismet.Listing

/-- A line of a listing. -/
inductive Line where
  /-- An instruction: its offset, opcode, label and detail. -/
  | instr (offset indent : Int) (op : Opcode) (label : String) (detail : Option String)
  /-- A note. -/
  | note (indent : Int) (text : String)
  /-- The end of a block. -/
  | separator
  deriving DecidableEq, Repr, Inhabited

/-- The characters in front of an indented line; there is no negative
indentation. -/
def padding (indent : Int) : String :=
  String.ofList (List.replicate (2 * indent.toNat) ' ')

/-- What stands in front of a note in place of an offset. -/
def noteMargin : String := String.ofList (List.replicate 10 ' ')

/-- The text of a separator. -/
def separatorText : String := String.ofList (List.replicate 80 '-')

/-- The text of a line. -/
def Line.text : Line → String
  | .instr offset indent op label detail =>
    Text.hex 8 offset ++ "  " ++ padding indent ++ "[" ++ Text.hex 2 op.code ++ "] " ++ label
      ++ (match detail with
          | some d => ": " ++ d
          | none => "")
  | .note indent text => noteMargin ++ padding indent ++ text
  | .separator => separatorText

/-- A listing in the making: the offset and indentation of what comes next, the
lines so far, and the event link found last. -/
structure Draft where
  offset : Int := 0
  indent : Int := -1
  lines : Array Line := #[]
  link : Option EventLink := none
  deriving Inhabited

namespace Draft

/-- Moves on by a number of bytes. -/
def advance (d : Draft) (bytes : Int) : Draft :=
  { d with offset := d.offset + bytes }

/-- Changes the indentation. -/
def shift (d : Draft) (steps : Int) : Draft :=
  { d with indent := d.indent + steps }

/-- Appends a line. -/
def push (d : Draft) (line : Line) : Draft :=
  { d with lines := d.lines.push line }

/-- Appends the line of an instruction; without a label of its own it has that of
its opcode. -/
def emit (d : Draft) (offset : Int) (op : Opcode) (detail label : Option String) : Draft :=
  d.push (.instr offset d.indent op (label.getD op.label) detail)

/-- Appends a note. -/
def note (d : Draft) (text : String) : Draft :=
  d.push (.note d.indent text)

/-- Appends a separator, but only at the top level. -/
def separate (d : Draft) : Draft :=
  if d.indent = 0 then d.push .separator else d

end Draft

/-- The text of lines, each ended by a line break. -/
def textOf (lines : List Line) : String :=
  String.join (lines.map fun l => l.text ++ "\n")

end Kismet.Listing
