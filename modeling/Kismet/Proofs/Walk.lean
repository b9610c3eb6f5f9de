import Kismet.Listing.Walk
set_option autoImplicit false

/-!
# Walk: what a walk does, in closed form

A walk threads a draft through a layout.  What it adds to the draft depends on
the draft's offset and indentation only, so the bytes, the fault, the lines and
the link of a layout are functions of their own.  `walk_eq` says that a walk
either stops at that fault or extends the draft by those bytes, lines and link;
everything else about walks is read off these functions.

Offsets and indentations are those of the instruction itself, and `level` counts
it too.
-/

namespace Kismet.Listing

/-! ## Bytes -/

mutual

/-- Bytes that a layout stands for. -/
def Layout.size : Layout → Int
  | .missing => 0
  | .node _ items => byteSize + itemsSize items

/-- Bytes that items stand for. -/
def itemsSize : List Item → Int
  | [] => 0
  | item :: rest => item.size + itemsSize rest

/-- Bytes that an item stands for. -/
def Item.size : Item → Int
  | .bytes count => count
  | .indented items => itemsSize items
  | .nested l => l.size
  | _ => 0

end

/-! ## Faults -/

mutual

/-- The fault at which the walk of a layout stops. -/
def Layout.fault? (level : Nat) (offset : Int) : Layout → Option Fault
  | .missing => some (.missingOperand offset)
  | .node verdict items =>
    if maxLevel < level then some (.tooDeep maxLevel offset)
    else (verdict.fault? offset).or (itemsFault? level offset (offset + byteSize) items)

/-- The fault at which the walk of the items of an instruction stops. -/
def itemsFault? (level : Nat) (start offset : Int) : List Item → Option Fault
  | [] => none
  | item :: rest =>
    (item.fault? level start offset).or (itemsFault? level start (offset + item.size) rest)

/-- The fault at which the walk of an item stops. -/
def Item.fault? (level : Nat) (start offset : Int) : Item → Option Fault
  | .indented items => itemsFault? level start offset items
  | .nested l => l.fault? (level + 1) offset
  | .refuseText kind => some (refusal kind start)
  | .fail f => some f
  | _ => none

end

/-! ## Lines -/

/-- What stands in front of the line of an instruction: the note on the event
that continues there, if there is one. -/
def Setting.announcement (s : Setting) (offset indent : Int) : List Line :=
  match s.eventAt offset with
  | some link => [.note indent ("Event: " ++ link.name.display)]
  | none => []

mutual

/-- The lines of a layout. -/
def Layout.lines (s : Setting) (offset indent : Int) : Layout → List Line
  | .missing => []
  | .node _ items =>
    s.announcement offset indent ++ itemsLines s offset (offset + byteSize) indent items

/-- The lines of the items of an instruction. -/
def itemsLines (s : Setting) (start offset indent : Int) : List Item → List Line
  | [] => []
  | item :: rest =>
    item.lines s start offset indent ++ itemsLines s start (offset + item.size) indent rest

/-- The lines of an item. -/
def Item.lines (s : Setting) (start offset indent : Int) : Item → List Line
  | .line op detail label => [.instr start indent op (label.getD op.label) detail]
  | .note text => [.note indent text]
  | .separator => if indent = 0 then [.separator] else []
  | .indented items => itemsLines s start offset (indent + 1) items
  | .nested l => l.lines s offset (indent + 1)
  | _ => []

end

/-! ## Links -/

mutual

/-- The link that a layout leaves behind. -/
def Layout.link (s : Setting) : Layout → Option EventLink
  | .missing => none
  | .node _ items => itemsLink s items

/-- The link that items leave behind: the last one counts. -/
def itemsLink (s : Setting) : List Item → Option EventLink
  | [] => none
  | item :: rest => (itemsLink s rest).or (item.link s)

/-- The link that an item leaves behind. -/
def Item.link (s : Setting) : Item → Option EventLink
  | .forward call => if s.isEvent then some ⟨s.function, call.instr⟩ else none
  | .indented items => itemsLink s items
  | .nested l => l.link s
  | _ => none

end

/-! ## Drafts -/

namespace Draft

/-- The draft after further bytes and lines, and a link if there is one. -/
def extend (d : Draft) (size : Int) (lines : List Line) (link : Option EventLink) : Draft where
  offset := d.offset + size
  indent := d.indent
  lines := d.lines ++ lines.toArray
  link := link.or d.link

/-- How a walk ends: at a fault, or with the draft extended. -/
def outcome (d : Draft) (fault : Option Fault) (size : Int) (lines : List Line)
    (link : Option EventLink) : Except Fault Draft :=
  match fault with
  | some f => .error f
  | none => .ok (d.extend size lines link)

theorem extend_extend (d : Draft) (a b : Int) (k l : List Line) (x y : Option EventLink) :
    (d.extend a k x).extend b l y = d.extend (a + b) (k ++ l) (y.or x) := by
  simp [extend, Int.add_assoc, Option.or_assoc]

theorem extend_zero (d : Draft) : d.extend 0 [] none = d := by
  simp [extend]

theorem push_eq_extend (d : Draft) (line : Line) : d.push line = d.extend 0 [line] none := by
  simp [extend, push]

/-- An indentation that is taken back leaves no trace. -/
theorem shift_extend_shift (d : Draft) (steps size : Int) (lines : List Line)
    (link : Option EventLink) :
    ((d.shift steps).extend size lines link).shift (-steps) = d.extend size lines link := by
  simp only [extend, shift, Int.add_neg_cancel_right]

end Draft

theorem Setting.announce_eq_extend (s : Setting) (offset : Int) (d : Draft) :
    s.announce offset d = d.extend 0 (s.announcement offset d.indent) none := by
  unfold announce announcement
  cases s.eventAt offset with
  | none => exact d.extend_zero.symm
  | some link => exact d.push_eq_extend _

/-- A stub call always makes a link. -/
theorem ofCall_stubCall (name : Document) (call : StubCall) :
    EventLink.ofCall name call.instr = .ok ⟨name, call.instr⟩ := rfl

/-! ## The closed form -/

mutual

/-- The walk of a layout. -/
theorem walk_eq (s : Setting) (level : Nat) (l : Layout) (d : Draft) :
    walk s level l d
      = d.outcome (l.fault? (level + 1) d.offset) l.size
          (l.lines s d.offset (d.indent + 1)) (l.link s) := by
  cases l with
  | missing => rfl
  | node verdict items =>
    rw [walk, Layout.fault?]
    split
    · rfl
    · cases hv : verdict.fault? d.offset with
      | some f => rfl
      | none =>
        -- The tag and the note extend the draft before the items are walked.
        have hd : s.announce d.offset ((d.advance byteSize).shift 1)
            = (d.shift 1).extend byteSize (s.announcement d.offset (d.indent + 1)) none := by
          rw [Setting.announce_eq_extend]
          simp [Draft.extend, Draft.advance, Draft.shift]
        have ho : ((d.shift 1).extend byteSize
            (s.announcement d.offset (d.indent + 1)) none).offset = d.offset + byteSize := rfl
        rw [hd, walkItems_eq, Option.none_or, ho]
        simp only [Draft.outcome]
        cases itemsFault? (level + 1) d.offset (d.offset + byteSize) items with
        | some f => rfl
        | none =>
          simp only
          rw [Draft.extend_extend, Draft.shift_extend_shift]
          simp [Layout.size, Layout.lines, Layout.link, Draft.extend, Draft.shift]

/-- The walk of the items of an instruction. -/
theorem walkItems_eq (s : Setting) (level : Nat) (start : Int) (items : List Item) (d : Draft) :
    walkItems s level start items d
      = d.outcome (itemsFault? level start d.offset items) (itemsSize items)
          (itemsLines s start d.offset d.indent items) (itemsLink s items) := by
  cases items with
  | nil => exact congrArg Except.ok d.extend_zero.symm
  | cons item rest =>
    rw [walkItems, walkItem_eq, itemsFault?]
    cases hf : item.fault? level start d.offset with
    | some f => rfl
    | none =>
      have ho : (d.extend item.size (item.lines s start d.offset d.indent) (item.link s)).offset
          = d.offset + item.size := rfl
      simp only [Draft.outcome, Option.none_or]
      rw [walkItems_eq, ho]
      simp only [Draft.outcome]
      cases itemsFault? level start (d.offset + item.size) rest with
      | some f => rfl
      | none =>
        simp only [Draft.extend_extend]
        rfl

/-- The walk of one item. -/
theorem walkItem_eq (s : Setting) (level : Nat) (start : Int) (item : Item) (d : Draft) :
    walkItem s level start item d
      = d.outcome (item.fault? level start d.offset) item.size
          (item.lines s start d.offset d.indent) (item.link s) := by
  cases item with
  | bytes count =>
    simp [walkItem, Item.fault?, Item.size, Item.lines, Item.link, Draft.outcome, Draft.advance,
      Draft.extend]
  | line op detail label => exact congrArg Except.ok (d.push_eq_extend _)
  | note text => exact congrArg Except.ok (d.push_eq_extend _)
  | separator =>
    rw [walkItem, Draft.separate]
    simp only [Item.lines, Item.fault?, Draft.outcome, Item.size, Item.link]
    split
    · exact congrArg Except.ok (d.push_eq_extend _)
    · exact congrArg Except.ok d.extend_zero.symm
  | indented items =>
    have ho : (d.shift 1).offset = d.offset := rfl
    rw [walkItem, walkItems_eq, Item.fault?, ho]
    simp only [Draft.outcome]
    cases itemsFault? level start d.offset items with
    | some f => rfl
    | none => exact congrArg Except.ok (d.shift_extend_shift 1 _ _ _)
  | nested l =>
    rw [walkItem, walk_eq]
    rfl
  | forward call =>
    cases h : s.isEvent with
    | false =>
      simp [walkItem, Item.fault?, Item.size, Item.lines, Item.link, Draft.outcome, Draft.extend, h]
    | true =>
      simp [walkItem, Item.fault?, Item.size, Item.lines, Item.link, Draft.outcome, Draft.extend, h,
        ofCall_stubCall]
  | refuseText kind => rfl
  | fail f => rfl

end

/-! ## Scripts -/

/-- A script, laid out as if nested in an instruction of level zero. -/
def scriptItems (e : Encoding) (script : List Operand) : List Item :=
  script.map fun o => .nested (operandLayout e o)

theorem walkAll_eq_walkItems (e : Encoding) (s : Setting) (script : List Operand) : ∀ d,
    walkAll s (script.map (operandLayout e)) d = walkItems s 0 0 (scriptItems e script) d := by
  induction script with
  | nil => intro d; rfl
  | cons o rest ih =>
    intro d
    rw [List.map_cons, walkAll, scriptItems, List.map_cons, walkItems, walkItem]
    cases walk s 0 (operandLayout e o) d with
    | error f => rfl
    | ok d' => exact ih d'

/-- The walk of a script from the beginning. -/
theorem walkAll_eq (e : Encoding) (s : Setting) (script : List Operand) :
    walkAll s (script.map (operandLayout e)) {}
      = Draft.outcome {} (itemsFault? 0 0 0 (scriptItems e script))
          (itemsSize (scriptItems e script)) (itemsLines s 0 0 (-1) (scriptItems e script))
          (itemsLink s (scriptItems e script)) := by
  rw [walkAll_eq_walkItems, walkItems_eq]

/-- The listing of a script. -/
theorem disassemble_eq (e : Encoding) (s : Setting) (script : List Operand) :
    disassemble e s script
      = match itemsFault? 0 0 0 (scriptItems e script) with
        | some f => .error f
        | none => .ok ⟨itemsLines s 0 0 (-1) (scriptItems e script),
            itemsLink s (scriptItems e script)⟩ := by
  rw [disassemble, walkAll_eq]
  cases itemsFault? 0 0 0 (scriptItems e script) with
  | some f => rfl
  | none => simp [Draft.outcome, Draft.extend]

end Kismet.Listing
