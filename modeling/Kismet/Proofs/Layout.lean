import Kismet.Proofs.Cause
import Kismet.Proofs.Serial
import Kismet.Proofs.Walk
set_option autoImplicit false

/-!
# Layout: layouts follow the table of parts

Three facts about the layout of an instruction whose operands have the shape of
its opcode.  Its bytes and nested layouts come in the order of the table of
parts (`itemsPieces_bodyItems`).  Its first line is its own, and it has no second
one (`led_bodyItems`).  The walk of its items stops at an item of its own, or else
where the walk of its pieces does (`itemsFault?_eq_piecesFault?`).
-/

namespace Kismet.Listing

/-! ## Pieces -/

/-- What of the items of an instruction matters for offsets. -/
inductive Piece where
  | bytes (count : Int)
  | nested (scopes : Nat) (l : Layout)

mutual

/-- The pieces of items that stand within a number of scopes. -/
def itemsPieces (scopes : Nat) : List Item → List Piece
  | [] => []
  | item :: rest => item.pieces scopes ++ itemsPieces scopes rest

/-- The pieces of an item. -/
def Item.pieces (scopes : Nat) : Item → List Piece
  | .bytes count => [.bytes count]
  | .indented items => itemsPieces (scopes + 1) items
  | .nested l => [.nested scopes l]
  | _ => []

end

/-- The piece that a part is laid out as. -/
def pieceOf (e : Encoding) : Part → Piece
  | .cell c => .bytes (c.width e)
  | .child scopes o => .nested scopes (operandLayout e o)

@[simp] theorem itemsPieces_append (scopes : Nat) (a b : List Item) :
    itemsPieces scopes (a ++ b) = itemsPieces scopes a ++ itemsPieces scopes b := by
  induction a with
  | nil => rfl
  | cons item rest ih => simp [itemsPieces, ih]

@[simp] theorem itemsPieces_headline (scopes : Nat) (tag : Tag) (op : Opcode)
    (detail : Except Fault (Option String)) (label : Option String) :
    itemsPieces scopes (headline tag op detail label) = [] := by
  cases detail with
  | error f => rfl
  | ok d => cases tag <;> rfl

@[simp] theorem itemsPieces_noted (scopes : Nat) (text : Except Fault String) :
    itemsPieces scopes (noted text) = [] := by
  cases text <;> rfl

@[simp] theorem itemsPieces_stubCall (scopes : Nat) (tag : Tag) (function : Slot ObjectRef)
    (parameters : Operands) : itemsPieces scopes (stubCall tag function parameters) = [] := by
  unfold stubCall
  split
  · split <;> rfl
  · rfl

@[simp] theorem itemsPieces_listItems (e : Encoding) (scopes : Nat) (ps : Operands) :
    itemsPieces scopes (listItems e ps) = (ps.parts scopes).map (pieceOf e) := by
  cases ps with
  | unusable => rfl
  | list items =>
    have h : itemsPieces scopes ((operandLayouts e items).map .nested)
        = items.map fun o => Piece.nested scopes (operandLayout e o) := by
      induction items with
      | nil => rfl
      | cons o rest ih => simp [operandLayouts, itemsPieces, Item.pieces, ih]
    simp [listItems, closed, Operands.parts, h, itemsPieces, Item.pieces, pieceOf, Cell.width,
      terminatorSize]

theorem itemsPieces_caseItems (e : Encoding) (c : SwitchCase) :
    itemsPieces 1 (caseItems e c) = c.parts.map (pieceOf e) := by
  cases c with
  | mk value next term =>
    simp [caseItems, SwitchCase.parts, itemsPieces, Item.pieces, pieceOf, Cell.width, intSize]
  | valued value => rfl
  | foreign => rfl

theorem itemsPieces_numberedItems (e : Encoding) (cs : List SwitchCase) : ∀ index,
    itemsPieces 1 (numberedItems e index cs) = (cs.flatMap SwitchCase.parts).map (pieceOf e) := by
  induction cs with
  | nil => intro index; rfl
  | cons c rest ih =>
    intro index
    simp [numberedItems, itemsPieces, Item.pieces, itemsPieces_caseItems, ih]

@[simp] theorem itemsPieces_choiceItems (e : Encoding) (cs : Cases) :
    itemsPieces 1 (choiceItems e cs) = cs.parts.map (pieceOf e) := by
  cases cs with
  | unusable => rfl
  | list items => exact itemsPieces_numberedItems e items 0

@[simp] theorem itemsPieces_scriptTextItems (e : Encoding) (tag : Tag) (op : Opcode)
    (t : ScriptText) :
    itemsPieces 0 (scriptTextItems e tag op t) = t.parts.map (pieceOf e) := by
  cases t with
  | foreign => rfl
  | mk kind space key source tableId table =>
    simp only [scriptTextItems, textItems, ScriptText.parts, detailed]
    repeat' split
    all_goals
      simp [itemsPieces, Item.pieces, pieceOf, labelled, Cell.width, byteSize, objectSize]

/-- A literal takes the bytes of its cell. -/
theorem literalParts_fst (e : Encoding) (op : Opcode) (value : Datum) :
    (literalParts (some op) value).1 = (op.literalCell value).width e := by
  cases op <;>
    simp [literalParts, Opcode.literalCell, Cell.width, intSize, longSize, floatSize, doubleSize,
      nameSize, byteSize, narrowSize, wideSize, Int.mul_comm]

theorem width_coordinates (e : Encoding) (count : Nat) :
    ((Cell.coordinates count).width e : Int) = count * e.coordinateSize := by
  simp only [Cell.width, Encoding.coordinateSize]
  split <;> rfl

/-- Bytes and nested layouts of an instruction come in the order of its parts. -/
theorem itemsPieces_bodyItems {e : Encoding} {tag : Tag} {op : Opcode}
    (h : exactOpcode tag op = some op) (body : Body) :
    itemsPieces 0 (bodyItems e tag op body) = (body.parts e op).map (pieceOf e) := by
  cases body with
  | marker =>
    simp only [bodyItems, markerItems, Body.parts, detailed, undetailed]
    split <;> simp [itemsPieces, Item.pieces]
  | literal value =>
    simp [bodyItems, Body.parts, itemsPieces, Item.pieces, pieceOf, h, detailed, literalParts_fst e]
  | assignment destination value property =>
    simp only [bodyItems, Body.parts]
    split <;> simp [itemsPieces, Item.pieces, pieceOf, detailed, Cell.width, propertySize]
  | context object skip rvalue expression =>
    simp only [bodyItems, Body.parts]
    split <;>
      simp [itemsPieces, Item.pieces, pieceOf, undetailed, Cell.width, intSize, propertySize]
  | setArray elements target inner =>
    simp only [bodyItems, Body.parts]
    split <;> simp [itemsPieces, Item.pieces, pieceOf, undetailed]
  | instrumentation event name =>
    simp only [bodyItems, Body.parts]
    split <;> simp [itemsPieces, Item.pieces, pieceOf, detailed, Cell.width, byteSize, nameSize]
  | rotationConst pitch yaw roll =>
    simp [bodyItems, Body.parts, itemsPieces, Item.pieces, pieceOf, detailed, width_coordinates]
  | vectorConst x y z =>
    simp [bodyItems, Body.parts, itemsPieces, Item.pieces, pieceOf, detailed, width_coordinates]
  | transformConst rotation translation scale =>
    simp [bodyItems, Body.parts, itemsPieces, Item.pieces, pieceOf, detailed, width_coordinates]
  | _ =>
    simp [bodyItems, Body.parts, detailed, undetailed, itemsPieces, Item.pieces, pieceOf,
      Cell.width, byteSize, shortSize, intSize, nameSize, objectSize, propertySize]

/-! ## Tests of items

What the items of an instruction have in common is said by a test of single items; what
the layouts are put together from is tested once and for all. -/

end Kismet.Listing

namespace Kismet

/-- A list stands in the place of a list. -/
def Operands.isList : Operands → Bool
  | .list _ => true
  | .unusable => false

/-- The tag is a word. -/
def Tag.isWord : Tag → Bool
  | .word _ => true
  | _ => false

/-- The text of the offset of the next case. -/
def SwitchCase.nextText : SwitchCase → Except Fault String
  | .mk _ next _ => next.address
  | _ => .error .noMember

/-- The texts of the offsets of the next cases. -/
def Cases.nextTexts : Cases → List (Except Fault String)
  | .list items => items.map SwitchCase.nextText
  | .unusable => [.error .wrongKind]

end Kismet

namespace Kismet.Listing

mutual

/-- All items of the instruction itself pass a test, the indented ones too; a nested
instruction counts as one item. -/
def itemsAll (p : Item → Bool) : List Item → Bool
  | [] => true
  | item :: rest => item.all p && itemsAll p rest

/-- The item passes a test, or all that it indents does. -/
def Item.all (p : Item → Bool) : Item → Bool
  | .indented items => itemsAll p items
  | item => p item

end

/-- The test is about neither bytes nor notes nor nested instructions. -/
structure Item.Lenient (p : Item → Bool) : Prop where
  bytes : ∀ count, p (.bytes count) = true
  note : ∀ text, p (.note text) = true
  nested : ∀ l, p (.nested l) = true

section Tests

variable {p : Item → Bool}

@[simp] theorem itemsAll_append (a b : List Item) :
    itemsAll p (a ++ b) = (itemsAll p a && itemsAll p b) := by
  induction a with
  | nil => rfl
  | cons item rest ih => simp [itemsAll, ih, Bool.and_assoc]

@[simp] theorem itemsAll_headline (tag : Tag) (op : Opcode) (detail : Except Fault (Option String))
    (label : Option String) :
    itemsAll p (headline tag op detail label)
      = passes (fun f => p (.fail f))
          (fun d => if tag.isWord then p (.fail .badValue) else p (.line op d label)) detail := by
  cases detail with
  | error f => simp [headline, itemsAll, Item.all]
  | ok d => cases tag <;> simp [headline, itemsAll, Item.all, Tag.isWord]

@[simp] theorem itemsAll_noted (text : Except Fault String) :
    itemsAll p (noted text) = passes (fun f => p (.fail f)) (fun t => p (.note t)) text := by
  cases text <;> simp [noted, itemsAll, Item.all]

theorem itemsAll_stubCall (h : ∀ call, p (.forward call) = true) (tag : Tag)
    (function : Slot ObjectRef) (parameters : Operands) :
    itemsAll p (stubCall tag function parameters) = true := by
  unfold stubCall
  repeat' split
  all_goals simp [itemsAll, Item.all, h]

theorem itemsAll_nested (hp : Item.Lenient p) (layouts : List Layout) :
    itemsAll p (layouts.map .nested) = true := by
  induction layouts with
  | nil => rfl
  | cons l rest ih => simp [itemsAll, Item.all, hp.nested, ih]

@[simp] theorem itemsAll_listItems (hp : Item.Lenient p) (e : Encoding) (ps : Operands) :
    itemsAll p (listItems e ps) = (ps.isList || p (.fail .wrongKind)) := by
  cases ps with
  | unusable => simp [listItems, itemsAll, Item.all, Operands.isList]
  | list items =>
    simp [listItems, closed, itemsAll_nested hp, itemsAll, Item.all, hp.bytes, Operands.isList]

theorem itemsAll_caseItems (hp : Item.Lenient p) (e : Encoding) (c : SwitchCase) :
    itemsAll p (caseItems e c)
      = passes (fun f => p (.fail f)) (fun _ => true) c.nextText := by
  cases c with
  | mk value next term =>
    simp [caseItems, itemsAll, Item.all, hp.bytes, hp.note, hp.nested, SwitchCase.nextText]
  | valued value => simp [caseItems, itemsAll, Item.all, hp.nested, SwitchCase.nextText]
  | foreign => simp [caseItems, itemsAll, Item.all, SwitchCase.nextText]

theorem itemsAll_numberedItems (hp : Item.Lenient p) (e : Encoding) (cs : List SwitchCase) :
    ∀ index, itemsAll p (numberedItems e index cs)
      = cs.all fun c => passes (fun f => p (.fail f)) (fun _ => true) c.nextText := by
  induction cs with
  | nil => intro index; rfl
  | cons c rest ih =>
    intro index
    simp [numberedItems, itemsAll, Item.all, hp.note, itemsAll_caseItems hp, ih]

@[simp] theorem itemsAll_choiceItems (hp : Item.Lenient p) (e : Encoding) (cs : Cases) :
    itemsAll p (choiceItems e cs)
      = cs.nextTexts.all fun x => passes (fun f => p (.fail f)) (fun _ => true) x := by
  cases cs with
  | unusable => simp [choiceItems, itemsAll, Item.all, Cases.nextTexts]
  | list items =>
    rw [choiceItems, itemsAll_numberedItems hp, Cases.nextTexts, List.all_map]
    rfl

@[simp] theorem itemsAll_scriptItems (hp : Item.Lenient p) (e : Encoding) (script : List Operand) :
    itemsAll p (scriptItems e script) = true := by
  have h := itemsAll_nested hp (script.map (operandLayout e))
  rwa [List.map_map] at h

end Tests

/-! ## Items of an instruction that fail -/

/-- The item is not one that fails. -/
def Item.isClean : Item → Bool
  | .refuseText _ | .fail _ => false
  | _ => true

@[simp] theorem Item.isClean_lenient : Lenient isClean := ⟨fun _ => rfl, fun _ => rfl, fun _ => rfl⟩

/-- Bytes of pieces. -/
def piecesSize : List Piece → Int
  | [] => 0
  | .bytes count :: rest => count + piecesSize rest
  | .nested _ l :: rest => l.size + piecesSize rest

/-- The fault at which the walk of pieces stops, nested layouts being of a given
level. -/
def piecesFault? (level : Nat) (offset : Int) : List Piece → Option Fault
  | [] => none
  | .bytes count :: rest => piecesFault? level (offset + count) rest
  | .nested _ l :: rest => (l.fault? level offset).or (piecesFault? level (offset + l.size) rest)

theorem piecesSize_append (a b : List Piece) :
    piecesSize (a ++ b) = piecesSize a + piecesSize b := by
  induction a with
  | nil => simp [piecesSize]
  | cons p rest ih => cases p <;> simp [piecesSize, ih, Int.add_assoc]

theorem piecesFault?_append (level : Nat) (a b : List Piece) : ∀ offset,
    piecesFault? level offset (a ++ b)
      = (piecesFault? level offset a).or (piecesFault? level (offset + piecesSize a) b) := by
  induction a with
  | nil => intro offset; simp [piecesFault?, piecesSize]
  | cons p rest ih =>
    intro offset
    cases p <;> simp [piecesFault?, piecesSize, ih, Int.add_assoc, Option.or_assoc]

mutual

theorem itemsSize_eq_piecesSize (scopes : Nat) (items : List Item) :
    itemsSize items = piecesSize (itemsPieces scopes items) := by
  cases items with
  | nil => rfl
  | cons item rest =>
    rw [itemsSize, itemsPieces, piecesSize_append, item.size_eq_piecesSize scopes,
      itemsSize_eq_piecesSize scopes rest]

theorem Item.size_eq_piecesSize (scopes : Nat) (item : Item) :
    item.size = piecesSize (item.pieces scopes) := by
  cases item with
  | indented items => exact itemsSize_eq_piecesSize (scopes + 1) items
  | _ => simp [Item.size, Item.pieces, piecesSize]

end

mutual

theorem itemsFault?_eq_piecesFault? (level scopes : Nat) (start : Int) (items : List Item)
    (h : itemsAll Item.isClean items = true) (offset : Int) :
    itemsFault? level start offset items
      = piecesFault? (level + 1) offset (itemsPieces scopes items) := by
  cases items with
  | nil => rfl
  | cons item rest =>
    rw [itemsAll, Bool.and_eq_true] at h
    rw [itemsFault?, itemsPieces, piecesFault?_append,
      item.fault?_eq_piecesFault? level scopes start h.1 offset,
      itemsFault?_eq_piecesFault? level scopes start rest h.2, item.size_eq_piecesSize scopes]

theorem Item.fault?_eq_piecesFault? (level scopes : Nat) (start : Int) (item : Item)
    (h : item.all Item.isClean = true) (offset : Int) :
    item.fault? level start offset = piecesFault? (level + 1) offset (item.pieces scopes) := by
  cases item with
  | indented items => exact itemsFault?_eq_piecesFault? level (scopes + 1) start items h offset
  | refuseText kind => simp [Item.all, Item.isClean] at h
  | fail f => simp [Item.all, Item.isClean] at h
  | _ => simp [Item.fault?, Item.pieces, piecesFault?]

end

mutual

/-- A walk of items that does not stop meets no failing one. -/
theorem isClean_of_itemsFault? (level : Nat) (start : Int) (items : List Item) (offset : Int)
    (h : itemsFault? level start offset items = none) : itemsAll Item.isClean items = true := by
  cases items with
  | nil => rfl
  | cons item rest =>
    rw [itemsFault?, Option.or_eq_none_iff] at h
    rw [itemsAll, Bool.and_eq_true]
    exact ⟨item.isClean_of_fault? level start offset h.1,
      isClean_of_itemsFault? level start rest _ h.2⟩

theorem Item.isClean_of_fault? (level : Nat) (start : Int) (item : Item) (offset : Int)
    (h : item.fault? level start offset = none) : item.all Item.isClean = true := by
  cases item with
  | indented items => exact isClean_of_itemsFault? level start items offset h
  | refuseText kind => simp [Item.fault?] at h
  | fail f => simp [Item.fault?] at h
  | _ => rfl

end

/-! ## The line of an instruction -/

/-- The item is not the instruction's line. -/
def Item.isQuiet : Item → Bool
  | .line .. => false
  | _ => true

@[simp] theorem Item.isQuiet_lenient : Lenient isQuiet := ⟨fun _ => rfl, fun _ => rfl, fun _ => rfl⟩


/-- Items that begin with the line of the instruction, bytes apart, and have no
second one; or that fail before they come to it.  A tag that is a word gets no
line. -/
inductive Led (tag : Tag) (op : Opcode) : List Item → Prop where
  | line {detail label : Option String} {rest : List Item} (exact : exactOpcode tag op = some op)
      (quiet : itemsAll Item.isQuiet rest = true) : Led tag op (.line op detail label :: rest)
  | bytes {count : Int} {rest : List Item} (led : Led tag op rest) :
      Led tag op (.bytes count :: rest)
  | fail {f : Fault} {rest : List Item} : Led tag op (.fail f :: rest)
  | refuseText {kind : Datum} {rest : List Item} : Led tag op (.refuseText kind :: rest)

@[simp] theorem led_bytes_cons {tag : Tag} {op : Opcode} {count : Int} {rest : List Item} :
    Led tag op (.bytes count :: rest) ↔ Led tag op rest := by
  constructor
  · intro h
    cases h with
    | bytes led => exact led
  · exact .bytes

@[simp] theorem led_headline_append {tag : Tag} {op : Opcode}
    {detail : Except Fault (Option String)} {label : Option String} {rest : List Item}
    (h : itemsAll Item.isQuiet rest = true) :
    Led tag op (headline tag op detail label ++ rest) := by
  cases detail with
  | error f => exact .fail
  | ok d =>
    cases tag with
    | word s => exact .fail
    | code n => exact .line rfl h
    | other d => exact .line rfl h

@[simp] theorem led_headline (tag : Tag) (op : Opcode) (detail : Except Fault (Option String))
    (label : Option String) : Led tag op (headline tag op detail label) := by
  have h := @led_headline_append tag op detail label [] rfl
  rwa [List.append_nil] at h

theorem led_markerItems (tag : Tag) (op : Opcode) : Led tag op (markerItems tag op) := by
  unfold markerItems
  split <;> simp [detailed, undetailed, itemsAll, Item.all, Item.isQuiet]

theorem led_scriptTextItems (e : Encoding) (tag : Tag) (op : Opcode) (t : ScriptText) :
    Led tag op (scriptTextItems e tag op t) := by
  cases t with
  | foreign => exact .bytes .fail
  | mk kind space key source tableId table =>
    simp only [scriptTextItems, textItems]
    repeat' split
    all_goals first
      | exact .bytes .refuseText
      | simp [detailed, labelled, itemsAll, Item.all, Item.isQuiet]

/-- The items of an instruction begin with its line. -/
theorem led_bodyItems (e : Encoding) (tag : Tag) {op : Opcode} {body : Body}
    (h : op.shape? = some body.shape) : Led tag op (bodyItems e tag op body) := by
  cases body with
  | bare => cases op <;> simp [Opcode.shape?, Body.shape] at h
  | unknown label => cases op <;> simp [Opcode.shape?, Body.shape] at h
  | marker => exact led_markerItems tag op
  | textConst text => exact led_scriptTextItems e tag op text
  | assignment destination value property =>
    simp only [bodyItems]
    split <;> simp [detailed, itemsAll, Item.all, Item.isQuiet]
  | context object skip rvalue expression =>
    simp only [bodyItems]
    split <;> simp [undetailed, itemsAll, Item.all, Item.isQuiet]
  | setArray elements target inner =>
    simp only [bodyItems]
    split <;> simp [undetailed, itemsAll, Item.all, Item.isQuiet]
  | instrumentation event name =>
    simp only [bodyItems]
    split <;> simp [detailed]
  | finalCall function parameters =>
    have hstub : itemsAll Item.isQuiet (stubCall tag function parameters) = true :=
      itemsAll_stubCall (fun _ => rfl) tag function parameters
    simp [bodyItems, detailed, hstub, Item.isQuiet]
  | _ => simp [bodyItems, detailed, undetailed, itemsAll, Item.all, Item.isQuiet]

/-- An instruction that gets its line has no word for a tag. -/
theorem Led.exactOpcode_eq {tag : Tag} {op : Opcode} {items : List Item} (h : Led tag op items)
    (level : Nat) (start : Int) : ∀ offset, itemsFault? level start offset items = none →
    exactOpcode tag op = some op := by
  induction h with
  | line exact quiet => intro offset _; exact exact
  | bytes led ih =>
    intro offset hf
    exact ih (offset + _) (by simpa [itemsFault?, Item.fault?, Item.size] using hf)
  | fail => intro offset hf; simp [itemsFault?, Item.fault?] at hf
  | refuseText => intro offset hf; simp [itemsFault?, Item.fault?] at hf

/-! ## The end of an instruction -/

/-- The item neither ends a block nor forwards a call. -/
def Item.isPlain : Item → Bool
  | .separator | .forward _ => false
  | _ => true

@[simp] theorem Item.isPlain_lenient : Lenient isPlain := ⟨fun _ => rfl, fun _ => rfl, fun _ => rfl⟩

/-- What comes last in an instruction that ends a block or may forward a call. -/
def closingItems (tag : Tag) (op : Opcode) : Body → List Item
  | .marker => if op = .popExecutionFlow then [.separator] else []
  | .jump _ | .computedJump _ => [.separator]
  | .finalCall function parameters => stubCall tag function parameters
  | _ => []

theorem isPlain_scriptTextItems (e : Encoding) (tag : Tag) (op : Opcode) (t : ScriptText) :
    itemsAll Item.isPlain (scriptTextItems e tag op t) = true := by
  cases t with
  | foreign => rfl
  | mk kind space key source tableId table =>
    simp only [scriptTextItems, textItems]
    repeat' split
    all_goals simp [detailed, labelled, itemsAll, Item.all, Item.isPlain]

@[simp] theorem itemsPieces_closingItems (scopes : Nat) (tag : Tag) (op : Opcode) (body : Body) :
    itemsPieces scopes (closingItems tag op body) = [] := by
  cases body with
  | finalCall function parameters => exact itemsPieces_stubCall scopes tag function parameters
  | marker =>
    rw [closingItems]
    split <;> rfl
  | _ => rfl

/-- An instruction ends a block or forwards a call in its last items only. -/
theorem exists_bodyItems_eq (e : Encoding) (tag : Tag) (op : Opcode) (body : Body) :
    ∃ front, bodyItems e tag op body = front ++ closingItems tag op body
      ∧ itemsAll Item.isPlain front = true := by
  cases body with
  | jump target =>
    exact ⟨_, rfl, by simp [detailed, itemsAll, Item.all, Item.isPlain]⟩
  | computedJump target =>
    exact ⟨_, (List.append_assoc _ [_] [_]).symm,
      by simp [detailed, itemsAll, Item.all, Item.isPlain]⟩
  | finalCall function parameters =>
    exact ⟨_, rfl, by simp [detailed, itemsAll, Item.all, Item.isPlain]⟩
  | marker =>
    simp only [bodyItems, markerItems, closingItems]
    split
    · exact ⟨_, rfl, by simp [detailed, Item.isPlain]⟩
    · exact ⟨_, (List.append_nil _).symm, by simp [detailed, Item.isPlain]⟩
    · rename_i hop _
      rw [if_neg hop]
      exact ⟨_, (List.append_nil _).symm, by simp [undetailed, Item.isPlain]⟩
  | textConst text => exact ⟨_, (List.append_nil _).symm, isPlain_scriptTextItems e tag op text⟩
  | _ =>
    refine ⟨_, (List.append_nil _).symm, ?_⟩
    simp only [bodyItems]
    repeat' split
    all_goals simp [detailed, undetailed, itemsAll, Item.all, Item.isPlain]

/-! ## Accepted instructions -/

/-- The opcodes with rules are those with a shape. -/
theorem hasRules_eq (op : Opcode) : hasRules op = op.shape?.isSome := by
  cases op <;> rfl

/-- The two tables agree, so that one look into the table of shapes decides. -/
theorem verdict_eq (tag : Tag) (body : Body) :
    verdict tag body
      = if !isSearchable tag then .unsearchable
        else match tag.opcode? with
          | none => .unsupported (shownAs body (tagText tag none))
          | some op =>
            if op.isTerminator then byName tag (.terminator op)
            else match op.shape? with
              | none => .unsupported (shownAs body (tagText tag op))
              | some shape =>
                if body.shape = shape then .accepted
                else byName tag (.misshapen op body.shape) := by
  unfold verdict
  cases tag.opcode? with
  | none => rfl
  | some op =>
    simp only [hasRules_eq]
    cases op.shape? <;> rfl

theorem verdict_eq_accepted {tag : Tag} {body : Body} (h : verdict tag body = .accepted) :
    ∃ op, tag.opcode? = some op ∧ op.shape? = some body.shape := by
  rw [verdict_eq] at h
  split at h
  · simp at h
  · split at h
    · simp at h
    · rename_i op hop
      split at h
      · cases tag <;> simp [byName] at h
      · split at h
        · simp at h
        · rename_i shape hshape
          split at h
          · rename_i heq
            exact ⟨op, hop, by rw [hshape, heq]⟩
          · cases tag <;> simp [byName] at h

theorem Verdict.eq_accepted_of_fault? {v : Verdict} {offset : Int} (h : v.fault? offset = none) :
    v = .accepted := by
  cases v <;> simp [fault?] at h ⊢

/-- What is known of the place of an instruction whose walk does not stop. -/
structure Listed (e : Encoding) (o : Operand) (level : Nat) (offset : Int) (tag : Tag)
    (op : Opcode) (body : Body) : Prop where
  /-- An instruction stands there. -/
  operand : o = .instr (.mk tag body)
  opcode : tag.opcode? = some op
  shape : op.shape? = some body.shape
  level_le : level ≤ maxLevel
  layout : operandLayout e o = .node .accepted (bodyItems e tag op body)
  fault : itemsFault? level offset (offset + byteSize) (bodyItems e tag op body) = none

theorem operandLayout_instr (e : Encoding) {tag : Tag} {op : Opcode} (h : tag.opcode? = some op)
    (body : Body) :
    operandLayout e (.instr (.mk tag body))
      = .node (verdict tag body) (bodyItems e tag op body) := by
  simp [operandLayout, layout, h]

/-- Only instructions whose operands are of the shape of their opcode are
listed. -/
theorem exists_listed {e : Encoding} {o : Operand} {level : Nat} {offset : Int}
    (h : (operandLayout e o).fault? level offset = none) :
    ∃ tag op body, Listed e o level offset tag op body := by
  cases o with
  | missing => simp [operandLayout, Layout.fault?] at h
  | foreign =>
    simp only [operandLayout, Layout.fault?] at h
    split at h <;> simp [Verdict.fault?] at h
  | instr i =>
    obtain ⟨tag, body⟩ := i
    cases hop : tag.opcode? with
    | none =>
      simp only [operandLayout, layout, hop, Layout.fault?] at h
      split at h
      · simp at h
      · rw [Option.or_eq_none_iff] at h
        obtain ⟨op, hop', -⟩ := verdict_eq_accepted (Verdict.eq_accepted_of_fault? h.1)
        simp [hop] at hop'
    | some op =>
      have hlayout := operandLayout_instr e hop body
      rw [hlayout, Layout.fault?] at h
      split at h
      · simp at h
      · rename_i hlevel
        rw [Option.or_eq_none_iff] at h
        have hv := Verdict.eq_accepted_of_fault? h.1
        obtain ⟨op', hop', hshape⟩ := verdict_eq_accepted hv
        obtain rfl : op = op' := by simpa [hop] using hop'
        exact ⟨tag, op, body, rfl, hop, hshape, by omega, by rw [hlayout, hv], h.2⟩

namespace Listed

variable {e : Encoding} {o : Operand} {level : Nat} {offset : Int} {tag : Tag} {op : Opcode}
  {body : Body}

theorem led (h : Listed e o level offset tag op body) : Led tag op (bodyItems e tag op body) :=
  led_bodyItems e tag h.shape

theorem parts_eq (h : Listed e o level offset tag op body) : o.parts e = body.parts e op := by
  simp [h.operand, Operand.parts, h.opcode, h.shape]

/-- The items keep to the table of parts. -/
theorem pieces_eq (h : Listed e o level offset tag op body) :
    itemsPieces 0 (bodyItems e tag op body) = (o.parts e).map (pieceOf e) := by
  rw [h.parts_eq]
  exact itemsPieces_bodyItems (h.led.exactOpcode_eq _ _ _ h.fault) body

/-- No nested instruction stops the walk either. -/
theorem piecesFault?_eq (h : Listed e o level offset tag op body) :
    piecesFault? (level + 1) (offset + byteSize) ((o.parts e).map (pieceOf e)) = none := by
  have hclean := isClean_of_itemsFault? _ _ _ _ h.fault
  rw [← h.pieces_eq, ← itemsFault?_eq_piecesFault? level 0 offset _ hclean]
  exact h.fault

end Listed

end Kismet.Listing
