import Kismet.Proofs.Relocation
import Kismet.Proofs.Skeleton
set_option autoImplicit false

/-!
# Separator: where blocks end

Three opcodes end a block.  Their layouts close with a separator, and whether it is written
depends on the indentation alone: none is written below the top level, however deep the
instruction is nested (`Layout.separator_not_mem`).  `disassemble_separators` cuts a listing
into the lines of the instructions of the top level: separators stand at the cuts after the
instructions that end a block, and nowhere else.
-/

namespace Kismet

/-- The opcode ends a block. -/
def Opcode.endsBlock : Opcode → Bool
  | .jump | .computedJump | .popExecutionFlow => true
  | _ => false

/-- The instruction ends a block. -/
def Operand.endsBlock (o : Operand) : Bool :=
  o.opcode?.any Opcode.endsBlock

end Kismet

namespace Kismet.Listing

/-! ## Below the top level -/

theorem Setting.separator_not_mem (s : Setting) (offset indent : Int) :
    Line.separator ∉ s.announcement offset indent := by
  unfold announcement
  split <;> simp

mutual

/-- No separator is written for what is indented. -/
theorem Layout.separator_not_mem (s : Setting) (offset indent : Int) (h : 0 < indent)
    (l : Layout) : Line.separator ∉ l.lines s offset indent := by
  cases l with
  | missing => simp [Layout.lines]
  | node verdict items =>
    rw [Layout.lines, List.mem_append, not_or]
    exact ⟨s.separator_not_mem offset indent,
      separator_not_mem_itemsLines s offset (offset + byteSize) indent h items⟩

theorem separator_not_mem_itemsLines (s : Setting) (start offset indent : Int) (h : 0 < indent)
    (items : List Item) : Line.separator ∉ itemsLines s start offset indent items := by
  cases items with
  | nil => simp [itemsLines]
  | cons item rest =>
    rw [itemsLines, List.mem_append, not_or]
    exact ⟨item.separator_not_mem s start offset indent h,
      separator_not_mem_itemsLines s start (offset + item.size) indent h rest⟩

theorem Item.separator_not_mem (s : Setting) (start offset indent : Int) (h : 0 < indent)
    (item : Item) : Line.separator ∉ item.lines s start offset indent := by
  cases item with
  | separator => simp [Item.lines, show indent ≠ 0 by omega]
  | indented items =>
    exact separator_not_mem_itemsLines s start offset (indent + 1) (by omega) items
  | nested l => exact l.separator_not_mem s offset (indent + 1) (by omega)
  | _ => simp [Item.lines]

end

/-! ## At the top level -/

/-- What is not a separator itself writes none at the top level either: all that it holds is
indented. -/
theorem separator_not_mem_of_isPlain (s : Setting) (start : Int) {items : List Item}
    (h : itemsAll Item.isPlain items = true) : ∀ offset,
    Line.separator ∉ itemsLines s start offset 0 items := by
  induction items with
  | nil => intro offset; simp [itemsLines]
  | cons item rest ih =>
    intro offset
    rw [itemsAll, Bool.and_eq_true] at h
    rw [itemsLines, List.mem_append, not_or]
    refine ⟨?_, ih h.2 _⟩
    cases item with
    | separator => simp [Item.all, Item.isPlain] at h
    | indented items => exact separator_not_mem_itemsLines s start offset 1 (by decide) items
    | nested l => exact l.separator_not_mem s offset 1 (by decide)
    | _ => simp [Item.lines]

/-! ## The end of an instruction -/

/-- The opcodes that end a block, by the shape of their operands. -/
theorem endsBlock_eq {op : Opcode} {shape : Shape} (h : op.shape? = some shape) :
    op.endsBlock
      = (decide (shape = .jump) || decide (shape = .computedJump)
          || decide (op = .popExecutionFlow)) := by
  cases op <;> cases h <;> rfl

theorem itemsLines_stubCall (s : Setting) (start offset indent : Int) (tag : Tag)
    (function : Slot ObjectRef) (parameters : Operands) :
    itemsLines s start offset indent (stubCall tag function parameters) = [] := by
  unfold stubCall
  repeat' split
  all_goals rfl

/-- What an instruction of the top level closes with is a separator if it ends a block, and
nothing otherwise. -/
theorem itemsLines_closingItems (s : Setting) (start offset : Int) (tag : Tag) {op : Opcode}
    {body : Body} (h : op.shape? = some body.shape) :
    itemsLines s start offset 0 (closingItems tag op body)
      = if op.endsBlock then [.separator] else [] := by
  rw [endsBlock_eq h]
  cases body with
  | marker =>
    by_cases hop : op = .popExecutionFlow <;>
      simp [closingItems, Body.shape, hop, itemsLines, Item.lines]
  | finalCall function parameters =>
    have hop : op ≠ .popExecutionFlow := by
      rintro rfl
      simp [Opcode.shape?, Body.shape] at h
    simp [closingItems, Body.shape, hop, itemsLines_stubCall]
  | _ =>
    have hop : op ≠ .popExecutionFlow := by
      rintro rfl
      simp [Opcode.shape?, Body.shape] at h
    simp [closingItems, Body.shape, hop, itemsLines, Item.lines]

/-- What stands behind the lines of an instruction of the top level. -/
def closing (o : Operand) : List Line :=
  if o.endsBlock then [.separator] else []

/-- The lines of an instruction of the top level: its own, without a separator among them, and
what closes it. -/
theorem exists_lines_eq_closing {e : Encoding} {o : Operand} {level : Nat} {offset : Int}
    (s : Setting) (h : (operandLayout e o).fault? level offset = none) :
    ∃ own, (operandLayout e o).lines s offset 0 = own ++ closing o ∧ Line.separator ∉ own := by
  obtain ⟨tag, op, body, hl⟩ := exists_listed h
  have hop : o.endsBlock = op.endsBlock := by
    simp [Operand.endsBlock, hl.operand, Operand.opcode?, Instr.tag, hl.opcode]
  obtain ⟨front, hitems, hfront⟩ := exists_bodyItems_eq e tag op body
  refine ⟨s.announcement offset 0 ++ itemsLines s offset (offset + byteSize) 0 front, ?_, ?_⟩
  · rw [hl.layout, Layout.lines, hitems, itemsLines_append,
      itemsLines_closingItems _ _ _ _ hl.shape, closing, hop, List.append_assoc]
  · rw [List.mem_append, not_or]
    exact ⟨s.separator_not_mem offset 0, separator_not_mem_of_isPlain s offset hfront _⟩

/-- The lines of an instruction of the top level at `offset`, without what closes it. -/
def ownLines (e : Encoding) (s : Setting) (offset : Int) (o : Operand) : List Line :=
  ((operandLayout e o).lines s offset 0).filter (· ≠ .separator)

theorem lines_eq_ownLines {e : Encoding} {o : Operand} {level : Nat} {offset : Int} (s : Setting)
    (h : (operandLayout e o).fault? level offset = none) :
    (operandLayout e o).lines s offset 0 = ownLines e s offset o ++ closing o := by
  obtain ⟨own, hlines, hown⟩ := exists_lines_eq_closing s h
  have hkept : own.filter (· ≠ .separator) = own := by
    rw [List.filter_eq_self]
    intro line hline
    simpa using ne_of_mem_of_not_mem hline hown
  have hdropped : (closing o).filter (· ≠ .separator) = [] := by
    unfold closing
    split <;> rfl
  rw [ownLines, hlines, List.filter_append, hkept, hdropped, List.append_nil]

/-! ## Scripts -/

/-- The lines of the instructions of a script that begins at `offset`, each without what closes
it. -/
def ownBlocks (e : Encoding) (s : Setting) (offset : Nat) : List Operand → List (List Line)
  | [] => []
  | o :: rest => ownLines e s offset o :: ownBlocks e s (offset + o.size e) rest

@[simp] theorem length_ownBlocks (e : Encoding) (s : Setting) (script : List Operand) : ∀ offset,
    (ownBlocks e s offset script).length = script.length := by
  induction script with
  | nil => intro offset; rfl
  | cons o rest ih => intro offset; simp [ownBlocks, ih]

theorem getElem?_ownBlocks (e : Encoding) (s : Setting) (before after : List Operand)
    (o : Operand) : ∀ offset,
    (ownBlocks e s offset (before ++ o :: after))[before.length]?
      = some (ownLines e s (offset + totalWidth e (serialize e before) : Nat) o) := by
  induction before with
  | nil => intro offset; simp [ownBlocks, serialize]
  | cons x rest ih =>
    intro offset
    have hwidth : totalWidth e (serialize e (x :: rest))
        = x.size e + totalWidth e (serialize e rest) := by
      simp [serialize, Operand.totalWidth_atoms]
    rw [List.cons_append, ownBlocks, List.length_cons, List.getElem?_cons_succ, ih, hwidth,
      Nat.add_assoc]

/-- Lines with what closes the instructions that they belong to. -/
def joinBlocks (blocks : List (List Line)) (script : List Operand) : List Line :=
  (List.zipWith (fun own o => own ++ closing o) blocks script).flatten

/-- A script that is listed is cut at the ends of its instructions. -/
theorem itemsLines_eq_joinBlocks {e : Encoding} (s : Setting) {script : List Operand} :
    ∀ {offset : Nat}, itemsFault? 0 0 offset (scriptItems e script) = none →
    itemsLines s 0 offset (-1) (scriptItems e script)
      = joinBlocks (ownBlocks e s offset script) script := by
  induction script with
  | nil => intro offset _; rfl
  | cons o rest ih =>
    intro offset h
    rw [scriptItems, List.map_cons, itemsFault?, Option.or_eq_none_iff] at h
    have hsize : (operandLayout e o).size = o.size e := (faithful e s o 1 offset 0 h.1).1
    have hrest := @ih (offset + o.size e) (by simpa [Item.size, hsize, scriptItems] using h.2)
    rw [scriptItems, List.map_cons, itemsLines, joinBlocks, ownBlocks, List.zipWith_cons_cons,
      List.flatten_cons, ← lines_eq_ownLines s h.1]
    simpa [Item.lines, Item.size, hsize, scriptItems, joinBlocks] using hrest

/-- The text of a line other than a separator is not that of a separator. -/
theorem Line.text_ne_separatorText {line : Line} (hne : line ≠ .separator)
    (h : ∀ hd, line.head? = some hd → hd.Proper) : line.text ≠ separatorText := by
  intro htext
  have hsep : LineKind.separator.holds line.text = true := by
    rw [htext]
    exact beq_self_eq_true _
  have hkind := LineKind.eq_of_holds (line.holds_kind h) hsep
  cases line with
  | separator => exact hne rfl
  | instr offset indent op label detail => simp [Line.kind] at hkind
  | note indent text => simp [Line.kind] at hkind

theorem proper_of_faithful {lines : List Line} {vs : List Visit}
    (h : heads lines = vs.map Visit.head) {line : Line} (hmem : line ∈ lines) :
    ∀ hd, line.head? = some hd → hd.Proper := by
  intro hd hhd
  have hhead : hd ∈ heads lines := List.mem_filterMap.mpr ⟨line, hmem, hhd⟩
  rw [h] at hhead
  obtain ⟨v, -, rfl⟩ := List.mem_map.mp hhead
  exact ⟨Int.natCast_nonneg _, Int.natCast_nonneg _⟩

/-- `own` are the lines of the instruction `o` behind the instructions `before`. -/
structure Produced (e : Encoding) (s : Setting) (before : List Operand) (o : Operand)
    (own : List Line) : Prop where
  /-- The walk of the instruction appends them, and then what closes the instruction. -/
  appended : ∃ d d', walkAll s (before.map (operandLayout e)) {} = .ok d
    ∧ walk s 0 (operandLayout e o) d = .ok d'
    ∧ d'.lines.toList = d.lines.toList ++ own ++ closing o
  /-- They are those of the instruction and of all that is nested in it. -/
  heads_eq : heads own
    = (visitsFrom e (totalWidth e (serialize e before)) (o.atoms e 1 0)).map Visit.head
  ne_nil : own ≠ []
  /-- None of them is a separator. -/
  text_ne : ∀ line ∈ own, line.text ≠ separatorText

theorem itemsSize_scriptItems {e : Encoding} {script : List Operand}
    (h : itemsFault? 0 0 0 (scriptItems e script) = none) :
    itemsSize (scriptItems e script) = (totalWidth e (serialize e script) : Nat) := by
  rw [totalWidth_serialize]
  exact (scriptItems_faithful {} h).1

/-- The walk of one more instruction appends its lines. -/
theorem exists_walk_eq_ok {e : Encoding} (s : Setting) {before : List Operand} {o : Operand}
    (hbefore : itemsFault? 0 0 0 (scriptItems e before) = none)
    (ho : (operandLayout e o).fault? 1 (totalWidth e (serialize e before) : Nat) = none) :
    ∃ d d', walkAll s (before.map (operandLayout e)) {} = .ok d
      ∧ walk s 0 (operandLayout e o) d = .ok d'
      ∧ d'.lines.toList = d.lines.toList
          ++ (operandLayout e o).lines s (totalWidth e (serialize e before) : Nat) 0 := by
  have hd := walkAll_eq e s before
  rw [hbefore, itemsSize_scriptItems hbefore, Draft.outcome] at hd
  generalize hdraft : Draft.extend {} (totalWidth e (serialize e before) : Nat)
    (itemsLines s 0 0 (-1) (scriptItems e before)) (itemsLink s (scriptItems e before)) = d at hd
  have hoffset : d.offset = (totalWidth e (serialize e before) : Nat) := by
    rw [← hdraft]
    exact Int.zero_add _
  have hindent : d.indent = -1 := by
    rw [← hdraft]
    rfl
  have hwalk := walk_eq s 0 (operandLayout e o) d
  rw [hoffset, hindent, ho] at hwalk
  exact ⟨d, _, hd, hwalk, by simp [Draft.extend]⟩

theorem produced_ownLines {e : Encoding} (s : Setting) {before : List Operand} {o : Operand}
    (hbefore : itemsFault? 0 0 0 (scriptItems e before) = none)
    (ho : (operandLayout e o).fault? 1 (totalWidth e (serialize e before) : Nat) = none) :
    Produced e s before o (ownLines e s (totalWidth e (serialize e before) : Nat) o) := by
  have hcut := lines_eq_ownLines s ho
  have hheads : heads (ownLines e s (totalWidth e (serialize e before) : Nat) o)
      = (visitsFrom e (totalWidth e (serialize e before)) (o.atoms e 1 0)).map Visit.head := by
    have hclosing : heads (closing o) = [] := by
      unfold closing
      split <;> rfl
    have hlines := (faithful e s o 1 (totalWidth e (serialize e before)) 0 ho).2
    rwa [Int.natCast_zero, hcut, heads_append, hclosing, List.append_nil] at hlines
  refine ⟨?_, hheads, ?_, ?_⟩
  · obtain ⟨d, d', hd, hwalk, hlines⟩ := exists_walk_eq_ok s hbefore ho
    exact ⟨d, d', hd, hwalk, by rw [hlines, hcut, List.append_assoc]⟩
  · intro hnil
    rw [hnil, Operand.atoms_eq] at hheads
    simp [visitsFrom, heads] at hheads
  · intro line hline
    refine line.text_ne_separatorText ?_ (proper_of_faithful hheads hline)
    simpa using (List.mem_filter.mp hline).2

/-- The lines of each instruction of a script that is listed. -/
theorem exists_produced {e : Encoding} (s : Setting) {script before after : List Operand}
    {o : Operand} (h : itemsFault? 0 0 0 (scriptItems e script) = none)
    (hsplit : script = before ++ o :: after) :
    ∃ own, (ownBlocks e s 0 script)[before.length]? = some own ∧ Produced e s before o own := by
  rw [hsplit, scriptItems_append, itemsFault?_append, Option.or_eq_none_iff] at h
  obtain ⟨hbefore, hrest⟩ := h
  rw [itemsSize_scriptItems hbefore, Int.zero_add] at hrest
  have ho : (operandLayout e o).fault? 1 (totalWidth e (serialize e before) : Nat) = none :=
    (Option.or_eq_none_iff.mp hrest).1
  refine ⟨_, by rw [hsplit]; exact getElem?_ownBlocks e s before after o 0, ?_⟩
  rw [Nat.zero_add]
  exact produced_ownLines s hbefore ho

theorem text_ne_of_mem_ownBlocks {e : Encoding} {s : Setting} {script : List Operand}
    (h : itemsFault? 0 0 0 (scriptItems e script) = none) {own : List Line}
    (hown : own ∈ ownBlocks e s 0 script) : ∀ line ∈ own, line.text ≠ separatorText := by
  obtain ⟨i, hi, rfl⟩ := List.mem_iff_getElem.mp hown
  have hi' : i < script.length := by simpa using hi
  have hsplit : script = script.take i ++ script[i] :: script.drop (i + 1) := by simp
  obtain ⟨own, hget, hproduced⟩ := exists_produced s h hsplit
  rw [List.length_take_of_le (Nat.le_of_lt hi'), List.getElem?_eq_getElem hi] at hget
  rw [Option.some.inj hget]
  exact hproduced.text_ne

/-- Separators are counted at the ends of blocks. -/
theorem count_joinBlocks {script : List Operand} : ∀ {blocks : List (List Line)},
    blocks.length = script.length → (∀ own ∈ blocks, ∀ line ∈ own, line.text ≠ separatorText) →
    ((joinBlocks blocks script).map Line.text).count separatorText
      = script.countP Operand.endsBlock := by
  induction script with
  | nil => intro blocks _ _; simp [joinBlocks]
  | cons o rest ih =>
    intro blocks hlength hblocks
    cases blocks with
    | nil => simp at hlength
    | cons own blocks =>
      rw [List.forall_mem_cons] at hblocks
      have hrest := ih (Nat.succ.inj hlength) hblocks.2
      have hown : (own.map Line.text).count separatorText = 0 := by
        rw [List.count_eq_zero, List.mem_map]
        rintro ⟨line, hline, htext⟩
        exact hblocks.1 line hline htext
      have hclosing : ((closing o).map Line.text).count separatorText
          = if o.endsBlock then 1 else 0 := by
        unfold closing
        split <;> simp [Line.text]
      rw [joinBlocks] at hrest
      rw [joinBlocks, List.zipWith_cons_cons, List.flatten_cons, List.map_append, List.map_append,
        List.count_append, List.count_append, hown, hclosing, hrest, List.countP_cons]
      omega

/-- The listing of a script consists of the lines of its instructions, each one followed by a
separator if it ends a block.  The lines of an instruction are those that its walk appends, and
they go with the instruction and with all that is nested in it; no separator is among them.  So
there are as many separators as instructions of the top level that end a block. -/
theorem disassemble_separators {e : Encoding} {s : Setting} {script : List Operand} {l : Listing}
    (h : disassemble e s script = .ok l) :
    ∃ blocks, blocks.length = script.length
      ∧ l.lines = joinBlocks blocks script
      ∧ (∀ before o after, script = before ++ o :: after →
          ∃ own, blocks[before.length]? = some own ∧ Produced e s before o own)
      ∧ (l.lines.map Line.text).count separatorText = script.countP Operand.endsBlock := by
  obtain ⟨hf, rfl⟩ := disassemble_eq_ok h
  have hlines : itemsLines s 0 0 (-1) (scriptItems e script)
      = joinBlocks (ownBlocks e s 0 script) script := itemsLines_eq_joinBlocks s hf
  refine ⟨ownBlocks e s 0 script, length_ownBlocks e s script 0, hlines, ?_, ?_⟩
  · intro before o after hsplit
    exact exists_produced s hf hsplit
  · rw [hlines]
    exact count_joinBlocks (length_ownBlocks e s script 0) fun own hown =>
      text_ne_of_mem_ownBlocks hf hown

/-- A jump. -/
def sampleJump : Operand := .instr (.mk (.code 0x06) (.jump (.document (.int 0))))

/-- A jump to a computed offset, with another jump where the offset should be. -/
def sampleComputedJump : Operand := .instr (.mk (.code 0x4E) (.computedJump sampleJump))

/-- Of the two jumps in the first instruction the outer one ends a block; the separator stands
behind the line of the inner one. -/
theorem disassemble_separators_sample :
    ∃ l own own', disassemble {} {} [sampleComputedJump, sampleReturn, sampleJump] = .ok l
      ∧ Produced {} {} [] sampleComputedJump own
      ∧ Produced {} {} [sampleComputedJump, sampleReturn] sampleJump own'
      ∧ (l.lines.map Line.text).count separatorText = 2 := by
  have h : ∃ l, disassemble {} {} [sampleComputedJump, sampleReturn, sampleJump] = .ok l :=
    ⟨_, rfl⟩
  obtain ⟨l, hl⟩ := h
  obtain ⟨blocks, -, -, hproduced, hcount⟩ := disassemble_separators hl
  obtain ⟨own, -, hown⟩ := hproduced [] sampleComputedJump _ rfl
  obtain ⟨own', -, hown'⟩ := hproduced [sampleComputedJump, sampleReturn] sampleJump [] rfl
  exact ⟨l, own, own', hl, hown, hown', hcount⟩

end Kismet.Listing
