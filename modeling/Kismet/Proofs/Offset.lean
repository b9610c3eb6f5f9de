import Kismet.Proofs.Layout
set_option autoImplicit false

/-!
# Offset: listings count the bytes of the serialized form

A listing is made without the serialized script; its offsets come from replaying
sizes.  `disassemble_offsets` says that they are right: the line of every
instruction, at any depth, carries the total width of what is stored in front of
the instruction, and the walk ends at the size of the script.
-/

namespace Kismet.Listing

/-! ## Heads -/

/-- What a line says about the place of its instruction. -/
structure Head where
  offset : Int
  indent : Int
  op : Option Opcode
  deriving DecidableEq, Repr, Inhabited

/-- The head of the line of an instruction; other lines have none. -/
def Line.head? : Line → Option Head
  | .instr offset indent op _ _ => some ⟨offset, indent, some op⟩
  | _ => none

/-- The heads of lines. -/
def heads (lines : List Line) : List Head :=
  lines.filterMap Line.head?

@[simp] theorem heads_append (a b : List Line) : heads (a ++ b) = heads a ++ heads b := by
  simp [heads]

@[simp] theorem heads_announcement (s : Setting) (offset indent : Int) :
    heads (s.announcement offset indent) = [] := by
  unfold Setting.announcement
  split <;> rfl

/-- The heads of the lines of nested layouts; `indent` is that of a nested layout
without scopes around it. -/
def piecesHeads (s : Setting) (offset indent : Int) : List Piece → List Head
  | [] => []
  | .bytes count :: rest => piecesHeads s (offset + count) indent rest
  | .nested scopes l :: rest =>
    heads (l.lines s offset (indent + scopes)) ++ piecesHeads s (offset + l.size) indent rest

theorem piecesHeads_append (s : Setting) (indent : Int) (a b : List Piece) : ∀ offset,
    piecesHeads s offset indent (a ++ b)
      = piecesHeads s offset indent a ++ piecesHeads s (offset + piecesSize a) indent b := by
  induction a with
  | nil => intro offset; simp [piecesHeads, piecesSize]
  | cons p rest ih =>
    intro offset
    cases p <;> simp [piecesHeads, piecesSize, ih, Int.add_assoc]

mutual

theorem heads_itemsLines (s : Setting) (start indent base : Int) (scopes : Nat)
    (hbase : indent + 1 = base + scopes) (items : List Item)
    (h : itemsAll Item.isQuiet items = true) (offset : Int) :
    heads (itemsLines s start offset indent items)
      = piecesHeads s offset base (itemsPieces scopes items) := by
  cases items with
  | nil => rfl
  | cons item rest =>
    rw [itemsAll, Bool.and_eq_true] at h
    rw [itemsLines, itemsPieces, heads_append, piecesHeads_append,
      item.heads_lines s start indent base scopes hbase h.1,
      heads_itemsLines s start indent base scopes hbase rest h.2, item.size_eq_piecesSize scopes]

theorem Item.heads_lines (s : Setting) (start indent base : Int) (scopes : Nat)
    (hbase : indent + 1 = base + scopes) (item : Item) (h : item.all Item.isQuiet = true)
    (offset : Int) :
    heads (item.lines s start offset indent)
      = piecesHeads s offset base (item.pieces scopes) := by
  cases item with
  | line op detail label => simp [Item.all, Item.isQuiet] at h
  | indented items =>
    exact heads_itemsLines s start (indent + 1) base (scopes + 1) (by omega) items h offset
  | nested l => simp [Item.lines, Item.pieces, piecesHeads, hbase]
  | separator =>
    simp only [Item.lines, Item.pieces, piecesHeads]
    split <;> rfl
  | _ => rfl

end

theorem Led.heads_itemsLines {tag : Tag} {op : Opcode} {items : List Item} (h : Led tag op items)
    (s : Setting) (level : Nat) (start indent : Int) : ∀ offset,
    itemsFault? level start offset items = none →
    heads (itemsLines s start offset indent items)
      = ⟨start, indent, some op⟩ :: piecesHeads s offset (indent + 1) (itemsPieces 0 items) := by
  induction h with
  | line exact quiet =>
    intro offset _
    rw [itemsLines, heads_append,
      Kismet.Listing.heads_itemsLines s start indent (indent + 1) 0 (by simp) _ quiet]
    simp [Item.lines, heads, Line.head?, itemsPieces, Item.pieces, Item.size]
  | bytes led ih =>
    intro offset hf
    have hrest := ih (offset + _) (by simpa [itemsFault?, Item.fault?, Item.size] using hf)
    simpa [itemsLines, Item.lines, Item.size, itemsPieces, Item.pieces, piecesHeads] using hrest
  | fail => intro offset hf; simp [itemsFault?, Item.fault?] at hf
  | refuseText => intro offset hf; simp [itemsFault?, Item.fault?] at hf

end Kismet.Listing

namespace Kismet

/-- The head of the line of a visited instruction. -/
def Visit.head (v : Visit) : Listing.Head :=
  ⟨v.offset, v.indent, v.operand.opcode?⟩

end Kismet

namespace Kismet.Listing

/-- The layout of an operand keeps to its serialized form. -/
def Faithful (e : Encoding) (s : Setting) (o : Operand) : Prop :=
  ∀ level offset indent : Nat, (operandLayout e o).fault? level offset = none →
    (operandLayout e o).size = o.size e ∧
    heads ((operandLayout e o).lines s offset indent)
      = (visitsFrom e offset (o.atoms e level indent)).map Visit.head

theorem pieces_faithful {e : Encoding} {s : Setting} {level indent : Nat} {parts : List Part}
    (ih : ∀ k c, Part.child k c ∈ parts → Faithful e s c) : ∀ offset : Nat,
    piecesFault? level offset (parts.map (pieceOf e)) = none →
    piecesSize (parts.map (pieceOf e)) = (parts.map (Part.size e)).sum ∧
    piecesHeads s offset indent (parts.map (pieceOf e))
      = (visitsFrom e offset (parts.flatMap (Part.atoms e level indent))).map Visit.head := by
  induction parts with
  | nil => intro offset _; exact ⟨rfl, rfl⟩
  | cons p rest ihrest =>
    intro offset hf
    have hrest := ihrest fun k c hc => ih k c (List.mem_cons_of_mem _ hc)
    cases p with
    | cell c =>
      have hf' : piecesFault? level ((offset + c.width e : Nat) : Int) (rest.map (pieceOf e))
          = none := by
        simpa [pieceOf, piecesFault?] using hf
      obtain ⟨hsize, hheads⟩ := hrest (offset + c.width e) hf'
      refine ⟨?_, ?_⟩
      · simp [pieceOf, piecesSize, Part.size, hsize]
      · simpa [pieceOf, piecesHeads, Part.atoms, visitsFrom] using hheads
    | child k c =>
      simp only [List.map_cons, pieceOf, piecesFault?, Option.or_eq_none_iff] at hf
      obtain ⟨hcsize, hcheads⟩ := ih k c (by simp) level offset (indent + k) hf.1
      rw [hcsize] at hf
      obtain ⟨hsize, hheads⟩ := hrest (offset + c.size e) (by simpa using hf.2)
      refine ⟨?_, ?_⟩
      · simp [pieceOf, piecesSize, Part.size, hsize, hcsize]
      · simp only [List.map_cons, pieceOf, piecesHeads, List.flatMap_cons, visitsFrom_append,
          Part.totalWidth_atoms, Part.size, List.map_append, hcsize]
        rw [← hheads, Part.atoms, ← hcheads]
        simp

/-- Every layout keeps to the serialized form. -/
theorem faithful (e : Encoding) (s : Setting) (o : Operand) : Faithful e s o := by
  induction o using Operand.partsInduction e with
  | step o ih =>
    intro level offset indent hf
    obtain ⟨tag, op, body, hl⟩ := exists_listed hf
    have hstart : (offset : Int) + byteSize = ((offset + 1 : Nat) : Int) := rfl
    have hindent : (indent : Int) + 1 = ((indent + 1 : Nat) : Int) := rfl
    have hfault := hl.piecesFault?_eq
    rw [hstart] at hfault
    obtain ⟨hsize, hheads⟩ := pieces_faithful ih (offset + 1) hfault
    refine ⟨?_, ?_⟩
    · rw [hl.layout, Layout.size, itemsSize_eq_piecesSize 0, hl.pieces_eq, hsize, hl.operand,
        Operand.size_instr]
      rfl
    · rw [hl.layout, Layout.lines, heads_append, heads_announcement, List.nil_append,
        hl.led.heads_itemsLines s level offset indent _ hl.fault, hl.pieces_eq, hstart, hindent,
        hheads, Operand.atoms_eq, visitsFrom, List.map_cons]
      simp [Visit.head, Operand.opcode?, Instr.tag, hl.operand, hl.opcode, Atom.width]

/-! ## Scripts -/

theorem itemsPieces_scriptItems (e : Encoding) (script : List Operand) :
    itemsPieces 0 (scriptItems e script) = (script.map (Part.child 0)).map (pieceOf e) := by
  induction script with
  | nil => rfl
  | cons o rest ih =>
    rw [scriptItems] at ih
    simp [scriptItems, itemsPieces, Item.pieces, pieceOf, ih]

/-- The fault of a script is that of its instructions. -/
theorem itemsFault?_scriptItems (e : Encoding) (script : List Operand) :
    itemsFault? 0 0 0 (scriptItems e script)
      = piecesFault? 1 0 ((script.map (Part.child 0)).map (pieceOf e)) := by
  rw [itemsFault?_eq_piecesFault? 0 0 0 _ (itemsAll_scriptItems Item.isClean_lenient e script),
    itemsPieces_scriptItems]

/-- Bytes and heads of a script whose walk does not stop. -/
theorem scriptItems_faithful {e : Encoding} (s : Setting) {script : List Operand}
    (h : itemsFault? 0 0 0 (scriptItems e script) = none) :
    itemsSize (scriptItems e script) = (script.map (Operand.size e)).sum ∧
    heads (itemsLines s 0 0 (-1) (scriptItems e script)) = (visits e script).map Visit.head := by
  rw [itemsFault?_scriptItems] at h
  obtain ⟨hsize, hheads⟩ := @pieces_faithful e s 1 0 _ (fun _ c _ => faithful e s c) 0 h
  refine ⟨?_, ?_⟩
  · rw [itemsSize_eq_piecesSize 0, itemsPieces_scriptItems, hsize, List.map_map]
    rfl
  · rw [heads_itemsLines s 0 (-1) 0 0 (by simp) _
        (itemsAll_scriptItems Item.isQuiet_lenient e script),
      itemsPieces_scriptItems, visits, serialize_eq_flatMap_parts, ← hheads]
    rfl

theorem disassemble_eq_ok {e : Encoding} {s : Setting} {script : List Operand} {l : Listing}
    (h : disassemble e s script = .ok l) :
    itemsFault? 0 0 0 (scriptItems e script) = none
      ∧ l = ⟨itemsLines s 0 0 (-1) (scriptItems e script), itemsLink s (scriptItems e script)⟩ := by
  rw [disassemble_eq] at h
  split at h
  · simp at h
  · rename_i hf
    exact ⟨hf, (Except.ok.inj h).symm⟩

theorem isSome_op_of_mem_heads {lines : List Line} {h : Head} (hmem : h ∈ heads lines) :
    h.op.isSome = true := by
  obtain ⟨line, -, hline⟩ := List.mem_filterMap.mp hmem
  cases line with
  | instr offset indent op label detail =>
    obtain rfl := Option.some.inj hline
    rfl
  | note indent text => simp [Line.head?] at hline
  | separator => simp [Line.head?] at hline

/-- In a script that is listed, instructions stand at all places. -/
theorem visits_instr {e : Encoding} {script : List Operand}
    (h : itemsFault? 0 0 0 (scriptItems e script) = none) :
    ∀ v ∈ visits e script, ∃ i, v.operand = .instr i := by
  intro v hv
  have hmem : v.head ∈ (visits e script).map Visit.head := List.mem_map_of_mem hv
  rw [← (scriptItems_faithful {} h).2] at hmem
  have hop := isSome_op_of_mem_heads hmem
  cases ho : v.operand with
  | instr i => exact ⟨i, rfl⟩
  | missing => simp [Visit.head, Operand.opcode?, ho] at hop
  | foreign => simp [Visit.head, Operand.opcode?, ho] at hop

/-- In a script that is listed, offsets increase. -/
theorem visits_pairwise {e : Encoding} {script : List Operand}
    (h : itemsFault? 0 0 0 (scriptItems e script) = none) :
    (visits e script).Pairwise fun a b => a.offset < b.offset :=
  visitsFrom_pairwise (visits_instr h)

/-! ## A sample -/

/-- A local variable. -/
def sampleVariable : Operand := .instr (.mk (.code 0x00) (.variable .empty))

/-- The constant seven. -/
def sampleConstant : Operand := .instr (.mk (.code 0x1D) (.literal (.document (.int 7))))

/-- A branch on the variable. -/
def sampleBranch : Operand :=
  .instr (.mk (.code 0x07) (.jumpIfNot (.document (.int 14)) sampleVariable))

/-- The return of the constant. -/
def sampleReturn : Operand := .instr (.mk (.code 0x04) (.unary sampleConstant))

theorem parts_sampleVariable (e : Encoding) : sampleVariable.parts e = [.cell .property] := rfl

theorem parts_sampleConstant (e : Encoding) : sampleConstant.parts e = [.cell .int] := rfl

theorem parts_sampleBranch (e : Encoding) :
    sampleBranch.parts e = [.cell .int, .child 0 sampleVariable] := rfl

theorem parts_sampleReturn (e : Encoding) : sampleReturn.parts e = [.child 0 sampleConstant] := rfl

theorem serialize_sample :
    serialize {} [sampleBranch, sampleReturn]
      = [.tag 1 0 sampleBranch, .cell .int, .tag 2 1 sampleVariable, .cell .property,
          .tag 1 0 sampleReturn] ++ .tag 2 1 sampleConstant :: [.cell .int] := by
  simp [serialize, Operand.atoms_eq, parts_sampleBranch, parts_sampleVariable, parts_sampleReturn,
    parts_sampleConstant, Part.atoms]

theorem visits_sample :
    visits {} [sampleBranch, sampleReturn]
      = [⟨sampleBranch, 1, 0, 0⟩, ⟨sampleVariable, 2, 1, 5⟩, ⟨sampleReturn, 1, 0, 14⟩,
          ⟨sampleConstant, 2, 1, 15⟩] := by
  rw [visits, serialize_sample]
  rfl

/-! ## Offsets -/

/-- The walk of a script that is listed ends at the size of the script, which is
the width of its serialized form, and the lines of its instructions carry the
offsets that the instructions have there. -/
theorem disassemble_offsets {e : Encoding} {s : Setting} {script : List Operand} {l : Listing}
    (h : disassemble e s script = .ok l) :
    (∃ d, walkAll s (script.map (operandLayout e)) {} = .ok d
      ∧ l = ⟨d.lines.toList, d.link⟩
      ∧ d.offset = (script.map (Operand.size e)).sum)
    ∧ (script.map (Operand.size e)).sum = totalWidth e (serialize e script)
    ∧ heads l.lines = (visits e script).map Visit.head
    ∧ ∀ before level indent o after,
        serialize e script = before ++ .tag level indent o :: after →
        (heads l.lines)[before.countP Atom.isTag]?
          = some ⟨totalWidth e before, indent, o.opcode?⟩ := by
  obtain ⟨hf, rfl⟩ := disassemble_eq_ok h
  obtain ⟨hsize, hheads⟩ := scriptItems_faithful s hf
  refine ⟨?_, (totalWidth_serialize e script).symm, hheads, ?_⟩
  · refine ⟨_, by rw [walkAll_eq, hf]; rfl, ?_, ?_⟩
    · simp [Draft.extend]
    · simp [Draft.extend, hsize]
  · intro before level indent o after hsplit
    rw [hheads, List.getElem?_map, visits_getElem?_of_split hsplit]
    rfl

/-- The constant of the sample script starts after fifteen bytes: five of the
branch, nine of the variable and one of the return. -/
theorem disassemble_offsets_sample :
    ∃ l, disassemble {} {} [sampleBranch, sampleReturn] = .ok l
      ∧ serialize {} [sampleBranch, sampleReturn]
          = [.tag 1 0 sampleBranch, .cell .int, .tag 2 1 sampleVariable, .cell .property,
              .tag 1 0 sampleReturn] ++ .tag 2 1 sampleConstant :: [.cell .int]
      ∧ (heads l.lines)[3]? = some ⟨15, 1, some .intConst⟩ := by
  have h : ∃ l, disassemble {} {} [sampleBranch, sampleReturn] = .ok l := ⟨_, rfl⟩
  obtain ⟨l, hl⟩ := h
  exact ⟨l, hl, serialize_sample,
    (disassemble_offsets hl).2.2.2 _ 2 1 sampleConstant _ serialize_sample⟩

end Kismet.Listing
