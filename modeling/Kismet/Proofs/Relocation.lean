import Kismet.Proofs.Acceptance
import Kismet.Proofs.Annotation
set_option autoImplicit false

/-!
# Relocation: scripts one after the other

A walk is told how deep it is, so that it cannot lose count.  A `Pass` counts for itself: it
goes one level down before the operands of an instruction and one up after them, as it does
with the indentation.  `process_eq_ok` says that it is back where it began whenever it does
not stop, and `process_eq_walk` that it does what a walk does.

Nothing but the offset is left of one script when the next one begins.  The lines of a layout
that is moved are its lines with their offsets moved (`Layout.lines_relocate`), if the events
are moved along, and whether it can be listed does not depend on where it stands.
`disassemble_append` puts this together for two scripts.
-/

namespace Kismet.Listing

/-! ## Passes -/

/-- The pass after further bytes and lines, and a link if there is one. -/
def Pass.extend (p : Pass) (size : Int) (lines : List Line) (link : Option EventLink) : Pass :=
  ⟨p.depth, p.draft.extend size lines link⟩

/-- A draft that is extended without a fault is extended by what the item adds. -/
theorem eq_extend_of_walkItem {s : Setting} {start depth : Int} {item : Item} {d : Draft}
    {p' : Pass} (h : (walkItem s 0 start item d).map (fun d' => (⟨depth, d'⟩ : Pass)) = .ok p') :
    p' = (⟨depth, d⟩ : Pass).extend item.size (item.lines s start d.offset d.indent)
      (item.link s) := by
  rw [walkItem_eq] at h
  unfold Draft.outcome at h
  split at h
  · simp [Except.map] at h
  · exact (Except.ok.inj h).symm

mutual

/-- What a pass comes to if it does not stop: depth and indentation are as before. -/
theorem process_eq_ok {s : Setting} {l : Layout} {p p' : Pass} (h : process s l p = .ok p') :
    p' = p.extend l.size (l.lines s p.draft.offset (p.draft.indent + 1)) (l.link s) := by
  cases l with
  | missing => simp [process] at h
  | node verdict items =>
    rw [process] at h
    split at h
    · simp at h
    · split at h
      · simp at h
      · split at h
        · simp at h
        · rename_i q hq
          have hitems := processItems_eq_ok hq
          obtain rfl := Except.ok.inj h
          rw [hitems, Setting.announce_eq_extend]
          simp [Pass.extend, Draft.extend, Draft.advance, Draft.shift, Layout.size, Layout.lines,
            Layout.link, Int.add_assoc]

theorem processItems_eq_ok {s : Setting} {start : Int} {items : List Item} {p p' : Pass}
    (h : processItems s start items p = .ok p') :
    p' = p.extend (itemsSize items) (itemsLines s start p.draft.offset p.draft.indent items)
      (itemsLink s items) := by
  cases items with
  | nil =>
    obtain rfl := Except.ok.inj h
    exact congrArg (Pass.mk p.depth) p.draft.extend_zero.symm
  | cons item rest =>
    rw [processItems] at h
    split at h
    · simp at h
    · rename_i q hq
      have hitem := processItem_eq_ok hq
      have hrest := processItems_eq_ok h
      rw [hrest, hitem]
      exact congrArg (Pass.mk p.depth) (Draft.extend_extend ..)

theorem processItem_eq_ok {s : Setting} {start : Int} {item : Item} {p p' : Pass}
    (h : processItem s start item p = .ok p') :
    p' = p.extend item.size (item.lines s start p.draft.offset p.draft.indent)
      (item.link s) := by
  cases item with
  | indented items =>
    rw [processItem] at h
    split at h
    · simp at h
    · rename_i q hq
      have hitems := processItems_eq_ok hq
      obtain rfl := Except.ok.inj h
      rw [hitems]
      exact congrArg (Pass.mk p.depth) (p.draft.shift_extend_shift 1 _ _ _)
  | nested l => exact process_eq_ok h
  | _ => exact eq_extend_of_walkItem h

end

mutual

/-- A pass does what a walk of its depth does. -/
theorem process_eq_walk (s : Setting) (level : Nat) (l : Layout) (d : Draft) :
    process s l ⟨level, d⟩ = (walk s level l d).map (Pass.mk level) := by
  cases l with
  | missing => rfl
  | node verdict items =>
    have hlevel : (maxLevel : Int) < level + 1 ↔ maxLevel < level + 1 := by omega
    rw [process, walk]
    simp only [hlevel]
    split
    · rfl
    · cases verdict.fault? d.offset with
      | some f => rfl
      | none =>
        have hitems := processItems_eq_walkItems s (level + 1) d.offset items
          (s.announce d.offset ((d.advance byteSize).shift 1))
        rw [Int.natCast_add, Int.natCast_one] at hitems
        simp only [hitems]
        cases walkItems s (level + 1) d.offset items
            (s.announce d.offset ((d.advance byteSize).shift 1)) with
        | error f => rfl
        | ok d' => simp [Except.map]

theorem processItems_eq_walkItems (s : Setting) (level : Nat) (start : Int) (items : List Item)
    (d : Draft) :
    processItems s start items ⟨level, d⟩
      = (walkItems s level start items d).map (Pass.mk level) := by
  cases items with
  | nil => rfl
  | cons item rest =>
    rw [processItems, walkItems, processItem_eq_walkItem s level start item d]
    cases walkItem s level start item d with
    | error f => rfl
    | ok d' => exact processItems_eq_walkItems s level start rest d'

theorem processItem_eq_walkItem (s : Setting) (level : Nat) (start : Int) (item : Item)
    (d : Draft) :
    processItem s start item ⟨level, d⟩
      = (walkItem s level start item d).map (Pass.mk level) := by
  cases item with
  | indented items =>
    rw [processItem, walkItem, processItems_eq_walkItems s level start items (d.shift 1)]
    cases walkItems s level start items (d.shift 1) <;> rfl
  | nested l => exact process_eq_walk s level l d
  | _ => rfl

end

/-! ## Moved lines -/

/-- The line with its offset moved; only lines of instructions have one. -/
def Line.relocate (k : Int) : Line → Line
  | .instr offset indent op label detail => .instr (offset + k) indent op label detail
  | line => line

/-- The setting for what is moved by `k`: an event continues at an offset if it did so `k`
bytes further on. -/
def Setting.lowered (s : Setting) (k : Int) : Setting :=
  { s with eventAt := fun offset => s.eventAt (offset + k) }

theorem Setting.announcement_lowered (s : Setting) (k offset indent : Int) :
    s.announcement (offset + k) indent
      = ((s.lowered k).announcement offset indent).map (Line.relocate k) := by
  simp only [announcement, lowered]
  cases s.eventAt (offset + k) <;> rfl

mutual

/-- The lines of a layout that is moved. -/
theorem Layout.lines_relocate (s : Setting) (k offset indent : Int) (l : Layout) :
    l.lines s (offset + k) indent
      = (l.lines (s.lowered k) offset indent).map (Line.relocate k) := by
  cases l with
  | missing => rfl
  | node verdict items =>
    rw [Layout.lines, Layout.lines, List.map_append, Setting.announcement_lowered,
      Int.add_right_comm, itemsLines_relocate s k offset (offset + byteSize) indent items]

theorem itemsLines_relocate (s : Setting) (k start offset indent : Int) (items : List Item) :
    itemsLines s (start + k) (offset + k) indent items
      = (itemsLines (s.lowered k) start offset indent items).map (Line.relocate k) := by
  cases items with
  | nil => rfl
  | cons item rest =>
    rw [itemsLines, itemsLines, List.map_append, Item.lines_relocate s k start offset indent item,
      Int.add_right_comm, itemsLines_relocate s k start (offset + item.size) indent rest]

theorem Item.lines_relocate (s : Setting) (k start offset indent : Int) (item : Item) :
    item.lines s (start + k) (offset + k) indent
      = (item.lines (s.lowered k) start offset indent).map (Line.relocate k) := by
  cases item with
  | separator =>
    simp only [Item.lines]
    split <;> rfl
  | indented items => exact itemsLines_relocate s k start offset (indent + 1) items
  | nested l => exact l.lines_relocate s k offset (indent + 1)
  | _ => rfl

end

/-! ## Layouts without bytes -/

mutual

/-- The layout with all bytes forgotten. -/
def Layout.unsized : Layout → Layout
  | .missing => .missing
  | .node verdict items => .node verdict (itemsUnsized items)

/-- The items with all bytes forgotten. -/
def itemsUnsized : List Item → List Item
  | [] => []
  | item :: rest => item.unsized :: itemsUnsized rest

/-- The item with all bytes forgotten. -/
def Item.unsized : Item → Item
  | .bytes _ => .bytes 0
  | .indented items => .indented (itemsUnsized items)
  | .nested l => .nested l.unsized
  | item => item

end

/-! ## Whether a walk stops -/

theorem Verdict.fault?_eq_none_iff {v : Verdict} {offset : Int} :
    v.fault? offset = none ↔ v = .accepted :=
  ⟨eq_accepted_of_fault?, fun h => by rw [h]; rfl⟩

mutual

/-- Whether a walk stops depends neither on bytes nor on where it begins. -/
theorem Layout.fault?_unsized (level : Nat) (offset offset' : Int) (l : Layout) :
    l.unsized.fault? level offset = none ↔ l.fault? level offset' = none := by
  cases l with
  | missing => simp [Layout.unsized, Layout.fault?]
  | node verdict items =>
    rw [Layout.unsized, Layout.fault?, Layout.fault?]
    split
    · simp
    · rw [Option.or_eq_none_iff, Option.or_eq_none_iff, Verdict.fault?_eq_none_iff,
        Verdict.fault?_eq_none_iff,
        itemsFault?_unsized level offset offset' (offset + byteSize) (offset' + byteSize) items]

theorem itemsFault?_unsized (level : Nat) (start start' offset offset' : Int)
    (items : List Item) :
    itemsFault? level start offset (itemsUnsized items) = none
      ↔ itemsFault? level start' offset' items = none := by
  cases items with
  | nil => rfl
  | cons item rest =>
    rw [itemsUnsized, itemsFault?, itemsFault?, Option.or_eq_none_iff, Option.or_eq_none_iff,
      Item.fault?_unsized level start start' offset offset' item,
      itemsFault?_unsized level start start' _ (offset' + item.size) rest]

theorem Item.fault?_unsized (level : Nat) (start start' offset offset' : Int) (item : Item) :
    item.unsized.fault? level start offset = none ↔ item.fault? level start' offset' = none := by
  cases item with
  | indented items => exact itemsFault?_unsized level start start' offset offset' items
  | nested l => exact l.fault?_unsized (level + 1) offset offset'
  | _ => simp [Item.unsized, Item.fault?]

end

theorem itemsFault?_eq_none_iff (level : Nat) (start start' offset offset' : Int)
    (items : List Item) :
    itemsFault? level start offset items = none
      ↔ itemsFault? level start' offset' items = none := by
  rw [← itemsFault?_unsized level start start offset offset,
    itemsFault?_unsized level start start' offset offset']

/-! ## Items one after the other -/

theorem itemsFault?_append (level : Nat) (start : Int) (a b : List Item) : ∀ offset,
    itemsFault? level start offset (a ++ b)
      = (itemsFault? level start offset a).or
          (itemsFault? level start (offset + itemsSize a) b) := by
  induction a with
  | nil => intro offset; simp [itemsFault?, itemsSize]
  | cons item rest ih =>
    intro offset
    rw [List.cons_append, itemsFault?, itemsFault?, ih, itemsSize, Option.or_assoc, Int.add_assoc]

theorem itemsLines_append (s : Setting) (start indent : Int) (a b : List Item) : ∀ offset,
    itemsLines s start offset indent (a ++ b)
      = itemsLines s start offset indent a
          ++ itemsLines s start (offset + itemsSize a) indent b := by
  induction a with
  | nil => intro offset; simp [itemsLines, itemsSize]
  | cons item rest ih =>
    intro offset
    rw [List.cons_append, itemsLines, itemsLines, ih, itemsSize, List.append_assoc, Int.add_assoc]

theorem itemsLink_append (s : Setting) (a b : List Item) :
    itemsLink s (a ++ b) = (itemsLink s b).or (itemsLink s a) := by
  induction a with
  | nil => simp [itemsLink]
  | cons item rest ih => rw [List.cons_append, itemsLink, itemsLink, ih, Option.or_assoc]

theorem itemsLink_lowered (s : Setting) (k : Int) (items : List Item) :
    itemsLink (s.lowered k) items = itemsLink s items := by
  have hplain : (s.lowered k).plain = s.plain := rfl
  rw [← itemsLink_plain, hplain, itemsLink_plain]

/-! ## Scripts -/

theorem scriptItems_append (e : Encoding) (xs ys : List Operand) :
    scriptItems e (xs ++ ys) = scriptItems e xs ++ scriptItems e ys :=
  List.map_append

/-- No line of a script belongs to an instruction around it. -/
theorem itemsLines_scriptItems (e : Encoding) (s : Setting) (start start' indent : Int)
    (script : List Operand) : ∀ offset,
    itemsLines s start offset indent (scriptItems e script)
      = itemsLines s start' offset indent (scriptItems e script) := by
  induction script with
  | nil => intro offset; rfl
  | cons o rest ih =>
    intro offset
    rw [scriptItems, List.map_cons, itemsLines, itemsLines]
    exact congrArg _ (ih _)

/-- The listing with another one after it, whose offsets are moved by `k`. -/
def followedBy (a : Listing) (k : Int) (b : Listing) : Listing :=
  ⟨a.lines ++ b.lines.map (Line.relocate k), b.link.or a.link⟩

/-- Two scripts are listed one after the other if each of them is listed, the second one with
the events that continue in it. -/
theorem disassemble_append_iff (e : Encoding) (s : Setting) (xs ys : List Operand) (l : Listing) :
    disassemble e s (xs ++ ys) = .ok l ↔
      ∃ a b, disassemble e s xs = .ok a
        ∧ disassemble e (s.lowered (totalWidth e (serialize e xs))) ys = .ok b
        ∧ l = a.followedBy (totalWidth e (serialize e xs)) b := by
  rw [totalWidth_serialize]
  generalize hk : (((xs.map (Operand.size e)).sum : Nat) : Int) = k
  rw [disassemble_eq, disassemble_eq, disassemble_eq, scriptItems_append, itemsFault?_append]
  cases hx : itemsFault? 0 0 0 (scriptItems e xs) with
  | some f => simp
  | none =>
    have hsize : itemsSize (scriptItems e xs) = k := hk ▸ (scriptItems_faithful s hx).1
    have hlines : itemsLines s 0 (0 + k) (-1) (scriptItems e ys)
        = (itemsLines (s.lowered k) 0 0 (-1) (scriptItems e ys)).map (Line.relocate k) := by
      rw [itemsLines_scriptItems e s 0 (0 + k), itemsLines_relocate]
    rw [Option.none_or, itemsLines_append, itemsLink_append, hsize, hlines,
      ← itemsLink_lowered s k (scriptItems e ys)]
    -- The second script stops after the first one just if it stops on its own.
    have hstop := itemsFault?_eq_none_iff 0 0 0 (0 + k) 0 (scriptItems e ys)
    cases hy : itemsFault? 0 0 0 (scriptItems e ys) with
    | some f =>
      rw [hy] at hstop
      obtain ⟨f', hf'⟩ := Option.ne_none_iff_exists'.mp (mt hstop.mp (by simp))
      rw [hf']
      simp
    | none =>
      rw [hstop.mpr hy]
      simp [followedBy, eq_comm]

/-! ## Texts -/

/-- The first column of a line: its offset, if it has one. -/
def columnText : Option Int → String
  | some offset => Text.hex 8 offset
  | none => ""

/-- The text of a line after the first column. -/
def Line.tail : Line → String
  | .instr _ indent op label detail =>
    "  " ++ padding indent ++ "[" ++ Text.hex 2 op.code ++ "] " ++ label
      ++ (match detail with
          | some d => ": " ++ d
          | none => "")
  | line => line.text

theorem Line.text_eq (line : Line) :
    line.text = columnText (line.head?.map Head.offset) ++ line.tail := by
  cases line with
  | instr offset indent op label detail =>
    cases detail <;>
      simp only [text, tail, head?, columnText, Option.map_some, String.append_assoc]
  | note indent text => exact (String.empty_append ..).symm
  | separator => exact (String.empty_append ..).symm

@[simp] theorem Line.tail_relocate (k : Int) (line : Line) :
    (line.relocate k).tail = line.tail := by
  cases line <;> rfl

theorem Line.offset_relocate (k : Int) (line : Line) :
    (line.relocate k).head?.map Head.offset = (line.head?.map Head.offset).map (· + k) := by
  cases line <;> rfl

/-! ## Two scripts -/

/-- A pass that does not stop is back at its depth and indentation, and has only appended
lines; and it is what a walk does.  Two scripts are listed together if both are listed: the
lines of the second one come after those of the first, with the offset of every instruction
moved by the size of the first script and all else as it was. -/
theorem disassemble_append (e : Encoding) (s : Setting) :
    (∀ o p p', process s (operandLayout e o) p = .ok p' →
      p'.depth = p.depth ∧ p'.draft.indent = p.draft.indent
        ∧ p.draft.lines.toList <+: p'.draft.lines.toList)
    ∧ (∀ o (level : Nat) d, process s (operandLayout e o) ⟨level, d⟩
        = (walk s level (operandLayout e o) d).map (Pass.mk level))
    ∧ (∀ xs ys l, disassemble e s.plain (xs ++ ys) = .ok l ↔
        ∃ a b, disassemble e s.plain xs = .ok a ∧ disassemble e s.plain ys = .ok b
          ∧ l = a.followedBy (totalWidth e (serialize e xs)) b)
    ∧ (∀ xs ys l, disassemble e s (xs ++ ys) = .ok l ↔
        ∃ a b, disassemble e s xs = .ok a
          ∧ disassemble e (s.lowered (totalWidth e (serialize e xs))) ys = .ok b
          ∧ l = a.followedBy (totalWidth e (serialize e xs)) b)
    ∧ ∀ (k : Int) (line : Line), line.text = columnText (line.head?.map Head.offset) ++ line.tail
        ∧ (line.relocate k).text
          = columnText ((line.head?.map Head.offset).map (· + k)) ++ line.tail := by
  refine ⟨?_, ?_, ?_, disassemble_append_iff e s, ?_⟩
  · intro o p p' h
    rw [process_eq_ok h]
    refine ⟨rfl, rfl, ?_⟩
    simp [Pass.extend, Draft.extend]
  · intro o level d
    exact process_eq_walk s level _ d
  · intro xs ys l
    exact disassemble_append_iff e s.plain xs ys l
  · intro k line
    refine ⟨line.text_eq, ?_⟩
    rw [Line.text_eq, Line.offset_relocate, Line.tail_relocate]

theorem totalWidth_sampleBranch : totalWidth {} (serialize {} [sampleBranch]) = 14 := by
  simp [serialize, sampleBranch, sampleVariable, Operand.atoms_eq, Operand.parts, Body.parts,
    Part.atoms, Tag.opcode?, Opcode.ofCode?, Opcode.all, Opcode.code, Opcode.shape?, Body.shape,
    Atom.width, Cell.width]

/-- A pass in the middle of another listing, seven instructions deep. -/
def samplePass : Pass := ⟨7, ⟨14, 3, #[.separator], none⟩⟩

/-- The event that continues at the constant of the second instruction continues one byte
after the beginning of that instruction alone. -/
theorem disassemble_append_sample :
    (∃ p, process sampleEvents (operandLayout {} sampleReturn) samplePass = .ok p
      ∧ p.depth = 7 ∧ p.draft.indent = 3 ∧ [Line.separator] <+: p.draft.lines.toList)
    ∧ ∃ l a b, disassemble {} sampleEvents [sampleBranch, sampleReturn] = .ok l
      ∧ disassemble {} sampleEvents [sampleBranch] = .ok a
      ∧ disassemble {} (sampleEvents.lowered 14) [sampleReturn] = .ok b
      ∧ (sampleEvents.lowered 14).eventAt 1 = some (.toTarget (.text "Tick") (.int 15))
      ∧ l = a.followedBy 14 b := by
  obtain ⟨hpass, -, -, happend, -⟩ := disassemble_append {} sampleEvents
  constructor
  · have hp : ∃ p, process sampleEvents (operandLayout {} sampleReturn) samplePass = .ok p :=
      ⟨_, rfl⟩
    obtain ⟨p, hp⟩ := hp
    exact ⟨p, hp, hpass _ _ _ hp⟩
  · have hl : ∃ l, disassemble {} sampleEvents [sampleBranch, sampleReturn] = .ok l := ⟨_, rfl⟩
    obtain ⟨l, hl⟩ := hl
    obtain ⟨a, b, ha, hb, hab⟩ := (happend [sampleBranch] [sampleReturn] l).mp hl
    rw [totalWidth_sampleBranch] at hb hab
    exact ⟨l, a, b, hl, ha, hb, rfl, hab⟩

end Kismet.Listing
