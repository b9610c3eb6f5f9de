import Kismet.Proofs.Offset
set_option autoImplicit false

/-!
# Annotation: notes on events decorate a listing

The note on an event is written before the instruction's own line, while the
walk is under way.  `disassemble_annotation` says that all the same nothing else
changes: the listing with events is the listing without them, with one note in
front of the line of every instruction at whose offset an event continues.
-/

namespace Kismet.Listing

/-! ## Settings with fewer events -/

namespace Setting

/-- The setting without events. -/
def plain (s : Setting) : Setting :=
  { s with eventAt := fun _ => none }

/-- The setting without the event at one offset. -/
def without (s : Setting) (key : Int) : Setting :=
  { s with eventAt := fun offset => if offset = key then none else s.eventAt offset }

@[simp] theorem plain_without (s : Setting) (key : Int) : (s.without key).plain = s.plain := rfl

/-- A line together with the note that belongs in front of it. -/
def annotate (s : Setting) : Line → List Line
  | .instr offset indent op label detail =>
    s.announcement offset indent ++ [.instr offset indent op label detail]
  | line => [line]

@[simp] theorem announcement_plain (s : Setting) (offset indent : Int) :
    s.plain.announcement offset indent = [] := rfl

end Setting

/-! ## Links do not depend on the events -/

mutual

theorem Layout.link_plain (s : Setting) (l : Layout) : l.link s.plain = l.link s := by
  cases l with
  | missing => rfl
  | node verdict items => exact itemsLink_plain s items

theorem itemsLink_plain (s : Setting) (items : List Item) :
    itemsLink s.plain items = itemsLink s items := by
  cases items with
  | nil => rfl
  | cons item rest => rw [itemsLink, itemsLink, item.link_plain s, itemsLink_plain s rest]

theorem Item.link_plain (s : Setting) (item : Item) : item.link s.plain = item.link s := by
  cases item with
  | indented items => exact itemsLink_plain s items
  | nested l => exact l.link_plain s
  | _ => rfl

end

/-! ## Lines -/

/-- The lines of a layout are those without events, annotated. -/
def Layout.Decorated (s : Setting) (l : Layout) : Prop :=
  ∀ level offset indent, l.fault? level offset = none →
    l.lines s offset indent = (l.lines s.plain offset indent).flatMap s.annotate

mutual

theorem itemsLines_decorated {s : Setting} (level scopes : Nat) (start : Int) (items : List Item)
    (hquiet : itemsAll Item.isQuiet items = true)
    (hnested : ∀ k l, Piece.nested k l ∈ itemsPieces scopes items → l.Decorated s)
    (offset indent : Int) (hf : itemsFault? level start offset items = none) :
    itemsLines s start offset indent items
      = (itemsLines s.plain start offset indent items).flatMap s.annotate := by
  cases items with
  | nil => rfl
  | cons item rest =>
    rw [itemsAll, Bool.and_eq_true] at hquiet
    rw [itemsFault?, Option.or_eq_none_iff] at hf
    simp only [itemsPieces, List.mem_append] at hnested
    rw [itemsLines, itemsLines, List.flatMap_append,
      item.lines_decorated level scopes start hquiet.1 (fun k l hl => hnested k l (.inl hl))
        offset indent hf.1,
      itemsLines_decorated level scopes start rest hquiet.2 (fun k l hl => hnested k l (.inr hl))
        _ indent hf.2]

theorem Item.lines_decorated {s : Setting} (level scopes : Nat) (start : Int) (item : Item)
    (hquiet : item.all Item.isQuiet = true)
    (hnested : ∀ k l, Piece.nested k l ∈ item.pieces scopes → l.Decorated s)
    (offset indent : Int) (hf : item.fault? level start offset = none) :
    item.lines s start offset indent
      = (item.lines s.plain start offset indent).flatMap s.annotate := by
  cases item with
  | line op detail label => simp [Item.all, Item.isQuiet] at hquiet
  | indented items =>
    exact itemsLines_decorated level (scopes + 1) start items hquiet hnested offset (indent + 1) hf
  | nested l => exact hnested scopes l (by simp [Item.pieces]) (level + 1) offset (indent + 1) hf
  | separator =>
    simp only [Item.lines]
    split <;> rfl
  | _ => rfl

end

/-- The note and the items of an instruction are its items without events,
annotated: the line comes first, and there is no other. -/
theorem Led.lines_decorated {tag : Tag} {op : Opcode} {items : List Item} (h : Led tag op items)
    {s : Setting} (level : Nat) (start indent : Int)
    (hnested : ∀ k l, Piece.nested k l ∈ itemsPieces 0 items → l.Decorated s) : ∀ offset,
    itemsFault? level start offset items = none →
    s.announcement start indent ++ itemsLines s start offset indent items
      = (itemsLines s.plain start offset indent items).flatMap s.annotate := by
  induction h with
  | line exact quiet =>
    intro offset hf
    rw [itemsFault?, Option.or_eq_none_iff] at hf
    have hrest := itemsLines_decorated level 0 start _ quiet
      (fun k l hl => hnested k l (by simpa [itemsPieces, Item.pieces] using hl)) _ indent hf.2
    simp [itemsLines, Item.lines, Setting.annotate, hrest]
  | bytes led ih =>
    intro offset hf
    have hrest := ih (fun k l hl => hnested k l (by simpa [itemsPieces, Item.pieces] using hl))
      (offset + _) (by simpa [itemsFault?, Item.fault?, Item.size] using hf)
    simpa [itemsLines, Item.lines, Item.size] using hrest
  | fail => intro offset hf; simp [itemsFault?, Item.fault?] at hf
  | refuseText => intro offset hf; simp [itemsFault?, Item.fault?] at hf

theorem nested_mem_map_pieceOf {e : Encoding} {parts : List Part} {k : Nat} {l : Layout}
    (h : Piece.nested k l ∈ parts.map (pieceOf e)) :
    ∃ c, Part.child k c ∈ parts ∧ l = operandLayout e c := by
  obtain ⟨p, hp, hpl⟩ := List.mem_map.mp h
  cases p with
  | cell c => simp [pieceOf] at hpl
  | child k' c =>
    simp only [pieceOf, Piece.nested.injEq] at hpl
    obtain ⟨rfl, rfl⟩ := hpl
    exact ⟨c, hp, rfl⟩

theorem operandLayout_decorated (e : Encoding) (s : Setting) (o : Operand) :
    (operandLayout e o).Decorated s := by
  induction o using Operand.partsInduction e with
  | step o ih =>
    intro level offset indent hf
    obtain ⟨tag, op, body, hl⟩ := exists_listed hf
    have hnested : ∀ k l, Piece.nested k l ∈ itemsPieces 0 (bodyItems e tag op body) →
        l.Decorated s := by
      intro k l hmem
      rw [hl.pieces_eq] at hmem
      obtain ⟨c, hc, rfl⟩ := nested_mem_map_pieceOf hmem
      exact ih k c hc
    rw [hl.layout, Layout.lines, Layout.lines, Setting.announcement_plain, List.nil_append]
    exact hl.led.lines_decorated level offset indent hnested _ hl.fault

theorem scriptItems_decorated {e : Encoding} (s : Setting) {script : List Operand}
    (h : itemsFault? 0 0 0 (scriptItems e script) = none) :
    itemsLines s 0 0 (-1) (scriptItems e script)
      = (itemsLines s.plain 0 0 (-1) (scriptItems e script)).flatMap s.annotate := by
  refine itemsLines_decorated 0 0 0 _ (itemsAll_scriptItems Item.isQuiet_lenient e script) ?_
    0 (-1) h
  intro k l hmem
  rw [itemsPieces_scriptItems] at hmem
  obtain ⟨c, -, rfl⟩ := nested_mem_map_pieceOf hmem
  exact operandLayout_decorated e s c

/-! ## One note for each event -/

theorem Setting.length_announcement (s : Setting) (offset indent : Int) :
    (s.announcement offset indent).length = if (s.eventAt offset).isSome then 1 else 0 := by
  unfold announcement
  cases s.eventAt offset <;> rfl

/-- Annotated lines are more by the instructions at which an event continues. -/
theorem length_flatMap_annotate (s : Setting) (lines : List Line) :
    (lines.flatMap s.annotate).length
      = lines.length + (heads lines).countP fun h => (s.eventAt h.offset).isSome := by
  induction lines with
  | nil => rfl
  | cons line rest ih =>
    cases line with
    | instr offset indent op label detail =>
      have hheads : heads (.instr offset indent op label detail :: rest)
          = ⟨offset, indent, some op⟩ :: heads rest := rfl
      rw [hheads, List.countP_cons, List.flatMap_cons, List.length_append, ih]
      simp only [Setting.annotate, List.length_append, s.length_announcement, List.length_cons]
      simp only [List.length_nil]
      omega
    | note indent text =>
      have hheads : heads (.note indent text :: rest) = heads rest := rfl
      rw [hheads, List.flatMap_cons, List.length_append, ih]
      simp only [Setting.annotate, List.length_cons, List.length_nil]
      omega
    | separator =>
      have hheads : heads (.separator :: rest) = heads rest := rfl
      rw [hheads, List.flatMap_cons, List.length_append, ih]
      simp only [Setting.annotate, List.length_cons, List.length_nil]
      omega

/-- At most one visit has a given offset. -/
theorem countP_offset_le_one {vs : List Visit} (h : vs.Pairwise fun a b => a.offset < b.offset)
    (key : Int) : vs.countP (fun v => decide ((v.offset : Int) = key)) ≤ 1 := by
  induction h with
  | nil => simp
  | @cons v rest hv _ ih =>
    rw [List.countP_cons]
    by_cases hkey : (v.offset : Int) = key
    · have hrest : rest.countP (fun w => decide ((w.offset : Int) = key)) = 0 := by
        rw [List.countP_eq_zero]
        intro w hw
        have hlt := hv w hw
        simp only [decide_eq_true_eq]
        omega
      simp [hrest, hkey]
    · simpa [hkey] using ih

/-- Each visit at which an event continues is at the given offset, or an event
continues there still when that offset is left out. -/
theorem countP_eventAt_le (s : Setting) (key : Int) (vs : List Visit) :
    vs.countP (fun v => (s.eventAt v.offset).isSome)
      ≤ vs.countP (fun v => ((s.without key).eventAt v.offset).isSome)
        + vs.countP (fun v => decide ((v.offset : Int) = key)) := by
  induction vs with
  | nil => simp
  | cons v rest ih =>
    simp only [List.countP_cons]
    by_cases hkey : (v.offset : Int) = key
    · simp only [hkey, decide_true]
      split <;> split <;> simp only [if_true] <;> omega
    · simp only [Setting.without, hkey, if_false, decide_false] at ih ⊢
      split <;> simp <;> omega

theorem annotate_without {s : Setting} {key : Int} {line : Line}
    (h : ∀ hd, line.head? = some hd → hd.offset ≠ key) :
    (s.without key).annotate line = s.annotate line := by
  cases line with
  | instr offset indent op label detail =>
    have hkey : offset ≠ key := h _ rfl
    simp [Setting.annotate, Setting.announcement, Setting.without, hkey]
  | note indent text => rfl
  | separator => rfl

/-- An event at an offset that no line has changes nothing. -/
theorem flatMap_annotate_without {s : Setting} {key : Int} {lines : List Line}
    (h : ∀ hd ∈ heads lines, hd.offset ≠ key) :
    lines.flatMap (s.without key).annotate = lines.flatMap s.annotate := by
  rw [List.flatMap_def, List.flatMap_def]
  congr 1
  apply List.map_congr_left
  intro line hline
  exact annotate_without fun hd hhd => h hd (List.mem_filterMap.mpr ⟨line, hline, hhd⟩)

/-- An event makes for one note at most. -/
theorem length_flatMap_annotate_le {s : Setting} (key : Int) {lines : List Line}
    {vs : List Visit} (hheads : heads lines = vs.map Visit.head)
    (hvs : vs.Pairwise fun a b => a.offset < b.offset) :
    (lines.flatMap s.annotate).length ≤ (lines.flatMap (s.without key).annotate).length + 1 := by
  have hle := countP_eventAt_le s key vs
  have hone := countP_offset_le_one hvs key
  rw [length_flatMap_annotate, length_flatMap_annotate, hheads, List.countP_map, List.countP_map]
  simp only [Function.comp_def, Visit.head]
  omega

/-- With events a script is listed if and only if it is without, and with the same
link; the listing has one note more in front of the line of every instruction at
which an event continues.  An event makes for at most one note, and for none if no
instruction has its offset. -/
theorem disassemble_annotation (e : Encoding) (s : Setting) (script : List Operand) :
    disassemble e s script
      = (disassemble e s.plain script).map (fun l => ⟨l.lines.flatMap s.annotate, l.link⟩)
    ∧ (∀ l, disassemble e s.plain script = .ok l →
        heads l.lines = (visits e script).map Visit.head)
    ∧ ∀ key l l', disassemble e s script = .ok l → disassemble e (s.without key) script = .ok l' →
        l.lines.length ≤ l'.lines.length + 1
        ∧ ((∀ v ∈ visits e script, (v.offset : Int) ≠ key) → l = l') := by
  refine ⟨?_, ?_, ?_⟩
  · rw [disassemble_eq, disassemble_eq]
    cases hf : itemsFault? 0 0 0 (scriptItems e script) with
    | some f => rfl
    | none =>
      simp only [Except.map]
      rw [scriptItems_decorated s hf, itemsLink_plain]
  · intro l hl
    obtain ⟨hf, rfl⟩ := disassemble_eq_ok hl
    exact (scriptItems_faithful s.plain hf).2
  · intro key l l' hl hl'
    obtain ⟨hf, rfl⟩ := disassemble_eq_ok hl
    obtain ⟨-, rfl⟩ := disassemble_eq_ok hl'
    have hheads := (scriptItems_faithful s.plain hf).2
    have hlinks : itemsLink (s.without key) (scriptItems e script)
        = itemsLink s (scriptItems e script) := by
      rw [← itemsLink_plain, ← itemsLink_plain s]
      rfl
    simp only [scriptItems_decorated s hf, scriptItems_decorated (s.without key) hf,
      Setting.plain_without, hlinks]
    refine ⟨?_, ?_⟩
    · exact length_flatMap_annotate_le key hheads (visits_pairwise hf)
    · intro hkey
      rw [flatMap_annotate_without]
      intro hd hmem
      rw [hheads] at hmem
      obtain ⟨v, hv, rfl⟩ := List.mem_map.mp hmem
      exact hkey v hv

/-- Events that continue at the constant of the sample script, and one byte after
its tag. -/
def sampleEvents : Setting where
  eventAt offset :=
    if offset = 15 ∨ offset = 16 then some (.toTarget (.text "Tick") (.int offset)) else none

/-- The event at the constant makes for one note; no instruction starts at the
offset of the other event, and leaving it out changes nothing. -/
theorem disassemble_annotation_sample :
    ∃ l l' l'', disassemble {} sampleEvents [sampleBranch, sampleReturn] = .ok l
      ∧ disassemble {} (sampleEvents.without 15) [sampleBranch, sampleReturn] = .ok l'
      ∧ disassemble {} (sampleEvents.without 16) [sampleBranch, sampleReturn] = .ok l''
      ∧ (∀ v ∈ visits {} [sampleBranch, sampleReturn], (v.offset : Int) ≠ 16)
      ∧ l.lines.length ≤ l'.lines.length + 1
      ∧ l = l'' := by
  have h : ∃ l, disassemble {} sampleEvents [sampleBranch, sampleReturn] = .ok l := ⟨_, rfl⟩
  have h' : ∃ l, disassemble {} (sampleEvents.without 15) [sampleBranch, sampleReturn] = .ok l :=
    ⟨_, rfl⟩
  have h'' : ∃ l, disassemble {} (sampleEvents.without 16) [sampleBranch, sampleReturn] = .ok l :=
    ⟨_, rfl⟩
  obtain ⟨l, hl⟩ := h
  obtain ⟨l', hl'⟩ := h'
  obtain ⟨l'', hl''⟩ := h''
  have hkey : ∀ v ∈ visits {} [sampleBranch, sampleReturn], (v.offset : Int) ≠ 16 := by
    rw [visits_sample]
    simp
  obtain ⟨-, -, hsample⟩ := disassemble_annotation {} sampleEvents [sampleBranch, sampleReturn]
  exact ⟨l, l', l'', hl, hl', hl'', hkey, (hsample 15 l l' hl hl').1,
    (hsample 16 l l'' hl hl'').2 hkey⟩

end Kismet.Listing
