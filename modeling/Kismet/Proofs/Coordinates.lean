import Kismet.Proofs.Decode
import Kismet.Proofs.Link
import Kismet.Proofs.Relocation
import Mathlib.Data.List.Forall2
set_option autoImplicit false

/-!
# Coordinates: small and large ones

The width of coordinates is a matter of bytes.  Layouts with small and with large coordinates
differ in the number of bytes of some items and in nothing else (`operandLayout_unsized`), and
without events nothing of a listing but the offsets depends on bytes.  The offsets are those of
the serialized form, where the coordinates of a constant come right after its tag: from there
on everything is moved (`atoms_spaced`).  `disassemble_coordinates` puts both together.
-/

namespace Kismet

/-- The encoding with coordinates of the given width. -/
def Encoding.withLarge (e : Encoding) (large : Bool) : Encoding :=
  { e with largeWorldCoordinates := large }

namespace Listing

/-! ## What does not depend on bytes -/

@[simp] theorem itemsUnsized_append (a b : List Item) :
    itemsUnsized (a ++ b) = itemsUnsized a ++ itemsUnsized b := by
  induction a with
  | nil => rfl
  | cons item rest ih => simp [itemsUnsized, ih]

/-- The line with its offset forgotten. -/
def Line.unplaced : Line → Line
  | .instr _ indent op label detail => .instr 0 indent op label detail
  | line => line

mutual

theorem Layout.link_unsized (s : Setting) (l : Layout) : l.unsized.link s = l.link s := by
  cases l with
  | missing => rfl
  | node verdict items => exact itemsLink_unsized s items

theorem itemsLink_unsized (s : Setting) (items : List Item) :
    itemsLink s (itemsUnsized items) = itemsLink s items := by
  cases items with
  | nil => rfl
  | cons item rest =>
    rw [itemsUnsized, itemsLink, itemsLink, item.link_unsized s, itemsLink_unsized s rest]

theorem Item.link_unsized (s : Setting) (item : Item) : item.unsized.link s = item.link s := by
  cases item with
  | indented items => exact itemsLink_unsized s items
  | nested l => exact l.link_unsized s
  | _ => rfl

end

mutual

/-- Without events, only the offsets of lines depend on bytes. -/
theorem Layout.lines_unsized (s : Setting) (offset offset' indent : Int) (l : Layout) :
    (l.unsized.lines s.plain offset indent).map Line.unplaced
      = (l.lines s.plain offset' indent).map Line.unplaced := by
  cases l with
  | missing => rfl
  | node verdict items =>
    rw [Layout.unsized, Layout.lines, Layout.lines, Setting.announcement_plain,
      Setting.announcement_plain]
    exact itemsLines_unsized s offset offset' _ _ indent items

theorem itemsLines_unsized (s : Setting) (start start' offset offset' indent : Int)
    (items : List Item) :
    (itemsLines s.plain start offset indent (itemsUnsized items)).map Line.unplaced
      = (itemsLines s.plain start' offset' indent items).map Line.unplaced := by
  cases items with
  | nil => rfl
  | cons item rest =>
    rw [itemsUnsized, itemsLines, itemsLines, List.map_append, List.map_append,
      Item.lines_unsized s start start' offset offset' indent item,
      itemsLines_unsized s start start' _ (offset' + item.size) indent rest]

theorem Item.lines_unsized (s : Setting) (start start' offset offset' indent : Int)
    (item : Item) :
    (item.unsized.lines s.plain start offset indent).map Line.unplaced
      = (item.lines s.plain start' offset' indent).map Line.unplaced := by
  cases item with
  | indented items => exact itemsLines_unsized s start start' offset offset' (indent + 1) items
  | nested l => exact l.lines_unsized s offset offset' (indent + 1)
  | _ => rfl

end

/-! ## Layouts of both encodings -/

section Unsized

variable {e e' : Encoding}

theorem listItems_unsized {ps : Operands}
    (ih : ∀ o ∈ ps.places, (operandLayout e o).unsized = (operandLayout e' o).unsized) :
    itemsUnsized (listItems e ps) = itemsUnsized (listItems e' ps) := by
  cases ps with
  | unusable => rfl
  | list os =>
    rw [listItems, listItems, closed, closed, itemsUnsized_append, itemsUnsized_append]
    congr 1
    induction os with
    | nil => rfl
    | cons o rest ihrest =>
      simp only [Operands.places, List.mem_cons, forall_eq_or_imp] at ih ihrest
      simp [operandLayouts, itemsUnsized, Item.unsized, ih.1, ihrest ih.2]

theorem choiceItems_unsized {cs : Cases}
    (ih : ∀ o ∈ cs.places, (operandLayout e o).unsized = (operandLayout e' o).unsized) :
    itemsUnsized (choiceItems e cs) = itemsUnsized (choiceItems e' cs) := by
  cases cs with
  | unusable => rfl
  | list items =>
    rw [choiceItems, choiceItems]
    generalize 0 = index
    induction items generalizing index with
    | nil => rfl
    | cons c rest ihrest =>
      simp only [Cases.places, List.flatMap_cons, List.mem_append] at ih ihrest
      have hcase : itemsUnsized (caseItems e c) = itemsUnsized (caseItems e' c) := by
        cases c <;> simp [caseItems, itemsUnsized, Item.unsized, SwitchCase.places] at ih ⊢ <;>
          grind
      simp only [numberedItems, itemsUnsized, itemsUnsized_append, List.cons_append, hcase,
        ihrest (fun o ho => ih o (.inr ho))]

theorem scriptTextItems_unsized {tag : Tag} {op : Opcode} {t : ScriptText}
    (ih : ∀ o ∈ t.places, (operandLayout e o).unsized = (operandLayout e' o).unsized) :
    itemsUnsized (scriptTextItems e tag op t) = itemsUnsized (scriptTextItems e' tag op t) := by
  cases t with
  | foreign => rfl
  | mk kind space key source tableId table =>
    simp only [ScriptText.places, List.mem_cons, List.not_mem_nil, or_false, forall_eq_or_imp,
      forall_eq] at ih
    obtain ⟨hspace, hkey, hsource, htableId⟩ := ih
    simp only [scriptTextItems, textItems, itemsUnsized]
    repeat' split
    all_goals simp [itemsUnsized, Item.unsized, labelled, hspace, hkey, hsource, htableId]

/-- One level of a layout, up to bytes. -/
theorem bodyItems_unsized (h : e.setArrayHasProperty = e'.setArrayHasProperty) {tag : Tag}
    {op : Opcode} {body : Body}
    (ih : ∀ o ∈ body.places, (operandLayout e o).unsized = (operandLayout e' o).unsized) :
    itemsUnsized (bodyItems e tag op body) = itemsUnsized (bodyItems e' tag op body) := by
  cases body with
  | textConst t => exact scriptTextItems_unsized ih
  | setArray elements target inner =>
    simp only [Body.places, List.mem_cons, forall_eq_or_imp] at ih
    simp only [bodyItems, h, itemsUnsized_append, listItems_unsized ih.2]
    split <;> simp [itemsUnsized, Item.unsized, ih.1]
  | switchValue index finish cases fallback =>
    simp only [Body.places, List.mem_cons, forall_eq_or_imp] at ih
    simp [bodyItems, itemsUnsized, Item.unsized, ih.1, ih.2.1, choiceItems_unsized ih.2.2]
  | context object skip rvalue expression =>
    simp only [Body.places, List.mem_cons, List.not_mem_nil, or_false, forall_eq_or_imp,
      forall_eq] at ih
    simp only [bodyItems]
    split <;> simp [itemsUnsized, Item.unsized, ih.1, ih.2]
  | assignment destination value property =>
    simp only [Body.places, List.mem_cons, List.not_mem_nil, or_false, forall_eq_or_imp,
      forall_eq] at ih
    simp only [bodyItems]
    split <;> simp [itemsUnsized, Item.unsized, ih.1, ih.2]
  | delegateCall function delegate parameters =>
    simp only [Body.places, List.mem_cons, forall_eq_or_imp] at ih
    simp [bodyItems, itemsUnsized, Item.unsized, ih.1, listItems_unsized ih.2]
  | setSet target elements | setMap target elements =>
    simp only [Body.places, List.mem_cons, forall_eq_or_imp] at ih
    simp [bodyItems, itemsUnsized, Item.unsized, ih.1, listItems_unsized ih.2]
  | virtualCall _ ps | finalCall _ ps | structConst _ _ ps | arrayConst _ ps | setConst _ ps
  | mapConst _ _ ps =>
    simp [bodyItems, itemsUnsized, Item.unsized, listItems_unsized ih]
  | _ =>
    simp only [Body.places, List.mem_cons, List.not_mem_nil, or_false, forall_eq_or_imp,
      forall_eq] at ih
    simp [bodyItems, itemsUnsized, Item.unsized, ih]

/-- Layouts do not depend on the width of coordinates, up to bytes. -/
theorem operandLayout_unsized (h : e.setArrayHasProperty = e'.setArrayHasProperty)
    (o : Operand) : (operandLayout e o).unsized = (operandLayout e' o).unsized := by
  induction o using Operand.placesInduction with
  | step o ih =>
    cases o with
    | missing => rfl
    | foreign => rfl
    | instr i =>
      obtain ⟨tag, body⟩ := i
      cases hop : tag.opcode? with
      | none => simp [operandLayout, layout, hop, Layout.unsized, itemsUnsized]
      | some op =>
        rw [operandLayout_instr e hop, operandLayout_instr e' hop, Layout.unsized, Layout.unsized]
        exact congrArg _ (bodyItems_unsized h ih)

theorem scriptItems_unsized (h : e.setArrayHasProperty = e'.setArrayHasProperty)
    (script : List Operand) :
    itemsUnsized (scriptItems e script) = itemsUnsized (scriptItems e' script) := by
  induction script with
  | nil => rfl
  | cons o rest ih =>
    rw [scriptItems, scriptItems] at ih
    simp [scriptItems, itemsUnsized, Item.unsized, operandLayout_unsized h o, ih]

end Unsized

/-! ## Listings of both encodings -/

theorem Line.exists_relocate {a b : Line} (h : a.unplaced = b.unplaced) :
    ∃ k, a = b.relocate k := by
  cases a with
  | instr offset indent op label detail =>
    cases b with
    | instr offset' indent' op' label' detail' =>
      simp only [unplaced, Line.instr.injEq] at h
      obtain ⟨-, rfl, rfl, rfl, rfl⟩ := h
      have hoffset : offset' + (offset - offset') = offset := by omega
      exact ⟨offset - offset', by rw [relocate, hoffset]⟩
    | note indent' text => simp [unplaced] at h
    | separator => simp [unplaced] at h
  | note indent text => cases b <;> simp_all [unplaced, relocate]
  | separator => cases b <;> simp_all [unplaced, relocate]

end Listing

/-! ## The serialized form -/

/-- The number of coordinates that are stored for an opcode. -/
def Opcode.coordinates : Opcode → Nat
  | .vectorConst | .rotationConst => 3
  | .transformConst => 10
  | _ => 0

/-- The number of coordinates that are stored for what stands in the place of an
instruction. -/
def Operand.coordinates (o : Operand) : Nat :=
  match o.opcode? with
  | some op => op.coordinates
  | none => 0

/-- An instruction with operands of the shape of its opcode stands there. -/
def Operand.IsShaped (o : Operand) : Prop :=
  ∃ tag op body, o = .instr (.mk tag body) ∧ tag.opcode? = some op ∧ op.shape? = some body.shape

/-- The number of coordinates that are stored for visited instructions. -/
def coordinatesOf (vs : List Visit) : Nat :=
  (vs.map fun v => v.operand.coordinates).sum

/-- The place at an offset further on. -/
def Visit.moved (k : Nat) (v : Visit) : Visit :=
  { v with offset := v.offset + k }

/-- Places that are moved by `k`, and by four more for every coordinate on the way. -/
def spread (k : Nat) : List Visit → List Visit
  | [] => []
  | v :: rest => v.moved k :: spread (k + 4 * v.operand.coordinates) rest

theorem spread_append (a b : List Visit) : ∀ k,
    spread k (a ++ b) = spread k a ++ spread (k + 4 * coordinatesOf a) b := by
  induction a with
  | nil => intro k; rfl
  | cons v rest ih =>
    intro k
    simp [spread, ih, coordinatesOf, Nat.mul_add, Nat.add_assoc]

theorem getElem?_spread (vs : List Visit) : ∀ k n,
    (spread k vs)[n]? = vs[n]?.map (Visit.moved (k + 4 * coordinatesOf (vs.take n))) := by
  induction vs with
  | nil => intro k n; rfl
  | cons v rest ih =>
    intro k n
    cases n with
    | zero => rfl
    | succ n => simp [spread, ih, coordinatesOf, Nat.mul_add, Nat.add_assoc]

/-- With large coordinates, the places in a sequence are moved by four bytes for every
coordinate in front of them. -/
def Spaced (e : Encoding) (atoms : List Atom) : Prop :=
  ∀ offset k,
    visitsFrom (e.withLarge true) (offset + k) atoms
      = spread k (visitsFrom (e.withLarge false) offset atoms)
    ∧ totalWidth (e.withLarge true) atoms
      = totalWidth (e.withLarge false) atoms
          + 4 * coordinatesOf (visitsFrom (e.withLarge false) offset atoms)

theorem Spaced.append {e : Encoding} {a b : List Atom} (ha : Spaced e a) (hb : Spaced e b) :
    Spaced e (a ++ b) := by
  intro offset k
  obtain ⟨havisits, hawidth⟩ := ha offset k
  obtain ⟨hbvisits, hbwidth⟩ := hb (offset + totalWidth (e.withLarge false) a)
    (k + 4 * coordinatesOf (visitsFrom (e.withLarge false) offset a))
  constructor
  · have hoffset : offset + k + totalWidth (e.withLarge true) a
        = offset + totalWidth (e.withLarge false) a
          + (k + 4 * coordinatesOf (visitsFrom (e.withLarge false) offset a)) := by
      omega
    rw [visitsFrom_append, visitsFrom_append, spread_append, havisits, hoffset, hbvisits]
  · rw [totalWidth_append, totalWidth_append, visitsFrom_append, hawidth, hbwidth]
    simp only [coordinatesOf, List.map_append, List.sum_append]
    omega

theorem spaced_nil (e : Encoding) : Spaced e [] :=
  fun _ _ => ⟨rfl, rfl⟩

theorem spaced_flatMap {α : Type} {e : Encoding} {f : α → List Atom} {xs : List α}
    (h : ∀ x ∈ xs, Spaced e (f x)) : Spaced e (xs.flatMap f) := by
  induction xs with
  | nil => exact spaced_nil e
  | cons x rest ih =>
    rw [List.flatMap_cons]
    exact (h x (List.mem_cons_self ..)).append (ih fun y hy => h y (List.mem_cons_of_mem _ hy))

/-- A cell is of one width if it holds no coordinates. -/
theorem spaced_cell (e : Encoding) {c : Cell} (h : ∀ n, c ≠ .coordinates n) :
    Spaced e [.cell c] := by
  have hwidth : c.width (e.withLarge true) = c.width (e.withLarge false) := by
    cases c <;> first | rfl | exact absurd rfl (h _)
  intro offset k
  simp [visitsFrom, spread, totalWidth, Atom.width, coordinatesOf, hwidth]

/-- A tag without coordinates moves nothing. -/
theorem spaced_tag (e : Encoding) (level indent : Nat) {o : Operand} (h : o.coordinates = 0) :
    Spaced e [.tag level indent o] := by
  have hwidth : (Atom.tag level indent o).width (e.withLarge true)
      = (Atom.tag level indent o).width (e.withLarge false) := by
    cases o <;> rfl
  intro offset k
  simp [visitsFrom, spread, totalWidth, coordinatesOf, h, hwidth, Visit.moved]

/-- The tag of a constant and its coordinates. -/
theorem spaced_constant (e : Encoding) (level indent : Nat) (i : Instr) :
    Spaced e [.tag level indent (.instr i),
      .cell (.coordinates (Operand.coordinates (.instr i)))] := by
  intro offset k
  simp only [visitsFrom, spread, totalWidth, Atom.width, Cell.width, coordinatesOf, Visit.moved,
    Encoding.withLarge, List.map_cons, List.map_nil, List.sum_cons, List.sum_nil]
  refine ⟨trivial, ?_⟩
  simp
  omega

/-- Coordinates are a matter of the shape. -/
theorem Opcode.coordinates_eq (op : Opcode) :
    op.coordinates
      = match op.shape? with
        | some .vectorConst | some .rotationConst => 3
        | some .transformConst => 10
        | _ => 0 := by
  cases op <;> rfl

theorem Operands.coordinates_not_mem (ps : Operands) (scopes n : Nat) :
    Part.cell (.coordinates n) ∉ ps.parts scopes := by
  cases ps <;> simp [parts]

theorem Cases.coordinates_not_mem (cs : Cases) (n : Nat) :
    Part.cell (.coordinates n) ∉ cs.parts := by
  cases cs with
  | unusable => simp [parts]
  | list items =>
    simp only [parts, List.mem_flatMap, not_exists, not_and]
    intro c _
    cases c <;> simp [SwitchCase.parts]

theorem ScriptText.coordinates_not_mem (t : ScriptText) (n : Nat) :
    Part.cell (.coordinates n) ∉ t.parts := by
  cases t with
  | foreign => simp [parts]
  | mk kind space key source tableId table =>
    simp only [parts]
    grind

theorem Opcode.literalCell_ne_coordinates (op : Opcode) (value : Datum) (n : Nat) :
    op.literalCell value ≠ .coordinates n := by
  cases op <;> simp [literalCell]

/-- The parts of an instruction of the shape of its opcode: its coordinates and nothing else,
or no coordinates at all. -/
theorem Body.coordinates_parts (e : Encoding) {op : Opcode} {body : Body}
    (h : op.shape? = some body.shape) :
    body.parts e op = [.cell (.coordinates op.coordinates)]
      ∨ (op.coordinates = 0 ∧ ∀ n, Part.cell (.coordinates n) ∉ body.parts e op) := by
  rw [Opcode.coordinates_eq, h]
  cases body with
  | rotationConst pitch yaw roll => exact .inl rfl
  | vectorConst x y z => exact .inl rfl
  | transformConst rotation translation scale => exact .inl rfl
  | _ =>
    refine .inr ⟨rfl, fun n => ?_⟩
    simp only [parts]
    grind [Operands.coordinates_not_mem, Cases.coordinates_not_mem,
      ScriptText.coordinates_not_mem, Opcode.literalCell_ne_coordinates]

/-- The sequence of a place in which all instructions have the shape of their opcodes. -/
theorem atoms_spaced (e : Encoding) (o : Operand) : ∀ level indent,
    (∀ l i c, Atom.tag l i c ∈ o.atoms e level indent → c.IsShaped) →
    Spaced e (o.atoms e level indent) := by
  induction o using Operand.partsInduction e with
  | step o ih =>
    intro level indent hshaped
    rw [Operand.atoms_eq] at hshaped ⊢
    obtain ⟨tag, op, body, rfl, hop, hshape⟩ := hshaped level indent o (List.mem_cons_self ..)
    have hcoordinates : Operand.coordinates (.instr (.mk tag body)) = op.coordinates := by
      simp [Operand.coordinates, Operand.opcode?, Instr.tag, hop]
    have hparts : Operand.parts e (.instr (.mk tag body)) = body.parts e op := by
      simp [Operand.parts, hop, hshape]
    rcases Body.coordinates_parts e hshape with hconstant | ⟨hnone, hcells⟩
    · rw [hparts, hconstant, ← hcoordinates]
      exact spaced_constant e level indent _
    · refine Spaced.append (spaced_tag e level indent (hcoordinates.trans hnone))
        (spaced_flatMap fun p hp => ?_)
      cases p with
      | cell c =>
        refine spaced_cell e fun n hn => hcells n ?_
        rwa [← hn, ← hparts]
      | child k c =>
        exact ih k c hp _ _ fun l i c' hc' => hshaped l i c'
          (List.mem_cons_of_mem _ (List.mem_flatMap.mpr ⟨_, hp, hc'⟩))

/-! What is stored does not depend on the width of coordinates. -/

theorem Operand.parts_withLarge (e : Encoding) (large : Bool) (o : Operand) :
    o.parts (e.withLarge large) = o.parts e := by
  have hbody : ∀ (body : Body) (op : Opcode),
      body.parts (e.withLarge large) op = body.parts e op := by
    intro body op
    cases body <;> rfl
  cases o with
  | missing => rfl
  | foreign => rfl
  | instr i =>
    obtain ⟨tag, body⟩ := i
    simp only [parts, hbody]

theorem Operand.atoms_withLarge (e : Encoding) (large : Bool) (o : Operand) :
    ∀ level indent, o.atoms (e.withLarge large) level indent = o.atoms e level indent := by
  induction o using Operand.partsInduction e with
  | step o ih =>
    intro level indent
    rw [atoms_eq, atoms_eq, parts_withLarge, List.flatMap_def, List.flatMap_def]
    refine congrArg _ (congrArg List.flatten (List.map_congr_left fun p hp => ?_))
    cases p with
    | cell c => rfl
    | child k c => exact ih k c hp _ _

theorem serialize_withLarge (e : Encoding) (large : Bool) (script : List Operand) :
    serialize (e.withLarge large) script = serialize e script := by
  rw [serialize, serialize]
  congr 1
  funext o
  exact o.atoms_withLarge e large 1 0

/-- The instruction is a vector or a rotation. -/
def Visit.isTriple (v : Visit) : Bool :=
  v.operand.opcode? == some .vectorConst || v.operand.opcode? == some .rotationConst

/-- The instruction is a transform. -/
def Visit.isTransform (v : Visit) : Bool :=
  v.operand.opcode? == some .transformConst

theorem coordinatesOf_eq (vs : List Visit) :
    coordinatesOf vs = 3 * vs.countP Visit.isTriple + 10 * vs.countP Visit.isTransform := by
  induction vs with
  | nil => rfl
  | cons v rest ih =>
    have hfirst : v.operand.coordinates
        = 3 * (if v.isTriple then 1 else 0) + 10 * (if v.isTransform then 1 else 0) := by
      unfold Operand.coordinates Visit.isTriple Visit.isTransform
      cases v.operand.opcode? with
      | none => rfl
      | some op => cases op <;> rfl
    rw [coordinatesOf] at ih
    rw [coordinatesOf, List.map_cons, List.sum_cons, ih, List.countP_cons, List.countP_cons, hfirst]
    omega

namespace Listing

/-- In an instruction that is listed, all instructions have the shape of their opcodes. -/
theorem isShaped_of_mem_atoms (e : Encoding) (o : Operand) : ∀ level offset,
    (operandLayout e o).fault? level offset = none →
    ∀ k indent l i c, Atom.tag l i c ∈ o.atoms e k indent → c.IsShaped := by
  induction o using Operand.partsInduction e with
  | step o ih =>
    intro level offset hf k indent l i c hc
    obtain ⟨tag, op, body, hl⟩ := exists_listed hf
    rw [Operand.atoms_eq, List.mem_cons, List.mem_flatMap] at hc
    rcases hc with hroot | ⟨p, hp, hc⟩
    · cases hroot
      exact ⟨tag, op, body, hl.operand, hl.opcode, hl.shape⟩
    · cases p with
      | cell cell => simp [Part.atoms] at hc
      | child scopes c' =>
        obtain ⟨offset', hf'⟩ := hl.exists_child hp
        exact ih scopes c' hp _ offset' hf' _ _ l i c hc

/-- The places in a script that is listed, with coordinates of both widths. -/
theorem visits_withLarge {e : Encoding} {script : List Operand}
    (h : itemsFault? 0 0 0 (scriptItems e script) = none) :
    visits (e.withLarge true) script = spread 0 (visits (e.withLarge false) script) := by
  have hspaced : Spaced e (serialize e script) := by
    refine spaced_flatMap fun o ho => ?_
    obtain ⟨offset, hf⟩ := exists_fault?_of_mem_script h ho
    exact atoms_spaced e o 1 0 (isShaped_of_mem_atoms e o 1 offset hf 1 0)
  rw [visits, visits, serialize_withLarge, serialize_withLarge]
  exact (hspaced 0 0).1

theorem scriptItems_withLarge (e : Encoding) (large : Bool) (script : List Operand) :
    itemsUnsized (scriptItems (e.withLarge large) script)
      = itemsUnsized (scriptItems e script) := by
  apply scriptItems_unsized
  rfl

/-- The head at an offset further on. -/
def Head.moved (k : Int) (h : Head) : Head :=
  { h with offset := h.offset + k }

/-- Whether a script is listed does not depend on the width of its coordinates. -/
theorem itemsFault?_withLarge (e : Encoding) (large : Bool) (script : List Operand) :
    itemsFault? 0 0 0 (scriptItems (e.withLarge large) script) = none
      ↔ itemsFault? 0 0 0 (scriptItems e script) = none := by
  rw [← itemsFault?_unsized 0 0 0 0 0, scriptItems_withLarge, itemsFault?_unsized 0 0 0 0 0]

/-- The width of coordinates only moves offsets.  A script is listed with large coordinates if
it is with small ones.  Then the links are the same, and so are the lines, one by one, up to the
offsets in the first column.  An instruction is moved by four bytes for every coordinate in
front of it: three for a vector or a rotation, ten for a transform. -/
theorem disassemble_coordinates (e : Encoding) (s : Setting) (script : List Operand) :
    ((∃ l, disassemble (e.withLarge true) s.plain script = .ok l)
      ↔ ∃ l, disassemble (e.withLarge false) s.plain script = .ok l)
    ∧ ∀ l l', disassemble (e.withLarge true) s.plain script = .ok l →
      disassemble (e.withLarge false) s.plain script = .ok l' →
        l.link = l'.link
        ∧ l.lines.length = l'.lines.length
        ∧ List.Forall₂ (fun a b => (∃ k, a = b.relocate k)
            ∧ a.text = columnText (a.head?.map Head.offset) ++ b.tail
            ∧ b.text = columnText (b.head?.map Head.offset) ++ b.tail) l.lines l'.lines
        ∧ ∀ (n : Nat) h, (heads l'.lines)[n]? = some h →
            (heads l.lines)[n]? = some (h.moved (4 *
              (3 * ((visits (e.withLarge false) script).take n).countP Visit.isTriple
                + 10 * ((visits (e.withLarge false) script).take n).countP
                    Visit.isTransform))) := by
  refine ⟨?_, ?_⟩
  · rw [exists_disassemble_eq_ok_iff, exists_disassemble_eq_ok_iff, itemsFault?_withLarge,
      itemsFault?_withLarge]
  · intro l l' hl hl'
    obtain ⟨hf, rfl⟩ := disassemble_eq_ok hl
    obtain ⟨hf', rfl⟩ := disassemble_eq_ok hl'
    have hunsized : itemsUnsized (scriptItems (e.withLarge true) script)
        = itemsUnsized (scriptItems (e.withLarge false) script) := by
      rw [scriptItems_withLarge, scriptItems_withLarge]
    have hlines := (itemsLines_unsized s 0 0 0 0 (-1) (scriptItems (e.withLarge true) script)).symm
    rw [hunsized, itemsLines_unsized s 0 0 0 0] at hlines
    have hheads := (scriptItems_faithful s.plain hf).2
    have hheads' := (scriptItems_faithful s.plain hf').2
    have hvisits := visits_withLarge ((itemsFault?_withLarge e true script).mp hf)
    refine ⟨?_, ?_, ?_, ?_⟩
    · rw [← itemsLink_unsized, hunsized, itemsLink_unsized]
    · simpa using congrArg List.length hlines
    · rw [← List.forall₂_eq_eq_eq, List.forall₂_map_left_iff, List.forall₂_map_right_iff] at hlines
      refine hlines.imp fun a b hab => ?_
      obtain ⟨k, rfl⟩ := Line.exists_relocate hab
      refine ⟨⟨k, rfl⟩, ?_, b.text_eq⟩
      rw [Line.text_eq, Line.tail_relocate]
    · intro n h hh
      rw [hheads', List.getElem?_map, Option.map_eq_some_iff] at hh
      obtain ⟨v, hv, rfl⟩ := hh
      rw [hheads, hvisits, List.getElem?_map, getElem?_spread, hv, coordinatesOf_eq]
      simp [Visit.head, Visit.moved, Head.moved]

/-- The number zero. -/
def sampleZero : Datum := .document (.real (.finite false 0 0))

/-- A vector. -/
def sampleVector : Operand :=
  .instr (.mk (.code 0x23) (.vectorConst sampleZero sampleZero sampleZero))

/-- A transform. -/
def sampleTransform : Operand :=
  .instr (.mk (.code 0x2B) (.transformConst
    (.tuple [sampleZero, sampleZero, sampleZero, sampleZero])
    (.tuple [sampleZero, sampleZero, sampleZero]) (.tuple [sampleZero, sampleZero, sampleZero])))

/-- The return of the vector. -/
def sampleVectorReturn : Operand := .instr (.mk (.code 0x04) (.unary sampleVector))

/-- The return of the transform. -/
def sampleTransformReturn : Operand := .instr (.mk (.code 0x04) (.unary sampleTransform))

/-- A vector and a transform in front of a constant. -/
def sampleSpots : List Operand := [sampleVectorReturn, sampleTransformReturn, sampleReturn]

theorem countP_sampleSpots (e : Encoding) :
    ((visits (e.withLarge false) sampleSpots).take 5).countP Visit.isTriple = 1
      ∧ ((visits (e.withLarge false) sampleSpots).take 5).countP Visit.isTransform = 1 := by
  have hvector : ∀ e, sampleVectorReturn.parts e = [.child 0 sampleVector] := fun _ => rfl
  have htransform : ∀ e, sampleTransformReturn.parts e = [.child 0 sampleTransform] :=
    fun _ => rfl
  have hthree : ∀ e, sampleVector.parts e = [.cell (.coordinates 3)] := fun _ => rfl
  have hten : ∀ e, sampleTransform.parts e = [.cell (.coordinates 10)] := fun _ => rfl
  have hserialize : ∀ e, serialize e sampleSpots
      = [.tag 1 0 sampleVectorReturn, .tag 2 1 sampleVector, .cell (.coordinates 3),
          .tag 1 0 sampleTransformReturn, .tag 2 1 sampleTransform, .cell (.coordinates 10),
          .tag 1 0 sampleReturn, .tag 2 1 sampleConstant, .cell .int] := by
    simp [serialize, sampleSpots, Operand.atoms_eq, hvector, htransform, hthree, hten,
      parts_sampleReturn, parts_sampleConstant, Part.atoms]
  rw [visits, hserialize]
  exact ⟨rfl, rfl⟩

/-- The constant begins after 57 bytes with small coordinates, and 52 bytes further on with
large ones. -/
theorem disassemble_coordinates_sample :
    ∃ l l', disassemble (Encoding.withLarge {} true) {} sampleSpots = .ok l
      ∧ disassemble (Encoding.withLarge {} false) {} sampleSpots = .ok l'
      ∧ l.link = l'.link ∧ l.lines.length = l'.lines.length
      ∧ (heads l'.lines)[5]? = some ⟨57, 1, some .intConst⟩
      ∧ (heads l.lines)[5]? = some ⟨109, 1, some .intConst⟩ := by
  have hl : ∃ l, disassemble (Encoding.withLarge {} true) {} sampleSpots = .ok l := ⟨_, rfl⟩
  have hl' : ∃ l, disassemble (Encoding.withLarge {} false) {} sampleSpots = .ok l
      ∧ (heads l.lines)[5]? = some ⟨57, 1, some .intConst⟩ := ⟨_, rfl, rfl⟩
  obtain ⟨l, hl⟩ := hl
  obtain ⟨l', hl', hhead⟩ := hl'
  obtain ⟨hlink, hlength, -, hmoved⟩ := (disassemble_coordinates {} {} sampleSpots).2 l l' hl hl'
  have hhead' := hmoved 5 _ hhead
  rw [(countP_sampleSpots {}).1, (countP_sampleSpots {}).2] at hhead'
  exact ⟨l, l', hl, hl', hlink, hlength, hhead, hhead'⟩

end Listing

end Kismet
