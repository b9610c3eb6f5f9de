import Kismet.Proofs.Agreement
import Kismet.Proofs.Dump
set_option autoImplicit false

/-!
# Link: the event links that listings find

The stub of an event is a call with one constant.  A listing keeps the last such
call that it comes to, and the offset where the event continues is the constant as
a number.  `disassemble_link` says which call is kept, and that its constant is a
number: the line of the constant shows it as one.  So the links found in the
functions of an asset can always be indexed.
-/

namespace Kismet

/-! ## Numbers and tags -/

theorem Binary64.ratio_den_pos (m : Nat) (e : Int) : 0 < (ratio m e).2 := by
  unfold ratio
  split
  · exact Nat.one_pos
  · exact Nat.pow_pos (by decide)

/-- A double equals one integer at most. -/
theorem Binary64.eqInt_unique {x : Binary64} {a b : Int} (ha : x.eqInt a = true)
    (hb : x.eqInt b = true) : a = b := by
  cases x with
  | nan => simp [eqInt, compareInt] at ha
  | inf neg => cases neg <;> simp [eqInt, compareInt] at ha
  | finite neg m e =>
    have hd : ((ratio m e).2 : Int) ≠ 0 := by
      have hpos := ratio_den_pos m e
      omega
    simp only [eqInt, compareInt, beq_iff_eq, Option.some.injEq, Int.compare_eq_eq] at ha hb
    exact Int.eq_of_mul_eq_mul_right hd (ha.symm.trans hb)

theorem Document.eqInt_unique {d : Document} {a b : Int} (ha : d.eqInt a = true)
    (hb : d.eqInt b = true) : a = b := by
  unfold eqInt at ha hb
  split at ha
  · rw [beq_iff_eq] at ha hb
    exact ha.symm.trans hb
  · rw [beq_iff_eq] at ha hb
    exact ha.symm.trans hb
  · exact Binary64.eqInt_unique ha hb
  · simp at ha

theorem Datum.eqInt_unique {d : Datum} {a b : Int} (ha : d.eqInt a = true)
    (hb : d.eqInt b = true) : a = b := by
  cases d with
  | document d => exact Document.eqInt_unique ha hb
  | _ => simp [eqInt] at ha

theorem Opcode.code_injective {a b : Opcode} (h : (a.code : Int) = b.code) : a = b := by
  have hcode := ofCode?_code a
  rw [h, ofCode?_code] at hcode
  exact (Option.some.inj hcode).symm

namespace Listing

/-- A tag that stands for an opcode and is not a word is equal to the code of that
opcode and of no other. -/
theorem isCodeOf_iff {tag : Tag} {op : Opcode} (hop : tag.opcode? = some op)
    (hexact : exactOpcode tag op = some op) (other : Opcode) :
    tag.isCodeOf other = true ↔ op = other := by
  cases tag with
  | word s => simp [exactOpcode] at hexact
  | code n =>
    have hn : (op.code : Int) = n := by simpa using List.find?_some hop
    rw [Tag.isCodeOf, beq_iff_eq, ← hn]
    exact ⟨Opcode.code_injective, fun h => by rw [h]⟩
  | other d =>
    have hd : d.eqInt op.code = true := by simpa using List.find?_some hop
    exact ⟨fun h => Opcode.code_injective (Datum.eqInt_unique hd h), fun h => h ▸ hd⟩

end Listing

/-! ## Stubs -/

/-- The call of a stub, if the instruction at the place is one: a call of a function
of the same object whose only parameter is a number. -/
def Operand.stub? : Operand → Option StubCall
  | .instr (.mk tag (.finalCall function (.list [.instr (.mk constantTag (.literal constant))]))) =>
    if tag.opcode? = some .localFinalFunction ∧ constantTag.opcode? = some .intConst then
      some ⟨tag, function, constantTag, constant⟩
    else none
  | _ => none

theorem Operand.eq_of_stub?_eq_some {o : Operand} {c : StubCall} (h : o.stub? = some c) :
    o = .instr c.instr ∧ c.tag.opcode? = some .localFinalFunction
      ∧ c.constantTag.opcode? = some .intConst := by
  unfold stub? at h
  split at h
  · split at h
    · rename_i hops
      obtain rfl := Option.some.inj h
      exact ⟨rfl, hops⟩
    · simp at h
  · simp at h

theorem Operand.stub?_eq_none {tag : Tag} {body : Body}
    (h : ∀ function parameters, body ≠ .finalCall function parameters) :
    (Operand.instr (.mk tag body)).stub? = none := by
  unfold stub?
  split
  · rename_i heq
    exact absurd (Instr.mk.inj (instr.inj heq)).2 (h _ _)
  · rfl

/-- The call of a stub at an atom. -/
def Atom.stub? : Atom → Option StubCall
  | .tag _ _ o => o.stub?
  | .cell _ => none

theorem filterMap_stub?_visitsFrom (e : Encoding) (atoms : List Atom) : ∀ offset,
    (visitsFrom e offset atoms).filterMap (·.operand.stub?) = atoms.filterMap Atom.stub? := by
  induction atoms with
  | nil => intro offset; rfl
  | cons x rest ih =>
    intro offset
    cases x with
    | tag level indent o => simp [visitsFrom, List.filterMap_cons, ih, Atom.stub?]
    | cell c => simp [visitsFrom, List.filterMap_cons, ih, Atom.stub?]

/-- There are no stubs inside a literal. -/
theorem filterMap_stub?_literal (e : Encoding) (level indent : Nat) (tag : Tag) (value : Datum) :
    ((Operand.instr (.mk tag (.literal value))).atoms e level indent).filterMap Atom.stub?
      = [] := by
  have hparts : ∀ p ∈ (Operand.instr (.mk tag (.literal value))).parts e, ∃ c, p = .cell c := by
    intro p hp
    simp only [Operand.parts, Body.parts] at hp
    split at hp
    · split at hp
      · exact ⟨_, List.mem_singleton.mp hp⟩
      · simp at hp
    · simp at hp
  rw [Operand.atoms_eq, List.filterMap_cons]
  simp only [Atom.stub?, Operand.stub?, List.filterMap_flatMap, List.flatMap_eq_nil_iff]
  intro p hp
  obtain ⟨c, rfl⟩ := hparts p hp
  rfl

end Kismet

namespace Kismet.Listing

/-! ## Calls among items -/

mutual

/-- The calls that a layout forwards, in order. -/
def Layout.calls : Layout → List StubCall
  | .missing => []
  | .node _ items => itemsCalls items

/-- The calls that items forward, those of nested instructions included. -/
def itemsCalls : List Item → List StubCall
  | [] => []
  | item :: rest => item.calls ++ itemsCalls rest

/-- The calls that an item forwards. -/
def Item.calls : Item → List StubCall
  | .forward call => [call]
  | .indented items => itemsCalls items
  | .nested l => l.calls
  | _ => []

end

mutual

/-- The link that a layout leaves behind is for the last call that it forwards. -/
theorem Layout.link_eq (s : Setting) (l : Layout) :
    l.link s = if s.isEvent then l.calls.getLast?.map fun c => ⟨s.function, c.instr⟩ else none := by
  cases l with
  | missing => simp [Layout.link, Layout.calls]
  | node verdict items => exact itemsLink_eq s items

theorem itemsLink_eq (s : Setting) (items : List Item) :
    itemsLink s items
      = if s.isEvent then (itemsCalls items).getLast?.map fun c => ⟨s.function, c.instr⟩
        else none := by
  cases items with
  | nil => simp [itemsLink, itemsCalls]
  | cons item rest =>
    rw [itemsLink, itemsLink_eq s rest, item.link_eq s, itemsCalls, List.getLast?_append]
    split
    · cases (itemsCalls rest).getLast? <;> rfl
    · rfl

theorem Item.link_eq (s : Setting) (item : Item) :
    item.link s
      = if s.isEvent then item.calls.getLast?.map fun c => ⟨s.function, c.instr⟩ else none := by
  cases item with
  | forward call => rfl
  | indented items => exact itemsLink_eq s items
  | nested l => exact l.link_eq s
  | _ => simp [Item.link, Item.calls]

end

@[simp] theorem itemsCalls_append (a b : List Item) :
    itemsCalls (a ++ b) = itemsCalls a ++ itemsCalls b := by
  induction a with
  | nil => rfl
  | cons item rest ih => simp [itemsCalls, ih]

/-! ## Calls of an instruction itself -/

/-- The calls that a piece forwards. -/
def Piece.calls : Piece → List StubCall
  | .bytes _ => []
  | .nested _ l => l.calls

mutual

/-- Where the items of an instruction forward nothing themselves, only nested
instructions do. -/
theorem itemsCalls_eq (scopes : Nat) (items : List Item)
    (h : itemsAll Item.isPlain items = true) :
    itemsCalls items = (itemsPieces scopes items).flatMap Piece.calls := by
  cases items with
  | nil => rfl
  | cons item rest =>
    rw [itemsAll, Bool.and_eq_true] at h
    rw [itemsCalls, item.calls_eq scopes h.1, itemsCalls_eq scopes rest h.2, itemsPieces,
      List.flatMap_append]

theorem Item.calls_eq (scopes : Nat) (item : Item) (h : item.all Item.isPlain = true) :
    item.calls = (item.pieces scopes).flatMap Piece.calls := by
  cases item with
  | forward call => simp [Item.all, Item.isPlain] at h
  | indented items => exact itemsCalls_eq (scopes + 1) items h
  | nested l => simp [Item.calls, Item.pieces, Piece.calls]
  | _ => rfl

end

/-! ## Calls of a listed instruction -/

/-- Where the walk of pieces does not stop, neither does that of a nested
instruction among them. -/
theorem exists_fault?_of_mem {level : Nat} {pieces : List Piece} {k : Nat} {l : Layout}
    (hmem : Piece.nested k l ∈ pieces) : ∀ offset, piecesFault? level offset pieces = none →
    ∃ offset', l.fault? level offset' = none := by
  induction pieces with
  | nil => simp at hmem
  | cons p rest ih =>
    intro offset hf
    rcases List.mem_cons.mp hmem with rfl | hrest
    · rw [piecesFault?, Option.or_eq_none_iff] at hf
      exact ⟨offset, hf.1⟩
    · cases p with
      | bytes count => exact ih hrest _ hf
      | nested k' l' =>
        rw [piecesFault?, Option.or_eq_none_iff] at hf
        exact ih hrest _ hf.2

namespace Listed

variable {e : Encoding} {o : Operand} {level : Nat} {offset : Int} {tag : Tag} {op : Opcode}
  {body : Body}

theorem exactOpcode_eq (h : Listed e o level offset tag op body) :
    exactOpcode tag op = some op :=
  h.led.exactOpcode_eq _ _ _ h.fault

/-- Instructions nested in a listed one are listed. -/
theorem exists_child (h : Listed e o level offset tag op body) {k : Nat} {c : Operand}
    (hc : Part.child k c ∈ o.parts e) :
    ∃ offset', (operandLayout e c).fault? (level + 1) offset' = none := by
  have hmem : Piece.nested k (operandLayout e c) ∈ (o.parts e).map (pieceOf e) :=
    List.mem_map_of_mem hc
  exact exists_fault?_of_mem hmem _ h.piecesFault?_eq

/-- A listed instruction with a given tag: the tag is equal to the code of an opcode
just when it stands for that opcode. -/
theorem isCodeOf_eq (h : Listed e o level offset tag op body) (other : Opcode) :
    tag.isCodeOf other = true ↔ tag.opcode? = some other := by
  rw [isCodeOf_iff h.opcode h.exactOpcode_eq, h.opcode, Option.some.injEq]

/-- The constant that a listed call of a function has for its only parameter is
listed. -/
theorem exists_constant {function : Slot ObjectRef} {constantTag : Tag} {constant : Datum}
    (h : Listed e o level offset tag op
      (.finalCall function (.list [.instr (.mk constantTag (.literal constant))]))) :
    ∃ offset' op', Listed e (.instr (.mk constantTag (.literal constant))) (level + 1) offset'
      constantTag op' (.literal constant) := by
  have hmem : Part.child 0 (.instr (.mk constantTag (.literal constant))) ∈ o.parts e := by
    simp [h.parts_eq, Body.parts, Operands.parts]
  obtain ⟨offset', hf⟩ := h.exists_child hmem
  obtain ⟨tag', op', body', hc⟩ := exists_listed hf
  obtain ⟨rfl, rfl⟩ := Instr.mk.inj (Operand.instr.inj hc.operand)
  exact ⟨offset', op', hc⟩

/-- What the items of a listed call of a function forward is the call of its stub. -/
theorem stubCall_eq {function : Slot ObjectRef} {parameters : Operands}
    (h : Listed e o level offset tag op (.finalCall function parameters)) :
    stubCall tag function parameters = o.stub?.toList.map .forward := by
  obtain rfl := h.operand
  unfold stubCall
  split
  · obtain ⟨offset', op', hc⟩ := h.exists_constant
    simp only [Bool.and_eq_true, h.isCodeOf_eq, hc.isCodeOf_eq, Operand.stub?]
    split <;> rfl
  · rename_i hother
    unfold Operand.stub?
    split
    · rename_i heq
      obtain ⟨-, rfl⟩ := Body.finalCall.inj (Instr.mk.inj (Operand.instr.inj heq)).2
      exact absurd rfl (hother _ _)
    · rfl

/-- The last items of a listed instruction forward the call of its stub, if it is one. -/
theorem calls_closingItems (h : Listed e o level offset tag op body) :
    itemsCalls (closingItems tag op body) = o.stub?.toList := by
  by_cases hcall : ∃ function parameters, body = .finalCall function parameters
  · obtain ⟨function, parameters, rfl⟩ := hcall
    rw [closingItems, h.stubCall_eq]
    cases o.stub? <;> rfl
  · have hother : ∀ function parameters, body ≠ .finalCall function parameters :=
      fun function parameters hbody => hcall ⟨function, parameters, hbody⟩
    rw [h.operand, Operand.stub?_eq_none hother]
    cases body with
    | finalCall function parameters => exact absurd rfl (hother function parameters)
    | marker =>
      rw [closingItems]
      split <;> rfl
    | _ => rfl

/-- The calls that a listed instruction forwards: those of nested instructions, then
its own. -/
theorem calls_eq (h : Listed e o level offset tag op body) :
    (operandLayout e o).calls
      = ((o.parts e).map (pieceOf e)).flatMap Piece.calls ++ o.stub?.toList := by
  obtain ⟨front, hitems, hfront⟩ := exists_bodyItems_eq e tag op body
  have hpieces := h.pieces_eq
  rw [hitems, itemsPieces_append, itemsPieces_closingItems, List.append_nil] at hpieces
  rw [h.layout, Layout.calls, hitems, itemsCalls_append, h.calls_closingItems,
    itemsCalls_eq 0 _ hfront, hpieces]

/-- The constant of a stub that is listed is a number. -/
theorem exists_toInt (h : Listed e o level offset tag op body) {c : StubCall}
    (hc : o.stub? = some c) : ∃ n, c.constant.toInt = .ok n := by
  obtain ⟨ho, -, hconst⟩ := Operand.eq_of_stub?_eq_some hc
  obtain ⟨rfl, rfl⟩ := Instr.mk.inj (Operand.instr.inj (h.operand.symm.trans ho))
  obtain ⟨offset', op', hl⟩ := h.exists_constant
  obtain rfl := Option.some.inj (hl.opcode.symm.trans hconst)
  have hclean := isClean_of_itemsFault? _ _ _ _ hl.fault
  cases hint : c.constant.toInt with
  | ok n => exact ⟨n, rfl⟩
  | error f =>
    have hdetail : decimalText c.constant = .error f := by rw [decimalText, hint]; rfl
    simp [bodyItems, hl.exactOpcode_eq, literalParts, hdetail, detailed, itemsAll, Item.all,
      Item.isClean] at hclean

end Listed

/-- The calls that a listed instruction forwards are those of the stubs in it, in the
order in which they are visited. -/
theorem operandLayout_calls (e : Encoding) (o : Operand) : ∀ level offset,
    (operandLayout e o).fault? level offset = none → ∀ lv indent,
    (operandLayout e o).calls = (o.atoms e lv indent).filterMap Atom.stub? := by
  induction o using Operand.partsInduction e with
  | step o ih =>
    intro level offset hf lv indent
    obtain ⟨tag, op, body, hl⟩ := exists_listed hf
    have hnested : ((o.parts e).map (pieceOf e)).flatMap Piece.calls
        = ((o.parts e).flatMap (Part.atoms e (lv + 1) (indent + 1))).filterMap Atom.stub? := by
      rw [List.flatMap_map, List.filterMap_flatMap, List.flatMap_def, List.flatMap_def]
      refine congrArg List.flatten (List.map_congr_left fun p hp => ?_)
      cases p with
      | cell c => rfl
      | child k c =>
        obtain ⟨offset', hc⟩ := hl.exists_child hp
        exact ih k c hp _ _ hc _ _
    rw [hl.calls_eq, Operand.atoms_eq, List.filterMap_cons, hnested, Atom.stub?]
    cases hstub : o.stub? with
    | none => simp
    | some c =>
      -- The only instruction inside a stub is the constant.
      obtain ⟨rfl, hop, -⟩ := Operand.eq_of_stub?_eq_some hstub
      have hempty : (((Operand.instr c.instr).parts e).flatMap
          (Part.atoms e (lv + 1) (indent + 1))).filterMap Atom.stub? = [] := by
        have hparts : (Operand.instr c.instr).parts e
            = [.cell .object, .child 0 (.instr (.mk c.constantTag (.literal c.constant))),
                .cell .terminator] := by
          simp [StubCall.instr, Operand.parts, hop, Opcode.shape?, Body.shape, Body.parts,
            Operands.parts]
        rw [hparts, List.filterMap_flatMap]
        simp only [List.flatMap_cons, List.flatMap_nil, Part.atoms, filterMap_stub?_literal]
        rfl
      rw [hempty]
      rfl

/-- The calls that a listed instruction forwards have numbers for constants. -/
theorem exists_toInt_of_mem_calls (e : Encoding) (o : Operand) : ∀ level offset,
    (operandLayout e o).fault? level offset = none →
    ∀ c ∈ (operandLayout e o).calls, ∃ n, c.constant.toInt = .ok n := by
  induction o using Operand.partsInduction e with
  | step o ih =>
    intro level offset hf c hc
    obtain ⟨tag, op, body, hl⟩ := exists_listed hf
    rw [hl.calls_eq, List.mem_append] at hc
    rcases hc with hc | hc
    · obtain ⟨piece, hpiece, hc⟩ := List.mem_flatMap.mp hc
      cases piece with
      | bytes count => simp [Piece.calls] at hc
      | nested k l =>
        obtain ⟨child, hchild, rfl⟩ := nested_mem_map_pieceOf hpiece
        obtain ⟨offset', hf'⟩ := hl.exists_child hchild
        exact ih k child hchild _ _ hf' c hc
    · exact hl.exists_toInt (Option.mem_toList.mp hc)

/-! ## Scripts -/

theorem itemsCalls_scriptItems (e : Encoding) (script : List Operand) :
    itemsCalls (scriptItems e script) = script.flatMap fun o => (operandLayout e o).calls := by
  rw [itemsCalls_eq 0 _ (itemsAll_scriptItems Item.isPlain_lenient e script),
    itemsPieces_scriptItems, List.map_map, List.flatMap_map]
  rfl

/-- The instructions of a script that is listed are listed. -/
theorem exists_fault?_of_mem_script {e : Encoding} {script : List Operand} {o : Operand}
    (h : itemsFault? 0 0 0 (scriptItems e script) = none) (ho : o ∈ script) :
    ∃ offset, (operandLayout e o).fault? 1 offset = none := by
  rw [itemsFault?_scriptItems] at h
  refine exists_fault?_of_mem (k := 0) ?_ 0 h
  rw [List.map_map]
  exact List.mem_map_of_mem ho

/-- The calls that a listed script forwards are those of the stubs in it. -/
theorem scriptItems_calls {e : Encoding} {script : List Operand}
    (h : itemsFault? 0 0 0 (scriptItems e script) = none) :
    itemsCalls (scriptItems e script) = (visits e script).filterMap (·.operand.stub?) := by
  rw [itemsCalls_scriptItems, visits, filterMap_stub?_visitsFrom, serialize,
    List.filterMap_flatMap, List.flatMap_def, List.flatMap_def]
  refine congrArg List.flatten (List.map_congr_left fun o ho => ?_)
  obtain ⟨offset, hf⟩ := exists_fault?_of_mem_script h ho
  exact operandLayout_calls e o _ _ hf 1 0

theorem exists_toInt_of_mem_stubs {e : Encoding} {script : List Operand}
    (h : itemsFault? 0 0 0 (scriptItems e script) = none) {c : StubCall}
    (hc : c ∈ (visits e script).filterMap (·.operand.stub?)) : ∃ n, c.constant.toInt = .ok n := by
  rw [← scriptItems_calls h, itemsCalls_scriptItems, List.mem_flatMap] at hc
  obtain ⟨o, ho, hc⟩ := hc
  obtain ⟨offset, hf⟩ := exists_fault?_of_mem_script h ho
  exact exists_toInt_of_mem_calls e o _ _ hf c hc

/-- The link of a listing is for the last stub that is visited. -/
theorem link_eq_of_disassemble {e : Encoding} {s : Setting} {script : List Operand} {l : Listing}
    (h : disassemble e s script = .ok l) :
    l.link = if s.isEvent then
        ((visits e script).filterMap (·.operand.stub?)).getLast?.map
          fun c => ⟨s.function, c.instr⟩
      else none := by
  obtain ⟨hf, rfl⟩ := disassemble_eq_ok h
  rw [itemsLink_eq, scriptItems_calls hf]

/-- The offset where an event continues, as its listing found it, is a number. -/
theorem exists_offset_of_disassemble {e : Encoding} {s : Setting} {script : List Operand}
    {l : Listing} (h : disassemble e s script = .ok l) {link : EventLink}
    (hlink : l.link = some link) : ∃ n, link.offset = .ok n := by
  obtain ⟨hf, -⟩ := disassemble_eq_ok h
  rw [link_eq_of_disassemble h] at hlink
  split at hlink
  · obtain ⟨c, hc, rfl⟩ := Option.map_eq_some_iff.mp hlink
    exact exists_toInt_of_mem_stubs hf (List.mem_of_getLast? hc)
  · simp at hlink

end Kismet.Listing

namespace Kismet

/-! ## Assets -/

/-- Links whose offsets are numbers have an index. -/
theorem EventIndex.exists_insertAll {links : List EventLink}
    (h : ∀ link ∈ links, ∃ n, link.offset = .ok n) : ∀ index : EventIndex,
    ∃ index', index.insertAll links = .ok index' := by
  induction links with
  | nil => exact fun index => ⟨index, rfl⟩
  | cons link rest ih =>
    intro index
    obtain ⟨n, hn⟩ := h link (by simp)
    obtain ⟨index', hindex⟩ :=
      ih (fun l hl => h l (List.mem_cons_of_mem _ hl)) (index.insert n link)
    exact ⟨index', by simp [insertAll, hn, hindex]⟩

/-- The link that comes with a report has a number for its offset. -/
theorem Export.exists_offset_of_report {e : Export} {a : Asset} {index : EventIndex} {r : Report}
    {link : EventLink} (h : e.report a index = .ok (r, some link)) :
    ∃ n, link.offset = .ok n := by
  cases e with
  | generatedClass c =>
    obtain ⟨r', -, heq⟩ := map_eq_ok_iff.mp h
    simp at heq
  | function f =>
    simp only [report, FunctionExport.report] at h
    split at h
    · simp at h
    · split at h
      · simp at h
      · rename_i listing hlisting
        obtain ⟨file, -, heq⟩ := map_eq_ok_iff.mp h
        obtain ⟨-, hlink⟩ := Prod.mk.inj heq
        rw [FunctionExport.disassemble] at hlisting
        split at hlisting
        · simp at hlisting
        · exact Listing.exists_offset_of_disassemble hlisting hlink

/-- The event links of an asset have an index. -/
theorem Asset.exists_index (a : Asset) : ∃ index, EventIndex.ofLinks a.eventLinks = .ok index := by
  refine EventIndex.exists_insertAll (fun link hlink => ?_) {}
  obtain ⟨e, -, he⟩ := List.mem_filterMap.mp hlink
  split at he
  · rename_i r found hreport
    obtain rfl : found = some link := he
    exact Export.exists_offset_of_report hreport
  · simp at he

namespace Listing

/-! ## Links -/

/-- In the listing of a script, an event gets a link and other functions get none.  It
is for the last stub that is visited, if there is one.  All stubs that are visited
make links, and their offsets are numbers.  And the links found in an asset can always
be indexed. -/
theorem disassemble_link :
    (∀ e s script l, disassemble e s script = .ok l →
      (s.isEvent = false → l.link = none)
      ∧ (s.isEvent = true →
          l.link = ((visits e script).filterMap (·.operand.stub?)).getLast?.map
            fun c => ⟨s.function, c.instr⟩)
      ∧ (∀ c ∈ (visits e script).filterMap (·.operand.stub?),
          EventLink.ofCall s.function c.instr = .ok ⟨s.function, c.instr⟩
          ∧ ∃ n, (⟨s.function, c.instr⟩ : EventLink).offset = .ok n)
      ∧ ∀ link, l.link = some link → ∃ n, link.offset = .ok n)
    ∧ ∀ (w w' : Workspace) (a : Asset) (target : Path) (p : Progress),
        w.processPlain a target { summary := { asset := a.name } } a.exports = (w', .ok p) →
        ∃ index, EventIndex.ofLinks p.links = .ok index := by
  constructor
  · intro e s script l h
    have hlink := link_eq_of_disassemble h
    obtain ⟨hf, -⟩ := disassemble_eq_ok h
    refine ⟨fun hevent => by simpa [hevent] using hlink,
      fun hevent => by simpa [hevent] using hlink, ?_, fun link => exists_offset_of_disassemble h⟩
    intro c hc
    exact ⟨ofCall_stubCall s.function c, exists_toInt_of_mem_stubs hf hc⟩
  · intro w w' a target p hp
    rw [Workspace.links_of_processPlain hp]
    exact a.exists_index

/-- The stub of an event that continues at 3, and the return of a stub call with the
text " 14 ". -/
def sampleEvent : List Operand :=
  [.instr (EventLink.stub (.int 3)),
    .instr (.mk (.code 0x04) (.unary (.instr (EventLink.stub (.text " 14 ")))))]

theorem stubs_sampleEvent :
    (visits {} sampleEvent).filterMap (·.operand.stub?)
      = [⟨.code 0x46, .empty, .code 0x1D, .document (.int 3)⟩,
          ⟨.code 0x46, .empty, .code 0x1D, .document (.text " 14 ")⟩] := by
  have hreturn : (Tag.code 0x04).opcode? = some .ret := rfl
  have hcall : (Tag.code 0x46).opcode? = some .localFinalFunction := rfl
  have hconstant : (Tag.code 0x1D).opcode? = some .intConst := rfl
  rw [visits, filterMap_stub?_visitsFrom]
  simp [serialize, sampleEvent, EventLink.stub, Operand.atoms_eq, Operand.parts, Body.parts,
    Operands.parts, Part.atoms, hreturn, hcall, hconstant, Opcode.code, Opcode.shape?, Body.shape,
    Opcode.literalCell, List.filterMap_cons, Atom.stub?, Operand.stub?]

/-- The link of the sample is for the call that is returned, which is nested and comes
last; the event continues at 14. -/
theorem disassemble_link_sample :
    ∃ l, disassemble {} { function := .text "Tick", isEvent := true } sampleEvent = .ok l
      ∧ l.link = some ⟨.text "Tick", EventLink.stub (.text " 14 ")⟩
      ∧ (⟨.text "Tick", EventLink.stub (.text " 14 ")⟩ : EventLink).offset = .ok 14 := by
  have h : ∃ l, disassemble {} { function := .text "Tick", isEvent := true } sampleEvent = .ok l :=
    ⟨_, rfl⟩
  obtain ⟨l, hl⟩ := h
  refine ⟨l, hl, ?_, rfl⟩
  rw [(disassemble_link.1 _ _ _ l hl).2.1 rfl, stubs_sampleEvent]
  rfl

end Listing

end Kismet
