import Kismet.Proofs.Annotation
import Kismet.Proofs.Decode
set_option autoImplicit false

/-!
# Agreement: decoding and listing go by the same opcodes

Decoding asks the table of shapes which operands an opcode has.  Listing asks
first whether there are rules for the opcode, and then holds the operands against
the table of shapes.  `decodeScript_agreement` says that the two fit together: in
a decoded tree every record is of the shape of its opcode, or else is of unknown
operands and its opcode has no rules.  So a listing of a decoded script never
finds a record of another shape, and it never gets past a record of unknown
operands.
-/

namespace Kismet

/-! ## Records that fit their tags -/

/-- Nothing stands at the place; or a record of the shape of its opcode; or a record
of unknown operands whose tag has no rules. -/
inductive Operand.Fits : Operand → Prop where
  | missing : Fits .missing
  | record {n : Int} {op : Opcode} {body : Body} (opcode : Opcode.ofCode? n = some op)
      (shape : op.shape? = some body.shape) : Fits (.instr (.mk (.code n) body))
  | unknown {n : Int} {label : Datum}
      (noRules : ∀ op, Opcode.ofCode? n = some op → Listing.hasRules op = false) :
      Fits (.instr (.mk (.code n) (.unknown label)))

theorem Operand.Fits.noRules {n : Int} {label : Datum}
    (h : (Operand.instr (.mk (.code n) (.unknown label))).Fits) (op : Opcode)
    (hop : Opcode.ofCode? n = some op) : Listing.hasRules op = false := by
  cases h with
  | unknown noRules => exact noRules op hop
  | @record _ op' _ _ shape => cases op' <;> simp [Opcode.shape?, Body.shape] at shape

/-- The references that a listing shows of the place are usable. -/
def Operand.hasUsableSlots : Operand → Bool
  | .instr i => i.body.hasUsableSlots
  | _ => true

theorem Opcode.ofCode?_code (op : Opcode) : ofCode? op.code = some op := by
  cases op <;> rfl

/-- The code that stands for a tag outside the table is outside the table. -/
theorem Instr.ofCode?_strayCode {raw : Document} (h : opcodeOf? raw = none) :
    Opcode.ofCode? (strayCode raw) = none := by
  unfold strayCode
  split
  · exact h
  · rfl

theorem Instr.decodeStep_fits (self : Document → Except Fault Instr) (d : Document) (i : Instr)
    (h : decodeStep self d = .ok i) : (Operand.instr i).Fits := by
  obtain ⟨fields, raw, -, -, h⟩ := decodeStep_eq_ok h
  rcases h with ⟨hop, rfl⟩ | ⟨op, -, hshape, rfl⟩ | ⟨op, shape, body, -, hshape, hbody, rfl⟩
  · refine .unknown fun op hop' => ?_
    rw [ofCode?_strayCode hop] at hop'
    simp at hop'
  · refine .unknown fun op' hop' => ?_
    rw [op.ofCode?_code] at hop'
    obtain rfl := Option.some.inj hop'
    rw [Listing.hasRules_eq, hshape]
    rfl
  · exact .record op.ofCode?_code (by rw [hshape, (decodeBody_read hbody).shape_eq])

theorem Instr.decodeStep_hasUsableSlots (self : Document → Except Fault Instr) (d : Document)
    (i : Instr) (h : decodeStep self d = .ok i) : (Operand.instr i).hasUsableSlots = true := by
  obtain ⟨fields, raw, -, -, h⟩ := decodeStep_eq_ok h
  rcases h with ⟨-, rfl⟩ | ⟨op, -, -, rfl⟩ | ⟨op, shape, body, -, -, hbody, rfl⟩
  · rfl
  · rfl
  · exact (decodeBody_read hbody).slots

end Kismet

namespace Kismet.Listing

/-! ## Items of an instruction fail in the use of its data -/

section Details

theorem pathText_failsOnly {p : Slot PropertyPath} (h : p.isUsable = true) :
    FailsOnly Fault.concernsUse (pathText p) := by
  cases p with
  | unusable f => simp [Slot.isUsable] at h
  | _ => exact FailsOnly.ok _

theorem objectName_failsOnly {r : Slot ObjectRef} (h : r.isUsable = true) :
    FailsOnly Fault.concernsUse (objectName r) := by
  cases r with
  | unusable f => simp [Slot.isUsable] at h
  | _ => exact FailsOnly.ok _

theorem objectText_failsOnly {r : Slot ObjectRef} (h : r.isUsable = true) :
    FailsOnly Fault.concernsUse (objectText r) :=
  (objectName_failsOnly h).bind fun d _ => d.shown_failsOnly

theorem objectName_shown?_failsOnly {r : Slot ObjectRef} (h : r.isUsable = true) :
    FailsOnly Fault.concernsUse (objectName r >>= Datum.shown?) :=
  (objectName_failsOnly h).bind fun d _ => d.shown?_failsOnly

theorem qualifiedText_failsOnly {r : Slot ObjectRef} (h : r.isUsable = true) :
    FailsOnly Fault.concernsUse (qualifiedText r) := by
  cases r with
  | unusable f => simp [Slot.isUsable] at h
  | empty => exact FailsOnly.ok _
  | given r =>
    rw [qualifiedText]
    split
    · exact FailsOnly.ok _
    · simp [Fault.concernsUse]

theorem decimalText_failsOnly (d : Datum) : FailsOnly Fault.concernsUse (decimalText d) :=
  d.toInt_failsOnly.bind fun n _ => Datum.shown_failsOnly (.document (.int n))

theorem operands_count_failsOnly (ps : Operands) : FailsOnly Fault.concernsUse ps.count := by
  cases ps <;> simp [Operands.count, Fault.concernsUse]

theorem cases_count_failsOnly (cs : Cases) : FailsOnly Fault.concernsUse cs.count := by
  cases cs <;> simp [Cases.count, Fault.concernsUse]

theorem tripleText_failsOnly (a b c : String) (x y z : Datum) :
    FailsOnly Fault.concernsUse (tripleText a b c x y z) := by
  refine FailsOnly.bind x.brief_failsOnly fun _ _ => ?_
  refine FailsOnly.bind y.brief_failsOnly fun _ _ => ?_
  exact FailsOnly.bind z.brief_failsOnly fun _ _ => FailsOnly.ok _

theorem triple_failsOnly (d : Datum) : FailsOnly Fault.concernsUse (triple d) := by
  unfold triple
  split
  · exact FailsOnly.ok _
  · simp [Fault.concernsUse]
  · rename_i f hf
    exact FailsOnly.error_iff.mpr (d.parts_failsOnly f hf)

theorem quadruple_failsOnly (d : Datum) : FailsOnly Fault.concernsUse (quadruple d) := by
  unfold quadruple
  split
  · exact FailsOnly.ok _
  · simp [Fault.concernsUse]
  · rename_i f hf
    exact FailsOnly.error_iff.mpr (d.parts_failsOnly f hf)

theorem transformText_failsOnly (rotation translation scale : Datum) :
    FailsOnly Fault.concernsUse (transformText rotation translation scale) := by
  refine FailsOnly.bind (quadruple_failsOnly rotation) fun r _ => ?_
  refine FailsOnly.bind (triple_failsOnly translation) fun t _ => ?_
  refine FailsOnly.bind (triple_failsOnly scale) fun s _ => ?_
  refine FailsOnly.bind (tripleText_failsOnly _ _ _ _ _ _) fun _ _ => ?_
  refine FailsOnly.bind (Datum.brief_failsOnly _) fun _ _ => ?_
  refine FailsOnly.bind (tripleText_failsOnly _ _ _ _ _ _) fun _ _ => ?_
  exact FailsOnly.bind (tripleText_failsOnly _ _ _ _ _ _) fun _ _ => FailsOnly.ok _

theorem literalParts_failsOnly (op : Option Opcode) (value : Datum) :
    FailsOnly Fault.concernsUse (literalParts op value).2 := by
  unfold literalParts
  split <;>
    simp [Datum.toInt_failsOnly, Datum.toReal_failsOnly, Datum.shown_failsOnly,
      decimalText_failsOnly]

end Details

/-- The item fails, if at all, in the use of data. -/
def Item.concernsUse : Item → Bool
  | .fail f => f.concernsUse
  | _ => true

@[simp] theorem Item.concernsUse_lenient : Lenient concernsUse :=
  ⟨fun _ => rfl, fun _ => rfl, fun _ => rfl⟩

/-- A part of a layout that fails only in the use of data. -/
theorem passes_concernsUse {α : Type} {x : Except Fault α} (h : FailsOnly Fault.concernsUse x) :
    passes (fun f => f.concernsUse) (fun _ => true) x = true :=
  passes_iff_failsOnly.mpr h

theorem passes_concernsUse_pair {α β γ : Type} {x : Except Fault α} {y : Except Fault β}
    (hx : FailsOnly Fault.concernsUse x) (hy : FailsOnly Fault.concernsUse y)
    (write : α → β → γ) :
    passes (fun f => f.concernsUse) (fun _ => true) (x >>= fun a => write a <$> y) = true :=
  passes_concernsUse (hx.bind fun _ _ => (FailsOnly.functor_map_iff _).mpr hy)

theorem nextText_failsOnly (c : SwitchCase) : FailsOnly Fault.concernsUse c.nextText := by
  cases c with
  | mk value next term => exact next.address_failsOnly
  | valued value => simp [SwitchCase.nextText, Fault.concernsUse]
  | foreign => simp [SwitchCase.nextText, Fault.concernsUse]

theorem nextTexts_failsOnly {cs : Cases} {x : Except Fault String} (hx : x ∈ cs.nextTexts) :
    FailsOnly Fault.concernsUse x := by
  cases cs with
  | unusable =>
    obtain rfl := List.mem_singleton.mp hx
    simp [Fault.concernsUse]
  | list items =>
    obtain ⟨c, -, rfl⟩ := List.mem_map.mp hx
    exact nextText_failsOnly c

theorem concernsUse_scriptTextItems (e : Encoding) (tag : Tag) (op : Opcode) (t : ScriptText) :
    itemsAll Item.concernsUse (scriptTextItems e tag op t) = true := by
  cases t with
  | foreign => rfl
  | mk kind space key source tableId table =>
    simp only [scriptTextItems, textItems]
    repeat' split
    all_goals
      simp [detailed, labelled, itemsAll, Item.all, Item.concernsUse, Fault.concernsUse]

/-- The items of an instruction with usable references fail in the use of its data
only. -/
theorem concernsUse_bodyItems (e : Encoding) (tag : Tag) (op : Opcode) {body : Body}
    (h : body.hasUsableSlots = true) :
    itemsAll Item.concernsUse (bodyItems e tag op body) = true := by
  have hword : Fault.badValue.concernsUse = true := rfl
  have hlist : Fault.wrongKind.concernsUse = true := rfl
  cases body with
  | textConst text => exact concernsUse_scriptTextItems e tag op text
  | marker =>
    simp only [bodyItems, markerItems]
    split <;> simp [detailed, undetailed, itemsAll, Item.all, Item.concernsUse, hword]
  | finalCall function parameters =>
    have hdetail := passes_concernsUse (qualifiedText_failsOnly h)
    have hstub : itemsAll Item.concernsUse (stubCall tag function parameters) = true :=
      itemsAll_stubCall (fun _ => rfl) tag function parameters
    simp [bodyItems, detailed, itemsAll, Item.all, Item.concernsUse, hword, hlist, hdetail, hstub]
  | switchValue index finish cases fallback =>
    have hcases : (cases.nextTexts.all fun x => passes (fun f => f.concernsUse) (fun _ => true) x)
        = true :=
      List.all_eq_true.mpr fun x hx => passes_concernsUse (nextTexts_failsOnly hx)
    simp [bodyItems, detailed, itemsAll, Item.all, Item.concernsUse, hword, hcases,
      passes_concernsUse_pair, cases_count_failsOnly, finish.address_failsOnly]
  | mapConst key value elements =>
    obtain ⟨hkey, hvalue⟩ := (Bool.and_eq_true _ _).mp h
    have hdetail : FailsOnly Fault.concernsUse (do
        let n ← elements.count
        let k ← pathText key
        let v ← pathText value
        return "Element count: " ++ toString n ++ ", key property: " ++ k
          ++ ", value property: " ++ v) := by
      refine FailsOnly.bind (operands_count_failsOnly elements) fun _ _ => ?_
      refine FailsOnly.bind (pathText_failsOnly hkey) fun _ _ => ?_
      exact FailsOnly.bind (pathText_failsOnly hvalue) fun _ _ => FailsOnly.ok _
    have hline := passes_concernsUse hdetail
    simp only [bodyItems, detailed, itemsAll, Item.all, itemsAll_append, itemsAll_headline,
      List.cons_append, passes_map, Item.concernsUse, hword, hlist, ite_self, hline,
      itemsAll_listItems Item.concernsUse_lenient, Bool.or_true, Bool.and_self]
  | _ =>
    simp only [Body.hasUsableSlots] at h
    simp only [bodyItems]
    repeat' split
    all_goals
      simp [detailed, undetailed, itemsAll, Item.all, Item.concernsUse, hword, hlist,
        passes_concernsUse, passes_concernsUse_pair, pathText_failsOnly, objectText_failsOnly,
        objectName_shown?_failsOnly, qualifiedText_failsOnly, operands_count_failsOnly,
        Datum.address_failsOnly, Datum.shown_failsOnly, Datum.shown?_failsOnly,
        Enumeration.labelOf_failsOnly, tripleText_failsOnly, transformText_failsOnly,
        literalParts_failsOnly, h]

end Kismet.Listing

namespace Kismet

/-! ## Listings of trees that fit -/

/-- The fault is that the operands of an instruction could not be held against its
opcode, or are not of its shape. -/
def Fault.isDisagreement : Fault → Bool
  | .wrongShape .. | .missingShape _ => true
  | _ => false

theorem Fault.isDisagreement_of_concernsUse {f : Fault} (h : f.concernsUse = true) :
    f.isDisagreement = false := by
  cases f <;> simp [concernsUse] at h <;> rfl

end Kismet

namespace Kismet.Listing

/-- No walk of the layout stops at a disagreement. -/
def Layout.Agreeable (l : Layout) : Prop :=
  ∀ level offset f, l.fault? level offset = some f → f.isDisagreement = false

theorem refusal_agreeable (kind : Datum) (offset : Int) :
    (refusal kind offset).isDisagreement = false := by
  unfold refusal
  split
  · rfl
  · rename_i f hf
    exact Fault.isDisagreement_of_concernsUse (kind.shown_failsOnly f hf)

mutual

theorem itemsFault?_agreeable (level scopes : Nat) (start : Int) (items : List Item)
    (huse : itemsAll Item.concernsUse items = true)
    (hnested : ∀ k l, Piece.nested k l ∈ itemsPieces scopes items → l.Agreeable) (offset : Int)
    (f : Fault) (hf : itemsFault? level start offset items = some f) :
    f.isDisagreement = false := by
  cases items with
  | nil => simp [itemsFault?] at hf
  | cons item rest =>
    rw [itemsAll, Bool.and_eq_true] at huse
    simp only [itemsPieces, List.mem_append] at hnested
    rw [itemsFault?, Option.or_eq_some_iff] at hf
    rcases hf with hf | ⟨-, hf⟩
    · exact item.fault?_agreeable level scopes start huse.1 (fun k l hl => hnested k l (.inl hl))
        offset f hf
    · exact itemsFault?_agreeable level scopes start rest huse.2
        (fun k l hl => hnested k l (.inr hl)) _ f hf

theorem Item.fault?_agreeable (level scopes : Nat) (start : Int) (item : Item)
    (huse : item.all Item.concernsUse = true)
    (hnested : ∀ k l, Piece.nested k l ∈ item.pieces scopes → l.Agreeable) (offset : Int)
    (f : Fault) (hf : item.fault? level start offset = some f) : f.isDisagreement = false := by
  cases item with
  | indented items =>
    exact itemsFault?_agreeable level (scopes + 1) start items huse hnested offset f hf
  | nested l => exact hnested scopes l (by simp [Item.pieces]) _ _ f hf
  | refuseText kind =>
    obtain rfl := Option.some.inj hf
    exact refusal_agreeable kind start
  | fail g =>
    obtain rfl := Option.some.inj hf
    exact Fault.isDisagreement_of_concernsUse huse
  | _ => simp [Item.fault?] at hf

end

/-- The verdict on a record of unknown operands whose tag has no rules: it is a
terminator, or it cannot be listed. -/
theorem verdict_unknown {n : Int} {label : Datum}
    (h : ∀ op, Opcode.ofCode? n = some op → hasRules op = false) :
    (∃ op, Opcode.ofCode? n = some op ∧ op.isTerminator = true
      ∧ verdict (.code n) (.unknown label) = .terminator op)
    ∨ ((∀ op, Opcode.ofCode? n = some op → op.isTerminator = false)
      ∧ ∃ shown, verdict (.code n) (.unknown label) = .unsupported shown) := by
  cases hop : Opcode.ofCode? n with
  | none =>
    refine .inr ⟨fun op hop' => by simp at hop', ?_⟩
    simp only [verdict, isSearchable, Tag.opcode?, hop]
    exact ⟨_, rfl⟩
  | some op =>
    have hrules := h op hop
    cases hterm : op.isTerminator with
    | true =>
      refine .inl ⟨op, rfl, hterm, ?_⟩
      simp [verdict, isSearchable, Tag.opcode?, hop, hterm, byName]
    | false =>
      refine .inr ⟨fun op' hop' => ?_, ?_⟩
      · obtain rfl := Option.some.inj hop'
        exact hterm
      · simp only [verdict, isSearchable, Tag.opcode?, hop, hterm, hrules]
        exact ⟨_, rfl⟩

theorem verdict_record {n : Int} {op : Opcode} {body : Body} (hop : Opcode.ofCode? n = some op)
    (hshape : op.shape? = some body.shape) : verdict (.code n) body = .accepted := by
  have hterm : op.isTerminator = false := by
    cases op <;> first | rfl | simp [Opcode.shape?] at hshape
  simp [verdict_eq, isSearchable, Tag.opcode?, hop, hterm, hshape]

/-- A walk of a tree that fits does not stop at a disagreement. -/
theorem operandLayout_agreeable (e : Encoding) (o : Operand)
    (hfits : ∀ c, Occurs o c → c.Fits ∧ c.hasUsableSlots = true) :
    (operandLayout e o).Agreeable := by
  induction o using Operand.partsInduction e with
  | step o ih =>
    intro level offset f hf
    obtain ⟨hown, hslots⟩ := hfits o .root
    cases hown with
    | missing =>
      obtain rfl := Option.some.inj hf
      rfl
    | @unknown n label noRules =>
      obtain ⟨items, hlayout⟩ := exists_operandLayout_eq e (.code n) (.unknown label)
      rw [hlayout, Layout.fault?] at hf
      split at hf
      · obtain rfl := Option.some.inj hf
        rfl
      · rcases @verdict_unknown n label noRules with ⟨op, -, -, hv⟩ | ⟨-, shown, hv⟩
        · rw [hv] at hf
          obtain rfl := Option.some.inj hf
          rfl
        · rw [hv] at hf
          obtain rfl := Option.some.inj hf
          rfl
    | @record n op body opcode shape =>
      have hop : (Tag.code n).opcode? = some op := opcode
      rw [operandLayout_instr e hop, Layout.fault?, verdict_record opcode shape] at hf
      split at hf
      · obtain rfl := Option.some.inj hf
        rfl
      · refine itemsFault?_agreeable level 0 _ _ (concernsUse_bodyItems e _ op hslots) ?_ _ f hf
        intro k l hmem
        rw [itemsPieces_bodyItems rfl] at hmem
        obtain ⟨c, hc, rfl⟩ := nested_mem_map_pieceOf hmem
        have hparts : (Operand.instr (.mk (.code n) body)).parts e = body.parts e op := by
          simp [Operand.parts, hop, shape]
        have hplace : c ∈ (Operand.instr (.mk (.code n) body)).places :=
          Body.mem_places_of_child hc
        exact ih k c (by rwa [hparts]) fun c' hc' => hfits c' (hc'.head hplace)

theorem scriptItems_agreeable (e : Encoding) {script : List Instr}
    (hfits : ∀ i ∈ script, ∀ c, Occurs (.instr i) c → c.Fits ∧ c.hasUsableSlots = true) {f : Fault}
    (hf : itemsFault? 0 0 0 (scriptItems e (script.map .instr)) = some f) :
    f.isDisagreement = false := by
  refine itemsFault?_agreeable 0 0 0 _ (itemsAll_scriptItems Item.concernsUse_lenient e _) ?_ 0 f hf
  intro k l hmem
  rw [itemsPieces_scriptItems] at hmem
  obtain ⟨c, hc, rfl⟩ := nested_mem_map_pieceOf hmem
  simp only [List.map_map, List.mem_map, Function.comp_apply, Part.child.injEq] at hc
  obtain ⟨i, hi, -, rfl⟩ := hc
  exact operandLayout_agreeable e _ (hfits i hi)

/-! ## Records of unknown operands

A record that is never come to does no harm, so it matters where a walk gets. -/

/-- A walk through items comes to the layout `l`, with as many instructions around it
as `around` says, and has made the draft by then. -/
inductive Reaches (s : Setting) (l : Layout) (around : Nat) (draft : Draft) :
    Nat → Int → List Item → Draft → Prop where
  /-- The layout is the next item. -/
  | here {start : Int} {rest : List Item} :
      Reaches s l around draft around start (.nested l :: rest) draft
  /-- The next item is an instruction that is accepted, and the layout is nested in
  it. -/
  | inside {level : Nat} {start : Int} {verdict : Verdict} {items rest : List Item} {d : Draft}
      (shallow : ¬maxLevel < level + 1) (accepted : verdict.fault? d.offset = none)
      (inner : Reaches s l around draft (level + 1) d.offset items
        (s.announce d.offset ((d.advance byteSize).shift 1))) :
      Reaches s l around draft level start (.nested (.node verdict items) :: rest) d
  /-- The layout is among the next items, which are indented. -/
  | indented {level : Nat} {start : Int} {items rest : List Item} {d : Draft}
      (inner : Reaches s l around draft level start items (d.shift 1)) :
      Reaches s l around draft level start (.indented items :: rest) d
  /-- The next item does not stop the walk, and the layout comes later. -/
  | later {level : Nat} {start : Int} {item : Item} {rest : List Item} {d d' : Draft}
      (passed : walkItem s level start item d = .ok d')
      (onward : Reaches s l around draft level start rest d') :
      Reaches s l around draft level start (item :: rest) d

/-- A walk that stops where it has come to stops altogether, with the same fault. -/
theorem Reaches.walkItems_eq_error {s : Setting} {l : Layout} {around level : Nat} {draft d : Draft}
    {start : Int} {items : List Item} {f : Fault}
    (h : Reaches s l around draft level start items d) (hf : walk s around l draft = .error f) :
    walkItems s level start items d = .error f := by
  induction h with
  | here => simp [walkItems, walkItem, hf]
  | inside shallow accepted _ ih => simp [walkItems, walkItem, walk, shallow, accepted, ih]
  | indented _ ih => simp [walkItems, walkItem, ih]
  | later passed _ ih => simp [walkItems, passed, ih]

/-- The walk of a script comes to what stands in the place of an instruction. -/
def ReachesIn (e : Encoding) (s : Setting) (script : List Operand) (o : Operand) (around : Nat)
    (draft : Draft) : Prop :=
  Reaches s (operandLayout e o) around draft 0 0 (scriptItems e script) {}

theorem ReachesIn.disassemble_eq_error {e : Encoding} {s : Setting} {script : List Operand}
    {o : Operand} {around : Nat} {draft : Draft} {f : Fault}
    (h : ReachesIn e s script o around draft)
    (hf : walk s around (operandLayout e o) draft = .error f) :
    disassemble e s script = .error f := by
  rw [disassemble, walkAll_eq_walkItems, h.walkItems_eq_error hf]

/-- The walk of a record of unknown operands stops at once: too deep below other
instructions, at a terminator, or because there are no rules. -/
theorem walk_unknown (e : Encoding) (s : Setting) {n : Int} {label : Datum}
    (h : ∀ op, Opcode.ofCode? n = some op → hasRules op = false) (around : Nat) (d : Draft) :
    if maxLevel ≤ around then
      walk s around (operandLayout e (.instr (.mk (.code n) (.unknown label)))) d
        = .error (.tooDeep maxLevel d.offset)
    else
      (∃ op, Opcode.ofCode? n = some op ∧ op.isTerminator = true
        ∧ walk s around (operandLayout e (.instr (.mk (.code n) (.unknown label)))) d
          = .error (.strayTerminator op d.offset))
      ∨ (∀ op, Opcode.ofCode? n = some op → op.isTerminator = false)
        ∧ ∃ shown, walk s around (operandLayout e (.instr (.mk (.code n) (.unknown label)))) d
          = .error (.unsupported shown d.offset) := by
  obtain ⟨items, hlayout⟩ := exists_operandLayout_eq e (.code n) (.unknown label)
  rw [hlayout]
  split
  · rename_i hdeep
    simp [walk, Nat.lt_succ_of_le hdeep]
  · rename_i hshallow
    have hlevel : ¬maxLevel < around + 1 := fun hlt => hshallow (Nat.le_of_lt_succ hlt)
    rcases @verdict_unknown n label h with ⟨op, hop, hterm, hv⟩ | ⟨hterm, shown, hv⟩
    · exact .inl ⟨op, hop, hterm, by simp [walk, hlevel, hv, Verdict.fault?]⟩
    · exact .inr ⟨hterm, shown, by simp [walk, hlevel, hv, Verdict.fault?]⟩

/-- An object whose tag names no opcode with rules is decoded, whatever its other
fields hold. -/
theorem decode_unknown {fields : Fields} {raw : Document}
    (hraw : Fields.get? fields "inst" = some raw)
    (h : ∀ op, Instr.opcodeOf? raw = some op → hasRules op = false) :
    ∃ code, Instr.decode (.object fields) = .ok (Instr.uncharted code raw) := by
  rw [Instr.decode, Instr.decodeWithin, Instr.decodeStep]
  simp only [hraw]
  cases hop : Instr.opcodeOf? raw with
  | none => exact ⟨_, rfl⟩
  | some op =>
    have hshape : op.shape? = none := by simpa [hasRules_eq] using h op hop
    exact ⟨op.code, by simp [hshape]⟩

/-! ## A buried record -/

/-- A return inside a return and so on, `depth` times, and in the innermost an
instruction with an opcode that does not exist. -/
def buriedDocument : Nat → Document
  | 0 => .object [("inst", .int 255)]
  | depth + 1 => .object [("inst", .int 4), ("operand", buriedDocument depth)]

/-- What stands for an instruction with the code 255. -/
def strayRecord : Instr := Instr.uncharted 255 (.int 255)

/-- The instruction that `buriedDocument` describes. -/
def buriedRecord : Nat → Instr
  | 0 => strayRecord
  | depth + 1 => .mk (.code 4) (.unary (.instr (buriedRecord depth)))

theorem depth_buriedDocument (depth : Nat) : (buriedDocument depth).depth = depth + 1 := by
  induction depth with
  | zero => rfl
  | succ depth ih => simp [buriedDocument, Document.depth, Document.fieldsDepth, ih]

theorem decodeStep_buriedDocument {self : Document → Except Fault Instr} {depth : Nat} {i : Instr}
    (h : self (buriedDocument depth) = .ok i) :
    Instr.decodeStep self (buriedDocument (depth + 1))
      = .ok (.mk (.code 4) (.unary (.instr i))) := by
  have hread : Instr.Node.readOperand self (buriedDocument depth)
      = (self (buriedDocument depth)).map .instr := by
    cases depth <;> rfl
  have hop : Instr.opcodeOf? (.int 4) = some .ret := rfl
  have hshape : Opcode.ret.shape? = some .unary := rfl
  have hbody : Instr.decodeBody
      ⟨.ret, [("inst", .int 4), ("operand", buriedDocument depth)], self⟩ .unary
      = .ok (.unary (.instr i)) := by
    simp [Instr.decodeBody, Instr.Node.operand, Instr.Node.required, Fields.get?, hread, h,
      Except.map, Functor.map]
  have htag : Fields.get? [("inst", .int 4), ("operand", buriedDocument depth)] "inst"
      = some (.int 4) := rfl
  simp only [buriedDocument, Instr.decodeStep, htag, hop, hshape, hbody]
  rfl

theorem decodeWithin_buriedDocument (depth : Nat) : ∀ bound, depth < bound →
    Instr.decodeWithin bound (buriedDocument depth) = .ok (buriedRecord depth) := by
  induction depth with
  | zero =>
    intro bound hbound
    obtain ⟨bound, rfl⟩ := Nat.exists_eq_add_of_lt hbound
    rfl
  | succ depth ih =>
    intro bound hbound
    obtain ⟨bound, rfl⟩ : ∃ b, bound = b + 1 := ⟨bound - 1, by omega⟩
    exact decodeStep_buriedDocument (ih bound (by omega))

theorem occurs_buriedRecord (depth : Nat) :
    Occurs (.instr (buriedRecord depth)) (.instr strayRecord) := by
  induction depth with
  | zero => exact .root
  | succ depth ih => exact ih.head (by simp [buriedRecord, Operand.places, Instr.body, Body.places])

theorem reaches_buriedRecord (depth : Nat) : ∀ (level : Nat) (start : Int) (rest : List Item)
    (d : Draft), level + depth ≤ maxLevel →
    ∃ draft : Draft, draft.offset = d.offset + depth
      ∧ Reaches {} (operandLayout {} (.instr strayRecord)) (level + depth) draft level start
          (.nested (operandLayout {} (.instr (buriedRecord depth))) :: rest) d := by
  induction depth with
  | zero => exact fun level start rest d _ => ⟨d, by simp, .here⟩
  | succ depth ih =>
    intro level start rest d hlevel
    obtain ⟨draft, hdraft, hreaches⟩ := ih (level + 1) d.offset []
      (((d.advance byteSize).shift 1).emit d.offset .ret none none) (by omega)
    have hoffset : draft.offset = d.offset + 1 + depth := hdraft
    refine ⟨draft, by omega, ?_⟩
    rw [show level + (depth + 1) = level + 1 + depth by omega]
    exact .inside (by omega) rfl (.later rfl hreaches)

/-! ## Agreement -/

/-- A listing of a decoded script that comes to a record of unknown operands stops
there. -/
theorem disassemble_unknown {e : Encoding} {s : Setting} {script : List Operand} {n : Int}
    {label : Datum} {around : Nat} {draft : Draft}
    (hfits : (Operand.instr (.mk (.code n) (.unknown label))).Fits)
    (h : ReachesIn e s script (.instr (.mk (.code n) (.unknown label))) around draft) :
    if maxLevel ≤ around then
      disassemble e s script = .error (.tooDeep maxLevel draft.offset)
    else
      (∃ op, Opcode.ofCode? n = some op ∧ op.isTerminator = true
        ∧ disassemble e s script = .error (.strayTerminator op draft.offset))
      ∨ (∀ op, Opcode.ofCode? n = some op → op.isTerminator = false)
        ∧ ∃ shown, disassemble e s script = .error (.unsupported shown draft.offset) := by
  have hwalk := @walk_unknown e s n label hfits.noRules around draft
  split
  · rename_i hdeep
    rw [if_pos hdeep] at hwalk
    exact h.disassemble_eq_error hwalk
  · rename_i hshallow
    rw [if_neg hshallow] at hwalk
    rcases hwalk with ⟨op, hop, hterm, hwalk⟩ | ⟨hterm, shown, hwalk⟩
    · exact .inl ⟨op, hop, hterm, h.disassemble_eq_error hwalk⟩
    · exact .inr ⟨hterm, shown, h.disassemble_eq_error hwalk⟩

/-- Decoding and listing agree on the opcodes.  All places of a decoded tree fit.  No
listing of it stops because a record is of another shape, or because there is no
shape for an opcode; and one that comes to a record of unknown operands stops there:
if no more than 256 instructions are nested, at a stray terminator or because the
opcode is not supported, and otherwise because of the nesting.  And every object
whose tag names no opcode with rules is decoded. -/
theorem decodeScript_agreement :
    (∀ d script, Instr.decodeScript d = .ok script →
      (∀ i ∈ script, ∀ o, Occurs (.instr i) o → o.Fits)
      ∧ (∀ e s f, disassemble e s (script.map .instr) = .error f →
          (∀ op shape offset, f ≠ .wrongShape op shape offset) ∧ ∀ op, f ≠ .missingShape op)
      ∧ ∀ i ∈ script, ∀ n label, Occurs (.instr i) (.instr (.mk (.code n) (.unknown label))) →
          ∀ e s around draft,
          ReachesIn e s (script.map .instr) (.instr (.mk (.code n) (.unknown label))) around
            draft →
          if maxLevel ≤ around then
            disassemble e s (script.map .instr) = .error (.tooDeep maxLevel draft.offset)
          else
            (∃ op, Opcode.ofCode? n = some op ∧ op.isTerminator = true
              ∧ disassemble e s (script.map .instr) = .error (.strayTerminator op draft.offset))
            ∨ (∀ op, Opcode.ofCode? n = some op → op.isTerminator = false)
              ∧ ∃ shown,
                disassemble e s (script.map .instr) = .error (.unsupported shown draft.offset))
    ∧ ∀ fields raw, Fields.get? fields "inst" = some raw →
        (∀ op, Instr.opcodeOf? raw = some op → hasRules op = false) →
        ∃ code, Instr.decode (.object fields) = .ok (Instr.uncharted code raw) := by
  refine ⟨fun d script h => ?_, fun fields raw => decode_unknown⟩
  have hfits := Instr.decodeScript_occurs .missing Instr.decodeStep_fits h
  have hslots := @Instr.decodeScript_occurs (·.hasUsableSlots = true) rfl
    Instr.decodeStep_hasUsableSlots d script h
  refine ⟨hfits, ?_, ?_⟩
  · intro e s f hf
    have hagree := scriptItems_agreeable e
      (fun i hi c hc => ⟨hfits i hi c hc, hslots i hi c hc⟩) (disassemble_eq_error_iff.mp hf)
    constructor
    · rintro op shape offset rfl
      simp [Fault.isDisagreement] at hagree
    · rintro op rfl
      simp [Fault.isDisagreement] at hagree
  · intro i hi n label hocc e s around draft hreach
    exact disassemble_unknown (hfits i hi _ hocc) hreach

/-- An object that describes the return of a terminator. -/
def strayReturn : Document :=
  .object [("inst", .int 4), ("operand", .object [("inst", .int 0x16)])]

/-- What stands for the terminator. -/
def strayTerminator : Instr := Instr.uncharted 0x16 (.int 0x16)

/-- A terminator that is returned stands alone, one byte into the script. -/
theorem decodeScript_agreement_stray :
    ∃ script draft, Instr.decodeScript (.list [strayReturn]) = .ok script
      ∧ ReachesIn {} {} (script.map .instr) (.instr strayTerminator) 1 draft
      ∧ disassemble {} {} (script.map .instr) = .error (.strayTerminator .endFunctionParms 1) := by
  have hdecode : Instr.decodeScript (.list [strayReturn])
      = .ok [.mk (.code 4) (.unary (.instr strayTerminator))] := rfl
  have hreach : ReachesIn {} {} [.instr (.mk (.code 4) (.unary (.instr strayTerminator)))]
      (.instr strayTerminator) 1 (((({} : Draft).advance 1).shift 1).emit 0 .ret none none) :=
    .inside (by decide) rfl (.later rfl .here)
  have hocc : Occurs (.instr (.mk (.code 4) (.unary (.instr strayTerminator))))
      (.instr strayTerminator) :=
    .inside .root (by simp [Operand.places, Instr.body, Body.places])
  rcases (decodeScript_agreement.1 _ _ hdecode).2.2 _ (by simp) _ _ hocc _ _ _ _ hreach with
    ⟨op, hop, -, hstop⟩ | ⟨hterm, -⟩
  · obtain rfl := Option.some.inj hop
    exact ⟨_, _, hdecode, hreach, hstop⟩
  · exact absurd (hterm .endFunctionParms rfl) (by decide)

/-- A record of unknown operands below 256 instructions is refused, but for the
nesting and not for its own opcode. -/
theorem disassemble_buriedRecord :
    ∃ script draft, Instr.decodeScript (.list [buriedDocument 256]) = .ok script
      ∧ (∀ i ∈ script, Occurs (.instr i) (.instr strayRecord))
      ∧ ReachesIn {} {} (script.map .instr) (.instr strayRecord) 256 draft
      ∧ disassemble {} {} (script.map .instr) = .error (.tooDeep 256 256)
      ∧ Opcode.ofCode? 255 = none := by
  have hdecode : Instr.decodeScript (.list [buriedDocument 256]) = .ok [buriedRecord 256] := by
    have hone := decodeWithin_buriedDocument 256 ((buriedDocument 256).depth + 1)
      (by simp [depth_buriedDocument])
    simp only [Instr.decodeScript_list, List.mapM_cons, List.mapM_nil, Instr.decode, hone]
    rfl
  obtain ⟨draft, hdraft, hreach⟩ := reaches_buriedRecord 256 0 0 [] {} (by decide)
  have hstop : walk {} 256 (operandLayout {} (.instr strayRecord)) draft
      = .error (.tooDeep 256 draft.offset) := rfl
  have hoffset : draft.offset = 256 := hdraft
  refine ⟨_, draft, hdecode, ?_, hreach, ?_, rfl⟩
  · intro i hi
    obtain rfl := List.mem_singleton.mp hi
    exact occurs_buriedRecord 256
  · rw [← hoffset]
    exact ReachesIn.disassemble_eq_error hreach hstop

end Kismet.Listing
