import Kismet.Proofs.Offset
import Kismet.Proofs.Typed
set_option autoImplicit false

/-!
# Acceptance: which scripts are listed, and what is said of the others

Operands may be left out, tags may be any number, and records may belong to
another tag.  There are six ways in which a place can offend.  Apart from them a
script whose scalar operands are of the declared types fails only at a whole number
of too many digits.  `disassemble_acceptance` says that such a script is listed if
and only if no place offends and all numbers can be written, and that the first place
that offends is reported, with the first of its offences and with its offset, unless
a number stops the listing before.
-/

namespace Kismet

/-! ## Offences -/

/-- What can be wrong with a place. -/
inductive Offence where
  /-- Nothing stands there. -/
  | absent
  /-- It is nested too deep. -/
  | tooDeep
  /-- It is tagged with the end of a list. -/
  | terminator
  /-- Its tag cannot be listed. -/
  | unsupported
  /-- The record belongs to another tag. -/
  | misshapen
  /-- It is a text constant of an unknown kind. -/
  | unknownText
  deriving DecidableEq, Repr, Inhabited

/-- The shape of the record that stands in the place of an instruction. -/
def Operand.shape? : Operand → Option Shape
  | .instr i => some i.body.shape
  | _ => none

namespace Offence

/-- The offences, in the order in which they count. -/
def all : List Offence := [.absent, .tooDeep, .terminator, .unsupported, .misshapen, .unknownText]

/-- The place offends in this way. -/
def appliesTo (v : Visit) : Offence → Bool
  | .absent => match v.operand with
    | .missing => true
    | _ => false
  | .tooDeep => decide (256 < v.level)
  | .terminator => v.operand.opcode?.any Opcode.isTerminator
  | .unsupported => !v.operand.opcode?.any Opcode.isSupported
  | .misshapen => decide (v.operand.opcode?.bind Opcode.shape? ≠ v.operand.shape?)
  | .unknownText => v.operand.textKind?.any fun kind => decide (kind < 0 ∨ 4 < kind)

end Offence

/-- The first offence of a place. -/
def Visit.offence? (v : Visit) : Option Offence :=
  Offence.all.find? (Offence.appliesTo v)

/-- The offence and the offset that a fault is about. -/
def Fault.report? : Fault → Option (Offence × Int)
  | .missingOperand offset => some (.absent, offset)
  | .tooDeep _ offset => some (.tooDeep, offset)
  | .strayTerminator _ offset => some (.terminator, offset)
  | .unsupported _ offset => some (.unsupported, offset)
  | .wrongShape _ _ offset => some (.misshapen, offset)
  | .unexpectedText _ offset => some (.unknownText, offset)
  | _ => none

/-- The walk of places stops with a fault at a place before which none offends.  The
fault is about the first offence of the place, or else about a number in it that cannot
be written. -/
def StopsWithin (e : Encoding) (vs : List Visit) (f : Fault) : Prop :=
  ∃ before v after, vs = before ++ v :: after ∧ (∀ u ∈ before, u.offence? = none)
    ∧ ((∃ k, v.offence? = some k ∧ f.report? = some (k, (v.offset : Int)))
      ∨ v.operand.isShowable e = false ∧ f = .badValue)

theorem StopsWithin.append_right {e : Encoding} {vs : List Visit} {f : Fault}
    (h : StopsWithin e vs f) (more : List Visit) : StopsWithin e (vs ++ more) f := by
  obtain ⟨before, v, after, rfl, hbefore, hv⟩ := h
  exact ⟨before, v, after ++ more, by simp, hbefore, hv⟩

theorem StopsWithin.append_left {e : Encoding} {vs : List Visit} {f : Fault}
    (h : StopsWithin e vs f) (front : List Visit) (hfront : ∀ u ∈ front, u.offence? = none) :
    StopsWithin e (front ++ vs) f := by
  obtain ⟨before, v, after, rfl, hbefore, hv⟩ := h
  refine ⟨front ++ before, v, after, by simp, fun u hu => ?_, hv⟩
  rcases List.mem_append.mp hu with hu | hu
  · exact hfront u hu
  · exact hbefore u hu

end Kismet

namespace Kismet.Listing

/-! ## One place -/

/-- Exactly the supported opcodes have a shape. -/
theorem isSupported_eq (op : Opcode) : op.isSupported = !decide (op.shape? = none) := by
  cases op <;> rfl

/-- The first offence of a record with a number for a tag. -/
theorem offence?_instr (n : Int) (body : Body) (level indent offset : Nat) :
    Visit.offence? ⟨.instr (.mk (.code n) body), level, indent, offset⟩
      = if 256 < level then some .tooDeep
        else match Opcode.ofCode? n with
          | none => some .unsupported
          | some op =>
            if op.isTerminator then some .terminator
            else if op.shape? = none then some .unsupported
            else if op.shape? ≠ some body.shape then some .misshapen
            else if (Operand.instr (.mk (.code n) body)).textKind?.any
                (fun kind => decide (kind < 0 ∨ 4 < kind)) then some .unknownText
            else none := by
  cases hop : Opcode.ofCode? n with
  | none =>
    by_cases hlevel : 256 < level <;>
      simp [Visit.offence?, Offence.all, Offence.appliesTo, Operand.opcode?, Instr.tag,
        Tag.opcode?, hop, hlevel]
  | some op =>
    -- Both sides ask the same questions in the same order.
    simp only [Visit.offence?, Offence.all, Offence.appliesTo, Operand.opcode?, Instr.tag,
      Tag.opcode?, hop, List.find?_cons, Option.any_some, isSupported_eq, Operand.shape?,
      Instr.body, Option.bind_some]
    repeat' split
    all_goals simp_all

/-- A record that is refused offends, and its fault says how. -/
theorem offence?_of_refused {n : Int} {body : Body} {level : Nat} (indent offset : Nat)
    (hlevel : ¬256 < level) (h : verdict (.code n) body ≠ .accepted) :
    ∃ k f, Visit.offence? ⟨.instr (.mk (.code n) body), level, indent, offset⟩ = some k
      ∧ (verdict (.code n) body).fault? offset = some f
      ∧ f.report? = some (k, (offset : Int)) := by
  rw [offence?_instr, if_neg hlevel]
  cases hop : Opcode.ofCode? n with
  | none =>
    simp only [verdict_eq, isSearchable, Tag.opcode?, hop]
    exact ⟨_, _, rfl, rfl, rfl⟩
  | some op =>
    simp only [verdict_eq, isSearchable, Tag.opcode?, hop, byName] at h ⊢
    by_cases hterm : op.isTerminator = true
    · simp only [hterm, if_true]
      exact ⟨_, _, rfl, rfl, rfl⟩
    · cases hshape : op.shape? with
      | none =>
        simp only [hterm, if_true]
        exact ⟨_, _, rfl, rfl, rfl⟩
      | some shape =>
        have hbody : body.shape ≠ shape := by
          intro heq
          simp [hterm, hshape, heq] at h
        simp only [hterm, hbody, hbody.symm, reduceCtorEq, ne_eq, Option.some.injEq,
          not_false_eq_true, if_false, if_true]
        exact ⟨_, _, rfl, rfl, rfl⟩

/-- A record that is accepted offends only as a text constant of an unknown
kind. -/
theorem offence?_of_accepted {n : Int} {body : Body} {level : Nat} (indent offset : Nat)
    (hlevel : ¬256 < level) (h : verdict (.code n) body = .accepted) :
    Visit.offence? ⟨.instr (.mk (.code n) body), level, indent, offset⟩
      = if (Operand.instr (.mk (.code n) body)).textKind?.any
          (fun kind => decide (kind < 0 ∨ 4 < kind)) then some .unknownText else none := by
  obtain ⟨op, hop, hshape⟩ := verdict_eq_accepted h
  have hop' : Opcode.ofCode? n = some op := hop
  have hterm : op.isTerminator = false := by
    cases hterm : op.isTerminator with
    | false => rfl
    | true => simp [verdict_eq, isSearchable, hop, hterm, byName] at h
  simp [offence?_instr, hlevel, hop', hterm, hshape]

/-- The fault of a text constant of an unknown kind. -/
theorem itemsFault?_of_unknownText (e : Encoding) {n kind : Int} (op : Opcode) {body : Body}
    (level : Nat) (start offset : Int)
    (hkind : (Operand.instr (.mk (.code n) body)).textKind? = some kind)
    (h : kind < 0 ∨ 4 < kind) :
    ∃ f, itemsFault? level start offset (bodyItems e (.code n) op body) = some f
      ∧ (f.report? = some (.unknownText, start)
        ∨ (Operand.instr (.mk (.code n) body)).isShowable e = false ∧ f = .badValue) := by
  unfold Operand.textKind? at hkind
  split at hkind
  · rename_i heq
    simp only [Operand.instr.injEq, Instr.mk.injEq] at heq
    obtain ⟨-, rfl⟩ := heq
    obtain rfl := Option.some.inj hkind
    rw [bodyItems, scriptTextItems, textItems_of_unknown op _ _ _ _ h]
    refine ⟨_, rfl, ?_⟩
    simp only [refusal, Datum.shown, Operand.isShowable, Body.isShowable]
    split
    · rename_i hshown
      split at hshown
      · exact .inl rfl
      · simp at hshown
    · rename_i f hshown
      split at hshown
      · simp at hshown
      · rename_i hshow
        exact .inr ⟨by simpa using hshow, (Except.error.inj hshown).symm⟩
  · simp at hkind

theorem exists_operandLayout_eq (e : Encoding) (tag : Tag) (body : Body) :
    ∃ items, operandLayout e (.instr (.mk tag body)) = .node (verdict tag body) items := by
  cases hop : tag.opcode? with
  | none => exact ⟨[], by simp [operandLayout, layout, hop]⟩
  | some op => exact ⟨_, operandLayout_instr e hop body⟩

/-- Either a place offends, and the walk stops there; or it does not, and the walk goes on if
all numbers can be written, and stops at a number or where that of the nested instructions
does. -/
inductive Settled (e : Encoding) (v : Visit) : Prop where
  | offends {k : Offence} {f : Fault} (offence : v.offence? = some k)
      (fault : (operandLayout e v.operand).fault? v.level v.offset = some f)
      (report : f.report? = some (k, (v.offset : Int))
        ∨ v.operand.isShowable e = false ∧ f = .badValue)
  | passes (offence : v.offence? = none)
      (goesOn : (operandLayout e v.operand).fault? v.level v.offset = none →
        v.operand.isShowable e = true
        ∧ piecesFault? (v.level + 1) ((v.offset + 1 : Nat) : Int)
            ((v.operand.parts e).map (pieceOf e)) = none)
      (stops : ∀ f, (operandLayout e v.operand).fault? v.level v.offset = some f →
        v.operand.isShowable e = false ∧ f = .badValue
        ∨ piecesFault? (v.level + 1) ((v.offset + 1 : Nat) : Int)
            ((v.operand.parts e).map (pieceOf e)) = some f)
      (instr : ∃ i, v.operand = .instr i)

theorem settled_of_accepted (e : Encoding) {n : Int} {body : Body} {level : Nat}
    (indent offset : Nat) (htyped : body.isTyped (Opcode.ofCode? n) = true)
    (hlevel : ¬256 < level) (hv : verdict (.code n) body = .accepted) :
    Settled e ⟨.instr (.mk (.code n) body), level, indent, offset⟩ := by
  obtain ⟨op, hop, hshape⟩ := verdict_eq_accepted hv
  have hop' : Opcode.ofCode? n = some op := hop
  have hmax : ¬maxLevel < level := hlevel
  have hfault : (operandLayout e (.instr (.mk (.code n) body))).fault? level offset
      = itemsFault? level offset (offset + byteSize) (bodyItems e (.code n) op body) := by
    rw [operandLayout_instr e hop, Layout.fault?, if_neg hmax, hv]
    rfl
  have hoffence := offence?_of_accepted indent offset hlevel hv
  cases hany : (Operand.instr (.mk (.code n) body)).textKind?.any
      (fun kind => decide (kind < 0 ∨ 4 < kind)) with
  | true =>
    cases hkind : (Operand.instr (.mk (.code n) body)).textKind? with
    | none => simp [hkind] at hany
    | some kind =>
      have hunknown : kind < 0 ∨ 4 < kind := by simpa [hkind] using hany
      obtain ⟨f, hf, hreport⟩ := itemsFault?_of_unknownText e op level offset _ hkind hunknown
      exact .offends (by rw [hoffence, hany]; rfl) (hfault.trans hf) hreport
  | false =>
    have htext : ∀ kind, (Operand.instr (.mk (.code n) body)).textKind? = some kind →
        ¬(kind < 0 ∨ 4 < kind) := by
      intro kind hkind
      simpa [hkind] using hany
    rw [hop'] at htyped
    have hshow : (Operand.instr (.mk (.code n) body)).isShowable e
        = body.isShowable e (some op) := by rw [Operand.isShowable, hop]
    have hparts : (Operand.instr (.mk (.code n) body)).parts e = body.parts e op := by
      simp [Operand.parts, hop, hshape]
    have hclean : itemsAll Item.isClean (bodyItems e (.code n) op body)
        = body.isShowable e (some op) := by
      rw [itemsAll_bodyItems Item.isClean_testsFaults e hshape htyped htext]
      exact Bool.or_false _
    have hwriting : itemsAll Item.failsInWriting (bodyItems e (.code n) op body) = true := by
      rw [itemsAll_bodyItems Item.failsInWriting_testsFaults e hshape htyped htext]
      exact Bool.or_true _
    have hpieces : itemsPieces 0 (bodyItems e (.code n) op body)
        = ((Operand.instr (.mk (.code n) body)).parts e).map (pieceOf e) := by
      rw [hparts, itemsPieces_bodyItems rfl body]
    refine .passes (by rw [hoffence, hany]; rfl) ?_ ?_ ⟨_, rfl⟩
    · intro hnone
      rw [hfault] at hnone
      have hall := isClean_of_itemsFault? _ _ _ _ hnone
      rw [itemsFault?_eq_piecesFault? level 0 _ _ hall, hpieces] at hnone
      exact ⟨by rw [hshow, ← hclean, hall], hnone⟩
    · intro f hf
      rw [hfault] at hf
      rcases itemsFault?_eq_some level 0 _ _ hwriting _ f hf with ⟨hnot, rfl⟩ | hf
      · exact .inl ⟨by rw [hshow, ← hclean, hnot], rfl⟩
      · rw [hpieces] at hf
        exact .inr hf

theorem settled (e : Encoding) {v : Visit} (htyped : v.operand.isTyped = true) :
    Settled e v := by
  obtain ⟨o, level, indent, offset⟩ := v
  cases o with
  | missing => exact @Settled.offends e _ .absent (.missingOperand offset) rfl rfl (.inl rfl)
  | foreign => simp [Operand.isTyped] at htyped
  | instr i =>
    obtain ⟨tag, body⟩ := i
    cases tag with
    | word s => simp [Operand.isTyped] at htyped
    | other d => simp [Operand.isTyped] at htyped
    | code n =>
      obtain ⟨items, hlayout⟩ := exists_operandLayout_eq e (.code n) body
      by_cases hlevel : 256 < level
      · refine @Settled.offends e _ .tooDeep (.tooDeep maxLevel offset) ?_ ?_ (.inl rfl)
        · rw [offence?_instr, if_pos hlevel]
        · rw [hlayout, Layout.fault?, if_pos (show maxLevel < level from hlevel)]
      by_cases hv : verdict (.code n) body = .accepted
      · exact settled_of_accepted e indent offset htyped hlevel hv
      · obtain ⟨k, f, hk, hf, hreport⟩ := offence?_of_refused indent offset hlevel hv
        refine .offends hk ?_ (.inl hreport)
        rw [hlayout, Layout.fault?, if_neg (show ¬maxLevel < level from hlevel), hf]
        rfl

/-! ## All places -/

/-- A walk over places: it goes on if none of them offends and all numbers can be written, and
otherwise it stops at one of them. -/
structure Accounts (e : Encoding) (fault : Option Fault) (vs : List Visit) : Prop where
  goesOn : fault = none → ∀ v ∈ vs, v.offence? = none ∧ v.operand.isShowable e = true
  stops : ∀ f, fault = some f → StopsWithin e vs f

/-- Walks one after the other, the second of which matters if the first one does not stop. -/
theorem Accounts.append {e : Encoding} {first second : Option Fault} {vs ws : List Visit}
    (hvs : Accounts e first vs) (hws : first = none → Accounts e second ws) :
    Accounts e (first.or second) (vs ++ ws) where
  goesOn h := by
    rw [Option.or_eq_none_iff] at h
    intro v hv
    rcases List.mem_append.mp hv with hv | hv
    · exact hvs.goesOn h.1 v hv
    · exact (hws h.1).goesOn h.2 v hv
  stops f h := by
    rcases Option.or_eq_some_iff.mp h with h | ⟨hnone, h⟩
    · exact (hvs.stops f h).append_right ws
    · exact ((hws hnone).stops f h).append_left vs fun u hu => (hvs.goesOn hnone u hu).1

theorem exists_disassemble_eq_ok_iff {e : Encoding} {s : Setting} {script : List Operand} :
    (∃ l, disassemble e s script = .ok l) ↔ itemsFault? 0 0 0 (scriptItems e script) = none := by
  rw [disassemble_eq]
  cases itemsFault? 0 0 0 (scriptItems e script) <;> simp

theorem disassemble_eq_error_iff {e : Encoding} {s : Setting} {script : List Operand} {f : Fault} :
    disassemble e s script = .error f ↔ itemsFault? 0 0 0 (scriptItems e script) = some f := by
  rw [disassemble_eq]
  cases itemsFault? 0 0 0 (scriptItems e script) <;> simp

/-- The end of a list that stands on its own, and is no record of any tag. -/
def sampleStray : Operand := .instr (.mk (.code 0x16) .bare)

end Kismet.Listing
