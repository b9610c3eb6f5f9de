import Kismet.Proofs.Oversize
import Kismet.Proofs.Parsing
import Kismet.Proofs.Recursion
import Kismet.Session
set_option autoImplicit false

/-!
# Load: which faults loading an asset can end in

Loading reads a file, takes its bytes for a text, the text for a document and the
document for an asset.  The faults of decoding are covered by the document: they concern
its form, or it holds an oversized number, or it is nested too deeply.  So
`Asset.decode_failsOnly` says that the last step reports a badly formed document as such,
except for numbers that are too large and for the nesting.  `load_failsOnly` sums up: of the
faults of loading, five are not about the document of the asset, its form or the place where
it should be.
-/

namespace Kismet

/-! ## Pieces of documents -/

namespace Document

theorem atLeast_failsOnly (d : Document) (k : Int) :
    FailsOnly Fault.concernsForm (d.atLeast k) := by
  unfold atLeast
  repeat' split
  all_goals simp [Fault.concernsForm, Fault.concernsData]

theorem item_failsOnly (d : Document) (key : String) :
    FailsOnly Fault.concernsForm (d.item key) := by
  unfold item
  repeat' split
  all_goals simp [Fault.concernsForm, Fault.concernsData]

theorem fields_failsOnly (d : Document) : FailsOnly Fault.concernsForm d.fields := by
  unfold fields
  split <;> simp [Fault.concernsForm, Fault.concernsData]

theorem parts_concernsForm (d : Document) : FailsOnly Fault.concernsForm d.parts := by
  unfold parts
  split <;> simp [Fault.concernsForm, Fault.concernsData]

theorem pair_failsOnly (d : Document) : FailsOnly Fault.concernsForm d.pair := by
  unfold pair
  split
  · exact FailsOnly.ok _
  · simp [Fault.concernsForm, Fault.concernsData]
  · rename_i f hf
    exact FailsOnly.error_iff.mpr (d.parts_concernsForm f hf)

/-- The two parts of a document are covered with it. -/
theorem Covered.of_pair {p : Fault → Bool} {d a b : Document} (h : d.Covered p)
    (hpair : d.pair = .ok (a, b)) : a.Covered p ∧ b.Covered p := by
  unfold pair at hpair
  split at hpair
  · rename_i hparts
    obtain ⟨rfl, rfl⟩ := Prod.mk.inj (Except.ok.inj hpair)
    have hcovered := h.of_parts hparts
    exact ⟨hcovered _ (by simp), hcovered _ (by simp)⟩
  · simp at hpair
  · simp at hpair

end Document

theorem Encoding.ofVersions_failsOnly (first second : Document) :
    FailsOnly Fault.concernsForm (ofVersions first second) := by
  have hversion : ∀ (d : Document) (missing : Bool) (version : Int),
      FailsOnly Fault.concernsForm (if d.isNull then .ok missing else d.atLeast version) := by
    intro d missing version
    split
    · exact FailsOnly.ok _
    · exact d.atLeast_failsOnly version
  unfold ofVersions
  split
  · rename_i f hf
    exact FailsOnly.error_iff.mpr (hversion _ _ _ f hf)
  · split
    · rename_i f hf
      exact FailsOnly.error_iff.mpr (hversion _ _ _ f hf)
    · exact FailsOnly.ok _

namespace Enumeration

theorem unite_failsOnly (e : Enumeration) (names : List Document) : ∀ start,
    FailsOnly Fault.concernsForm (e.unite start names) := by
  induction names with
  | nil => exact fun start => FailsOnly.ok _
  | cons d rest ih =>
    intro start
    unfold unite
    split
    · exact FailsOnly.ok _
    · rename_i heq
      obtain ⟨-, rfl⟩ := List.cons.inj heq
      split
      · exact ih _
      · simp [Fault.concernsForm, Fault.concernsData]
    · simp [Fault.concernsForm, Fault.concernsData]

theorem parse_failsOnly (e : Enumeration) (d : Document) :
    FailsOnly Fault.concernsForm (e.parse d) := by
  have hunite : ∀ names, FailsOnly Fault.concernsForm (do
      let n ← e.unite 0 names
      pure (n : Int)) := fun names =>
    FailsOnly.bind (e.unite_failsOnly names 0) fun _ _ => FailsOnly.pure _
  unfold parse
  split
  · exact FailsOnly.ok _
  · exact FailsOnly.ok _
  · exact FailsOnly.ok _
  · exact (FailsOnly.map_iff _).mpr (hunite _)
  · split
    · rename_i f hf
      exact FailsOnly.error_iff.mpr (d.parts_concernsForm f hf)
    · exact (FailsOnly.map_iff _).mpr (hunite _)

end Enumeration

theorem PropertyPath.decode_failsOnly (d : Document) :
    FailsOnly Fault.concernsForm (decode d) := by
  have hparts : ∀ d, FailsOnly Fault.concernsForm (ofParts d) := fun d =>
    (FailsOnly.map_iff _).mpr d.parts_concernsForm
  unfold decode
  repeat' split
  all_goals simp [hparts]

theorem ObjectRef.decode_failsOnly (d : Document) :
    FailsOnly Fault.concernsForm (decode d) := by
  unfold decode
  repeat' split
  all_goals simp [Fault.concernsForm, Fault.concernsData]

section Covered

variable {p : Fault → Bool}

/-! ## Fields and values -/

theorem Value.decodeParts_failsOnly {α : Type} {read : Document → Except Fault α} {d : Document}
    (hd : d.Covered p) (h : ∀ x, x.Covered p → FailsOnly p (read x)) :
    FailsOnly p (decodeParts read d) := by
  unfold decodeParts
  split
  · rename_i f hf
    exact FailsOnly.error_iff.mpr (hd.failsOnly d.parts_concernsForm f hf)
  · rename_i ps hps
    exact FailsOnly.mapM fun x hx => h x (hd.of_parts hps x hx)

theorem Field.decodeStep_failsOnly {self : Document → Except Fault (Option Field)} {d : Document}
    (hd : d.Covered p) (h : ∀ x : Document, x.Covered p → FailsOnly p (self x)) :
    FailsOnly p (decodeStep self d) := by
  unfold decodeStep
  split
  · exact FailsOnly.ok _
  · rename_i fields
    have hflags : FailsOnly p ((Fields.get? fields "flags").getD (.int 0)).toInt := by
      cases hget : Fields.get? fields "flags" with
      | none => exact FailsOnly.ok _
      | some x => exact x.toInt_failsOnly_of hd.form (hd.inf_of_get? (by decide) hget)
    have hself := fun key => h _ (hd.of_getOrNull key)
    refine FailsOnly.bind (hd.failsOnly (Document.item_failsOnly _ _)) fun _ _ => ?_
    refine FailsOnly.bind hflags fun _ _ => ?_
    refine FailsOnly.bind (hd.failsOnly (Enumeration.parse_failsOnly _ _)) fun _ _ => ?_
    refine FailsOnly.bind (hself _) fun _ _ => FailsOnly.bind (hself _) fun _ _ => ?_
    refine FailsOnly.bind (hself _) fun _ _ => FailsOnly.bind (hself _) fun _ _ => ?_
    exact FailsOnly.pure _
  · exact FailsOnly.error_iff.mpr (hd.form _ rfl)

theorem Field.decode_failsOnly {d : Document} (hd : d.Covered p) : FailsOnly p (decode d) :=
  leveled.failsOnly (hd.form _ rfl) (fun _ _ => decodeStep_failsOnly) d hd

namespace Value

variable {self : Document → Except Fault Value} {d : Document} (hd : d.Covered p)
  (h : ∀ x, x.Covered p → FailsOnly p (self x))

include hd h

theorem decodeMember_failsOnly : FailsOnly p (decodeMember self d) := by
  unfold decodeMember
  split
  · split
    · exact FailsOnly.error_iff.mpr (hd.form _ rfl)
    · exact (FailsOnly.map_iff _).mpr (h _ (hd.of_getOrNull _))
  · exact FailsOnly.error_iff.mpr (hd.form _ rfl)

theorem decodeEntry_failsOnly : FailsOnly p (decodeEntry self d) := by
  unfold decodeEntry
  split
  · rename_i f hf
    exact FailsOnly.error_iff.mpr (hd.failsOnly d.pair_failsOnly f hf)
  · rename_i hpair
    obtain ⟨hkey, hvalue⟩ := hd.of_pair hpair
    split
    · rename_i f hf
      exact FailsOnly.error_iff.mpr (h _ hkey f hf)
    · exact (FailsOnly.map_iff _).mpr (h _ hvalue)

end Value

theorem Value.decodeStep_failsOnly {self : Document → Except Fault Value} {d : Document}
    (hd : d.Covered p) (h : ∀ x : Document, x.Covered p → FailsOnly p (self x)) :
    FailsOnly p (decodeStep self d) := by
  unfold decodeStep
  split
  · exact FailsOnly.ok _
  · exact (FailsOnly.map_iff _).mpr (FailsOnly.mapM fun x hx => h x (hd.of_item hx))
  · have hparts := fun x (hx : Document.Covered p x) => decodeParts_failsOnly hx h
    have hmembers := fun x (hx : Document.Covered p x) =>
      decodeParts_failsOnly hx fun y hy => decodeMember_failsOnly hy h
    have hentries := fun x (hx : Document.Covered p x) =>
      decodeParts_failsOnly hx fun y hy => decodeEntry_failsOnly hy h
    -- Which of the keys is there decides how the parts are read.
    unfold decodeObject
    split
    · split
      · exact FailsOnly.ok _
      · exact (FailsOnly.map_iff _).mpr (hmembers _ (hd.of_getD_nil _))
    · split
      · rename_i harray
        exact (FailsOnly.map_iff _).mpr (hparts _ (hd.of_get? harray))
      · split
        · rename_i hset
          exact (FailsOnly.map_iff _).mpr (hparts _ (hd.of_get? hset))
        · split
          · rename_i hmap
            exact (FailsOnly.map_iff _).mpr (hentries _ (hd.of_get? hmap))
          · exact FailsOnly.error_iff.mpr (hd.form _ rfl)

theorem Value.decode_failsOnly {d : Document} (hd : d.Covered p) : FailsOnly p (decode d) :=
  leveled.failsOnly (hd.form _ rfl) (fun _ _ => decodeStep_failsOnly) d hd

/-! ## Instructions -/

namespace Instr

theorem ownOperand_failsOnly (d : Document) (name : String) :
    FailsOnly Fault.concernsForm (ownOperand d name) := by
  unfold ownOperand
  repeat' split
  all_goals simp [Fault.concernsForm, Fault.isMalformed, Fault.concernsData]

theorem exists_of_ownOperand {d v : Document} {name : String} (h : ownOperand d name = .ok v) :
    ∃ fields, d = .object fields ∧ Fields.get? fields name = some v := by
  unfold ownOperand at h
  split at h
  · rename_i fields
    split at h
    · rename_i v' hv'
      exact ⟨fields, rfl, hv'.trans (congrArg some (Except.ok.inj h))⟩
    · simp at h
  · simp at h

section Operands

variable {d v : Document} {name : String} (hd : d.Covered p) (hv : ownOperand d name = .ok v)

include hd hv

theorem covered_of_ownOperand : v.Covered p := by
  obtain ⟨fields, rfl, hget⟩ := exists_of_ownOperand hv
  exact hd.of_get? hget

/-- An operand under a key of whole numbers can be converted, or its size is covered. -/
theorem toInt_of_ownOperand (hname : name ∈ Document.wholeKeys) : FailsOnly p v.toInt := by
  obtain ⟨fields, rfl, hget⟩ := exists_of_ownOperand hv
  exact v.toInt_failsOnly_of hd.form (hd.inf_of_get? hname hget)

end Operands

section Nodes

variable {n : Node} (hn : (Document.object n.fields).Covered p)
  (h : ∀ x, x.Covered p → FailsOnly p (n.self x))

theorem Node.get?_of_required {n : Node} {name : String} {d : Document}
    (h : n.required name = .ok d) : Fields.get? n.fields name = some d := by
  unfold required at h
  split at h
  · rename_i d' hd'
    exact hd'.trans (congrArg some (Except.ok.inj h))
  · simp at h

include hn in
theorem Node.required_failsOnly (name : String) : FailsOnly p (n.required name) := by
  unfold required
  split
  · exact FailsOnly.ok _
  · exact FailsOnly.error_iff.mpr (hn.form _ rfl)

include h in
theorem Node.readOperand_failsOnly {d : Document} (hd : d.Covered p) :
    FailsOnly p (readOperand n.self d) := by
  unfold readOperand
  split
  · exact FailsOnly.ok _
  · exact (FailsOnly.map_iff _).mpr (h _ hd)

include hn h in
theorem Node.operand_failsOnly (name : String) : FailsOnly p (n.operand name) :=
  FailsOnly.bind (required_failsOnly hn name) fun _ hd =>
    readOperand_failsOnly h (hn.of_get? (get?_of_required hd))

include hn h in
theorem Node.operandOr_failsOnly (name : String) : FailsOnly p (n.operandOr name) :=
  readOperand_failsOnly h (hn.of_getOrNull name)

include hn h in
theorem Node.operandsOr_failsOnly (name : String) : FailsOnly p (n.operandsOr name) := by
  have hlist := hn.of_getD_nil name
  unfold operandsOr readOperands
  split
  · rename_i f hf
    exact FailsOnly.error_iff.mpr (hlist.failsOnly (Document.parts_concernsForm _) f hf)
  · rename_i ps hps
    exact (FailsOnly.map_iff _).mpr
      (FailsOnly.mapM fun x hx => (FailsOnly.map_iff _).mpr (h x (hlist.of_parts hps x hx)))

include hn in
theorem Node.property_failsOnly (name : String) : FailsOnly p (n.property name) := by
  refine FailsOnly.bind (required_failsOnly hn name) fun d _ => ?_
  exact FailsOnly.bind (hn.failsOnly (PropertyPath.decode_failsOnly d)) fun _ _ => FailsOnly.pure _

include hn in
theorem Node.propertyOr_failsOnly (name : String) : FailsOnly p (n.propertyOr name) :=
  FailsOnly.bind (hn.failsOnly (PropertyPath.decode_failsOnly _)) fun _ _ => FailsOnly.pure _

include hn in
theorem Node.object_failsOnly (name : String) : FailsOnly p (n.object name) := by
  refine FailsOnly.bind (required_failsOnly hn name) fun d _ => ?_
  exact FailsOnly.bind (hn.failsOnly (ObjectRef.decode_failsOnly d)) fun _ _ => FailsOnly.pure _

include hn in
theorem Node.reals_failsOnly {name : String} (hname : name ∈ Document.realKeys) :
    FailsOnly p (n.reals name) := by
  refine FailsOnly.bind (required_failsOnly hn name) fun d hd => ?_
  refine FailsOnly.bind (hn.failsOnly d.parts_concernsForm) fun ps hps => ?_
  refine FailsOnly.bind (FailsOnly.mapM fun x hx => ?_) fun _ _ => FailsOnly.pure _
  exact (FailsOnly.map_iff _).mpr (hn.toReal_of_get? hname (get?_of_required hd) hps hx)

include hn in
theorem Node.member_failsOnly (e : Enumeration) {name : String}
    (hname : name ∈ Document.wholeKeys) : FailsOnly p (n.member e name) := by
  refine FailsOnly.bind (required_failsOnly hn name) fun d hd => ?_
  refine FailsOnly.bind ?_ fun _ _ => FailsOnly.pure _
  unfold Enumeration.decode
  split
  · split
    · exact FailsOnly.ok _
    · exact FailsOnly.error_iff.mpr (hn.form _ rfl)
  · exact d.toInt_failsOnly_of hn.form (hn.inf_of_get? hname (get?_of_required hd))

include hn h in
theorem decodeText_failsOnly : FailsOnly p (decodeText n) := by
  have hoperand := fun name => Node.operandOr_failsOnly hn h name
  refine FailsOnly.bind (hn.failsOnly (ownOperand_failsOnly _ _)) fun kind hkind => ?_
  refine FailsOnly.bind ?_ fun _ _ => ?_
  · unfold textKind
    split
    · split
      · exact FailsOnly.ok _
      · exact FailsOnly.error_iff.mpr (hn.form _ rfl)
    · exact toInt_of_ownOperand hn hkind (by decide)
  · refine FailsOnly.bind (hoperand _) fun _ _ => FailsOnly.bind (hoperand _) fun _ _ => ?_
    refine FailsOnly.bind (hoperand _) fun _ _ => FailsOnly.bind (hoperand _) fun _ _ => ?_
    exact FailsOnly.bind (hn.failsOnly (ObjectRef.decode_failsOnly _)) fun _ _ => FailsOnly.pure _

theorem decodeCase_failsOnly {self : Document → Except Fault Instr} {d : Document}
    (hd : d.Covered p) (h : ∀ x, x.Covered p → FailsOnly p (self x)) :
    FailsOnly p (decodeCase self d) := by
  have hown := fun name => hd.failsOnly (ownOperand_failsOnly d name)
  refine FailsOnly.bind (hown _) fun value hvalue => ?_
  refine FailsOnly.bind (h _ (covered_of_ownOperand hd hvalue)) fun _ _ => ?_
  refine FailsOnly.bind (hown _) fun next hnext => ?_
  refine FailsOnly.bind (toInt_of_ownOperand hd hnext (by decide)) fun _ _ => ?_
  refine FailsOnly.bind (hown _) fun term hterm => ?_
  exact FailsOnly.bind (h _ (covered_of_ownOperand hd hterm)) fun _ _ => FailsOnly.pure _

include hn h in
theorem decodeSwitch_failsOnly : FailsOnly p (decodeSwitch n) := by
  have hown := fun name => hn.failsOnly (ownOperand_failsOnly (.object n.fields) name)
  have hcases := hn.of_getD_nil "cases"
  refine FailsOnly.bind (hown _) fun index hindex => ?_
  refine FailsOnly.bind (h _ (covered_of_ownOperand hn hindex)) fun _ _ => ?_
  refine FailsOnly.bind (hown _) fun finish hfinish => ?_
  refine FailsOnly.bind (toInt_of_ownOperand hn hfinish (by decide)) fun _ _ => ?_
  refine FailsOnly.bind (hcases.failsOnly (Document.parts_concernsForm _)) fun ps hps => ?_
  refine FailsOnly.bind (FailsOnly.mapM fun x hx => ?_) fun _ _ => ?_
  · exact decodeCase_failsOnly (hcases.of_parts hps x hx) h
  · refine FailsOnly.bind (hown _) fun fallback hfallback => ?_
    exact FailsOnly.bind (h _ (covered_of_ownOperand hn hfallback)) fun _ _ => FailsOnly.pure _

include hn h in
theorem decodeBody_failsOnly (shape : Shape) : FailsOnly p (decodeBody n shape) := by
  have hoperand := fun name => Node.operand_failsOnly hn h name
  have hoperandOr := fun name => Node.operandOr_failsOnly hn h name
  have hoperands := fun name => Node.operandsOr_failsOnly hn h name
  cases shape with
  | textConst => exact decodeText_failsOnly hn h
  | switchValue => exact decodeSwitch_failsOnly hn h
  | _ =>
    unfold decodeBody
    repeat' first
      | exact FailsOnly.pure _
      | exact hoperand _
      | exact hoperandOr _
      | exact hoperands _
      | exact Node.required_failsOnly hn _
      | exact Node.property_failsOnly hn _
      | exact Node.propertyOr_failsOnly hn _
      | exact Node.object_failsOnly hn _
      | exact Node.reals_failsOnly hn (by decide)
      | exact Node.member_failsOnly hn _ (by decide)
      | refine FailsOnly.bind ?_ fun _ _ => ?_

end Nodes

theorem decodeStep_failsOnly {self : Document → Except Fault Instr} {d : Document}
    (hd : d.Covered p) (h : ∀ x : Document, x.Covered p → FailsOnly p (self x)) :
    FailsOnly p (decodeStep self d) := by
  unfold decodeStep
  split
  · split
    · exact FailsOnly.error_iff.mpr (hd.form _ rfl)
    · split
      · exact FailsOnly.ok _
      · split
        · exact FailsOnly.ok _
        · exact (FailsOnly.map_iff _).mpr (decodeBody_failsOnly hd h _)
  · exact FailsOnly.error_iff.mpr (hd.form _ rfl)

theorem decode_failsOnly {d : Document} (hd : d.Covered p) : FailsOnly p (decode d) :=
  leveled.failsOnly (hd.form _ rfl) (fun _ _ => decodeStep_failsOnly) d hd

theorem decodeScript_failsOnly {d : Document} (hd : d.Covered p) :
    FailsOnly p (decodeScript d) := by
  unfold decodeScript
  split
  · rename_i f hf
    exact FailsOnly.error_iff.mpr (hd.failsOnly d.parts_concernsForm f hf)
  · rename_i ps hps
    exact FailsOnly.mapM fun x hx => decode_failsOnly (hd.of_parts hps x hx)

end Instr

/-! ## Assets -/

section Exports

variable {fields : Fields} (hfields : (Document.object fields).Covered p)

include hfields

theorem FunctionExport.decode_failsOnly (declared : List (Option Field)) :
    FailsOnly p (decode fields declared) := by
  refine FailsOnly.bind (hfields.failsOnly (Document.item_failsOnly _ _)) fun _ _ => ?_
  refine FailsOnly.bind (hfields.failsOnly (Enumeration.parse_failsOnly _ _)) fun _ _ => ?_
  have hscript := hfields.of_getOrNull "bytecode"
  split
  · exact FailsOnly.pure _
  · exact FailsOnly.bind ((FailsOnly.map_iff _).mpr (Instr.decodeScript_failsOnly hscript))
      fun _ _ => FailsOnly.pure _

theorem ClassExport.decode_failsOnly (declared : List (Option Field)) :
    FailsOnly p (decode fields declared) := by
  refine FailsOnly.bind (hfields.failsOnly (Document.item_failsOnly _ _)) fun _ _ => ?_
  refine FailsOnly.bind (hfields.failsOnly (Enumeration.parse_failsOnly _ _)) fun _ _ => ?_
  have hmembers := Value.decodeParts_failsOnly (hfields.of_getOrNull "defaults")
    fun x hx => Value.decodeMember_failsOnly hx fun y hy => Value.decode_failsOnly hy
  split
  · exact FailsOnly.pure _
  · exact FailsOnly.bind ((FailsOnly.map_iff _).mpr hmembers) fun _ _ => FailsOnly.pure _

end Exports

theorem Export.decode_failsOnly {d : Document} (hd : d.Covered p) : FailsOnly p (decode d) := by
  refine FailsOnly.bind (hd.failsOnly d.fields_failsOnly) fun fields hobject => ?_
  obtain rfl : d = .object fields := by
    cases d with
    | object fs => exact congrArg _ (Except.ok.inj hobject)
    | _ => simp [Document.fields] at hobject
  refine FailsOnly.bind (Value.decodeParts_failsOnly (hd.of_getD_nil _)
    fun x hx => Field.decode_failsOnly hx) fun declared _ => ?_
  split
  · exact FailsOnly.bind (FunctionExport.decode_failsOnly hd _) fun _ _ => FailsOnly.pure _
  · split
    · exact FailsOnly.bind (ClassExport.decode_failsOnly hd _) fun _ _ => FailsOnly.pure _
    · exact FailsOnly.pure _

namespace Asset

theorem decodeExports_failsOnly (entries : List Document) (h : ∀ d ∈ entries, d.Covered p) :
    FailsOnly p (decodeExports entries).2 := by
  induction entries with
  | nil => exact FailsOnly.ok _
  | cons d rest ih =>
    have hrest := ih fun x hx => h x (List.mem_cons_of_mem _ hx)
    unfold decodeExports
    split
    · rename_i f hf
      exact FailsOnly.error_iff.mpr (Export.decode_failsOnly (h d (by simp)) f hf)
    · exact hrest
    · exact (FailsOnly.map_iff _).mpr hrest

theorem decodeObject_failsOnly {fields : Fields} (h : (Document.object fields).Covered p)
    (path : String) : FailsOnly p (decodeObject fields path).2 := by
  have hexports := h.of_getD_nil "exports"
  cases hversions : Encoding.ofVersions (Fields.getOrNull fields "file_version_ue4")
      (Fields.getOrNull fields "file_version_ue5") with
  | error f =>
    simp only [decodeObject, hversions]
    exact FailsOnly.error_iff.mpr (h.failsOnly (Encoding.ofVersions_failsOnly _ _) f hversions)
  | ok encoding =>
    cases hparts : ((Fields.get? fields "exports").getD (.list [])).parts with
    | error f =>
      simp only [decodeObject, hversions, hparts]
      exact FailsOnly.error_iff.mpr (h.failsOnly (Document.parts_concernsForm _) f hparts)
    | ok entries =>
      simp only [decodeObject, hversions, hparts]
      exact (FailsOnly.map_iff _).mpr
        (decodeExports_failsOnly entries (hexports.of_parts hparts))

end Asset

end Covered

/-- The fault is one of decoding: it concerns the form of the document or the use of
its data. -/
def Fault.concernsDocument : Fault → Bool
  | .tooLarge => true
  | f => f.isMalformed || f.concernsData

/-- Any document is covered if its numbers may be too large. -/
theorem Document.covered_concernsDocument (d : Document) : d.Covered Fault.concernsDocument where
  form f hf := by
    unfold Fault.concernsDocument
    split
    · rfl
    · exact hf
  size _ := rfl

namespace Asset

/-- The fault says that the document is badly formed, or that a number is too
large. -/
def refuses : Fault → Bool
  | .tooLarge => true
  | f => f.isMalformed

/-- A fault of decoding is one of the document. -/
theorem refuses_inDocument {f : Fault} (h : f.concernsDocument = true) (path : String) :
    refuses (inDocument path f) = true := by
  unfold inDocument
  split
  · rfl
  · rename_i hdata
    unfold Fault.concernsDocument at h
    split at h
    · rfl
    · unfold refuses
      split
      · rfl
      · simpa [hdata] using h

/-- Without limits, a document that is not an asset is reported as badly formed, unless a
number in it is too large. -/
theorem decode_failsOnly (d : Document) (path : String) : FailsOnly refuses (decode d path).2 := by
  unfold decode
  split
  · exact (decodeObject_failsOnly (Document.covered_concernsDocument _) path).mapError
      fun f hf => refuses_inDocument hf path
  · exact FailsOnly.error_iff.mpr rfl

/-- Within limits, one that is too deep may also be reported as nested too deeply. -/
theorem refuses_of_decode {d : Document} {path : String} {limits : Limits} {f : Fault}
    (h : (decode d path limits).2 = .error f) :
    refuses f = true ∨ f = .tooNested ∧ d.Exceeds limits := by
  rcases decode_approximates d path limits with heq | ⟨hexceeds, hstop⟩
  · exact .inl (decode_failsOnly d path f (heq ▸ h))
  · exact .inr ⟨Except.error.inj (h.symm.trans hstop), hexceeds⟩

end Asset

/-! ## Files -/

namespace FileTree

/-- The fault says that a path leads nowhere or not to a file, or that no file can have
its name. -/
def refuses : Fault → Bool
  | .noEntry | .notDirectory | .isDirectory | .badValue => true
  | _ => false

theorem follow_failsOnly (t : FileTree) (segments : List String) : ∀ here,
    FailsOnly refuses (t.follow here segments) := by
  induction segments with
  | nil => exact fun here => FailsOnly.ok _
  | cons segment rest ih =>
    intro here
    have hstep : FailsOnly refuses (t.step here segment) := by
      unfold step
      split <;> simp [refuses]
    unfold follow
    split
    · rename_i f hf
      exact FailsOnly.error_iff.mpr (hstep f hf)
    · exact ih _

theorem contentAt_failsOnly (t : FileTree) (p : Path) : FailsOnly refuses (t.contentAt p) := by
  have hresolve : FailsOnly refuses (t.resolve p) := by
    unfold resolve
    split
    · exact FailsOnly.error_iff.mpr rfl
    · exact t.follow_failsOnly p.segments _
  unfold contentAt
  split
  · rename_i f hf
    exact FailsOnly.error_iff.mpr (hresolve f hf)
  · split <;> simp [refuses]

end FileTree

namespace Catalog

/-- The faults of loading that do not let a run go on: bytes that are no text, a number
with too many digits, a number that is too large, and nesting that is too deep. -/
def halts : Fault → Bool
  | .notUtf8 | .badValue | .tooLarge | .tooNested => true
  | _ => false

/-- The fault ends a run, or it says that a document has a string in it that is no text, so that
it is not followed what becomes of the run. -/
def stops : Fault → Bool
  | .unpaired => true
  | f => halts f

theorem isSkippable_of_isMalformed {f : Fault} (h : f.isMalformed = true) :
    f.isSkippable = true := by
  unfold Fault.isSkippable
  split
  all_goals first | rfl | exact h

/-- A document that is no asset is skipped, unless a number in it is too large. -/
theorem skips_or_stops_of_refuses {f : Fault} (h : Asset.refuses f = true) :
    (f.isSkippable || stops f) = true := by
  unfold Asset.refuses at h
  split at h
  · rfl
  · rw [isSkippable_of_isMalformed h]
    rfl

theorem readDocument_failsOnly (t : FileTree) (p : Path) (limits : Limits) :
    FailsOnly (fun f => f.isSkippable || stops f) (readDocument t p limits) := by
  have hcontent : FailsOnly (fun f => f.isSkippable || stops f) (t.contentAt p) := by
    refine (t.contentAt_failsOnly p).mono fun f hf => ?_
    unfold FileTree.refuses at hf
    split at hf
    all_goals first | rfl | simp at hf
  have htext : ∀ content, FailsOnly (fun f => f.isSkippable || stops f) (textOf content) := by
    intro content
    unfold textOf
    split <;> simp [stops, halts]
  unfold readDocument
  split
  · rename_i f hf
    exact FailsOnly.error_iff.mpr (hcontent f hf)
  · split
    · rename_i f hf
      exact FailsOnly.error_iff.mpr (htext _ f hf)
    · intro f hf
      have hrefuses := Document.Parser.document_refuses hf
      unfold Document.Parser.Refuses at hrefuses
      split at hrefuses
      all_goals first | rfl | exact hrefuses.elim

/-- A fault of loading lets the run go on, or is one of five. -/
theorem load_failsOnly (c : Catalog) (t : FileTree) (path : String) :
    FailsOnly (fun f => f.isSkippable || stops f) (c.load t path).2 := by
  unfold load
  split
  · simp [Fault.isSkippable, stops]
  · split
    · rename_i f hf
      exact FailsOnly.error_iff.mpr (readDocument_failsOnly _ _ _ f hf)
    · intro f hf
      rcases Asset.refuses_of_decode hf with hrefuses | ⟨rfl, -⟩
      · exact skips_or_stops_of_refuses hrefuses
      · rfl

/-- The text of a document opens more lists and objects than the catalog allows, or what it
says is nested too deeply. -/
def IsTooDeep (c : Catalog) (s : String) : Prop :=
  (∃ n, c.limits.brackets = some n ∧ n < Document.Parser.openings s.toList)
    ∨ ∃ d, Document.parse s c.limits = .ok d ∧ d.Exceeds c.limits

/-- A fault that finding a file and reading its text cannot have comes from the text. -/
theorem exists_text_of_load {c : Catalog} {t : FileTree} {path : String} {f : Fault}
    (h : (c.load t path).2 = .error f) (hf : f = .tooNested ∨ f = .unpaired) :
    ∃ p content s, c.find? path = some p ∧ t.contentAt p = .ok content ∧ textOf content = .ok s
      ∧ (Document.parse s c.limits = .error f
        ∨ ∃ d, Document.parse s c.limits = .ok d
            ∧ (Asset.decode d path c.limits).2 = .error f) := by
  unfold load at h
  split at h
  · obtain rfl := Except.error.inj h
    simp at hf
  · rename_i p hfind
    cases hcontent : t.contentAt p with
    | error f' =>
      have hrefuses := t.contentAt_failsOnly p f' hcontent
      simp only [readDocument, hcontent] at h
      obtain rfl := Except.error.inj h
      rcases hf with rfl | rfl <;> simp [FileTree.refuses] at hrefuses
    | ok content =>
      cases htext : textOf content with
      | error f' =>
        simp only [readDocument, hcontent, htext] at h
        obtain rfl := Except.error.inj h
        unfold textOf at htext
        split at htext
        · simp at htext
        · rw [← Except.error.inj htext] at hf
          simp at hf
      | ok s =>
        refine ⟨p, content, s, hfind, hcontent, htext, ?_⟩
        cases hparse : Document.parse s c.limits with
        | error f' =>
          simp only [readDocument, hcontent, htext, hparse] at h
          exact .inl (congrArg _ (Except.error.inj h))
        | ok d =>
          simp only [readDocument, hcontent, htext, hparse] at h
          exact .inr ⟨d, rfl, h⟩

/-- Only a document that is too deep is too deep to be loaded. -/
theorem isTooDeep_of_load {c : Catalog} {t : FileTree} {path : String}
    (h : (c.load t path).2 = .error .tooNested) :
    ∃ p content s, c.find? path = some p ∧ t.contentAt p = .ok content ∧ textOf content = .ok s
      ∧ c.IsTooDeep s := by
  obtain ⟨p, content, s, hfind, hcontent, htext, hstop⟩ := exists_text_of_load h (.inl rfl)
  refine ⟨p, content, s, hfind, hcontent, htext, ?_⟩
  rcases hstop with hparse | ⟨d, hparse, hdecode⟩
  · exact .inl (Document.Parser.document_refuses hparse)
  · rcases Asset.refuses_of_decode hdecode with hrefuses | ⟨-, hexceeds⟩
    · simp [Asset.refuses, Fault.isMalformed] at hrefuses
    · exact .inr ⟨d, hparse, hexceeds⟩

/-- A string is no text only where half of a surrogate pair is written in a document. -/
theorem hasHalf_of_load {c : Catalog} {t : FileTree} {path : String}
    (h : (c.load t path).2 = .error .unpaired) :
    ∃ p content s, c.find? path = some p ∧ t.contentAt p = .ok content ∧ textOf content = .ok s
      ∧ Document.Parser.HasHalf s.toList := by
  obtain ⟨p, content, s, hfind, hcontent, htext, hstop⟩ := exists_text_of_load h (.inr rfl)
  refine ⟨p, content, s, hfind, hcontent, htext, ?_⟩
  rcases hstop with hparse | ⟨d, -, hdecode⟩
  · exact Document.Parser.document_refuses hparse
  · rcases Asset.refuses_of_decode hdecode with hrefuses | ⟨hf, -⟩
    · simp [Asset.refuses, Fault.isMalformed] at hrefuses
    · simp at hf

end Catalog

end Kismet
