import Kismet.Proofs.Lookup
import Kismet.Proofs.Refusal
set_option autoImplicit false

/-!
# Foreign: exports that are skipped

Of the exports in an asset document only functions and generated classes become exports of
the asset.  Exports of other types are skipped, but their fields are read before their type
is looked at.  `Asset.decode_foreign` says what such an export does to the outcome of
decoding: nothing if its fields can be read, and nothing if decoding stops in front of it;
otherwise the document is refused for the fault in its fields.
-/

namespace Kismet

/-- The document is an object whose type is not one of those that make an export. -/
def Document.isForeign : Document → Bool
  | .object fields =>
    let type := Fields.getOrNull fields "type"
    !type.isText "Function" && !type.isText "BlueprintGeneratedClass"
  | _ => false

/-- Of a foreign export nothing but the fields is read, and nothing becomes of them. -/
theorem Export.decode_of_isForeign {entry : Fields}
    (h : (Document.object entry).isForeign = true) :
    decode (.object entry) = (decodeFields entry).map fun _ => none := by
  simp only [Document.isForeign, Bool.and_eq_true, Bool.not_eq_true'] at h
  have hopen : decode (.object entry) = decodeFields entry >>= fun declared =>
      if (Fields.getOrNull entry "type").isText "Function" then
        return some (.function (← FunctionExport.decode entry declared))
      else if (Fields.getOrNull entry "type").isText "BlueprintGeneratedClass" then
        return some (.generatedClass (← ClassExport.decode entry declared))
      else return none := rfl
  rw [hopen, h.1, h.2]
  cases decodeFields entry <;> rfl

namespace Asset

/-! ## Exports one after the other -/

/-- What exports come to that stand behind others. -/
theorem decodeExports_append (front rest : List Document) :
    (decodeExports (front ++ rest)).2
      = (decodeExports front).2 >>= fun es => (decodeExports rest).2.map (es ++ ·) := by
  induction front with
  | nil =>
    cases h : (decodeExports rest).2 <;>
      simp [decodeExports, h, Except.map, bind, Except.bind]
  | cons d front ih =>
    simp only [List.cons_append, decodeExports]
    cases Export.decode d with
    | error f => rfl
    | ok export? =>
      cases export? with
      | none => exact ih
      | some e =>
        simp only [ih]
        cases (decodeExports front).2 with
        | error f => rfl
        | ok es => cases (decodeExports rest).2 <;> rfl

/-- Exports come to something just when each of them does. -/
theorem exists_decodeExports_eq_ok_iff {entries : List Document} :
    (∃ es, (decodeExports entries).2 = .ok es) ↔ ∀ d ∈ entries, ∃ e, Export.decode d = .ok e := by
  induction entries with
  | nil => simp [decodeExports]
  | cons d rest ih =>
    rw [List.forall_mem_cons, ← ih]
    cases hd : Export.decode d with
    | error f => simp [decodeExports, hd]
    | ok export? =>
      cases export? with
      | none => simp [decodeExports, hd]
      | some e =>
        simp only [decodeExports, hd]
        cases (decodeExports rest).2 <;> simp [Except.map]

/-- An export that decodes to nothing can stand anywhere. -/
theorem decodeExports_skip {d : Document} (h : Export.decode d = .ok none)
    (front back : List Document) :
    (decodeExports (front ++ d :: back)).2 = (decodeExports (front ++ back)).2 := by
  have hskip : (decodeExports (d :: back)).2 = (decodeExports back).2 := by
    simp only [decodeExports, h]
  rw [decodeExports_append, decodeExports_append, hskip]

/-! ## One more export in a document -/

/-- The object with other exports. -/
def withEntries (fields : Fields) (entries : List Document) : Fields :=
  Fields.set fields "exports" (.list entries)

/-- What an object comes to, by what its exports come to. -/
def assembled (fields : Fields) (path : String) (exports : Except Fault (List Export)) :
    Except Fault Asset :=
  let given := Fields.getOrNull fields "name"
  let name : Document := if given.holds then given else .text (Path.ofText path).stem
  let place : Document := if path.isEmpty then name else .text path
  let versions := Encoding.ofVersions (Fields.getOrNull fields "file_version_ue4")
    (Fields.getOrNull fields "file_version_ue5")
  (versions >>= fun encoding => exports.map fun es => ⟨name, place, encoding, es⟩).mapError
    (inDocument path)

theorem decode_eq_assembled {fields : Fields} {entries : List Document} (path : String)
    (h : (Fields.get? fields "exports").getD (.list []) = .list entries) :
    (decode (.object fields) path).2 = assembled fields path (decodeExports entries).2 := by
  simp only [decode, decodeObject, assembled, h, Document.parts]
  cases Encoding.ofVersions (Fields.getOrNull fields "file_version_ue4")
    (Fields.getOrNull fields "file_version_ue5") <;> rfl

/-- Besides the exports nothing changes with them. -/
theorem decode_withEntries (fields : Fields) (entries : List Document) (path : String) :
    (decode (.object (withEntries fields entries)) path).2
      = assembled fields path (decodeExports entries).2 := by
  have hentries : (Fields.get? (withEntries fields entries) "exports").getD (.list [])
      = .list entries := by
    rw [withEntries, Fields.get?_set_self, Option.getD_some]
  have hother : ∀ key, key ≠ "exports" →
      Fields.getOrNull (withEntries fields entries) key = Fields.getOrNull fields key :=
    fun _ hkey => Fields.getOrNull_set_of_ne fields _ hkey
  rw [decode_eq_assembled path hentries]
  simp only [assembled, hother "name" (by decide), hother "file_version_ue4" (by decide),
    hother "file_version_ue5" (by decide)]

/-- Decoding comes to the export behind `front`: the versions of the object can be compared,
and all exports in front can be decoded. -/
def Reaches (fields : Fields) (front : List Document) : Prop :=
  (∃ encoding, Encoding.ofVersions (Fields.getOrNull fields "file_version_ue4")
      (Fields.getOrNull fields "file_version_ue5") = .ok encoding)
    ∧ ∀ d ∈ front, ∃ e, Export.decode d = .ok e

/-- Where decoding stops in front, it does not matter what stands behind. -/
theorem assembled_of_not_reaches {fields : Fields} {front : List Document}
    (h : ¬Reaches fields front) (path : String) (back back' : List Document) :
    assembled fields path (decodeExports (front ++ back)).2
      = assembled fields path (decodeExports (front ++ back')).2 := by
  unfold assembled
  cases hversions : Encoding.ofVersions (Fields.getOrNull fields "file_version_ue4")
      (Fields.getOrNull fields "file_version_ue5") with
  | error f => rfl
  | ok encoding =>
    rw [decodeExports_append, decodeExports_append]
    cases hfront : (decodeExports front).2 with
    | error f => rfl
    | ok es =>
      exact absurd ⟨⟨encoding, hversions⟩, exists_decodeExports_eq_ok_iff.mp ⟨es, hfront⟩⟩ h

theorem assembled_of_reaches {fields : Fields} {front : List Document} {d : Document} {f : Fault}
    (h : Reaches fields front) (hd : Export.decode d = .error f) (path : String)
    (back : List Document) :
    assembled fields path (decodeExports (front ++ d :: back)).2 = .error (inDocument path f) := by
  obtain ⟨⟨encoding, hversions⟩, hfront⟩ := h
  obtain ⟨es, hes⟩ := exists_decodeExports_eq_ok_iff.mpr hfront
  have hstop : (decodeExports (d :: back)).2 = .error f := by simp only [decodeExports, hd]
  simp only [assembled, hversions, decodeExports_append, hes, hstop]
  rfl

/-- An export of another type, put anywhere among the exports of a
document, leaves the outcome of decoding as it is if its fields can be read or if decoding
does not come to it.  Where decoding comes to it and its fields cannot be read, the document
is refused for them. -/
theorem decode_foreign {fields entry : Fields} {front back : List Document} (path : String)
    (hexports : (Fields.get? fields "exports").getD (.list []) = .list (front ++ back))
    (hforeign : (Document.object entry).isForeign = true) :
    ((Reaches fields front → ∃ declared, Export.decodeFields entry = .ok declared) →
      (decode (.object (withEntries fields (front ++ .object entry :: back))) path).2
        = (decode (.object fields) path).2)
    ∧ ∀ f, Reaches fields front → Export.decodeFields entry = .error f →
        (decode (.object (withEntries fields (front ++ .object entry :: back))) path).2
          = .error (inDocument path f) := by
  have hentry := Export.decode_of_isForeign hforeign
  rw [decode_withEntries, decode_eq_assembled path hexports]
  constructor
  · intro hread
    by_cases hreaches : Reaches fields front
    · obtain ⟨declared, hdeclared⟩ := hread hreaches
      rw [hdeclared] at hentry
      rw [decodeExports_skip hentry]
    · exact assembled_of_not_reaches hreaches path _ _
  · intro f hreaches hf
    rw [hf] at hentry
    exact assembled_of_reaches hreaches hentry path back

/-- A function without a script. -/
def sampleOpen : Document := .object [("type", .text "Function"), ("name", .text "Open")]

/-- An asset document with the function. -/
def sampleDoor : Fields := [("name", .text "Door"), ("exports", .list [sampleOpen])]

/-- A texture that declares the given fields. -/
def sampleTexture (declared : Document) : Fields :=
  [("type", .text "Texture2D"), ("name", .text "Icon"), ("fields", declared)]

/-- A texture in front of the function changes nothing if its fields can be read, and else the
document is refused. -/
theorem decode_foreign_texture :
    (Fields.get? sampleDoor "exports").getD (.list []) = .list ([] ++ [sampleOpen])
    ∧ (∀ declared, (Document.object (sampleTexture declared)).isForeign = true)
    ∧ (decode (.object (withEntries sampleDoor ([] ++ .object (sampleTexture (.list []))
          :: [sampleOpen]))) "Door.uasset").2
        = (decode (.object sampleDoor) "Door.uasset").2
    ∧ (decode (.object (withEntries sampleDoor ([] ++ .object (sampleTexture (.int 5))
          :: [sampleOpen]))) "Door.uasset").2
        = .error (.badAsset "Door.uasset" .wrongKind) := by
  have hreaches : Reaches sampleDoor [] := ⟨⟨_, rfl⟩, by simp⟩
  exact ⟨rfl, fun _ => rfl,
    (decode_foreign "Door.uasset" rfl rfl).1 fun _ => ⟨[], rfl⟩,
    (decode_foreign "Door.uasset" rfl rfl).2 .wrongKind hreaches rfl⟩

/-- Not every foreign export is inert: a texture with a field of no kind keeps the function
from being decoded. -/
theorem decode_foreign_refused :
    ¬∀ (fields entry : Fields) (front back : List Document) (path : String),
      (Fields.get? fields "exports").getD (.list []) = .list (front ++ back) →
      (Document.object entry).isForeign = true →
      (decode (.object (withEntries fields (front ++ .object entry :: back))) path).2
        = (decode (.object fields) path).2 := by
  intro h
  have hsame := h sampleDoor (sampleTexture (.list [.object []])) [] [sampleOpen] "Door.uasset"
    rfl rfl
  have hok : Except.isOk (decode (.object sampleDoor) "Door.uasset").2 = true := rfl
  rw [← hsame] at hok
  exact Bool.noConfusion hok

end Asset

end Kismet
