import Kismet.Proofs.Cause
import Kismet.Report.Export
import Mathlib.Data.List.Forall2
set_option autoImplicit false

/-!
# ClassDefaults: where the default values of a class are shown

The report of a class gives each default value to a declared property or lists it as one of the
parent's.  Names may be repeated among the properties and among the values, values may be
absent, and one property is never shown.  What is shown is said here without going through the
values one after the other: a property shows the last value of its name, if no property of its
name comes after it (`Report.shownDefault`).

`Report.setDefault_cons` says what one value does, `Report.withDefaults_eq` what all of them do.
-/

namespace Kismet

/-- The document is a text. -/
def Document.IsTextual (d : Document) : Prop :=
  ∃ s, d = .text s

namespace Report

/-! ## What a report should show -/

/-- No field among them has the name. -/
def lacks (fields : List Descriptor) (name : String) : Bool :=
  fields.all fun d => d.name.display != name

/-- The last tag of a name. -/
def lastTag? (tags : List DefaultTag) (name : String) : Option DefaultTag :=
  (tags.filter fun tag => tag.1.display == name).getLast?

/-- Fields, each with the fields after it. -/
def withFollowing : List Descriptor → List (Descriptor × List Descriptor)
  | [] => []
  | d :: rest => (d, rest) :: withFollowing rest

/-- The default that a field shows which has the given fields after it. -/
def shownDefault (tags : List DefaultTag) (d : Descriptor) (following : List Descriptor) :
    Option String :=
  if lacks following d.name.display then (lastTag? tags d.name.display).bind tagText else none

/-- The lines about a field which has the given fields after it. -/
def fieldBlock (tags : List DefaultTag) (d : Descriptor) (following : List Descriptor) :
    List String :=
  ["Name: " ++ d.name.display, "Type: " ++ d.type.display]
    ++ defaultLines (shownDefault tags d following) ++ flagLines d.propertyFlags

/-- The tag is the last one of a name. -/
def IsLastTag (tags : List DefaultTag) (name : Document) (tag : DefaultTag) : Prop :=
  ∃ before after, tags = before ++ tag :: after ∧ tag.1 = name ∧ ∀ u ∈ after, u.1 ≠ name

end Report

open Report

/-- The lines that the report of a class should have, by the descriptions of its fields. -/
def ClassExport.shownLines (c : ClassExport) (fields : List Descriptor) : List String :=
  ["Class: " ++ c.name.display, "Parent: " ++ c.superName.display,
   "Flags: " ++ classFlags.format true c.flags.toInt, "Config: " ++ c.configName.display]
    ++ header "Properties"
    ++ paragraphs (((withFollowing fields).filter fun p => !p.1.type.isText graphFrameType).map
        fun p => fieldBlock c.tags p.1 p.2)
    ++ header "Parent property overrides"
    ++ (c.tags.filter fun tag => lacks fields tag.1.display).map fun tag =>
        tag.1.display ++ " = " ++ (Value.render "" tag.2).getD ""

namespace Report

/-! ## One tag -/

theorem sameKey_eq {a b : Document} (ha : a.IsTextual) (hb : b.IsTextual) :
    a.sameKey b = (a.display == b.display) := by
  obtain ⟨s, rfl⟩ := ha
  obtain ⟨t, rfl⟩ := hb
  rfl

theorem declares_eq {fields : List Descriptor} (hfields : ∀ d ∈ fields, d.name.IsTextual)
    {name : Document} (hname : name.IsTextual) :
    declares fields name = !lacks fields name.display := by
  induction fields with
  | nil => rfl
  | cons d rest ih =>
    rw [List.forall_mem_cons] at hfields
    have hrest : declares rest name = !lacks rest name.display := ih hfields.2
    unfold declares lacks at hrest ⊢
    rw [List.any_cons, List.all_cons, hrest, sameKey_eq hfields.1 hname]
    simp [bne]

theorem setDefault_of_not_declares {name : Document} (text : Option String)
    {fields : List Descriptor} (h : declares fields name = false) :
    setDefault name text fields = fields := by
  induction fields with
  | nil => rfl
  | cons d rest ih =>
    unfold declares at h ih
    rw [List.any_cons, Bool.or_eq_false_iff] at h
    rw [setDefault, h.1, ih h.2]
    simp

/-- A tag changes a field if it has the name of the tag and no field after it has. -/
theorem setDefault_cons (name : Document) (text : Option String) (d : Descriptor)
    (rest : List Descriptor) :
    setDefault name text (d :: rest)
      = (if d.name.sameKey name && !declares rest name then { d with defaultText := text } else d)
        :: setDefault name text rest := by
  rw [setDefault]
  split
  · rename_i hhere
    rw [Bool.and_eq_true, Bool.not_eq_true'] at hhere
    rw [setDefault_of_not_declares text hhere.2]
  · rfl

theorem names_setDefault (name : Document) (text : Option String) (fields : List Descriptor) :
    (setDefault name text fields).map Descriptor.name = fields.map Descriptor.name := by
  induction fields with
  | nil => rfl
  | cons d rest ih =>
    rw [setDefault_cons, List.map_cons, List.map_cons, ih]
    split <;> rfl

/-! ## All tags -/

theorem lastTag?_cons (tag : DefaultTag) (tags : List DefaultTag) (name : String) :
    lastTag? (tag :: tags) name
      = (lastTag? tags name).or (if tag.1.display = name then some tag else none) := by
  unfold lastTag?
  by_cases h : tag.1.display = name
  · simp [h, List.getLast?_cons]
  · simp [h]

/-- The field with the last value of its name, if no field of its name comes after it. -/
def settled (tags : List DefaultTag) (d : Descriptor) (following : List Descriptor) : Descriptor :=
  if lacks following d.name.display then
    { d with defaultText := (lastTag? tags d.name.display).elim d.defaultText tagText }
  else d

theorem lacks_setDefault (name : Document) (text : Option String) (fields : List Descriptor)
    (other : String) : lacks (setDefault name text fields) other = lacks fields other := by
  have hnames := congrArg (List.all · fun n => n.display != other)
    (names_setDefault name text fields)
  simpa [lacks, List.all_map, Function.comp_def] using hnames

theorem isTextual_setDefault (name : Document) (text : Option String) {fields : List Descriptor}
    (h : ∀ d ∈ fields, d.name.IsTextual) :
    ∀ d ∈ setDefault name text fields, d.name.IsTextual := by
  rw [← List.forall_mem_map (f := Descriptor.name)] at h ⊢
  rwa [names_setDefault]

/-- The first of the tags counts if it has the name of the field and no later tag has. -/
theorem settled_cons (tag : DefaultTag) (tags : List DefaultTag) (d : Descriptor)
    (following : List Descriptor) :
    settled (tag :: tags) d following
      = settled tags (if d.name.display == tag.1.display && lacks following tag.1.display then
          { d with defaultText := tagText tag } else d) following := by
  by_cases hname : d.name.display = tag.1.display
  · by_cases hlacks : lacks following tag.1.display = true
    · cases hlast : lastTag? tags tag.1.display <;> simp [settled, lastTag?_cons, *]
    · simp [settled, *]
  · cases hlast : lastTag? tags d.name.display <;>
      simp [settled, lastTag?_cons, Ne.symm hname, *]

/-- What all tags do to a field depends on its name and on the fields after it. -/
theorem withDefaults_cons {d : Descriptor} {rest : List Descriptor} {tags : List DefaultTag}
    (hd : d.name.IsTextual) (hrest : ∀ e ∈ rest, e.name.IsTextual)
    (htags : ∀ tag ∈ tags, tag.1.IsTextual) :
    withDefaults (d :: rest) tags = settled tags d rest :: withDefaults rest tags := by
  induction tags generalizing d rest with
  | nil => simp [withDefaults, settled, lastTag?]
  | cons tag tags ih =>
    rw [List.forall_mem_cons] at htags
    have hrest' := isTextual_setDefault tag.1 (tagText tag) hrest
    have hsame : ∀ d following, settled tags d (setDefault tag.1 (tagText tag) following)
        = settled tags d following := by
      intro d following
      rw [settled, settled, lacks_setDefault]
    rw [withDefaults, withDefaults, setDefault_cons, sameKey_eq hd htags.1,
      declares_eq hrest htags.1, Bool.not_not, settled_cons]
    split
    · rw [ih (by exact hd) hrest' htags.2, hsame]
    · rw [ih hd hrest' htags.2, hsame]

theorem withDefaults_eq {fields : List Descriptor} {tags : List DefaultTag}
    (hfields : ∀ d ∈ fields, d.name.IsTextual) (htags : ∀ tag ∈ tags, tag.1.IsTextual) :
    withDefaults fields tags = (withFollowing fields).map fun p => settled tags p.1 p.2 := by
  induction fields with
  | nil =>
    induction tags with
    | nil => rfl
    | cons tag tags ih => exact ih (List.forall_mem_cons.mp htags).2
  | cons d rest ih =>
    rw [List.forall_mem_cons] at hfields
    rw [withDefaults_cons hfields.1 hfields.2 htags, ih hfields.2]
    rfl

/-! ## Reports -/

/-- The lines about a field that starts without a default. -/
theorem fieldLines_settled (tags : List DefaultTag) {d : Descriptor} (hd : d.defaultText = none)
    (following : List Descriptor) :
    fieldLines (settled tags d following) = fieldBlock tags d following := by
  unfold settled fieldBlock shownDefault
  split
  · cases lastTag? tags d.name.display <;> simp [fieldLines, hd]
  · simp [fieldLines, hd]

theorem mem_of_mem_withFollowing {fields : List Descriptor} {p : Descriptor × List Descriptor}
    (h : p ∈ withFollowing fields) : ∃ before, fields = before ++ p.1 :: p.2 := by
  induction fields with
  | nil => simp [withFollowing] at h
  | cons d rest ih =>
    rcases List.mem_cons.mp h with rfl | h
    · exact ⟨[], rfl⟩
    · obtain ⟨before, hrest⟩ := ih h
      exact ⟨d :: before, by rw [hrest]; rfl⟩

/-- The section about properties: the fields in order, the one that is not shown left out. -/
theorem shownFields_eq {fields : List Descriptor} {tags : List DefaultTag}
    (hfields : ∀ d ∈ fields, d.name.IsTextual ∧ d.defaultText = none)
    (htags : ∀ tag ∈ tags, tag.1.IsTextual) :
    (shownFields (withDefaults fields tags)).map fieldLines
      = ((withFollowing fields).filter fun p => !p.1.type.isText graphFrameType).map
          fun p => fieldBlock tags p.1 p.2 := by
  have htype : ∀ p : Descriptor × List Descriptor, (settled tags p.1 p.2).type = p.1.type := by
    intro p
    unfold settled
    split <;> rfl
  rw [shownFields, withDefaults_eq (fun d hd => (hfields d hd).1) htags, List.filter_map,
    List.map_map]
  simp only [Function.comp_def, htype]
  refine List.map_congr_left fun p hp => ?_
  obtain ⟨before, rfl⟩ := mem_of_mem_withFollowing (List.mem_filter.mp hp).1
  exact fieldLines_settled tags (hfields p.1 (by simp)).2 p.2

theorem display_inj {a b : Document} (ha : a.IsTextual) (hb : b.IsTextual) :
    a.display = b.display ↔ a = b := by
  obtain ⟨s, rfl⟩ := ha
  obtain ⟨t, rfl⟩ := hb
  simp [Document.display, Scalar.display]

theorem lacks_iff {fields : List Descriptor} (hfields : ∀ d ∈ fields, d.name.IsTextual)
    {name : Document} (hname : name.IsTextual) :
    lacks fields name.display = true ↔ ∀ d ∈ fields, d.name ≠ name := by
  simp only [lacks, List.all_eq_true, bne_iff_ne]
  exact forall₂_congr fun d hd => not_congr (display_inj (hfields d hd) hname)

theorem lastTag?_eq_some_iff {tags : List DefaultTag} (htags : ∀ tag ∈ tags, tag.1.IsTextual)
    {name : Document} (hname : name.IsTextual) {tag : DefaultTag} :
    lastTag? tags name.display = some tag ↔ IsLastTag tags name tag := by
  have hiff : ∀ u ∈ tags, (u.1.display == name.display) = true ↔ u.1 = name := fun u hu => by
    rw [beq_iff_eq, display_inj (htags u hu) hname]
  rw [lastTag?, List.getLast?_eq_some_iff]
  constructor
  · rintro ⟨ys, hfilter⟩
    obtain ⟨front, back, rfl, -, hback⟩ := List.filter_eq_append_iff.mp hfilter
    obtain ⟨middle, after, rfl, -, htag, hafter⟩ := List.filter_eq_cons_iff.mp hback
    refine ⟨front ++ middle, after, by simp, (hiff tag (by simp)).mp htag, fun u hu => ?_⟩
    exact fun heq => List.filter_eq_nil_iff.mp hafter u hu ((hiff u (by simp [hu])).mpr heq)
  · rintro ⟨before, after, rfl, htag, hafter⟩
    refine ⟨before.filter fun u => u.1.display == name.display, ?_⟩
    have hnil : (after.filter fun u => u.1.display == name.display) = [] :=
      List.filter_eq_nil_iff.mpr fun u hu heq => hafter u hu ((hiff u (by simp [hu])).mp heq)
    rw [List.filter_append, List.filter_cons, if_pos ((hiff tag (by simp)).mpr htag), hnil]

/-- No other line about a field looks like one with its default. -/
theorem mem_fieldBlock_iff (tags : List DefaultTag) (d : Descriptor) (following : List Descriptor)
    (text : String) :
    "Default: " ++ text ∈ fieldBlock tags d following
      ↔ shownDefault tags d following = some text := by
  have hline : ∀ rest : String, ("Default: " ++ text = "Name: " ++ rest) = False
      ∧ ("Default: " ++ text = "Type: " ++ rest) = False
      ∧ ("Default: " ++ text = "Flags: " ++ rest) = False := by
    intro rest
    simp [← String.toList_inj]
  have hflags : "Default: " ++ text ∉ flagLines d.propertyFlags := by
    unfold flagLines
    repeat' split
    all_goals simp [hline]
  rw [fieldBlock, List.mem_append, List.mem_append]
  cases hshown : shownDefault tags d following <;>
    simp [defaultLines, hline, hflags, eq_comm]

end Report

namespace Field

/-- The field is there, and this is its description. -/
def DescribedAs (f : Option Field) (d : Descriptor) : Prop :=
  ∃ g, f = some g ∧ g.describe = .ok d

theorem describe_eq_ok {f : Field} {d : Descriptor} (h : f.describe = .ok d) :
    d.name = f.name ∧ d.defaultText = none := by
  unfold describe at h
  split at h
  · simp at h
  · obtain ⟨type, -, rfl⟩ := map_eq_ok_iff.mp h
    exact ⟨rfl, rfl⟩
  · obtain ⟨type, -, rfl⟩ := map_eq_ok_iff.mp h
    exact ⟨rfl, rfl⟩

/-- The fields are described one by one. -/
theorem describeAll_eq_ok {fs : List (Option Field)} {ds : List Descriptor}
    (h : describeAll fs = .ok ds) :
    List.Forall₂ DescribedAs fs ds := by
  induction fs generalizing ds with
  | nil =>
    obtain rfl := Except.ok.inj h
    exact .nil
  | cons f fs ih =>
    cases f with
    | none => simp [describeAll] at h
    | some g =>
      rw [describeAll] at h
      split at h
      · simp at h
      · rename_i d hd
        obtain ⟨rest, hrest, rfl⟩ := map_eq_ok_iff.mp h
        exact .cons ⟨g, rfl, hd⟩ (ih hrest)

theorem described_unique {fs : List (Option Field)} {ds ds' : List Descriptor}
    (h : List.Forall₂ DescribedAs fs ds)
    (h' : List.Forall₂ DescribedAs fs ds') : ds = ds' := by
  refine List.right_unique_forall₂' ?_ h h'
  rintro f d d' ⟨g, rfl, hd⟩ ⟨g', hg, hd'⟩
  obtain rfl := Option.some.inj hg
  exact Except.ok.inj (hd.symm.trans hd')

theorem exists_of_mem_describeAll {fs : List (Option Field)} {ds : List Descriptor}
    (h : List.Forall₂ DescribedAs fs ds) :
    ∀ d ∈ ds, ∃ g, some g ∈ fs ∧ g.describe = .ok d := by
  induction h with
  | nil => simp
  | cons hfirst _ ih =>
    obtain ⟨g, rfl, hg⟩ := hfirst
    refine List.forall_mem_cons.mpr ⟨⟨g, List.mem_cons_self .., hg⟩, fun d hd => ?_⟩
    obtain ⟨g', hg', hd'⟩ := ih d hd
    exact ⟨g', List.mem_cons_of_mem _ hg', hd'⟩

end Field

namespace ClassExport

theorem reportLines_eq {c : ClassExport} {fields : List Descriptor}
    (hfields : ∀ d ∈ fields, d.name.IsTextual ∧ d.defaultText = none)
    (htags : ∀ tag ∈ c.tags, tag.1.IsTextual) : c.reportLines fields = c.shownLines fields := by
  have hoverrides : overrides fields c.tags
      = c.tags.filter fun tag => lacks fields tag.1.display :=
    List.filter_congr fun tag htag => by
      rw [declares_eq (fun d hd => (hfields d hd).1) (htags tag htag), Bool.not_not]
  rw [reportLines, shownLines, fieldsSection, shownFields_eq hfields htags, hoverrides]
  simp only [List.append_assoc]
  rfl

/-- The report of a class whose fields and tags are named by texts.  All fields are listed in
order but the one for the state of the event graph.  A field shows a default if and only if no
field of its name comes after it and the last tag of its name has a text, and then it shows this
text.  The tags that name no field at all, shown or not, are listed in order after the fields. -/
theorem report_defaults {c : ClassExport} {r : Report} (h : c.report = .ok r)
    (hfields : ∀ f, some f ∈ c.fields → f.name.IsTextual)
    (htags : ∀ tag ∈ c.tags, tag.1.IsTextual) :
    ∃ fields : List Descriptor,
      List.Forall₂ Field.DescribedAs c.fields fields
      ∧ r.text = "\n".intercalate (c.shownLines fields) ++ "\n"
      ∧ ∀ p ∈ withFollowing fields, ∀ text,
          "Default: " ++ text ∈ fieldBlock c.tags p.1 p.2
            ↔ (∀ e ∈ p.2, e.name ≠ p.1.name)
              ∧ ∃ tag, IsLastTag c.tags p.1.name tag ∧ Value.render "" tag.2 = some text := by
  unfold report at h
  split at h
  · simp at h
  rename_i fields hdescribed
  have hall := Field.describeAll_eq_ok hdescribed
  have hplain : ∀ d ∈ fields, d.name.IsTextual ∧ d.defaultText = none := by
    intro d hd
    obtain ⟨f, hf, hdescribe⟩ := Field.exists_of_mem_describeAll hall d hd
    obtain ⟨hname, hdefault⟩ := Field.describe_eq_ok hdescribe
    exact ⟨hname ▸ hfields f hf, hdefault⟩
  refine ⟨fields, hall, ?_, fun p hp text => ?_⟩
  · split at h
    · split at h
      · rw [← Except.ok.inj h, reportLines_eq hplain htags]
        rfl
      · simp at h
    · simp at h
  · obtain ⟨before, rfl⟩ := mem_of_mem_withFollowing hp
    have hname : p.1.name.IsTextual := (hplain p.1 (by simp)).1
    have hafter : ∀ e ∈ p.2, e.name.IsTextual := fun e he => (hplain e (by simp [he])).1
    rw [mem_fieldBlock_iff, shownDefault, Option.ite_none_right_eq_some, Option.bind_eq_some_iff,
      lacks_iff hafter hname]
    simp only [lastTag?_eq_some_iff htags hname]
    rfl

/-- A property without any flags. -/
def sampleField (kind name : String) : Field :=
  { (default : Field) with kind := .text kind, name := .text name, propertyFlags := .number 0 }

/-- A class with two properties of one name and the state of its event graph. -/
def sampleClass : ClassExport where
  name := .text "Door_C"
  superName := .text "Actor"
  flags := .number 0
  configName := .text ""
  fields :=
    [some (sampleField "FFloatProperty" "Speed"), some (sampleField "FIntProperty" "Speed"),
     some (sampleField "FPointerToUberGraphFrameProperty" "Frame"),
     some (sampleField "FBoolProperty" "Open")]
  defaults := some
    [(.text "Speed", .leaf (.int 1)), (.text "Open", .leaf (.bool true)),
     (.text "Health", .leaf .null), (.text "Speed", .leaf (.int 2)),
     (.text "Frame", .leaf (.int 3)), (.text "Open", .leaf .null),
     (.text "Health", .leaf (.int 5))]

/-- The descriptions of its fields. -/
def sampleDescriptors : List Descriptor :=
  [⟨.text "Speed", .text "Float", 0, some (.number 0), none⟩,
   ⟨.text "Speed", .text "Int", 0, some (.number 0), none⟩,
   ⟨.text "Frame", .text "PointerToUberGraphFrame", 0, some (.number 0), none⟩,
   ⟨.text "Open", .text "Bool", 0, some (.number 0), none⟩]

/-- The lines of its report. -/
def sampleLines : List String :=
  ["Class: Door_C", "Parent: Actor", "Flags: " ++ classFlags.format true 0, "Config: "]
    ++ header "Properties"
    ++ ["Name: Speed", "Type: Float", "", "Name: Speed", "Type: Int", "Default: 2", "",
        "Name: Open", "Type: Bool"]
    ++ header "Parent property overrides" ++ ["Health = ", "Health = 5"]

theorem report_defaults_sample :
    (∀ f, some f ∈ sampleClass.fields → f.name.IsTextual)
    ∧ (∀ tag ∈ sampleClass.tags, tag.1.IsTextual)
    ∧ ∃ r, sampleClass.report = .ok r ∧ r.text = "\n".intercalate sampleLines ++ "\n" := by
  have hfields : ∀ f, some f ∈ sampleClass.fields → f.name.IsTextual := by
    simp [sampleClass, sampleField, Document.IsTextual]
  have htags : ∀ tag ∈ sampleClass.tags, tag.1.IsTextual := by
    simp [sampleClass, tags, Document.IsTextual]
  obtain ⟨r, hr⟩ : ∃ r, sampleClass.report = .ok r := ⟨_, rfl⟩
  obtain ⟨fields, hall, htext, -⟩ := report_defaults hr hfields htags
  have hdescribed : Field.describeAll sampleClass.fields = .ok sampleDescriptors := rfl
  obtain rfl : fields = sampleDescriptors :=
    Field.described_unique hall (Field.describeAll_eq_ok hdescribed)
  exact ⟨hfields, htags, r, hr, htext⟩

end ClassExport

end Kismet
