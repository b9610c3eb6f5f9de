import Kismet.Proofs.Places
import Kismet.Proofs.Session
import Mathlib.Data.List.Forall2
import Mathlib.Data.List.Pairwise
set_option autoImplicit false

/-!
# Filing: which reports share a file

A report is filed under the kind of its export and a rewritten name.  The rewriting is not
injective: refused characters become underscores, a delegate loses what follows the mark of
its signature, an event graph the name of its asset, a class its ending.  `Asset.Clash` says
which exports of an asset end up under one file name.  Reports are stored in order, so the
last one of a file name stands.  `dump_filing` puts both together, and `dump_shared_file` is
a dump in which functions of different names are left with one file.
-/

namespace Kismet

/-! ## Rewritten names -/

namespace Text

theorem isSome_indexOf? {needle : List Char} (hneedle : needle ≠ []) (hay : List Char) :
    (indexOf? needle hay).isSome = (beforeLast? needle hay).isSome := by
  induction hay with
  | nil => simp [indexOf?, beforeLast?, hneedle]
  | cons c rest ih =>
    rw [indexOf?, beforeLast?]
    cases hlast : beforeLast? needle rest with
    | some front =>
      rw [hlast] at ih
      split <;> simp [ih]
    | none =>
      rw [hlast] at ih
      split <;> simp [ih]

end Text

namespace Report

/-- An underscore in a file name can stand for the character. -/
def isMasked (c : Char) : Bool :=
  isRefused c || c == '_'

/-- The characters look alike in a file name. -/
def Alike (c d : Char) : Prop :=
  c = d ∨ isMasked c = true ∧ isMasked d = true

theorem alike_iff {c d : Char} :
    (if isRefused c then '_' else c) = (if isRefused d then '_' else d) ↔ Alike c d := by
  unfold Alike isMasked
  split <;> split <;> grind

/-- Which names become one file name. -/
theorem sanitize_eq_iff {s t : String} :
    sanitize s = sanitize t ↔ List.Forall₂ Alike s.toList t.toList := by
  rw [sanitize, sanitize, String.ofList_inj, ← List.forall₂_eq_eq_eq,
    List.forall₂_map_left_iff, List.forall₂_map_right_iff]
  simp only [alike_iff]

theorem append_cons_inj {sep : Char} {k k' n n' : List Char} (hk : sep ∉ k) (hk' : sep ∉ k') :
    k ++ sep :: n = k' ++ sep :: n' ↔ k = k' ∧ n = n' := by
  induction k generalizing k' with
  | nil => cases k' <;> simp_all
  | cons c k ih =>
    rw [List.mem_cons, not_or] at hk
    cases k' with
    | nil => simp [Ne.symm hk.1]
    | cons c' k' =>
      rw [List.mem_cons, not_or] at hk'
      simp [ih hk.2 hk'.2, and_assoc]

/-- The kind and the rewritten name can be read off a file name. -/
theorem fileNameFor_inj {kind kind' name name' : String} (hkind : '_' ∉ kind.toList)
    (hkind' : '_' ∉ kind'.toList) :
    fileNameFor kind name = fileNameFor kind' name' ↔ kind = kind' ∧ name = name' := by
  simp only [fileNameFor, ← String.toList_inj, String.toList_append]
  rw [List.append_cancel_right_eq]
  simpa using append_cons_inj hkind hkind'

end Report

/-- The kind of an export in the name of its file. -/
def Export.title : Export → String
  | .function f => f.kind.title
  | .generatedClass _ => "Class"

theorem Export.not_mem_title (e : Export) : '_' ∉ e.title.toList := by
  cases e with
  | function f => cases hkind : f.kind <;> simp [title, hkind, FunctionKind.title]
  | generatedClass c => simp [title]

/-- The text that names an export. -/
def Export.nameText (e : Export) : String :=
  match e.name with
  | .text s => s
  | _ => ""

theorem Export.name_of_isNamed {e : Export} (h : e.isNamed = true) : e.name = .text e.nameText := by
  unfold isNamed at h
  unfold nameText
  split at h
  · rename_i s hs
    rw [hs]
  · simp at h

namespace FunctionExport

/-- What is left of the name of a delegate. -/
def delegateText (s : String) : String :=
  ((Text.beforeLast? signatureMark.toList s.toList).map String.ofList).getD s

/-- The name under which a function is filed that is named by a text. -/
def filedText (f : FunctionExport) (asset : Document) (s : String) : String :=
  let cut := if f.flags.isDelegate then delegateText s else s
  if f.flags.isUbergraph then Text.removeAll ("_" ++ asset.display) cut else cut

theorem delegateName_text (s : String) : delegateName (.text s) = .ok (.text (delegateText s)) := by
  have hoccurs : Text.occurs signatureMark.toList s.toList
      = (Text.beforeLast? signatureMark.toList s.toList).isSome :=
    Text.isSome_indexOf? (by decide) s.toList
  simp only [delegateName, Document.mentions, hoccurs, delegateText]
  cases Text.beforeLast? signatureMark.toList s.toList <;> rfl

theorem filedName_eq {f : FunctionExport} {s : String} (hname : f.name = .text s)
    (asset : Document) : f.filedName asset = .ok (.text (f.filedText asset s)) := by
  unfold filedName filedText
  rw [hname, delegateName_text]
  cases f.flags.isDelegate <;> cases f.flags.isUbergraph <;> rfl

end FunctionExport

/-- The name under which an export is filed. -/
def Export.filedText (e : Export) (asset : Document) : String :=
  match e with
  | .function f => f.filedText asset e.nameText
  | .generatedClass _ => Report.classStem e.nameText

/-- The report of an export that is named by a text is filed under its kind and name. -/
theorem Export.fileName_of_report {e : Export} {a : Asset} {index : EventIndex} {r : Report}
    {link : Option EventLink} (hnamed : e.isNamed = true) (h : e.report a index = .ok (r, link)) :
    r.fileName = Report.fileNameFor e.title (Report.sanitize (e.filedText a.name)) := by
  have hname := name_of_isNamed hnamed
  cases e with
  | generatedClass c =>
    obtain ⟨r', hr', heq⟩ := map_eq_ok_iff.mp h
    obtain ⟨rfl, -⟩ := Prod.mk.inj heq
    unfold ClassExport.report at hr'
    split at hr'
    · simp at hr'
    · split at hr'
      · split at hr'
        · rename_i s hs
          obtain rfl : s = (Export.generatedClass c).nameText := by
            simpa using hs.symm.trans hname
          rw [← Except.ok.inj hr']
          rfl
        · simp at hr'
      · simp at hr'
  | function f =>
    simp only [report, FunctionExport.report] at h
    split at h
    · simp at h
    · split at h
      · simp at h
      · obtain ⟨file, hfile, heq⟩ := map_eq_ok_iff.mp h
        obtain ⟨rfl, -⟩ := Prod.mk.inj heq
        rw [FunctionExport.fileName, FunctionExport.filedName_eq hname] at hfile
        exact (Except.ok.inj hfile).symm

/-! ## Exports of one file -/

namespace Asset

/-- The report that an export of the asset gets, with notes for the events in `index` if it
is an event graph. -/
def reportFor (a : Asset) (index : EventIndex) (e : Export) : Option Report :=
  match e.report a (if e.isGraph then index else {}) with
  | .ok (r, _) => some r
  | .error _ => none

/-- The exports of the asset are named by texts. -/
def HasNamedExports (a : Asset) : Prop :=
  ∀ e ∈ a.exports, e.isNamed = true

instance (a : Asset) : Decidable a.HasNamedExports :=
  inferInstanceAs (Decidable (∀ e ∈ a.exports, e.isNamed = true))

/-- Two exports are filed under one name. -/
structure Clash (a : Asset) (e e' : Export) : Prop where
  title : e.title = e'.title
  name : List.Forall₂ Report.Alike (e.filedText a.name).toList (e'.filedText a.name).toList

variable {a : Asset} {index : EventIndex}

theorem Clash.symm {e e' : Export} (h : a.Clash e e') : a.Clash e' e :=
  ⟨h.title.symm, Report.sanitize_eq_iff.mp (Report.sanitize_eq_iff.mpr h.name).symm⟩

theorem exists_report_of_reportFor {e : Export} {r : Report} (h : a.reportFor index e = some r) :
    ∃ link, e.report a (if e.isGraph then index else {}) = .ok (r, link) := by
  unfold reportFor at h
  split at h
  · rename_i r' link hr
    exact ⟨link, Option.some.inj h ▸ hr⟩
  · simp at h

theorem fileName_eq_iff_clash {e e' : Export} {r r' : Report} (he : e.isNamed = true)
    (he' : e'.isNamed = true) (hr : a.reportFor index e = some r)
    (hr' : a.reportFor index e' = some r') : r.fileName = r'.fileName ↔ a.Clash e e' := by
  obtain ⟨link, hr⟩ := exists_report_of_reportFor hr
  obtain ⟨link', hr'⟩ := exists_report_of_reportFor hr'
  rw [Export.fileName_of_report he hr, Export.fileName_of_report he' hr',
    Report.fileNameFor_inj e.not_mem_title e'.not_mem_title, Report.sanitize_eq_iff]
  exact ⟨fun h => ⟨h.1, h.2⟩, fun h => ⟨h.title, h.name⟩⟩

/-- The reports are those of the exports that are no event graphs, then those of the event
graphs. -/
theorem reports_eq_filterMap :
    a.reports index = (a.plainExports ++ a.graphExports).filterMap (a.reportFor index) := by
  have hplain : ∀ e ∈ a.plainExports, e.isGraph = false := by
    intro e he
    simpa using (List.mem_filter.mp he).2
  have hgraph : ∀ e ∈ a.graphExports, e.isGraph = true := fun e he => (List.mem_filter.mp he).2
  rw [List.filterMap_append, reports]
  congr 1
  · refine List.filterMap_congr fun e he => ?_
    cases hreport : e.report a {} <;> simp [reportFor, hplain e he, hreport]
  · refine List.filterMap_congr fun e he => ?_
    cases hreport : e.report a index <;> simp [reportFor, hgraph e he, hreport]

theorem exports_perm (a : Asset) : (a.plainExports ++ a.graphExports).Perm a.exports := by
  have hperm := List.filter_append_perm (fun e => !e.isGraph) a.exports
  simpa [plainExports, graphExports] using hperm

theorem mem_reports {r : Report} :
    r ∈ a.reports index ↔ ∃ e ∈ a.exports, a.reportFor index e = some r := by
  rw [reports_eq_filterMap, List.mem_filterMap]
  simp only [a.exports_perm.mem_iff]

/-- If nothing fails, every export has its report. -/
theorem exists_reportFor (h : a.failures index = []) {e : Export} (he : e ∈ a.exports) :
    ∃ r, a.reportFor index e = some r := by
  have hnone : ∀ i es, failuresOf a i es = [] → e ∈ es → ∃ result, e.report a i = .ok result := by
    intro i es hes hmem
    cases hreport : e.report a i with
    | ok result => exact ⟨result, rfl⟩
    | error f => simpa [hreport] using List.filterMap_eq_nil_iff.mp hes e hmem
  obtain ⟨hplain, hgraph⟩ := List.append_eq_nil_iff.mp h
  cases hkind : e.isGraph with
  | false =>
    obtain ⟨⟨r, link⟩, hr⟩ := hnone {} _ hplain (List.mem_filter.mpr ⟨he, by simp [hkind]⟩)
    exact ⟨r, by simp [reportFor, hkind, hr]⟩
  | true =>
    obtain ⟨⟨r, link⟩, hr⟩ := hnone index _ hgraph (List.mem_filter.mpr ⟨he, hkind⟩)
    exact ⟨r, by simp [reportFor, hkind, hr]⟩

/-- If nothing fails, file names are distinct just when no two exports clash. -/
theorem nodup_fileNames_iff (h : a.failures index = []) (hnamed : a.HasNamedExports) :
    ((a.reports index).map (·.fileName)).Nodup
      ↔ a.exports.Pairwise fun e e' => ¬a.Clash e e' := by
  rw [reports_eq_filterMap, List.Nodup, List.pairwise_map, List.pairwise_filterMap,
    a.exports_perm.pairwise_iff fun hne r hr r' hr' => (hne r' hr' r hr).symm]
  apply List.Pairwise.iff_of_mem
  intro e e' he he'
  obtain ⟨r, hr⟩ := exists_reportFor h he
  obtain ⟨r', hr'⟩ := exists_reportFor h he'
  have hiff := fileName_eq_iff_clash (hnamed e he) (hnamed e' he') hr hr'
  simp [hr, hr', hiff]

end Asset

/-! ## Files after a dump -/

/-- Only assets that are named by a text can be dumped. -/
theorem Workspace.exists_name_of_dump {w w' : Workspace} {a : Asset} {out : Path}
    {summary : DumpSummary} (hdump : w.dump a out = (w', .ok summary)) :
    ∃ name, a.name = .text name := by
  unfold dump at hdump
  split at hdump
  · rename_i name hname
    exact ⟨name, hname⟩
  · simp at hdump

/-- A dump that comes to its end has made directories and then stored the reports in order, so
that of the reports for one place the last one stands there. -/
theorem Workspace.node?_of_dump {w w' : Workspace} {a : Asset} {out : Path}
    {summary : DumpSummary} {name : String} {index : EventIndex} (hname : a.name = .text name)
    (hindex : EventIndex.ofLinks a.eventLinks = .ok index)
    (hdump : w.dump a out = (w', .ok summary)) :
    summary = a.summary (out.child name) index
      ∧ w'.tree.workingDirectory = w.tree.workingDirectory
      ∧ ∃ made : FileTree, FileTree.Changes w.tree made (w.tree.OnTheWay (out.child name))
            (fun _ _ => False)
          ∧ ∀ here, w'.tree.node? here
            = (((a.reports index).filter fun r =>
                  w.tree.place ((out.child name).child r.fileName) == here).getLast?.map
                fun r => FileTree.Node.file r.text.toUTF8).or (made.node? here) := by
  have hchanges : FileTree.Changes w.tree (w.tree.makeDirectories (out.child name)).1
      (w.tree.OnTheWay (out.child name)) (fun _ _ => False) :=
    FileTree.changes_makeDirectories w.tree (out.child name)
  cases hmake : w.tree.makeDirectories (out.child name) with
  | mk made result =>
    rw [hmake] at hchanges
    have hdirs : w.makeDirectories (out.child name) = ({ w with tree := made }, result) := by
      simp only [makeDirectories, hmake]
    cases result with
    | error f => simp [dump, hname, hdirs] at hdump
    | ok _ =>
      obtain ⟨w₁, heq, htree⟩ := dump_eq hname hdirs hindex
      rw [heq] at hdump
      obtain ⟨rfl, hresult⟩ := Prod.mk.inj hdump
      obtain ⟨tree, hstore, rfl⟩ := map_eq_ok_iff.mp hresult
      obtain ⟨hdirectory, hnodes⟩ := FileTree.node?_storeAll _ _ hstore
      rw [htree tree hstore]
      refine ⟨rfl, hdirectory.trans hchanges.workingDirectory, made, hchanges, fun here => ?_⟩
      rw [hnodes here]
      simp only [FileTree.place_congr hchanges.workingDirectory]

/-- The report of an export stands in the directory `here`. -/
def Asset.ReportStands (a : Asset) (index : EventIndex) (u : FileTree) (here : Location)
    (e : Export) : Prop :=
  ∃ r, a.reportFor index e = some r
    ∧ u.node? (here ++ [r.fileName]) = some (.file r.text.toUTF8)

/-- The export is filed under its own name. -/
def Export.KeepsName (e : Export) (asset : Document) : Prop :=
  Report.sanitize (e.filedText asset) = e.nameText

section Filing

variable {w w' : Workspace} {a : Asset} {out : Path} {summary : DumpSummary} {name : String}
  {index : EventIndex}

/-- The last report of a file name stands in the directory of the asset. -/
theorem Asset.node?_of_mem_reports (hname : a.name = .text name)
    (hindex : EventIndex.ofLinks a.eventLinks = .ok index)
    (hdump : w.dump a out = (w', .ok summary)) (hnamed : a.HasNamedExports)
    {r : Report} (hr : r ∈ a.reports index) :
    ∃ last, ((a.reports index).filter fun r' => r'.fileName == r.fileName).getLast? = some last
      ∧ w'.tree.node? (w.tree.place (out.child name) ++ [r.fileName])
          = some (.file last.text.toUTF8) := by
  obtain ⟨-, -, made, -, hnodes⟩ := Workspace.node?_of_dump hname hindex hdump
  have hplace : ∀ r' ∈ a.reports index, w.tree.place ((out.child name).child r'.fileName)
      = w.tree.place (out.child name) ++ [r'.fileName] := by
    intro r' hr'
    obtain ⟨e, he, hreport⟩ := mem_reports.mp hr'
    obtain ⟨link, hreport⟩ := exists_report_of_reportFor hreport
    exact FileTree.place_child (Export.isName_of_report (hnamed e he) hreport) _ _
  have hfilter : ((a.reports index).filter fun r' =>
        w.tree.place ((out.child name).child r'.fileName)
          == w.tree.place (out.child name) ++ [r.fileName])
      = (a.reports index).filter fun r' => r'.fileName == r.fileName := by
    refine List.filter_congr fun r' hr' => ?_
    rw [hplace r' hr', Bool.eq_iff_iff]
    simp
  have hne : (a.reports index).filter (fun r' => r'.fileName == r.fileName) ≠ [] :=
    List.ne_nil_of_mem (List.mem_filter.mpr ⟨hr, beq_self_eq_true _⟩)
  refine ⟨_, List.getLast?_eq_some_getLast hne, ?_⟩
  rw [hnodes, hfilter, List.getLast?_eq_some_getLast hne]
  rfl

/-- All reports stand just when those that share a file are the same. -/
theorem Asset.reportStands_iff (hname : a.name = .text name)
    (hindex : EventIndex.ofLinks a.eventLinks = .ok index)
    (hdump : w.dump a out = (w', .ok summary)) (hfailures : a.failures index = [])
    (hnamed : a.HasNamedExports) :
    (∀ e ∈ a.exports, a.ReportStands index w'.tree (w.tree.place (out.child name)) e)
      ↔ ∀ e ∈ a.exports, ∀ e' ∈ a.exports, a.Clash e e' →
        (a.reportFor index e).map (·.text) = (a.reportFor index e').map (·.text) := by
  constructor
  · intro hstands e he e' he' hclash
    obtain ⟨r, hr, hnode⟩ := hstands e he
    obtain ⟨r', hr', hnode'⟩ := hstands e' he'
    have hfile := (fileName_eq_iff_clash (hnamed e he) (hnamed e' he') hr hr').mpr hclash
    rw [hfile, hnode'] at hnode
    have hcontent : r'.text.toUTF8 = r.text.toUTF8 := by simpa using hnode
    rw [hr, hr', Option.map_some, Option.map_some, String.toByteArray_inj.mp hcontent]
  · intro hsame e he
    obtain ⟨r, hr⟩ := exists_reportFor hfailures he
    obtain ⟨last, hlast, hnode⟩ :=
      node?_of_mem_reports hname hindex hdump hnamed (mem_reports.mpr ⟨e, he, hr⟩)
    -- The last report of the file belongs to an export that clashes with this one.
    have hmem := List.mem_filter.mp (List.mem_of_getLast? hlast)
    obtain ⟨e', he', hr'⟩ := mem_reports.mp hmem.1
    have hfile : r.fileName = last.fileName := (beq_iff_eq.mp hmem.2).symm
    have htext := hsame e he e' he'
      ((fileName_eq_iff_clash (hnamed e he) (hnamed e' he') hr hr').mp hfile)
    rw [hr, hr', Option.map_some, Option.map_some, Option.some_inj] at htext
    exact ⟨r, hr, htext ▸ hnode⟩

/-- Exports that are filed under their own names do not clash. -/
theorem Asset.not_clash_of_keepsName {e e' : Export} (he : e.isNamed = true)
    (he' : e'.isNamed = true) (hkeeps : e.KeepsName a.name) (hkeeps' : e'.KeepsName a.name)
    (hne : e.name ≠ e'.name) : ¬a.Clash e e' := by
  intro hclash
  have hsanitize := Report.sanitize_eq_iff.mpr hclash.name
  rw [hkeeps, hkeeps'] at hsanitize
  rw [Export.name_of_isNamed he, Export.name_of_isNamed he', hsanitize] at hne
  exact hne rfl

/-- After a dump without failures every export has a report, and of the reports of
one file name the last one stands in the directory of the asset, while the summary counts a
file for each.  The file names are distinct just when no two exports clash, and each export's
report stands just when exports that clash have the same report.  Exports of different names
that are filed under their own names do not clash. -/
theorem dump_filing (hdump : w.dump a out = (w', .ok summary)) (hfailed : summary.failed = [])
    (hnamed : a.HasNamedExports) :
    ∃ name index, a.name = .text name ∧ EventIndex.ofLinks a.eventLinks = .ok index
      ∧ summary.written.length = a.exports.length
      ∧ (∀ e ∈ a.exports, ∃ r last, a.reportFor index e = some r
        ∧ ((a.reports index).filter fun r' => r'.fileName == r.fileName).getLast? = some last
        ∧ w'.tree.node? (w.tree.place (out.child name) ++ [r.fileName])
            = some (.file last.text.toUTF8))
      ∧ (((a.reports index).map (·.fileName)).Nodup
        ↔ a.exports.Pairwise fun e e' => ¬a.Clash e e')
      ∧ ((∀ e ∈ a.exports, a.ReportStands index w'.tree (w.tree.place (out.child name)) e)
        ↔ ∀ e ∈ a.exports, ∀ e' ∈ a.exports, a.Clash e e' →
          (a.reportFor index e).map (·.text) = (a.reportFor index e').map (·.text))
      ∧ (a.exports.Pairwise (fun e e' => e.name ≠ e'.name) →
        (∀ e ∈ a.exports, e.KeepsName a.name) →
        ((a.reports index).map (·.fileName)).Nodup
          ∧ ∀ e ∈ a.exports, a.ReportStands index w'.tree (w.tree.place (out.child name)) e) := by
  obtain ⟨name, hname⟩ := Workspace.exists_name_of_dump hdump
  obtain ⟨index, hindex⟩ := a.exists_index
  obtain ⟨rfl, -⟩ := Workspace.node?_of_dump hname hindex hdump
  have hwritten : (a.summary (out.child name) index).written.length = a.exports.length := by
    have hlength := a.length_reports_add index
    rw [show a.failures index = [] from hfailed] at hlength
    simpa [Asset.summary] using hlength
  have hnodup := Asset.nodup_fileNames_iff hfailed hnamed
  have hstands := Asset.reportStands_iff hname hindex hdump hfailed hnamed
  refine ⟨name, index, hname, hindex, hwritten, ?_, hnodup, hstands, ?_⟩
  · intro e he
    obtain ⟨r, hr⟩ := Asset.exists_reportFor hfailed he
    obtain ⟨last, hlast⟩ :=
      Asset.node?_of_mem_reports hname hindex hdump hnamed (Asset.mem_reports.mpr ⟨e, he, hr⟩)
    exact ⟨r, last, hr, hlast⟩
  · intro hdistinct hkeeps
    have hfree : a.exports.Pairwise fun e e' => ¬a.Clash e e' :=
      hdistinct.imp_of_mem fun {e e'} he he' => Asset.not_clash_of_keepsName (hnamed e he)
        (hnamed e' he') (hkeeps e he) (hkeeps e' he')
    refine ⟨hnodup.mpr hfree, hstands.mpr ?_⟩
    have : Std.Symm fun e e' => ¬a.Clash e e' := ⟨fun _ _ hclash h => hclash h.symm⟩
    intro e he e' he' hclash
    have heq : e = e' := Classical.byContradiction fun hne => hfree.forall he he' hne hclash
    rw [heq]

end Filing

/-- An asset with two functions of the given names. -/
def sampleTwins (first second : String) : Asset where
  name := .text "Door"
  path := .text "Door"
  encoding := {}
  exports := [.function ⟨.text first, .number 0, [], some []⟩,
    .function ⟨.text second, .number 0, [], some []⟩]

/-- Its document. -/
def sampleTwinsDocument (first second : String) : Document :=
  .object [("name", .text "Door"), ("exports", .list [
    .object [("type", .text "Function"), ("name", .text first), ("bytecode", .list [])],
    .object [("type", .text "Function"), ("name", .text second), ("bytecode", .list [])]])]

theorem decode_sampleTwins (first second : String) :
    (Asset.decode (sampleTwinsDocument first second) "").2 = .ok (sampleTwins first second) := rfl

/-- Its dump comes to its end. -/
theorem dump_sampleTwins {first second : String}
    (hcount : (sampleTwins first second).failureCount = 0) :
    ∃ w' summary, ({ tree := sampleFiles ⟨#[]⟩ } : Workspace).dump (sampleTwins first second)
        (Path.ofText "out") = (w', .ok summary) ∧ summary.failed = [] := by
  have hordinary : (sampleTwins first second).isOrdinary = true := rfl
  have hempty := emptyAt_sampleFiles ⟨#[]⟩
  obtain ⟨w', summary, hdump, hfailed, -⟩ := Workspace.dump_of_isOrdinary hempty
    (w := ⟨sampleFiles ⟨#[]⟩, []⟩) hempty.spread_self hordinary fun _ _ _ _ => trivial
  exact ⟨w', summary, hdump, List.length_eq_zero_iff.mp (hfailed.trans hcount)⟩

/-- Functions of two plain names have a file each. -/
theorem dump_filing_twins :
    ∃ w' summary, ({ tree := sampleFiles ⟨#[]⟩ } : Workspace).dump (sampleTwins "Use" "Open")
        (Path.ofText "out") = (w', .ok summary)
      ∧ summary.failed = []
      ∧ ∃ index, ∀ e ∈ (sampleTwins "Use" "Open").exports,
        (sampleTwins "Use" "Open").ReportStands index w'.tree ["out", "Door"] e := by
  have hcount : (sampleTwins "Use" "Open").failureCount = 0 := rfl
  obtain ⟨w', summary, hdump, hfailed⟩ := dump_sampleTwins hcount
  obtain ⟨name, index, hname, -, -, -, -, -, hstands⟩ := dump_filing hdump hfailed (by decide)
  obtain rfl : name = "Door" := by simpa [sampleTwins] using hname.symm
  refine ⟨w', summary, hdump, hfailed, index, (hstands ?_ ?_).2⟩
  · simp [sampleTwins, Export.name]
  · intro e he
    simp only [sampleTwins, List.mem_cons, List.not_mem_nil, or_false] at he
    rcases he with rfl | rfl <;> rfl

/-- Functions whose names differ in a refused character are left with one file. -/
theorem dump_shared_file :
    (Asset.decode (sampleTwinsDocument "Use?" "Use*") "").2 = .ok (sampleTwins "Use?" "Use*")
    ∧ EventIndex.ofLinks (sampleTwins "Use?" "Use*").eventLinks = .ok {}
    ∧ (sampleTwins "Use?" "Use*").exports.Pairwise (fun e e' => e.name ≠ e'.name)
    ∧ ∃ w' summary, ({ tree := sampleFiles ⟨#[]⟩ } : Workspace).dump (sampleTwins "Use?" "Use*")
          (Path.ofText "out") = (w', .ok summary)
        ∧ summary.failed = []
        ∧ ¬∀ e ∈ (sampleTwins "Use?" "Use*").exports,
          (sampleTwins "Use?" "Use*").ReportStands {} w'.tree ["out", "Door"] e := by
  have hindex : EventIndex.ofLinks (sampleTwins "Use?" "Use*").eventLinks = .ok {} := rfl
  have hfailures : (sampleTwins "Use?" "Use*").failures {} = [] := rfl
  have hclash : (sampleTwins "Use?" "Use*").Clash
      (.function ⟨.text "Use?", .number 0, [], some []⟩)
      (.function ⟨.text "Use*", .number 0, [], some []⟩) := by
    refine ⟨rfl, ?_⟩
    show List.Forall₂ Report.Alike ['U', 's', 'e', '?'] ['U', 's', 'e', '*']
    exact .cons (.inl rfl) <| .cons (.inl rfl) <| .cons (.inl rfl) <| .cons (.inr ⟨rfl, rfl⟩) .nil
  have hcount : (sampleTwins "Use?" "Use*").failureCount = 0 := rfl
  obtain ⟨w', summary, hdump, hfailed⟩ := dump_sampleTwins hcount
  refine ⟨decode_sampleTwins _ _, hindex, by simp [sampleTwins, Export.name], w', summary, hdump,
    hfailed, ?_⟩
  intro hstands
  have hname : (sampleTwins "Use?" "Use*").name = .text "Door" := rfl
  have htexts := (Asset.reportStands_iff hname hindex hdump hfailures (by decide)).mp hstands
    _ (List.mem_cons_self ..) _ (List.mem_cons_of_mem _ (List.mem_cons_self ..)) hclash
  revert htexts
  decide +kernel

end Kismet
