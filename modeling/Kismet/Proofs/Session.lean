import Kismet.Proofs.Catalog
import Kismet.Proofs.Isolation
import Kismet.Proofs.Load
set_option autoImplicit false

/-!
# Session: what ends a run, and what does not

A run goes from one asset to the next.  An asset whose document cannot be read or is
badly formed is counted and skipped, and so is an export that has no report.
`Workspace.Halts` lists all that ends a run at an asset, and `dumpPath_of_halts` and
`halts_of_dumpPath` say that the list is complete, as long as no document has a string in it
that is no text.  Nothing ends a run into an empty directory if the documents are texts
without oversized numbers, within the limits of nesting, and the names of assets are names of
directories.  Both are put together in `dumpMatching_goes_on`; `dumpMatching_stray_byte` is a
run that a single byte ends.
-/

namespace Kismet

/-! ## File names -/

namespace Report

theorem isNameChar_of_mem_sanitize {s : String} {c : Char} (h : c ∈ (sanitize s).toList) :
    Path.isNameChar c = true := by
  simp only [sanitize, String.toList_ofList, List.mem_map] at h
  obtain ⟨c', -, rfl⟩ := h
  split
  · decide
  · rename_i hrefused
    simp only [isRefused, Bool.or_eq_true, decide_eq_true_eq, not_or, List.contains_eq_mem]
      at hrefused
    have hslash : c' ≠ '/' := by
      rintro rfl
      exact hrefused.2 (by decide)
    simp only [Path.isNameChar, Bool.and_eq_true, bne_iff_ne]
    exact ⟨hslash, by omega⟩

/-- A report is filed under the name of a single file. -/
theorem isName_fileNameFor {kind : String} (hkind : kind.toList.all Path.isNameChar = true)
    (s : String) : Path.isName (fileNameFor kind (sanitize s)) = true := by
  have hlist : (fileNameFor kind (sanitize s)).toList
      = kind.toList ++ '_' :: (sanitize s).toList ++ ".txt".toList := by
    simp [fileNameFor]
  have hlength : ∀ short : String, short.toList.length < 5 →
      fileNameFor kind (sanitize s) ≠ short := by
    rintro short hshort rfl
    rw [hlist, List.length_append, List.length_append, List.length_cons] at hshort
    have htail : ".txt".toList.length = 4 := rfl
    omega
  have hchars : (fileNameFor kind (sanitize s)).toList.all Path.isNameChar = true := by
    rw [hlist, List.all_append, List.all_append, List.all_cons, hkind,
      List.all_eq_true.mpr fun c hc => isNameChar_of_mem_sanitize hc]
    decide
  simp only [Path.isName, Bool.and_eq_true, bne_iff_ne, hchars, and_true]
  exact ⟨⟨hlength _ (by decide), hlength _ (by decide)⟩, hlength _ (by decide)⟩

end Report

/-- The export is named by a text. -/
def Export.isNamed (e : Export) : Bool :=
  match e.name with
  | .text _ => true
  | _ => false

theorem FunctionExport.filedName_text {f : FunctionExport} {asset d : Document} {s : String}
    (hname : f.name = .text s) (h : f.filedName asset = .ok d) : ∃ s', d = .text s' := by
  have hdelegate : ∀ d, delegateName (.text s) = .ok d → ∃ s', d = .text s' := by
    intro d hd
    unfold delegateName at hd
    split at hd
    · simp at hd
    · exact ⟨s, (Except.ok.inj hd).symm⟩
    · dsimp only at hd
      split at hd
      · exact ⟨_, (Except.ok.inj hd).symm⟩
      · exact ⟨s, (Except.ok.inj hd).symm⟩
  have hfirst : ∀ d, (if f.flags.isDelegate then delegateName f.name else .ok f.name) = .ok d →
      ∃ s', d = .text s' := by
    rw [hname]
    intro d hd
    split at hd
    · exact hdelegate d hd
    · exact ⟨s, (Except.ok.inj hd).symm⟩
  unfold filedName at h
  split at h
  · simp at h
  · rename_i name hfirst'
    obtain ⟨s', rfl⟩ := hfirst name hfirst'
    split at h
    · exact ⟨_, (Except.ok.inj h).symm⟩
    · exact ⟨s', (Except.ok.inj h).symm⟩

/-- The report of an export that is named by a text is filed under a name. -/
theorem Export.isName_of_report {e : Export} {a : Asset} {index : EventIndex} {r : Report}
    {link : Option EventLink} (hnamed : e.isNamed = true) (h : e.report a index = .ok (r, link)) :
    Path.isName r.fileName = true := by
  cases e with
  | generatedClass c =>
    obtain ⟨r', hr', heq⟩ := map_eq_ok_iff.mp h
    obtain ⟨rfl, -⟩ := Prod.mk.inj heq
    unfold ClassExport.report at hr'
    split at hr'
    · simp at hr'
    · split at hr'
      · split at hr'
        · rw [← Except.ok.inj hr']
          exact Report.isName_fileNameFor (by decide) _
        · simp at hr'
      · simp at hr'
  | function f =>
    obtain ⟨s, hs⟩ : ∃ s, f.name = .text s := by
      unfold isNamed at hnamed
      split at hnamed
      · rename_i s hs
        exact ⟨s, hs⟩
      · simp at hnamed
    simp only [report, FunctionExport.report] at h
    split at h
    · simp at h
    · split at h
      · simp at h
      · obtain ⟨file, hfile, heq⟩ := map_eq_ok_iff.mp h
        obtain ⟨rfl, -⟩ := Prod.mk.inj heq
        unfold FunctionExport.fileName at hfile
        split at hfile
        · simp at hfile
        · rename_i name hfiled
          obtain ⟨s', rfl⟩ := FunctionExport.filedName_text hs hfiled
          rw [← Except.ok.inj hfile]
          refine Report.isName_fileNameFor ?_ s'
          cases f.kind <;> decide

namespace Asset

/-- The asset has the name of a directory, and its exports are named by texts. -/
def isOrdinary (a : Asset) : Bool :=
  (match a.name with
    | .text s => Path.isName s
    | _ => false) && a.exports.all Export.isNamed

theorem exists_name_of_isOrdinary {a : Asset} (h : a.isOrdinary = true) :
    ∃ s, a.name = .text s ∧ Path.isName s = true := by
  rw [isOrdinary, Bool.and_eq_true] at h
  obtain ⟨hname, -⟩ := h
  split at hname
  · rename_i s hs
    exact ⟨s, hs, hname⟩
  · simp at hname

/-- The reports of such an asset are filed under names. -/
theorem isName_of_mem_reports {a : Asset} (h : a.isOrdinary = true) {index : EventIndex}
    {r : Report} (hr : r ∈ a.reports index) : Path.isName r.fileName = true := by
  rw [isOrdinary, Bool.and_eq_true, List.all_eq_true] at h
  have hof : ∀ (i : EventIndex) (es : List Export), (∀ e ∈ es, e ∈ a.exports) →
      r ∈ reportsOf a i es → Path.isName r.fileName = true := by
    intro i es hes hmem
    obtain ⟨e, he, hreport⟩ := List.mem_filterMap.mp hmem
    split at hreport
    · rename_i r' link heq
      obtain rfl := Option.some.inj hreport
      exact Export.isName_of_report (h.2 e (hes e he)) heq
    · simp at hreport
  rcases List.mem_append.mp hr with hr | hr
  · exact hof {} _ (fun e he => (List.mem_filter.mp he).1) hr
  · exact hof index _ (fun e he => (List.mem_filter.mp he).1) hr

/-- The number of exports that fail. -/
def failureCount (a : Asset) : Nat :=
  match EventIndex.ofLinks a.eventLinks with
  | .ok index => (a.failures index).length
  | .error _ => 0

end Asset

/-! ## Dumps into an empty directory -/

/-- The reports of the asset, each with the directory and the file that it goes into. -/
def Asset.filings (a : Asset) : List (String × String × ByteArray) :=
  match a.name, EventIndex.ofLinks a.eventLinks with
  | .text name, .ok index => (a.reports index).map fun r => (name, r.fileName, r.text.toUTF8)
  | _, _ => []

theorem Asset.filings_eq {a : Asset} {name : String} {index : EventIndex}
    (hname : a.name = .text name) (hindex : EventIndex.ofLinks a.eventLinks = .ok index) :
    a.filings = (a.reports index).map fun r => (name, r.fileName, r.text.toUTF8) := by
  simp only [filings, hname, hindex]

section Dumps

variable {t : FileTree} {out : Path} {here : Location}
  {added : String → String → ByteArray → Prop}

/-- Reports can be stored in a directory that has been made. -/
theorem FileTree.EmptyAt.storeAll_eq (h : t.EmptyAt out here) {name : String}
    (hname : Path.isName name = true) (added : String → String → ByteArray → Prop)
    (reports : List Report) : ∀ {u : FileTree}, Spread t u here →
    u.node? (here ++ [name]) = some .directory →
    (∀ r ∈ reports, Path.isName r.fileName = true ∧ added name r.fileName r.text.toUTF8) →
    ∃ v, u.storeAll (out.child name) reports = .ok v ∧ Spread t v here ∧ Grows u v here added
      ∧ ∀ r ∈ reports, ∃ n, v.node? (here ++ [name, r.fileName]) = some n := by
  induction reports with
  | nil => exact fun hu _ _ => ⟨_, rfl, hu, .refl _, by simp⟩
  | cons r rest ih =>
    intro u hu hdir hreports
    obtain ⟨hfile, hadded⟩ := hreports r (by simp)
    have hstore := h.store_eq hu hname hfile hdir r.text.toUTF8
    obtain ⟨u', hu'⟩ : ∃ u', u' = u.put (here ++ [name, r.fileName]) (.file r.text.toUTF8) :=
      ⟨_, rfl⟩
    rw [← hu'] at hstore
    have hgrows : Grows u u' here added := hu' ▸ .put_file u hadded
    have hdir' : u'.node? (here ++ [name]) = some .directory := by
      rw [hu', node?_put _ (by simp), if_neg (by simp), hdir]
    have hfile' : u'.node? (here ++ [name, r.fileName]) = some (.file r.text.toUTF8) := by
      rw [hu', node?_put _ (by simp), if_pos rfl]
    obtain ⟨v, hrest, hv, hgrows', hfiles⟩ := ih (hu' ▸ hu.put_file name r.fileName _) hdir'
      fun r' hr' => hreports r' (List.mem_cons_of_mem _ hr')
    refine ⟨v, by simp only [storeAll_cons, hstore, hrest], hv, hgrows.trans hgrows', ?_⟩
    intro r' hr'
    rcases List.mem_cons.mp hr' with rfl | hr'
    · exact hgrows'.kept _ _ hfile'
    · exact hfiles r' hr'

theorem FileTree.Spread.exists_file {u : FileTree} (hu : Spread t u here) {name file : String}
    {n : Node} (hn : u.node? (here ++ [name, file]) = some n) :
    ∃ content, u.node? (here ++ [name, file]) = some (.file content) := by
  cases n with
  | directory => exact absurd hn (hu.second name file)
  | file content => exact ⟨content, hn⟩

/-- All reports of the asset stand in its directory, in the directory `here`. -/
def Asset.StandsIn (a : Asset) (u : FileTree) (here : Location) : Prop :=
  ∀ name file content, (name, file, content) ∈ a.filings →
    ∃ content', u.node? (here ++ [name, file]) = some (.file content')

/-- Reports that stand in a directory stay there. -/
theorem Asset.StandsIn.grows {a : Asset} {u v : FileTree} (h : a.StandsIn u here)
    (hgrows : FileTree.Grows u v here added) (hv : FileTree.Spread t v here) :
    a.StandsIn v here := by
  intro name file content hfiling
  obtain ⟨content', hcontent'⟩ := h name file content hfiling
  obtain ⟨n, hn⟩ := hgrows.kept _ _ hcontent'
  exact hv.exists_file hn

/-- The dump of an ordinary asset comes to its end. -/
theorem Workspace.dump_of_isOrdinary (h : t.EmptyAt out here) {w : Workspace}
    (hw : FileTree.Spread t w.tree here) {a : Asset} (ha : a.isOrdinary = true)
    (hadded : ∀ name file content, (name, file, content) ∈ a.filings → added name file content) :
    ∃ w' summary, w.dump a out = (w', .ok summary) ∧ summary.failed.length = a.failureCount
      ∧ FileTree.Spread t w'.tree here ∧ FileTree.Grows w.tree w'.tree here added
      ∧ a.StandsIn w'.tree here := by
  obtain ⟨name, hname, hisName⟩ := Asset.exists_name_of_isOrdinary ha
  obtain ⟨index, hindex⟩ := a.exists_index
  have hfilings := Asset.filings_eq hname hindex
  obtain ⟨u, hmake, hu, hgrows, hdir⟩ := h.makeDirectories_eq hw hisName added
  obtain ⟨v, hstore, hv, hgrows', hfiles⟩ := h.storeAll_eq hisName added
    (a.reports index) hu hdir fun r hr => ⟨Asset.isName_of_mem_reports ha hr,
      hadded name r.fileName r.text.toUTF8 (hfilings ▸ List.mem_map_of_mem hr)⟩
  have hdirs : w.makeDirectories (out.child name) = ({ w with tree := u }, .ok ()) := by
    simp only [makeDirectories, hmake]
  obtain ⟨w', hdump, htree⟩ := dump_eq hname hdirs hindex
  rw [hstore] at hdump
  obtain rfl := htree v hstore
  refine ⟨w', _, hdump, by simp [Asset.summary, Asset.failureCount, hindex], hv,
    hgrows.trans hgrows', ?_⟩
  intro name' file content hfiling
  rw [hfilings] at hfiling
  obtain ⟨r, hr, heq⟩ := List.mem_map.mp hfiling
  obtain ⟨rfl, rfl, -⟩ : name = name' ∧ r.fileName = file ∧ r.text.toUTF8 = content := by
    simpa using heq
  obtain ⟨n, hn⟩ := hfiles r hr
  exact hv.exists_file hn

/-! ## Assets that do not end a run -/

/-- The number of failures at a path: one if the asset cannot be loaded. -/
def Catalog.failureCount (c : Catalog) (t : FileTree) (path : String) : Nat :=
  match (c.load t path).2 with
  | .error _ => 1
  | .ok a => a.failureCount

/-- A run can deal with the content of a document: it is a text, no number in it has too
many digits or is too large, it is not nested too deeply, all of its strings are texts, and if
it is that of an asset, the asset is ordinary. -/
def Catalog.isTractable (limits : Limits) (path : String) (content : ByteArray) : Bool :=
  match textOf content with
  | .error _ => false
  | .ok s =>
    match Document.parse s limits with
    | .error f => !stops f
    | .ok d =>
      match (Asset.decode d path limits).2 with
      | .error f => !stops f
      | .ok a => a.isOrdinary

/-- The asset of a path can be loaded and is ordinary, or it is skipped. -/
structure Catalog.LoadsSafely (c : Catalog) (t : FileTree) (path : String) : Prop where
  load : ∀ f, (c.load t path).2 = .error f → stops f = false
  ordinary : ∀ a, (c.load t path).2 = .ok a → a.isOrdinary = true

/-- Loading is safe if the content of the document is tractable, or if no content can be
read at all. -/
theorem Catalog.loadsSafely {c : Catalog} {root : Path} {limits : Limits} {path : String}
    (wf : t.WellFormed) (hc : ofTree t root limits = .ok c)
    (h : ∀ p content, c.find? path = some p → t.contentAt p = .ok content →
      isTractable c.limits path content = true) : c.LoadsSafely t path := by
  have of_error : ∀ {f : Fault}, (c.load t path).2 = .error f → stops f = false →
      c.LoadsSafely t path := by
    intro f hf hhalts
    exact ⟨fun f' hf' => Except.error.inj (hf.symm.trans hf') ▸ hhalts,
      fun a ha => by simp [hf] at ha⟩
  cases hfind : c.find? path with
  | none => exact of_error (f := .missingKey path) (by simp only [load, hfind]) rfl
  | some p =>
    obtain ⟨place, n, hplace, hn⟩ := holds_of_find? wf hc hfind
    cases n with
    | directory =>
      have hread : t.contentAt p = .error .isDirectory := by
        simp only [FileTree.contentAt, hplace, hn]
      exact of_error (f := .isDirectory) (by simp only [load, hfind, readDocument, hread]) rfl
    | file content =>
      have hread : t.contentAt p = .ok content := by
        simp only [FileTree.contentAt, hplace, hn]
      have htractable := h p content hfind hread
      unfold isTractable at htractable
      split at htractable
      · simp at htractable
      · rename_i s htext
        split at htractable
        · rename_i f hparse
          exact of_error (f := f) (by simp only [load, hfind, readDocument, hread, htext, hparse])
            (by simpa using htractable)
        · rename_i d hparse
          have hload : c.load t path = Asset.decode d path c.limits := by
            simp only [load, hfind, readDocument, hread, htext, hparse]
          split at htractable
          · rename_i f hdecode
            exact of_error (f := f) (by rw [hload, hdecode]) (by simpa using htractable)
          · rename_i a hdecode
            have ha : (c.load t path).2 = .ok a := by rw [hload, hdecode]
            exact ⟨fun f hf => by simp [ha] at hf,
              fun a' ha' => Except.ok.inj (ha.symm.trans ha') ▸ htractable⟩

/-- Assets are loaded as at the start. -/
theorem Catalog.load_eq {c : Catalog} {root : Path} {limits : Limits} {u : FileTree}
    (h : t.EmptyAt out here) (wf : t.WellFormed) (hc : ofTree t root limits = .ok c)
    (hu : FileTree.Spread t u here) (path : String) : c.load u path = c.load t path := by
  unfold load
  cases hfind : c.find? path with
  | none => rfl
  | some document =>
    have hread : readDocument u document c.limits = readDocument t document c.limits := by
      unfold readDocument
      rw [h.contentAt_eq hu (holds_of_find? wf hc hfind)]
    simp only [hread]

namespace Workspace

variable {c : Catalog} {root : Path} {limits : Limits}

/-- A run goes on at such an asset. -/
theorem dumpPath_goes_on (h : t.EmptyAt out here) (wf : t.WellFormed)
    (hc : Catalog.ofTree t root limits = .ok c) {w : Workspace} (hw : FileTree.Spread t w.tree here)
    {path : String} (hpath : c.LoadsSafely t path)
    (hadded : ∀ a, (c.load t path).2 = .ok a → ∀ name file content,
      (name, file, content) ∈ a.filings → added name file content) :
    ∃ w', w.dumpPath c (some out) path = (w', .ok (c.failureCount t path))
      ∧ FileTree.Spread t w'.tree here ∧ FileTree.Grows w.tree w'.tree here added
      ∧ ∀ a, (c.load t path).2 = .ok a → a.StandsIn w'.tree here := by
  unfold dumpPath Catalog.failureCount
  rw [Catalog.load_eq h wf hc hw path]
  have hfaults := c.load_failsOnly t path
  have hload := hpath.load
  have hordinary := hpath.ordinary
  cases hresult : c.load t path with
  | mk log result =>
    rw [hresult] at hfaults hload hordinary hadded
    cases result with
    | error f =>
      have hskip : f.isSkippable = true := by
        simpa [hload f rfl] using hfaults f rfl
      dsimp only
      rw [if_pos hskip]
      exact ⟨_, rfl, hw, .refl _, fun a ha => by simp at ha⟩
    | ok a =>
      obtain ⟨w', summary, hdump, hfailed, hw', hgrows, hstands⟩ := dump_of_isOrdinary h
        (w := { w with log := w.log ++ log }) hw (hordinary a rfl) (hadded a rfl)
      refine ⟨w', by simp only [hdump, hfailed], hw', hgrows, ?_⟩
      intro a' ha'
      obtain rfl := Except.ok.inj ha'
      exact hstands

/-- A run goes on through such assets. -/
theorem dumpPaths_goes_on (h : t.EmptyAt out here) (wf : t.WellFormed)
    (hc : Catalog.ofTree t root limits = .ok c) (added : String → String → ByteArray → Prop)
    (paths : List String) : ∀ {w : Workspace}, FileTree.Spread t w.tree here →
    (∀ path ∈ paths, c.LoadsSafely t path) →
    (∀ path ∈ paths, ∀ a, (c.load t path).2 = .ok a → ∀ name file content,
      (name, file, content) ∈ a.filings → added name file content) →
    ∃ w', w.dumpPaths c (some out) paths = (w', .ok (paths.map (c.failureCount t)).sum)
      ∧ FileTree.Spread t w'.tree here ∧ FileTree.Grows w.tree w'.tree here added
      ∧ ∀ path ∈ paths, ∀ a, (c.load t path).2 = .ok a → a.StandsIn w'.tree here := by
  induction paths with
  | nil => exact fun hw _ _ => ⟨_, rfl, hw, .refl _, by simp⟩
  | cons path rest ih =>
    intro w hw hpaths hadded
    obtain ⟨w₁, hpath, hw₁, hgrows₁, hstands₁⟩ :=
      dumpPath_goes_on h wf hc hw (hpaths path (by simp)) (hadded path (by simp))
    obtain ⟨w₂, hrest, hw₂, hgrows₂, hstands₂⟩ := ih hw₁
      (fun path' hpath' => hpaths path' (List.mem_cons_of_mem _ hpath'))
      (fun path' hpath' => hadded path' (List.mem_cons_of_mem _ hpath'))
    refine ⟨w₂, by simp [dumpPaths, hpath, hrest], hw₂, hgrows₁.trans hgrows₂, ?_⟩
    intro path' hpath' a ha
    rcases List.mem_cons.mp hpath' with rfl | hpath'
    · exact (hstands₁ a ha).grows hgrows₂ hw₂
    · exact hstands₂ path' hpath' a ha

end Workspace

end Dumps

/-! ## What ends a run -/

theorem Catalog.isSkippable_of_halts {f : Fault} (h : halts f = true) : f.isSkippable = false := by
  unfold halts at h
  split at h
  all_goals first | rfl | simp at h

/-- The files of a loaded asset cannot be written. -/
inductive Workspace.Unwritable (t : FileTree) (out : Path) (a : Asset) : Fault → Prop where
  /-- The name of the asset is no text, so it names no directory. -/
  | name : (∀ s, a.name ≠ .text s) → Unwritable t out a .wrongKind
  | directory {s : String} {f : Fault} {made : FileTree} : a.name = .text s →
      t.makeDirectories (out.child s) = (made, .error f) → Unwritable t out a f
  | report {s : String} {f : Fault} {made : FileTree} {index : EventIndex} : a.name = .text s →
      t.makeDirectories (out.child s) = (made, .ok ()) →
      EventIndex.ofLinks a.eventLinks = .ok index →
      made.storeAll (out.child s) (a.reports index) = .error f → Unwritable t out a f

/-- The asset of a path ends the run. -/
inductive Workspace.Halts (t : FileTree) (c : Catalog) (out : Path) (path : String) :
    Fault → Prop where
  | load {f : Fault} : (c.load t path).2 = .error f → Catalog.halts f = true →
      Halts t c out path f
  | dump {a : Asset} {f : Fault} : (c.load t path).2 = .ok a → Unwritable t out a f →
      Halts t c out path f

namespace Workspace

theorem dump_eq_error_iff {w : Workspace} {a : Asset} {out : Path} {f : Fault} :
    (w.dump a out).2 = .error f ↔ Unwritable w.tree out a f := by
  -- The cases of `Unwritable` exclude each other, so each is compared where it arises.
  by_cases hname : ∃ s, a.name = .text s
  · obtain ⟨s, hs⟩ := hname
    obtain ⟨index, hindex⟩ := a.exists_index
    cases hmake : w.tree.makeDirectories (out.child s) with
    | mk made result =>
      have hdirs : w.makeDirectories (out.child s) = ({ w with tree := made }, result) := by
        simp only [makeDirectories, hmake]
      cases result with
      | error f' =>
        have hdump : w.dump a out = ({ w with tree := made }, .error f') := by
          simp only [dump, hs, hdirs]
        rw [hdump]
        constructor
        · rintro ⟨⟩
          exact .directory hs hmake
        · intro h
          cases h <;> simp_all
      | ok _ =>
        obtain ⟨w', hdump, -⟩ := dump_eq hs hdirs hindex
        rw [hdump, map_eq_error_iff]
        constructor
        · exact .report hs hmake hindex
        · intro h
          cases h <;> simp_all
  · have hdump : w.dump a out = (w, .error .wrongKind) := by
      unfold dump
      split
      · rename_i s hs
        exact absurd ⟨s, hs⟩ hname
      · rfl
    rw [hdump]
    constructor
    · rintro ⟨⟩
      exact .name fun s hs => hname ⟨s, hs⟩
    · intro h
      cases h <;> simp_all

/-- The failures at a path whose asset is loaded are those of its dump. -/
theorem dumpPath_of_load {w : Workspace} {c : Catalog} {path : String} {a : Asset}
    {log : List Log.Entry} (hload : c.load w.tree path = (log, .ok a)) (out : Path) :
    (w.dumpPath c (some out) path).2
      = (({ w with log := w.log ++ log } : Workspace).dump a out).2.map
          fun summary => summary.failed.length := by
  simp only [dumpPath, hload]
  cases ({ w with log := w.log ++ log } : Workspace).dump a out with
  | mk w' result => cases result <;> rfl

/-- What ends a run at a path. -/
theorem dumpPath_of_halts {w : Workspace} {c : Catalog} {out : Path} {path : String} {f : Fault}
    (h : Halts w.tree c out path f) : (w.dumpPath c (some out) path).2 = .error f := by
  cases hresult : c.load w.tree path with
  | mk log result =>
    have hload : (c.load w.tree path).2 = result := by rw [hresult]
    cases h with
    | load hf hhalts =>
      obtain rfl := hload.symm.trans hf
      have hskip := Catalog.isSkippable_of_halts hhalts
      simp [dumpPath, hresult, hskip]
    | dump ha hunwritable =>
      obtain rfl := hload.symm.trans ha
      rw [dumpPath_of_load hresult, map_eq_error_iff, dump_eq_error_iff]
      exact hunwritable

/-- Nothing else ends it there, unless the document has a string in it that is no text. -/
theorem halts_of_dumpPath {w : Workspace} {c : Catalog} {out : Path} {path : String} {f : Fault}
    (h : (w.dumpPath c (some out) path).2 = .error f) (hf : f ≠ .unpaired) :
    Halts w.tree c out path f := by
  cases hresult : c.load w.tree path with
  | mk log result =>
    have hload : (c.load w.tree path).2 = result := by rw [hresult]
    cases result with
    | error f' =>
      have hfaults := c.load_failsOnly w.tree path f' hload
      simp only [dumpPath, hresult] at h
      split at h
      · simp at h
      · rename_i hskip
        obtain rfl := Except.error.inj h
        have hstops : Catalog.stops f' = true := by simpa [hskip] using hfaults
        refine .load hload ?_
        unfold Catalog.stops at hstops
        split at hstops
        · exact absurd rfl hf
        · exact hstops
    | ok a =>
      rw [dumpPath_of_load hresult, map_eq_error_iff, dump_eq_error_iff] at h
      exact .dump hload h

/-- A run ends at the first asset that ends it. -/
theorem dumpPaths_eq_error_iff {c : Catalog} {out : Path} {f : Fault} {paths : List String} :
    ∀ {w : Workspace}, (w.dumpPaths c (some out) paths).2 = .error f ↔
      ∃ front path back w' n, paths = front ++ path :: back
        ∧ w.dumpPaths c (some out) front = (w', .ok n)
        ∧ (w'.dumpPath c (some out) path).2 = .error f := by
  induction paths with
  | nil => simp [dumpPaths]
  | cons first rest ih =>
    intro w
    cases hpath : w.dumpPath c (some out) first with
    | mk w₁ result =>
      cases result with
      | error f' =>
        simp only [dumpPaths, hpath, Except.error.injEq]
        constructor
        · rintro rfl
          exact ⟨[], first, rest, w, 0, rfl, rfl, by rw [hpath]⟩
        · rintro ⟨front, path, back, w', n, hsplit, hrun, hstop⟩
          -- Only an empty front is run without an error.
          cases front with
          | nil =>
            obtain ⟨rfl, -⟩ := List.cons.inj hsplit
            obtain ⟨rfl, -⟩ := Prod.mk.inj hrun
            simpa [hpath] using hstop
          | cons path' front =>
            obtain ⟨rfl, -⟩ := List.cons.inj hsplit
            simp [dumpPaths, hpath] at hrun
      | ok n₁ =>
        have hnext : (w.dumpPaths c (some out) (first :: rest)).2 = .error f
            ↔ (w₁.dumpPaths c (some out) rest).2 = .error f := by
          simp only [dumpPaths, hpath]
          cases w₁.dumpPaths c (some out) rest with
          | mk w₂ result => cases result <;> simp
        rw [hnext, ih]
        constructor
        · rintro ⟨front, path, back, w', n, rfl, hrun, hstop⟩
          exact ⟨first :: front, path, back, w', n₁ + n, rfl,
            by simp [dumpPaths, hpath, hrun], hstop⟩
        · rintro ⟨front, path, back, w', n, hsplit, hrun, hstop⟩
          cases front with
          | nil =>
            obtain ⟨rfl, -⟩ := List.cons.inj hsplit
            obtain ⟨rfl, -⟩ := Prod.mk.inj hrun
            simp [hpath] at hstop
          | cons path' front =>
            obtain ⟨rfl, rfl⟩ := List.cons.inj hsplit
            simp only [dumpPaths, hpath] at hrun
            cases hfront : w₁.dumpPaths c (some out) front with
            | mk w₂ result =>
              rw [hfront] at hrun
              cases result with
              | error f' => simp at hrun
              | ok m =>
                obtain ⟨rfl, -⟩ := Prod.mk.inj hrun
                exact ⟨front, path, back, w₂, m, rfl, hfront, hstop⟩

end Workspace

/-- Unless it comes upon a string that is no text, a dump of the matching assets ends early
just where an asset halts it.  Strings are no texts only in a document that writes half of a
surrogate pair, and for its nesting an asset halts the dump only if its document is too deep.
With an empty directory for the output and documents that a run can deal with, it comes to its
end: it counts one failure for each asset that cannot be loaded and for each export without a
report, all reports stand in the directory, and nothing else does. -/
theorem dumpMatching_goes_on (c : Catalog) (o : Options) {needle : String} {out : Path}
    (hneedle : o.needle = some needle) (hout : o.out = some out) :
    (∀ w : Workspace, (w.dumpMatching c o).2 ≠ .error .unpaired →
      ∀ f, (w.dumpMatching c o).2 = .error f ↔
        ∃ front path back w' n, Catalog.select needle c.paths = front ++ path :: back
          ∧ w.dumpPaths c (some out) front = (w', .ok n)
          ∧ Workspace.Halts w'.tree c out path f)
    ∧ (∀ t path, (c.load t path).2 = .error .unpaired →
      ∃ p content s, c.find? path = some p ∧ t.contentAt p = .ok content
        ∧ Catalog.textOf content = .ok s ∧ Document.Parser.HasHalf s.toList)
    ∧ (∀ t path, (c.load t path).2 = .error .tooNested →
      ∃ p content s, c.find? path = some p ∧ t.contentAt p = .ok content
        ∧ Catalog.textOf content = .ok s ∧ c.IsTooDeep s)
    ∧ ∀ (w : Workspace) (here : Location) (limits : Limits), w.tree.WellFormed →
      Catalog.ofTree w.tree o.root limits = .ok c → w.tree.EmptyAt out here →
      (∀ path ∈ Catalog.select needle c.paths, ∀ p content, c.find? path = some p →
        w.tree.contentAt p = .ok content → Catalog.isTractable limits path content = true) →
      ∃ w', w.dumpMatching c o
          = (w', .ok ((Catalog.select needle c.paths).map (c.failureCount w.tree)).sum)
        ∧ (∀ place, FileTree.IsOutside here place → w'.tree.node? place = w.tree.node? place)
        ∧ (∀ path ∈ Catalog.select needle c.paths, ∀ a, (c.load w.tree path).2 = .ok a →
          a.StandsIn w'.tree here)
        ∧ ∀ name file content, w'.tree.node? (here ++ [name, file]) = some (.file content) →
          ∃ path ∈ Catalog.select needle c.paths, ∃ a, (c.load w.tree path).2 = .ok a
            ∧ (name, file, content) ∈ a.filings := by
  have hmatching : ∀ w : Workspace, w.dumpMatching c o
      = w.dumpPaths c (some out) (Catalog.select needle c.paths) := by
    intro w
    simp only [Workspace.dumpMatching, hneedle, hout]
  refine ⟨?_, fun t path => Catalog.hasHalf_of_load, fun t path => Catalog.isTooDeep_of_load, ?_⟩
  · intro w hpaired f
    rw [hmatching] at hpaired ⊢
    rw [Workspace.dumpPaths_eq_error_iff]
    constructor
    · rintro ⟨front, path, back, w', n, hsplit, hrun, hstop⟩
      refine ⟨front, path, back, w', n, hsplit, hrun, Workspace.halts_of_dumpPath hstop ?_⟩
      rintro rfl
      exact hpaired (Workspace.dumpPaths_eq_error_iff.mpr
        ⟨front, path, back, w', n, hsplit, hrun, hstop⟩)
    · rintro ⟨front, path, back, w', n, hsplit, hrun, hhalts⟩
      exact ⟨front, path, back, w', n, hsplit, hrun, Workspace.dumpPath_of_halts hhalts⟩
  · intro w here limits wf hc hempty htractable
    obtain rfl := Catalog.limits_of_ofTree hc
    obtain ⟨w', hrun, hspread, hgrows, hstands⟩ := Workspace.dumpPaths_goes_on hempty wf hc
      (fun name file content => ∃ path ∈ Catalog.select needle c.paths, ∃ a,
        (c.load w.tree path).2 = .ok a ∧ (name, file, content) ∈ a.filings)
      (Catalog.select needle c.paths) hempty.spread_self
      (fun path hpath => Catalog.loadsSafely wf hc (htractable path hpath))
      (fun path hpath a ha name file content hfiling => ⟨path, hpath, a, ha, hfiling⟩)
    refine ⟨w', by rw [hmatching, hrun], hspread.outside, hstands, ?_⟩
    intro name file content hfile
    rcases hgrows.files name file content hfile with hfile | hadded
    · simp [hempty.empty name [file]] at hfile
    · exact hadded

/-! ## A run with a bad document -/

/-- The empty text selects all paths. -/
theorem Catalog.select_empty (paths : List String) : select "" paths = paths := by
  rw [select, List.filter_eq_self]
  intro path _
  have hlower : (Text.lower "").toList = [] := rfl
  rw [isMatch, hlower, Text.occurs]
  cases (Text.lower path).toList <;> rfl

/-- The document of an asset with two functions, the second without a script. -/
def sampleDocument : String :=
  "\x7b\"exports\":[\x7b\"type\":\"Function\",\"name\":\"F\",\"bytecode\":[]\x7d,"
    ++ "\x7b\"type\":\"Function\",\"name\":\"G\"\x7d]\x7d"

/-- The bytes of this document. -/
def sampleContent : ByteArray :=
  sampleDocument.toUTF8

/-- Two documents, the second of an asset unless said otherwise, and an empty directory for the
output. -/
def sampleFiles (content : ByteArray) (other : ByteArray := sampleContent) : FileTree where
  workingDirectory := []
  nodes := [(["assets"], .directory), (["assets", "BP.json"], .file content),
    (["assets", "Ok.json"], .file other), (["out"], .directory)]

/-- The catalog of the two documents. -/
def sampleCatalog : Catalog where
  entries := [("Ok.uasset", Path.ofText "assets/Ok.json"),
    ("BP.uasset", Path.ofText "assets/BP.json")]

/-- The options of a dump of all documents. -/
def sampleOptions : Options :=
  ⟨Path.ofText "assets", some "", some (Path.ofText "out"), false, true⟩

theorem wellFormed_sampleFiles (content : ByteArray) : (sampleFiles content).WellFormed where
  names := by
    intro e he name hname
    simp only [sampleFiles, List.mem_cons, List.not_mem_nil, or_false] at he
    rcases he with rfl | rfl | rfl | rfl <;>
      simp only [List.mem_cons, List.not_mem_nil, or_false] at hname <;>
      rcases hname with rfl | rfl <;> decide
  parents := by
    intro e he k hk
    simp only [sampleFiles, List.mem_cons, List.not_mem_nil, or_false] at he
    have hsmall : k = 0 ∨ k = 1 := by
      rcases he with rfl | rfl | rfl | rfl <;> dsimp only [List.length] at hk <;> omega
    rcases he with rfl | rfl | rfl | rfl <;> rcases hsmall with rfl | rfl <;> rfl

theorem ofTree_sampleFiles (content : ByteArray) (other : ByteArray := sampleContent) :
    Catalog.ofTree (sampleFiles content other) sampleOptions.root = .ok sampleCatalog := by
  have hdir : (sampleFiles content other).isDirectory sampleOptions.root = true := rfl
  have hresolve : (sampleFiles content other).resolve sampleOptions.root = .ok ["assets"] := rfl
  have hfirst : Catalog.isDocumentName "BP.json" = true := by decide +kernel
  have hsecond : Catalog.isDocumentName "Ok.json" = true := by decide +kernel
  have hsorted : [["BP.json"], ["Ok.json"]].mergeSort Catalog.precedes
      = [["BP.json"], ["Ok.json"]] :=
    List.mergeSort_of_pairwise (by decide +kernel)
  have hdocuments : Catalog.documentsBelow (sampleFiles content other) ["assets"]
      = [["BP.json"], ["Ok.json"]] := by
    simp [Catalog.documentsBelow, FileTree.entriesBelow, sampleFiles, FileTree.below?, hfirst,
      hsecond, hsorted]
  rw [Catalog.ofTree, if_pos hdir, hresolve]
  dsimp only
  rw [hdocuments]
  rfl

theorem emptyAt_sampleFiles (content : ByteArray) :
    (sampleFiles content).EmptyAt (Path.ofText "out") ["out"] where
  resolve := rfl
  directory := rfl
  empty name rest := by simp [FileTree.node?, sampleFiles]

theorem select_sampleCatalog :
    Catalog.select "" sampleCatalog.paths = ["BP.uasset", "Ok.uasset"] := by
  rw [Catalog.select_empty]
  simp [Catalog.paths, sampleCatalog, List.mergeSort]

/-- Both documents are tractable if the first is empty. -/
theorem isTractable_sampleFiles {path : String} (hpath : path ∈ ["BP.uasset", "Ok.uasset"])
    {p : Path} {content : ByteArray} (hfind : sampleCatalog.find? path = some p)
    (hcontent : (sampleFiles ⟨#[]⟩).contentAt p = .ok content) :
    Catalog.isTractable {} path content = true := by
  rw [List.mem_cons, List.mem_singleton] at hpath
  rcases hpath with rfl | rfl
  · obtain rfl := Option.some.inj hfind
    obtain rfl := Except.ok.inj hcontent
    rfl
  · obtain rfl := Option.some.inj hfind
    obtain rfl := Except.ok.inj hcontent
    decide +kernel

/-- The second document gives an asset with one report and one failure. -/
theorem load_sampleCatalog :
    ∃ a, (sampleCatalog.load (sampleFiles ⟨#[]⟩) "Ok.uasset").2 = .ok a ∧ a.failureCount = 1
      ∧ a.filings.map (fun f => (f.1, f.2.1)) = [("Ok", "Function_F.txt")] := by
  have hload : (sampleCatalog.load (sampleFiles ⟨#[]⟩) "Ok.uasset").2.toOption.map
      (fun a => (a.failureCount, a.filings.map fun f => (f.1, f.2.1)))
      = some (1, [("Ok", "Function_F.txt")]) := by
    decide +kernel
  cases hresult : (sampleCatalog.load (sampleFiles ⟨#[]⟩) "Ok.uasset").2 with
  | error f => simp [hresult, Except.toOption] at hload
  | ok a => exact ⟨a, rfl, by simpa [hresult, Except.toOption] using hload⟩

/-- The empty file is counted and skipped, and the other document is dumped. -/
theorem dumpMatching_goes_on_sample :
    (sampleFiles ⟨#[]⟩).WellFormed
    ∧ (sampleFiles ⟨#[]⟩).EmptyAt (Path.ofText "out") ["out"]
    ∧ Catalog.ofTree (sampleFiles ⟨#[]⟩) sampleOptions.root = .ok sampleCatalog
    ∧ ∃ w', ({ tree := sampleFiles ⟨#[]⟩ } : Workspace).dumpMatching sampleCatalog sampleOptions
        = (w', .ok 2)
      ∧ ∃ report, w'.tree.node? ["out", "Ok", "Function_F.txt"] = some (.file report) := by
  obtain ⟨a, hload, hcount, hfilings⟩ := load_sampleCatalog
  have hmem : ("Ok", "Function_F.txt") ∈ a.filings.map fun f => (f.1, f.2.1) := by
    simp [hfilings]
  obtain ⟨⟨name, file, content⟩, hfiling, heq⟩ := List.mem_map.mp hmem
  obtain ⟨rfl, rfl⟩ : name = "Ok" ∧ file = "Function_F.txt" := by simpa using heq
  have hempty : (sampleCatalog.load (sampleFiles ⟨#[]⟩) "BP.uasset").2 = .error .notJson := rfl
  obtain ⟨-, -, -, hgoes⟩ := dumpMatching_goes_on sampleCatalog sampleOptions rfl rfl
  obtain ⟨w', hrun, -, hstands, -⟩ := hgoes
    { tree := sampleFiles ⟨#[]⟩ } ["out"] {} (wellFormed_sampleFiles _) (ofTree_sampleFiles _)
    (emptyAt_sampleFiles _)
    fun path hpath p content => isTractable_sampleFiles (select_sampleCatalog ▸ hpath)
  refine ⟨wellFormed_sampleFiles _, emptyAt_sampleFiles _, ofTree_sampleFiles _, w', ?_,
    hstands "Ok.uasset" (by simp [select_sampleCatalog]) a hload _ _ _ hfiling⟩
  rw [hrun, select_sampleCatalog]
  simp [Catalog.failureCount, hempty, hload, hcount]

/-- A byte that is no text ends the run before the other document is loaded. -/
theorem dumpMatching_stray_byte :
    (sampleFiles ⟨#[0xFF]⟩).EmptyAt (Path.ofText "out") ["out"]
    ∧ Catalog.ofTree (sampleFiles ⟨#[0xFF]⟩) sampleOptions.root = .ok sampleCatalog
    ∧ (({ tree := sampleFiles ⟨#[0xFF]⟩ } : Workspace).dumpMatching sampleCatalog sampleOptions).2
      = .error .notUtf8 := by
  refine ⟨emptyAt_sampleFiles _, ofTree_sampleFiles _, ?_⟩
  simp only [Workspace.dumpMatching, sampleOptions, select_sampleCatalog]
  exact Workspace.dumpPaths_eq_error_iff.mpr
    ⟨[], "BP.uasset", ["Ok.uasset"], _, 0, rfl, rfl, Workspace.dumpPath_of_halts (.load rfl rfl)⟩

end Kismet
