import Kismet.Proofs.Filing
set_option autoImplicit false

/-!
# Overwriting: which reports of a run are left

The directory of an asset is found by its name, and names of assets need not differ.  A run
stores the reports of the assets that it loads in order, so of the reports for one place the
last one stands at the end.  Assets whose directories differ do not get into each other's
way, as long as their reports go directly into these directories: `dumpMatching_keeps` says
that their files differ, and that the reports of an asset that has its directory to itself are
left at the end of the run.  `dumpMatching_overwrites` has a run that loses the reports of an
asset to another one of the same name, and a run that loses them to one of another directory,
by the name of an export that leads there.
-/

namespace Kismet

/-! ## Files stored in order -/

namespace FileTree

/-- The last of the contents stored at a place. -/
def lastAt (files : List (Location × ByteArray)) (here : Location) : Option ByteArray :=
  (files.filter fun f => f.1 == here).getLast?.map Prod.snd

section LastAt

variable {files : List (Location × ByteArray)} {here : Location}

theorem lastAt_append (a b : List (Location × ByteArray)) (here : Location) :
    lastAt (a ++ b) here = (lastAt b here).or (lastAt a here) := by
  simp only [lastAt, List.filter_append, List.getLast?_append, Option.map_or]

theorem lastAt_eq_none_iff : lastAt files here = none ↔ ∀ f ∈ files, f.1 ≠ here := by
  simp [lastAt]

theorem mem_of_lastAt {content : ByteArray} (h : lastAt files here = some content) :
    (here, content) ∈ files := by
  obtain ⟨f, hf, rfl⟩ := Option.map_eq_some_iff.mp h
  obtain ⟨hmem, hplace⟩ := List.mem_filter.mp (List.mem_of_getLast? hf)
  rwa [← beq_iff_eq.mp hplace]

theorem exists_lastAt {f : Location × ByteArray} (hf : f ∈ files) :
    ∃ content, lastAt files f.1 = some content := by
  cases hlast : lastAt files f.1 with
  | none => exact absurd rfl (lastAt_eq_none_iff.mp hlast f hf)
  | some content => exact ⟨content, rfl⟩

end LastAt

/-- The tree `u` is the tree `t` after files have been stored in order, and directories made
where nothing stood. -/
structure Written (t u : FileTree) (files : List (Location × ByteArray)) : Prop where
  workingDirectory : u.workingDirectory = t.workingDirectory
  file : ∀ here content, lastAt files here = some content → u.node? here = some (.file content)
  other : ∀ here, lastAt files here = none →
    u.node? here = t.node? here ∨ t.node? here = none ∧ u.node? here = some .directory

namespace Written

variable {t u v : FileTree} {files files' : List (Location × ByteArray)}

theorem refl (t : FileTree) : Written t t [] :=
  ⟨rfl, fun _ _ h => by simp [lastAt] at h, fun _ _ => .inl rfl⟩

theorem trans (h : Written t u files) (h' : Written u v files') :
    Written t v (files ++ files') where
  workingDirectory := h'.workingDirectory.trans h.workingDirectory
  file here content hlast := by
    rw [lastAt_append] at hlast
    cases hlast' : lastAt files' here with
    | some content' =>
      rw [hlast', Option.some_or] at hlast
      exact h'.file here content (hlast'.trans hlast)
    | none =>
      rw [hlast', Option.none_or] at hlast
      have hu := h.file here content hlast
      rcases h'.other here hlast' with hv | ⟨hnone, -⟩
      · rw [hv, hu]
      · simp [hu] at hnone
  other here hlast := by
    rw [lastAt_append, Option.or_eq_none_iff] at hlast
    rcases h'.other here hlast.1 with hv | ⟨hnone, hv⟩
    · rw [hv]
      exact h.other here hlast.2
    · rcases h.other here hlast.2 with hu | ⟨-, hu⟩
      · exact .inr ⟨hu.symm.trans hnone, hv⟩
      · simp [hnone] at hu

/-- All files are left just when those for one place are the same. -/
theorem forall_node?_iff (h : Written t u files) :
    (∀ f ∈ files, u.node? f.1 = some (.file f.2))
      ↔ ∀ f ∈ files, ∀ g ∈ files, f.1 = g.1 → f.2 = g.2 := by
  constructor
  · intro hfiles f hf g hg hplace
    have hnode := hfiles f hf
    rw [hplace, hfiles g hg] at hnode
    exact (Node.file.inj (Option.some.inj hnode)).symm
  · intro hsame f hf
    obtain ⟨content, hlast⟩ := exists_lastAt hf
    rw [h.file f.1 content hlast, hsame f hf _ (mem_of_lastAt hlast) rfl]

end Written

end FileTree

/-! ## Assets -/

namespace Asset

/-- The place of the directory of an asset. -/
def directory (a : Asset) (t : FileTree) (out : Path) : Location :=
  match a.name with
  | .text name => t.place (out.child name)
  | _ => t.place out

/-- The reports of an asset with the places that they go to, in order. -/
def files (a : Asset) (t : FileTree) (out : Path) : List (Location × ByteArray) :=
  a.filings.map fun f => (t.place ((out.child f.1).child f.2.1), f.2.2)

variable {a b : Asset} {t u : FileTree} {out : Path}

theorem files_congr (h : u.workingDirectory = t.workingDirectory) (a : Asset) (out : Path) :
    a.files u out = a.files t out := by
  simp only [files, FileTree.place_congr h]

theorem files_eq {name : String} {index : EventIndex} (hname : a.name = .text name)
    (hindex : EventIndex.ofLinks a.eventLinks = .ok index) :
    a.files t out = (a.reports index).map fun r =>
      (t.place ((out.child name).child r.fileName), r.text.toUTF8) := by
  rw [files, filings_eq hname hindex, List.map_map]
  rfl

/-- The reports of the asset go directly into its directory. -/
def KeepsToDirectory (a : Asset) (t : FileTree) (out : Path) : Prop :=
  ∀ f ∈ a.files t out, ∃ file, f.1 = a.directory t out ++ [file]

/-- They do if the exports are named by texts. -/
theorem HasNamedExports.keepsToDirectory (ha : a.HasNamedExports) : a.KeepsToDirectory t out := by
  intro f hf
  obtain ⟨filing, hfiling, rfl⟩ := List.mem_map.mp hf
  unfold filings at hfiling
  split at hfiling
  · rename_i name index hname hindex
    obtain ⟨r, hr, rfl⟩ := List.mem_map.mp hfiling
    obtain ⟨e, he, hreport⟩ := mem_reports.mp hr
    obtain ⟨link, hreport⟩ := exists_report_of_reportFor hreport
    have hfile := Export.isName_of_report (ha e he) hreport
    exact ⟨r.fileName, by simp only [directory, hname, FileTree.place_child hfile]⟩
  · simp at hfiling

/-- Assets that keep to different directories have different files. -/
theorem ne_of_mem_files (ha : a.KeepsToDirectory t out) (hb : b.KeepsToDirectory t out)
    (hne : a.directory t out ≠ b.directory t out) {f g : Location × ByteArray}
    (hf : f ∈ a.files t out) (hg : g ∈ b.files t out) : f.1 ≠ g.1 := by
  obtain ⟨file, hfile⟩ := ha f hf
  obtain ⟨file', hfile'⟩ := hb g hg
  intro heq
  rw [hfile, hfile'] at heq
  exact hne (List.append_inj_left' heq rfl)

end Asset

/-! ## Runs -/

namespace Catalog

theorem nodup_select {t : FileTree} {root : Path} {limits : Limits} {c : Catalog}
    (hc : ofTree t root limits = .ok c) (needle : String) : (select needle c.paths).Nodup := by
  have hentries : (c.entries.map (·.1)).Nodup := by
    unfold ofTree at hc
    split at hc
    · split at hc
      · rw [← Except.ok.inj hc]
        exact nodup_ofDocuments _ _
      · simp at hc
    · simp at hc
  have hpaths : c.paths.Nodup := (List.mergeSort_perm _ _).nodup_iff.mpr hentries
  exact hpaths.filter _

end Catalog

namespace Workspace

/-- The asset that is loaded at a path, if one is. -/
def loadedAt (w : Workspace) (c : Catalog) (path : String) : List (String × Asset) :=
  match (c.load w.tree path).2 with
  | .ok a => [(path, a)]
  | .error _ => []

/-- The assets that a run loads, with their paths. -/
def loaded (w : Workspace) (c : Catalog) (out : Path) : List String → List (String × Asset)
  | [] => []
  | path :: rest => w.loadedAt c path ++ (w.dumpPath c (some out) path).1.loaded c out rest

/-- The files that a run stores for the assets it loads, in order. -/
def filesOf (t : FileTree) (out : Path) (loaded : List (String × Asset)) :
    List (Location × ByteArray) :=
  loaded.flatMap fun x => x.2.files t out

variable {c : Catalog} {out : Path}

/-- A run loads assets at its paths, in order. -/
theorem loaded_sublist (paths : List String) : ∀ w : Workspace,
    ((w.loaded c out paths).map Prod.fst).Sublist paths := by
  induction paths with
  | nil => exact fun _ => .slnil
  | cons path rest ih =>
    intro w
    have hfirst : ((w.loadedAt c path).map Prod.fst).Sublist [path] := by
      unfold loadedAt
      split <;> simp
    rw [loaded, List.map_append]
    exact hfirst.append (ih _)

theorem written_dump {w w' : Workspace} {a : Asset} {summary : DumpSummary}
    (hdump : w.dump a out = (w', .ok summary)) :
    FileTree.Written w.tree w'.tree (a.files w.tree out) := by
  obtain ⟨name, hname⟩ := exists_name_of_dump hdump
  obtain ⟨index, hindex⟩ := a.exists_index
  obtain ⟨-, hdirectory, made, hmade, hnodes⟩ := node?_of_dump hname hindex hdump
  have hlast : ∀ here, w'.tree.node? here
      = ((FileTree.lastAt (a.files w.tree out) here).map FileTree.Node.file).or
          (made.node? here) := by
    intro here
    rw [hnodes here, Asset.files_eq hname hindex, FileTree.lastAt, List.filter_map,
      List.getLast?_map, Option.map_map, Option.map_map]
    rfl
  refine ⟨hdirectory, ?_, ?_⟩
  · intro here content hcontent
    rw [hlast here, hcontent]
    rfl
  · intro here hnone
    rw [hlast here, hnone]
    rcases hmade.node here with hsame | ⟨-, hfree, hdir⟩ | ⟨-, content, hfalse, -⟩
    · exact .inl hsame
    · exact .inr ⟨hfree, hdir⟩
    · exact hfalse.elim

theorem written_dumpPath {w w' : Workspace} {path : String} {n : Nat}
    (h : w.dumpPath c (some out) path = (w', .ok n)) :
    FileTree.Written w.tree w'.tree (filesOf w.tree out (w.loadedAt c path)) := by
  unfold dumpPath at h
  unfold loadedAt
  cases hload : c.load w.tree path with
  | mk log result =>
    rw [hload] at h
    cases result with
    | error f =>
      dsimp only at h
      split at h
      · obtain ⟨rfl, -⟩ := Prod.mk.inj h
        exact .refl _
      · simp at h
    | ok a =>
      dsimp only at h
      split at h
      · simp at h
      · rename_i w₁ summary hdump
        obtain ⟨rfl, -⟩ := Prod.mk.inj h
        have hwritten := written_dump hdump
        simpa [filesOf] using hwritten

/-- A run stores the files of the assets that it loads. -/
theorem written_dumpPaths (paths : List String) : ∀ {w w' : Workspace} {n : Nat},
    w.dumpPaths c (some out) paths = (w', .ok n) →
    FileTree.Written w.tree w'.tree (filesOf w.tree out (w.loaded c out paths)) := by
  induction paths with
  | nil =>
    intro w w' n h
    obtain ⟨rfl, -⟩ := Prod.mk.inj h
    exact .refl _
  | cons path rest ih =>
    intro w w' n h
    rw [dumpPaths] at h
    split at h
    · simp at h
    · rename_i w₁ n₁ hfirst
      split at h
      · simp at h
      · rename_i w₂ n₂ hrest
        obtain ⟨rfl, -⟩ := Prod.mk.inj h
        have hwritten := written_dumpPath hfirst
        -- The first asset does not move the working directory, so places stay the same.
        have hfiles : filesOf w₁.tree out (w₁.loaded c out rest)
            = filesOf w.tree out (w₁.loaded c out rest) := by
          simp only [filesOf, Asset.files_congr hwritten.workingDirectory]
        have hwritten' := ih hrest
        rw [hfiles] at hwritten'
        rw [loaded, hfirst, filesOf, List.flatMap_append]
        exact hwritten.trans hwritten'

/-- The files of an asset that has its directory to itself are stored by nobody else. -/
theorem lastAt_filesOf {t : FileTree} {loaded : List (String × Asset)} {path : String} {a : Asset}
    (hmem : (path, a) ∈ loaded) (hnodup : (loaded.map Prod.fst).Nodup)
    (ha : a.KeepsToDirectory t out) (hothers : ∀ path' b, (path', b) ∈ loaded → path' ≠ path →
      b.KeepsToDirectory t out ∧ b.directory t out ≠ a.directory t out)
    {f : Location × ByteArray} (hf : f ∈ a.files t out) :
    FileTree.lastAt (filesOf t out loaded) f.1 = FileTree.lastAt (a.files t out) f.1 := by
  obtain ⟨before, after, rfl⟩ := List.append_of_mem hmem
  -- A path is loaded once, so all other entries are those of other paths.
  have hpath : ∀ x ∈ before ++ after, x.1 ≠ path := by
    rw [List.map_append, List.map_cons, List.perm_middle.nodup_iff, List.nodup_cons,
      ← List.map_append] at hnodup
    intro x hx heq
    exact hnodup.1 (List.mem_map.mpr ⟨x, hx, heq⟩)
  have hnone : ∀ rest : List (String × Asset), (∀ x ∈ rest, x ∈ before ++ after) →
      FileTree.lastAt (filesOf t out rest) f.1 = none := by
    intro rest hrest
    rw [FileTree.lastAt_eq_none_iff]
    intro g hg
    obtain ⟨⟨path', b⟩, hb, hg⟩ := List.mem_flatMap.mp hg
    have hloaded : (path', b) ∈ before ++ (path, a) :: after :=
      List.perm_middle.mem_iff.mpr (List.mem_cons_of_mem _ (hrest _ hb))
    obtain ⟨hkeeps, hne⟩ := hothers path' b hloaded (hpath _ (hrest _ hb))
    exact Asset.ne_of_mem_files hkeeps ha hne hg hf
  rw [filesOf, List.flatMap_append, List.flatMap_cons, FileTree.lastAt_append,
    FileTree.lastAt_append, ← filesOf, ← filesOf,
    hnone before fun _ hx => List.mem_append_left _ hx,
    hnone after fun _ hx => List.mem_append_right _ hx]
  simp

end Workspace

/-- Assets that a run loads keep to their directories if their exports are named by texts, and
those that keep to different directories have different files.  All reports are left at the
end of the run just when those for one place are the same.  If an asset keeps to its directory
and all others to different ones, its reports are left, of those of one file name the last
one. -/
theorem dumpMatching_keeps {t : FileTree} {c : Catalog} {o : Options} {needle : String}
    {out : Path} {w w' : Workspace} {n : Nat} {loaded : List (String × Asset)} {limits : Limits}
    (hc : Catalog.ofTree t o.root limits = .ok c) (hneedle : o.needle = some needle)
    (hout : o.out = some out) (hrun : w.dumpMatching c o = (w', .ok n))
    (hloaded : w.loaded c out (Catalog.select needle c.paths) = loaded) :
    (∀ x ∈ loaded, x.2.HasNamedExports → x.2.KeepsToDirectory w.tree out)
    ∧ (∀ x ∈ loaded, ∀ y ∈ loaded, x.2.KeepsToDirectory w.tree out →
      y.2.KeepsToDirectory w.tree out →
      x.2.directory w.tree out ≠ y.2.directory w.tree out →
      ∀ f ∈ x.2.files w.tree out, ∀ g ∈ y.2.files w.tree out, f.1 ≠ g.1)
    ∧ ((∀ f ∈ Workspace.filesOf w.tree out loaded, w'.tree.node? f.1 = some (.file f.2))
      ↔ ∀ f ∈ Workspace.filesOf w.tree out loaded, ∀ g ∈ Workspace.filesOf w.tree out loaded,
        f.1 = g.1 → f.2 = g.2)
    ∧ ∀ path a, (path, a) ∈ loaded → a.KeepsToDirectory w.tree out →
      (∀ path' b, (path', b) ∈ loaded → path' ≠ path →
        b.KeepsToDirectory w.tree out ∧ b.directory w.tree out ≠ a.directory w.tree out) →
      ∀ f ∈ a.files w.tree out, ∃ content,
        FileTree.lastAt (a.files w.tree out) f.1 = some content
          ∧ w'.tree.node? f.1 = some (.file content) := by
  have hpaths : w.dumpPaths c (some out) (Catalog.select needle c.paths) = (w', .ok n) := by
    simpa only [Workspace.dumpMatching, hneedle, hout] using hrun
  have hwritten := Workspace.written_dumpPaths _ hpaths
  rw [hloaded] at hwritten
  refine ⟨fun x _ hx => hx.keepsToDirectory, ?_, hwritten.forall_node?_iff, ?_⟩
  · intro x _ y _ hx hy hne f hf g hg
    exact Asset.ne_of_mem_files hx hy hne hf hg
  · intro path a hmem ha hothers f hf
    have hnodup : (loaded.map Prod.fst).Nodup := by
      rw [← hloaded]
      exact (Catalog.nodup_select hc needle).sublist (Workspace.loaded_sublist _ w)
    obtain ⟨content, hlast⟩ := FileTree.exists_lastAt hf
    refine ⟨content, hlast, hwritten.file f.1 content ?_⟩
    rw [Workspace.lastAt_filesOf hmem hnodup ha hothers hf, hlast]

/-- In a run into an empty directory assets are loaded as at the start. -/
theorem Workspace.loaded_eq {t : FileTree} {out : Path} {here : Location} {root : Path}
    {limits : Limits} {c : Catalog} (h : t.EmptyAt out here) (wf : t.WellFormed)
    (hc : Catalog.ofTree t root limits = .ok c) (paths : List String) :
    ∀ {w : Workspace}, FileTree.Spread t w.tree here →
    (∀ path ∈ paths, c.LoadsSafely t path) →
    w.loaded c out paths
      = paths.flatMap fun path => ({ tree := t } : Workspace).loadedAt c path := by
  induction paths with
  | nil => exact fun _ _ => rfl
  | cons path rest ih =>
    intro w hw hpaths
    obtain ⟨w₁, hfirst, hw₁, -⟩ := dumpPath_goes_on h wf hc hw
      (hpaths path (by simp)) fun _ _ _ _ _ _ => trivial
    have hload : w.loadedAt c path = ({ tree := t } : Workspace).loadedAt c path := by
      rw [loadedAt, loadedAt, Catalog.load_eq h wf hc hw]
    rw [loaded, hfirst, hload, List.flatMap_cons,
      ih hw₁ fun path' hpath' => hpaths path' (List.mem_cons_of_mem _ hpath')]

/-! ## Runs that lose reports -/

theorem exists_of_toOption_map {α : Type} {x : Except Fault α} {test : α → Bool}
    (h : x.toOption.map test = some true) : ∃ a, x = .ok a ∧ test a = true := by
  cases x with
  | error f => simp [Except.toOption] at h
  | ok a => exact ⟨a, rfl, Option.some.inj h⟩

/-- An asset with one function and another one that was not loaded. -/
def sampleAsset (name path : String) (flags : Int) : Asset where
  name := .text name
  path := .text path
  encoding := {}
  exports := [.function ⟨.text "F", .number flags, [], some []⟩,
    .function ⟨.text "G", .number 0, [], none⟩]

/-- The asset is such an asset. -/
def Asset.isSample (name path : String) (flags : Int) : Asset → Bool
  | ⟨.scalar (.text s), .scalar (.text p), ⟨false, true⟩,
      [.function ⟨.scalar (.text f), .number n, [], some []⟩,
        .function ⟨.scalar (.text g), .number 0, [], none⟩]⟩ =>
    s == name && p == path && f == "F" && n == flags && g == "G"
  | _ => false

theorem Asset.eq_of_isSample {name path : String} {flags : Int} {a : Asset}
    (h : a.isSample name path flags = true) : a = sampleAsset name path flags := by
  unfold isSample at h
  split at h
  · simp only [Bool.and_eq_true, beq_iff_eq] at h
    obtain ⟨⟨⟨⟨rfl, rfl⟩, rfl⟩, rfl⟩, rfl⟩ := h
    rfl
  · simp at h

theorem load_eq_sampleAsset {content : ByteArray} {path name : String} {flags : Int}
    (h : (sampleCatalog.load (sampleFiles content) path).2.toOption.map
      (Asset.isSample name path flags) = some true) :
    (sampleCatalog.load (sampleFiles content) path).2 = .ok (sampleAsset name path flags) := by
  obtain ⟨a, hload, ha⟩ := exists_of_toOption_map h
  rw [hload, Asset.eq_of_isSample ha]

/-- The files of such an asset below the output directory of the sample. -/
theorem files_sampleAsset {name path : String} {flags : Int} (hname : Path.isName name = true)
    {report : ByteArray}
    (hfilings : (sampleAsset name path flags).filings = [(name, "Function_F.txt", report)])
    (content : ByteArray) :
    (sampleAsset name path flags).files (sampleFiles content) (Path.ofText "out")
      = [(["out", name, "Function_F.txt"], report)] := by
  have hout : (sampleFiles content).place (Path.ofText "out") = ["out"] := rfl
  have hfile : Path.isName "Function_F.txt" = true := by decide
  simp [Asset.files, hfilings, FileTree.place_child hfile, FileTree.place_child hname, hout]

/-- The run of the sample loads both documents. -/
theorem run_sampleFiles {content : ByteArray} {a b : Asset}
    (ha : (sampleCatalog.load (sampleFiles content) "BP.uasset").2 = .ok a)
    (hb : (sampleCatalog.load (sampleFiles content) "Ok.uasset").2 = .ok b)
    (hordinary : a.isOrdinary = true) (hordinary' : b.isOrdinary = true) :
    ∃ w' n, ({ tree := sampleFiles content } : Workspace).dumpMatching sampleCatalog sampleOptions
        = (w', .ok n)
      ∧ ({ tree := sampleFiles content } : Workspace).loaded sampleCatalog (Path.ofText "out")
          (Catalog.select "" sampleCatalog.paths) = [("BP.uasset", a), ("Ok.uasset", b)] := by
  have hempty := emptyAt_sampleFiles content
  have of_load : ∀ {path : String} {a : Asset},
      (sampleCatalog.load (sampleFiles content) path).2 = .ok a → a.isOrdinary = true →
      sampleCatalog.LoadsSafely (sampleFiles content) path := by
    intro path a hload hordinary
    refine ⟨fun f hf => by simp [hload] at hf, fun a' ha' => ?_⟩
    obtain rfl := Except.ok.inj (hload.symm.trans ha')
    exact hordinary
  have hsafe : ∀ path ∈ ["BP.uasset", "Ok.uasset"],
      sampleCatalog.LoadsSafely (sampleFiles content) path := by
    intro path hpath
    rw [List.mem_cons, List.mem_singleton] at hpath
    rcases hpath with rfl | rfl
    · exact of_load ha hordinary
    · exact of_load hb hordinary'
  obtain ⟨w', hrun, -⟩ := Workspace.dumpPaths_goes_on hempty (wellFormed_sampleFiles content)
    (ofTree_sampleFiles content) (fun _ _ _ => True) ["BP.uasset", "Ok.uasset"]
    (w := ⟨sampleFiles content, []⟩) hempty.spread_self hsafe fun _ _ _ _ _ _ _ _ => trivial
  have hloaded := Workspace.loaded_eq hempty (wellFormed_sampleFiles content)
    (ofTree_sampleFiles content) ["BP.uasset", "Ok.uasset"] (w := ⟨sampleFiles content, []⟩)
    hempty.spread_self hsafe
  rw [← select_sampleCatalog] at hrun
  refine ⟨w', _, hrun, ?_⟩
  rw [select_sampleCatalog, hloaded]
  simp [Workspace.loadedAt, ha, hb]

/-- An asset keeps its report beside one of another name. -/
theorem dumpMatching_keeps_sample :
    ∃ w' n report,
      ({ tree := sampleFiles sampleDocument.toUTF8 } : Workspace).dumpMatching sampleCatalog
          sampleOptions = (w', .ok n)
      ∧ ({ tree := sampleFiles sampleDocument.toUTF8 } : Workspace).loaded sampleCatalog
          (Path.ofText "out") (Catalog.select "" sampleCatalog.paths)
        = [("BP.uasset", sampleAsset "BP" "BP.uasset" 0),
          ("Ok.uasset", sampleAsset "Ok" "Ok.uasset" 0)]
      ∧ w'.tree.node? ["out", "BP", "Function_F.txt"] = some (.file report) := by
  have ha : (sampleCatalog.load (sampleFiles sampleDocument.toUTF8) "BP.uasset").2
      = .ok (sampleAsset "BP" "BP.uasset" 0) := load_eq_sampleAsset (by decide +kernel)
  have hb : (sampleCatalog.load (sampleFiles sampleDocument.toUTF8) "Ok.uasset").2
      = .ok (sampleAsset "Ok" "Ok.uasset" 0) := load_eq_sampleAsset (by decide +kernel)
  obtain ⟨w', n, hrun, hloaded⟩ := run_sampleFiles ha hb rfl rfl
  obtain ⟨report, hfilings⟩ : ∃ report,
      (sampleAsset "BP" "BP.uasset" 0).filings = [("BP", "Function_F.txt", report)] := ⟨_, rfl⟩
  have hfiles := files_sampleAsset (by decide) hfilings sampleDocument.toUTF8
  obtain ⟨hnamed, -, -, hkeeps⟩ := dumpMatching_keeps (ofTree_sampleFiles sampleDocument.toUTF8)
    rfl rfl hrun hloaded
  have hothers : ∀ path b, (path, b) ∈ [("BP.uasset", sampleAsset "BP" "BP.uasset" 0),
        ("Ok.uasset", sampleAsset "Ok" "Ok.uasset" 0)] → path ≠ "BP.uasset" →
      b.KeepsToDirectory (sampleFiles sampleDocument.toUTF8) (Path.ofText "out")
        ∧ b.directory (sampleFiles sampleDocument.toUTF8) (Path.ofText "out")
          ≠ (sampleAsset "BP" "BP.uasset" 0).directory (sampleFiles sampleDocument.toUTF8)
              (Path.ofText "out") := by
    intro path b hmem hne
    obtain ⟨rfl, rfl⟩ : path = "Ok.uasset" ∧ b = sampleAsset "Ok" "Ok.uasset" 0 := by
      simpa [hne] using hmem
    exact ⟨hnamed _ hmem (by decide), by decide⟩
  obtain ⟨content, -, hnode⟩ := hkeeps "BP.uasset" _ (List.mem_cons_self ..)
    (hnamed _ (List.mem_cons_self ..) (by decide)) hothers
    (["out", "BP", "Function_F.txt"], report) (by rw [hfiles]; exact List.mem_singleton_self _)
  exact ⟨w', n, content, hrun, hloaded, hnode⟩

/-- The document of an asset that is named like the other one. -/
def sampleNamesake : String :=
  "\x7b\"name\":\"Ok\",\"exports\":[\x7b\"type\":\"Function\",\"name\":\"F\",\"flags\":1,"
    ++ "\"bytecode\":[]\x7d,\x7b\"type\":\"Function\",\"name\":\"G\"\x7d]\x7d"

/-- Equal filings are those of equal reports. -/
theorem Asset.reports_eq_of_filings {a b : Asset} {name : String} {index index' : EventIndex}
    (ha : a.name = .text name) (hb : b.name = .text name)
    (hindex : EventIndex.ofLinks a.eventLinks = .ok index)
    (hindex' : EventIndex.ofLinks b.eventLinks = .ok index') (h : a.filings = b.filings) :
    a.reports index = b.reports index' := by
  rw [filings_eq ha hindex, filings_eq hb hindex'] at h
  refine (List.map_inj_right fun r r' heq => ?_).mp h
  obtain ⟨hfile, hcontent⟩ := Prod.mk.inj (Prod.mk.inj heq).2
  have htext : r.text = r'.text := String.toByteArray_inj.mp hcontent
  cases r
  cases r'
  rw [Report.mk.injEq]
  exact ⟨hfile, htext⟩

/-- The flags of a function stand in its report. -/
theorem reports_sampleAsset_ne :
    (sampleAsset "Ok" "BP.uasset" 1).reports {} ≠ (sampleAsset "Ok" "Ok.uasset" 0).reports {} := by
  have hsorted : functionFlags.ascending = functionFlags.members :=
    List.mergeSort_of_pairwise (by decide +kernel)
  have hflags : functionFlags.format true 1 = "Final" := by
    simp only [Enumeration.format, Enumeration.formatParts, Enumeration.remainder,
      Enumeration.present, hsorted]
    decide +kernel
  have hlines : (sampleAsset "Ok" "BP.uasset" 1).reports {}
      = [.ofLines "Function_F.txt" (FunctionExport.reportLines
          ⟨.text "F", .number 1, [], some []⟩ [] ⟨[], none⟩)] := rfl
  rw [hlines]
  simp only [FunctionExport.reportLines, Word.toInt, hflags]
  decide +kernel

/-- An asset with one function, which has any document for its name. -/
def sampleLone (name path : String) (function : Document) : Asset where
  name := .text name
  path := .text path
  encoding := {}
  exports := [.function ⟨function, .number 0, [], some []⟩]

/-- The asset is such an asset, and the name of its function passes a test. -/
def Asset.isLone (name path : String) (isFunction : Document → Bool) : Asset → Bool
  | ⟨.scalar (.text s), .scalar (.text p), ⟨false, true⟩,
      [.function ⟨function, .number 0, [], some []⟩]⟩ =>
    s == name && p == path && isFunction function
  | _ => false

theorem Asset.eq_of_isLone {name path : String} {isFunction : Document → Bool} {a : Asset}
    {function : Document} (h : a.isLone name path isFunction = true)
    (hfunction : ∀ d, isFunction d = true → d = function) : a = sampleLone name path function := by
  unfold isLone at h
  split at h
  · simp only [Bool.and_eq_true, beq_iff_eq] at h
    obtain ⟨⟨rfl, rfl⟩, h⟩ := h
    rw [hfunction _ h]
    rfl
  · simp at h

/-- The document of an asset whose directory stands inside that of another one. -/
def sampleInner : String :=
  "\x7b\"name\":\"Ok/Function_\",\"exports\":[\x7b\"type\":\"Function\",\"name\":\"F\","
    ++ "\"bytecode\":[]\x7d]\x7d"

/-- The document of the other asset, with a function whose name is no text. -/
def sampleStray : String :=
  "\x7b\"exports\":[\x7b\"type\":\"Function\",\"name\":[\"/Function_F\"],"
    ++ "\"bytecode\":[]\x7d]\x7d"

/-- Both documents, and an empty directory for the output. -/
def sampleShelves : FileTree :=
  sampleFiles sampleInner.toUTF8 sampleStray.toUTF8

/-- The asset of the first document. -/
def sampleInnerAsset : Asset :=
  sampleLone "Ok/Function_" "BP.uasset" (.text "F")

/-- The asset of the second document. -/
def sampleStrayAsset : Asset :=
  sampleLone "Ok" "Ok.uasset" (.list [.text "/Function_F"])

/-- The document is a list with this text. -/
def Document.isListOf (s : String) : Document → Bool
  | .list [.scalar (.text t)] => t == s
  | _ => false

theorem Document.eq_of_isText {d : Document} {s : String} (h : d.isText s = true) :
    d = .text s := by
  unfold isText at h
  split at h
  · rw [beq_iff_eq.mp h]
  · simp at h

theorem Document.eq_of_isListOf {d : Document} {s : String} (h : d.isListOf s = true) :
    d = .list [.text s] := by
  unfold isListOf at h
  split at h
  · rw [beq_iff_eq.mp h]
  · simp at h

/-- A run of the sample that comes to its end, with the assets that it loads. -/
theorem run_of_loads {w : Workspace} {a b : Asset} {n : Nat}
    (hends : (w.dumpPaths sampleCatalog (some (Path.ofText "out"))
      ["BP.uasset", "Ok.uasset"]).2 = .ok n)
    (ha : (sampleCatalog.load w.tree "BP.uasset").2 = .ok a)
    (hb : (sampleCatalog.load
        (w.dumpPath sampleCatalog (some (Path.ofText "out")) "BP.uasset").1.tree "Ok.uasset").2
      = .ok b) :
    ∃ w', w.dumpMatching sampleCatalog sampleOptions = (w', .ok n)
      ∧ w.loaded sampleCatalog (Path.ofText "out") (Catalog.select "" sampleCatalog.paths)
        = [("BP.uasset", a), ("Ok.uasset", b)] := by
  obtain ⟨w', hrun⟩ : ∃ w', w.dumpPaths sampleCatalog (some (Path.ofText "out"))
      ["BP.uasset", "Ok.uasset"] = (w', .ok n) := ⟨_, by rw [← hends]⟩
  rw [← select_sampleCatalog] at hrun
  refine ⟨_, hrun, ?_⟩
  simp [select_sampleCatalog, Workspace.loaded, Workspace.loadedAt, ha, hb]

/-- The run loads both documents and comes to its end. -/
theorem run_sampleShelves :
    ∃ w' n, ({ tree := sampleShelves } : Workspace).dumpMatching sampleCatalog sampleOptions
        = (w', .ok n)
      ∧ ({ tree := sampleShelves } : Workspace).loaded sampleCatalog (Path.ofText "out")
          (Catalog.select "" sampleCatalog.paths)
        = [("BP.uasset", sampleInnerAsset), ("Ok.uasset", sampleStrayAsset)] := by
  have hends : (({ tree := sampleShelves } : Workspace).dumpPaths sampleCatalog
      (some (Path.ofText "out")) ["BP.uasset", "Ok.uasset"]).2.toOption.map (· == 0)
      = some true := by
    decide +kernel
  have hfirst : (sampleCatalog.load sampleShelves "BP.uasset").2.toOption.map
      (Asset.isLone "Ok/Function_" "BP.uasset" (·.isText "F")) = some true := by
    decide +kernel
  have hsecond : (sampleCatalog.load (({ tree := sampleShelves } : Workspace).dumpPath
        sampleCatalog (some (Path.ofText "out")) "BP.uasset").1.tree "Ok.uasset").2.toOption.map
      (Asset.isLone "Ok" "Ok.uasset" (·.isListOf "/Function_F")) = some true := by
    decide +kernel
  obtain ⟨n, hn, -⟩ := exists_of_toOption_map hends
  obtain ⟨a, ha, hlone⟩ := exists_of_toOption_map hfirst
  obtain ⟨b, hb, hlone'⟩ := exists_of_toOption_map hsecond
  obtain rfl : a = sampleInnerAsset := Asset.eq_of_isLone hlone fun _ => Document.eq_of_isText
  obtain rfl : b = sampleStrayAsset := Asset.eq_of_isLone hlone' fun _ => Document.eq_of_isListOf
  obtain ⟨w', hrun, hloaded⟩ := run_of_loads hn ha hb
  exact ⟨w', n, hrun, hloaded⟩

/-- Where two assets write one report to one place each, the second one is left there. -/
theorem node?_of_run {t : FileTree} {w' : Workspace} {n : Nat} {a b : Asset} {place : Location}
    {first second : ByteArray}
    (hrun : ({ tree := t } : Workspace).dumpMatching sampleCatalog sampleOptions = (w', .ok n))
    (hloaded : ({ tree := t } : Workspace).loaded sampleCatalog (Path.ofText "out")
        (Catalog.select "" sampleCatalog.paths) = [("BP.uasset", a), ("Ok.uasset", b)])
    (hfiles : a.files t (Path.ofText "out") = [(place, first)])
    (hfiles' : b.files t (Path.ofText "out") = [(place, second)]) :
    w'.tree.node? place = some (.file second) := by
  have hpaths : ({ tree := t } : Workspace).dumpPaths sampleCatalog (some (Path.ofText "out"))
      (Catalog.select "" sampleCatalog.paths) = (w', .ok n) := hrun
  have hwritten := Workspace.written_dumpPaths _ hpaths
  rw [hloaded] at hwritten
  apply hwritten.file
  simp only [Workspace.filesOf, List.flatMap_cons, List.flatMap_nil, hfiles, hfiles']
  simp [FileTree.lastAt]

/-- The name of a function stands in its report. -/
theorem filings_sampleInnerAsset_ne :
    sampleInnerAsset.filings.map (·.2.2) ≠ sampleStrayAsset.filings.map (·.2.2) := by
  decide +kernel

/-- Of two assets of one name the second one overwrites the report of the first.  So does an
asset of another directory with an export that is not named by a text. -/
theorem dumpMatching_overwrites :
    Catalog.ofTree (sampleFiles sampleNamesake.toUTF8) sampleOptions.root = .ok sampleCatalog
    ∧ (∃ w' n first second,
      ({ tree := sampleFiles sampleNamesake.toUTF8 } : Workspace).dumpMatching sampleCatalog
          sampleOptions = (w', .ok n)
      ∧ ({ tree := sampleFiles sampleNamesake.toUTF8 } : Workspace).loaded sampleCatalog
          (Path.ofText "out") (Catalog.select "" sampleCatalog.paths)
        = [("BP.uasset", sampleAsset "Ok" "BP.uasset" 1),
          ("Ok.uasset", sampleAsset "Ok" "Ok.uasset" 0)]
      ∧ (sampleAsset "Ok" "BP.uasset" 1).files (sampleFiles sampleNamesake.toUTF8)
          (Path.ofText "out") = [(["out", "Ok", "Function_F.txt"], first)]
      ∧ (sampleAsset "Ok" "Ok.uasset" 0).files (sampleFiles sampleNamesake.toUTF8)
          (Path.ofText "out") = [(["out", "Ok", "Function_F.txt"], second)]
      ∧ first ≠ second
      ∧ w'.tree.node? ["out", "Ok", "Function_F.txt"] = some (.file second))
    ∧ Catalog.ofTree sampleShelves sampleOptions.root = .ok sampleCatalog
    ∧ ∃ w' n first second,
      ({ tree := sampleShelves } : Workspace).dumpMatching sampleCatalog sampleOptions
        = (w', .ok n)
      ∧ ({ tree := sampleShelves } : Workspace).loaded sampleCatalog (Path.ofText "out")
          (Catalog.select "" sampleCatalog.paths)
        = [("BP.uasset", sampleInnerAsset), ("Ok.uasset", sampleStrayAsset)]
      ∧ sampleInnerAsset.directory sampleShelves (Path.ofText "out")
        ≠ sampleStrayAsset.directory sampleShelves (Path.ofText "out")
      ∧ sampleInnerAsset.files sampleShelves (Path.ofText "out")
        = [(["out", "Ok", "Function_", "Function_F.txt"], first)]
      ∧ sampleStrayAsset.files sampleShelves (Path.ofText "out")
        = [(["out", "Ok", "Function_", "Function_F.txt"], second)]
      ∧ first ≠ second
      ∧ w'.tree.node? ["out", "Ok", "Function_", "Function_F.txt"] = some (.file second) := by
  have ha : (sampleCatalog.load (sampleFiles sampleNamesake.toUTF8) "BP.uasset").2
      = .ok (sampleAsset "Ok" "BP.uasset" 1) := load_eq_sampleAsset (by decide +kernel)
  have hb : (sampleCatalog.load (sampleFiles sampleNamesake.toUTF8) "Ok.uasset").2
      = .ok (sampleAsset "Ok" "Ok.uasset" 0) := load_eq_sampleAsset (by decide +kernel)
  obtain ⟨w', n, hrun, hloaded⟩ := run_sampleFiles ha hb rfl rfl
  obtain ⟨first, hfirst⟩ : ∃ report,
      (sampleAsset "Ok" "BP.uasset" 1).filings = [("Ok", "Function_F.txt", report)] := ⟨_, rfl⟩
  obtain ⟨second, hsecond⟩ : ∃ report,
      (sampleAsset "Ok" "Ok.uasset" 0).filings = [("Ok", "Function_F.txt", report)] := ⟨_, rfl⟩
  have hfiles := files_sampleAsset (by decide) hfirst sampleNamesake.toUTF8
  have hfiles' := files_sampleAsset (by decide) hsecond sampleNamesake.toUTF8
  refine ⟨ofTree_sampleFiles _, ⟨w', n, first, second, hrun, hloaded, hfiles, hfiles', ?_,
    node?_of_run hrun hloaded hfiles hfiles'⟩, ofTree_sampleFiles _ _, ?_⟩
  · rintro rfl
    have hsame := hfirst.trans hsecond.symm
    exact reports_sampleAsset_ne (Asset.reports_eq_of_filings rfl rfl rfl rfl hsame)
  · obtain ⟨w', n, hrun, hloaded⟩ := run_sampleShelves
    obtain ⟨first, hfirst⟩ : ∃ report, sampleInnerAsset.files sampleShelves (Path.ofText "out")
        = [(["out", "Ok", "Function_", "Function_F.txt"], report)] := ⟨_, rfl⟩
    obtain ⟨second, hsecond⟩ : ∃ report, sampleStrayAsset.files sampleShelves (Path.ofText "out")
        = [(["out", "Ok", "Function_", "Function_F.txt"], report)] := ⟨_, rfl⟩
    refine ⟨w', n, first, second, hrun, hloaded, by decide, hfirst, hsecond, ?_,
      node?_of_run hrun hloaded hfirst hsecond⟩
    rintro rfl
    refine filings_sampleInnerAsset_ne ?_
    have hsame := congrArg (List.map Prod.snd) (hfirst.trans hsecond.symm)
    simpa only [Asset.files, List.map_map, Function.comp_def] using hsame

end Kismet
