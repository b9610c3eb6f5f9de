import Kismet.Proofs.Places
import Kismet.Proofs.Session
set_option autoImplicit false

/-!
# Confinement: where a dump can write

A dump makes the directory of its asset, with those on the way to it, and stores reports.
What an export is called cannot lead a report out of that directory, since no file name
has separators in it.  What the asset is called can: its name is taken for a path, and a
path may start at the root or climb.  `dump_confinement` says where all changes of a dump
lie, whether or not it comes to its end, and that they lie in the output directory if the
name of the asset leads there.  `dump_climbs_out` is a dump that leaves it.
-/

namespace Kismet

/-! ## Paths that stay inside -/

namespace Path

/-- One of the segments leads above the place where they start, from some steps below it. -/
def climbs : Nat → List String → Bool
  | _, [] => false
  | depth, segment :: rest =>
    if segment = ".." then depth == 0 || climbs (depth - 1) rest else climbs (depth + 1) rest

/-- The path never leads above the place where it starts. -/
def isInner (p : Path) : Bool :=
  !p.isAbsolute && !climbs 0 p.segments

theorem climbs_of_prefix {front segments : List String} (h : front <+: segments) :
    ∀ {depth : Nat}, climbs depth segments = false → climbs depth front = false := by
  obtain ⟨back, rfl⟩ := h
  induction front with
  | nil => intro _ _; rfl
  | cons segment front ih =>
    intro depth hclimbs
    rw [List.cons_append, climbs] at hclimbs
    rw [climbs]
    split
    · rename_i hparent
      rw [if_pos hparent, Bool.or_eq_false_iff] at hclimbs
      rw [hclimbs.1, ih hclimbs.2, Bool.or_self]
    · rename_i hname
      rw [if_neg hname] at hclimbs
      exact ih hclimbs

end Path

namespace FileTree

/-- Segments that do not climb lead to a place at or below the one where they start. -/
theorem prefix_walk (base : Location) (segments : List String) : ∀ extra : Location,
    Path.climbs extra.length segments = false → base <+: walk (base ++ extra) segments := by
  induction segments with
  | nil => exact fun extra _ => List.prefix_append _ _
  | cons segment rest ih =>
    intro extra h
    rw [Path.climbs] at h
    rw [walk_cons, enter]
    split
    · rename_i hparent
      rw [if_pos hparent, Bool.or_eq_false_iff] at h
      obtain ⟨hdepth, hrest⟩ := h
      have hextra : extra ≠ [] := by
        rintro rfl
        simp at hdepth
      rw [List.dropLast_append_of_ne_nil hextra]
      apply ih
      rwa [List.length_dropLast]
    · rename_i hname
      rw [if_neg hname] at h
      rw [List.append_assoc]
      apply ih
      rwa [List.length_append]

variable {t : FileTree} {out : Path} {name : String}

/-- An inner path leads to a place at or below the one where it starts. -/
theorem prefix_place_child (hname : (Path.ofText name).isInner = true) :
    t.place out <+: t.place (out.child name) := by
  rw [Path.isInner, Bool.and_eq_true, Bool.not_eq_true', Bool.not_eq_true'] at hname
  have hwalk := prefix_walk (t.place out) (Path.ofText name).segments [] hname.2
  rw [List.append_nil] at hwalk
  rw [Path.child, place_join hname.1]
  exact hwalk

theorem not_isOutside_of_prefix {here place : Location} (h : here <+: place) (file : String) :
    ¬IsOutside here (place ++ [file]) := by
  obtain ⟨rest, rfl⟩ := h
  intro houtside
  cases rest with
  | nil => exact houtside file [] (by simp)
  | cons name rest => exact houtside name (rest ++ [file]) (by simp)

/-- On the way of an inner path lie the way to its start and places below that. -/
theorem OnTheWay.of_child (hname : (Path.ofText name).isInner = true) {here : Location}
    (h : t.OnTheWay (out.child name) here) :
    t.OnTheWay out here ∨ ¬IsOutside (t.place out) here := by
  rw [Path.isInner, Bool.and_eq_true, Bool.not_eq_true', Bool.not_eq_true'] at hname
  have hchild : out.child name = ⟨out.root, out.segments ++ (Path.ofText name).segments⟩ := by
    simp [Path.child, Path.join, hname.1]
  rw [hchild] at h
  obtain ⟨front, hfront, rfl⟩ := h
  rcases List.prefix_or_prefix_of_prefix hfront (List.prefix_append _ _) with hshort | ⟨inner, rfl⟩
  · exact .inl ⟨front, hshort, rfl⟩
  · -- The way goes on behind the start, along the first segments of the name.
    have hinner := (List.prefix_append_right_inj _).mp hfront
    have hwalk : t.place ⟨out.root, out.segments ++ inner⟩ = walk (t.place out) inner :=
      walk_append _ _ _
    obtain ⟨rest, hrest⟩ :=
      prefix_walk (t.place out) inner [] (Path.climbs_of_prefix hinner hname.2)
    rw [List.append_nil] at hrest
    rw [hwalk, ← hrest]
    cases rest with
    | nil => exact .inl ⟨out.segments, List.prefix_refl _, List.append_nil _⟩
    | cons segment rest => exact .inr fun houtside => houtside segment rest rfl

end FileTree

/-! ## What a dump changes -/

/-- A report of the asset has the content, and its file name leads to the place from the
directory `target`. -/
def Asset.ReportAt (a : Asset) (t : FileTree) (target : Path) (here : Location)
    (content : ByteArray) : Prop :=
  ∃ e ∈ a.exports, ∃ index r link, e.report a index = .ok (r, link)
    ∧ here = t.place (target.child r.fileName) ∧ content = r.text.toUTF8

namespace Workspace

open FileTree

variable {a : Asset} {target : Path} {t : FileTree} {made : Location → Prop}

theorem changes_process {w : Workspace} (hw : w.tree.workingDirectory = t.workingDirectory)
    {e : Export} (he : e ∈ a.exports) (index : EventIndex) (p : Progress) :
    Changes w.tree (w.process a target index p e).1.tree made (a.ReportAt t target) := by
  unfold process
  split
  · exact .refl _
  · rename_i r link hreport
    dsimp only
    split
    · exact .refl _
    · rename_i tree htree
      exact changes_store htree ⟨e, he, index, r, link, hreport, place_congr hw _, rfl⟩

theorem changes_processGraphs (index : EventIndex) (exports : List Export) :
    ∀ {w : Workspace} {p : Progress}, w.tree.workingDirectory = t.workingDirectory →
    (∀ e ∈ exports, e ∈ a.exports) →
    Changes w.tree (w.processGraphs a target index p exports).1.tree made
      (a.ReportAt t target) := by
  induction exports with
  | nil => exact fun _ _ => .refl _
  | cons e rest ih =>
    intro w p hw hexports
    have hfirst : Changes w.tree (w.process a target index p e).1.tree made (a.ReportAt t target) :=
      changes_process hw (hexports e (by simp)) index p
    rw [processGraphs]
    split
    · rename_i w' f hprocess
      rwa [hprocess] at hfirst
    · rename_i w' p' hprocess
      rw [hprocess] at hfirst
      refine hfirst.trans (ih (hfirst.workingDirectory.trans hw) ?_)
      exact fun e' he' => hexports e' (List.mem_cons_of_mem _ he')

/-- The first phase of a dump sets the event graphs aside. -/
theorem graphs_of_processPlain {w w' : Workspace} {p : Progress}
    (h : w.processPlain a target { summary := { asset := a.name } } a.exports = (w', .ok p)) :
    p.graphs = a.graphExports := by
  obtain ⟨w₁, hplain, -⟩ :=
    processGraphs_eq a target {} a.plainExports w { summary := { asset := a.name } }
  rw [processPlain_eq, ← Asset.plainExports, hplain] at h
  obtain ⟨p₁, hp₁, rfl⟩ := map_eq_ok_iff.mp (Prod.mk.inj h).2
  obtain ⟨tree, -, rfl⟩ := map_eq_ok_iff.mp hp₁
  simp [Progress.settle, Progress.deferAll, Asset.graphExports]

theorem changes_dumpInto {w : Workspace} (hw : w.tree.workingDirectory = t.workingDirectory) :
    Changes w.tree (w.dumpInto a target).1.tree made (a.ReportAt t target) := by
  have hplain : Changes w.tree
      (w.processPlain a target { summary := { asset := a.name } } a.exports).1.tree made
      (a.ReportAt t target) := by
    rw [processPlain_eq]
    exact changes_processGraphs {} _ hw fun e he => (List.mem_filter.mp he).1
  unfold dumpInto
  split
  · rename_i w' f hprocess
    rwa [hprocess] at hplain
  · rename_i w' p hprocess
    rw [hprocess] at hplain
    split
    · exact hplain
    · rename_i index hindex
      have hgraphs : Changes w'.tree (w'.processGraphs a target index p p.graphs).1.tree made
          (a.ReportAt t target) := by
        refine changes_processGraphs index _ (hplain.workingDirectory.trans hw) ?_
        rw [graphs_of_processPlain hprocess]
        exact fun e he => (List.mem_filter.mp he).1
      split
      · rename_i w'' f hlast
        rw [hlast] at hgraphs
        exact hplain.trans hgraphs
      · rename_i w'' p' hlast
        rw [hlast] at hgraphs
        exact hplain.trans hgraphs

/-- A dump makes directories on the way to that of the asset, and stores reports. -/
theorem changes_dump (w : Workspace) (out : Path) {name : String} (hname : a.name = .text name) :
    Changes w.tree (w.dump a out).1.tree (w.tree.OnTheWay (out.child name))
      (a.ReportAt w.tree (out.child name)) := by
  have hmake : Changes w.tree (w.makeDirectories (out.child name)).1.tree
      (w.tree.OnTheWay (out.child name)) (a.ReportAt w.tree (out.child name)) :=
    changes_makeDirectories w.tree (out.child name)
  unfold dump
  rw [hname]
  dsimp only
  split
  · rename_i w' f hdirs
    rwa [hdirs] at hmake
  · rename_i w' hdirs
    rw [hdirs] at hmake
    exact hmake.trans
      (changes_dumpInto (w := w'.note .info .dumper a.path.display) hmake.workingDirectory)

/-- Without a text for a name nothing is done. -/
theorem dump_of_unnamed (w : Workspace) (out : Path) (hname : ∀ name, a.name ≠ .text name) :
    (w.dump a out).1 = w := by
  unfold dump
  split
  · rename_i name heq
    exact absurd heq (hname name)
  · rfl

end Workspace

/-! ## Dumps -/

/-- What the dump of an asset of some name has done at a place, on the way from the tree `t`
to the tree `u`. -/
inductive Asset.DumpedAt (a : Asset) (name : String) (out : Path) (t u : FileTree)
    (here : Location) : Prop where
  /-- A directory on the way to that of the asset has been made. -/
  | directory : t.node? here = none → u.node? here = some .directory →
      t.OnTheWay (out.child name) here → DumpedAt a name out t u here
  /-- A report has been stored, directly in the directory of the asset if its export is named
  by a text. -/
  | report {e : Export} {index : EventIndex} {r : Report} {link : Option EventLink} :
      e ∈ a.exports → e.report a index = .ok (r, link) →
      u.node? here = some (.file r.text.toUTF8) →
      here = t.place ((out.child name).child r.fileName) →
      (e.isNamed = true → here = t.place (out.child name) ++ [r.fileName]) →
      DumpedAt a name out t u here

/-- A dump has done something wherever it has changed anything. -/
theorem Workspace.exists_dumpedAt {w : Workspace} {a : Asset} {out : Path} {here : Location}
    (h : (w.dump a out).1.tree.node? here ≠ w.tree.node? here) :
    ∃ name, a.name = .text name ∧ a.DumpedAt name out w.tree (w.dump a out).1.tree here := by
  by_cases hnamed : ∃ name, a.name = .text name
  · obtain ⟨name, hname⟩ := hnamed
    refine ⟨name, hname, ?_⟩
    rcases (changes_dump w out hname).node here with
      hsame | ⟨hway, hnone, hmade⟩ | ⟨-, content, hreport, hstored⟩
    · exact absurd hsame h
    · exact .directory hnone hmade hway
    · obtain ⟨e, he, index, r, link, hr, hhere, rfl⟩ := hreport
      refine .report he hr hstored hhere fun hisNamed => ?_
      rw [hhere, FileTree.place_child (Export.isName_of_report hisNamed hr)]
  · have hsame := dump_of_unnamed w out fun name hname => hnamed ⟨name, hname⟩
    exact absurd (by rw [hsame]) h

/-- Where a dump changes anything, it has made a directory on the way to that
of the asset, or it has stored a report, directly in the directory of the asset if the export
is named by a text.  If the name of the asset is an inner path and all exports are named by
texts, every change lies in the output directory, or on the way to it where the output
directory was not there. -/
theorem dump_confinement (w : Workspace) (a : Asset) (out : Path) :
    (∀ here, (w.dump a out).1.tree.node? here ≠ w.tree.node? here →
      ∃ name, a.name = .text name ∧ a.DumpedAt name out w.tree (w.dump a out).1.tree here)
    ∧ ∀ name, a.name = .text name → (Path.ofText name).isInner = true →
      (∀ e ∈ a.exports, e.isNamed = true) →
      ∀ here, (w.dump a out).1.tree.node? here ≠ w.tree.node? here →
        ¬FileTree.IsOutside (w.tree.place out) here
          ∨ w.tree.isDirectory out = false ∧ w.tree.OnTheWay out here := by
  refine ⟨fun here => Workspace.exists_dumpedAt, ?_⟩
  intro name hname hinner hexports here hchanged
  obtain ⟨name', hname', hdumped⟩ := Workspace.exists_dumpedAt hchanged
  obtain rfl : name' = name := by simpa [hname] using hname'.symm
  cases hdumped with
  | directory hnone _ hway =>
    rcases hway.of_child hinner with hout | hinside
    · refine .inr ⟨?_, hout⟩
      -- Were the output directory there, so would be all directories on the way to it.
      cases hdirectory : w.tree.isDirectory out with
      | false => rfl
      | true => simp [hout.node?_eq hdirectory] at hnone
    · exact .inl hinside
  | report he _ _ _ hdirect =>
    rw [hdirect (hexports _ he)]
    exact .inl (FileTree.not_isOutside_of_prefix (FileTree.prefix_place_child hinner) _)

/-- Files with nothing but an empty directory for the output. -/
def sampleOutput : Workspace :=
  { tree := ⟨[], [(["out"], .directory)]⟩ }

/-- The report of an event of the sample is stored in the output directory. -/
theorem dump_confinement_door :
    (sampleOutput.dump sampleDoor (Path.ofText "out")).1.tree.node?
        ["out", "Door", "Function_Tick.txt"] ≠ none
    ∧ ¬FileTree.IsOutside ["out"] ["out", "Door", "Function_Tick.txt"] := by
  have hstored : (sampleOutput.dump sampleDoor (Path.ofText "out")).1.tree.node?
      ["out", "Door", "Function_Tick.txt"] ≠ none := by
    intro hnone
    have hsome : ((sampleOutput.dump sampleDoor (Path.ofText "out")).1.tree.node?
        ["out", "Door", "Function_Tick.txt"]).isSome = true := rfl
    simp [hnone] at hsome
  refine ⟨hstored, ?_⟩
  have hnamed : ∀ e ∈ sampleDoor.exports, e.isNamed = true := by decide
  rcases (dump_confinement sampleOutput sampleDoor (Path.ofText "out")).2 "Door" rfl rfl hnamed
    ["out", "Door", "Function_Tick.txt"] hstored with hinside | ⟨hmissing, -⟩
  · exact hinside
  · exact absurd hmissing (by decide)

/-- The document of an asset of the given name with one function. -/
def sampleNamed (name : String) : Document :=
  .object [("name", .text name), ("exports", .list [.object [("type", .text "Function"),
    ("name", .text "Open"), ("bytecode", .list [])]])]

/-- Assets whose names climb or start at the root are dumped outside the output directory. -/
theorem dump_climbs_out :
    (∃ a, (Asset.decode (sampleNamed "../evil") "").2 = .ok a
      ∧ sampleOutput.tree.node? ["evil", "Function_Open.txt"] = none
      ∧ (∃ report, (sampleOutput.dump a (Path.ofText "out")).1.tree.node?
          ["evil", "Function_Open.txt"] = some (.file report)))
    ∧ (∃ a, (Asset.decode (sampleNamed "/evil") "").2 = .ok a
      ∧ sampleOutput.tree.node? ["evil", "Function_Open.txt"] = none
      ∧ (∃ report, (sampleOutput.dump a (Path.ofText "out")).1.tree.node?
          ["evil", "Function_Open.txt"] = some (.file report)))
    ∧ FileTree.IsOutside (sampleOutput.tree.place (Path.ofText "out"))
        ["evil", "Function_Open.txt"] := by
  refine ⟨⟨_, rfl, rfl, _, rfl⟩, ⟨_, rfl, rfl, _, rfl⟩, ?_⟩
  have hplace : sampleOutput.tree.place (Path.ofText "out") = ["out"] := rfl
  intro name rest heq
  simp [hplace] at heq

end Kismet
