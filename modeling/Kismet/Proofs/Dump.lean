import Kismet.Dump
import Kismet.Proofs.Cause
set_option autoImplicit false

/-!
# Dump: what a dump does, in closed form

Exports are processed one after the other, and all that is carried from one to the
next is a summary and the links found so far.  Neither decides about a report.  So
the reports, the failures and the links of a list of exports are functions of their
own, and processing the list stores these reports in order.  `dumpInto_eq` puts the
two phases together: a dump comes to an end just when its reports can be stored.
-/

namespace Kismet

/-! ## Reports, failures and links -/

/-- The reports of exports, in order. -/
def reportsOf (a : Asset) (index : EventIndex) (exports : List Export) : List Report :=
  exports.filterMap fun e =>
    match e.report a index with
    | .ok (r, _) => some r
    | .error _ => none

/-- The names of the exports that have no report. -/
def failuresOf (a : Asset) (index : EventIndex) (exports : List Export) : List Document :=
  exports.filterMap fun e =>
    match e.report a index with
    | .ok _ => none
    | .error _ => some e.name

/-- The event links that come with the reports of exports. -/
def linksOf (a : Asset) (index : EventIndex) (exports : List Export) : List EventLink :=
  exports.filterMap fun e =>
    match e.report a index with
    | .ok (_, link) => link
    | .error _ => none

section Lists

variable {a : Asset} {index : EventIndex}

@[simp] theorem reportsOf_append (front back : List Export) :
    reportsOf a index (front ++ back) = reportsOf a index front ++ reportsOf a index back :=
  List.filterMap_append

@[simp] theorem failuresOf_append (front back : List Export) :
    failuresOf a index (front ++ back) = failuresOf a index front ++ failuresOf a index back :=
  List.filterMap_append

@[simp] theorem linksOf_append (front back : List Export) :
    linksOf a index (front ++ back) = linksOf a index front ++ linksOf a index back :=
  List.filterMap_append

/-- An export that fails has neither a report nor a link. -/
theorem lists_cons_error {e : Export} {f : Fault} (h : e.report a index = .error f)
    (rest : List Export) :
    reportsOf a index (e :: rest) = reportsOf a index rest
      ∧ failuresOf a index (e :: rest) = e.name :: failuresOf a index rest
      ∧ linksOf a index (e :: rest) = linksOf a index rest := by
  simp [reportsOf, failuresOf, linksOf, h]

theorem lists_cons_ok {e : Export} {r : Report} {link : Option EventLink}
    (h : e.report a index = .ok (r, link)) (rest : List Export) :
    reportsOf a index (e :: rest) = r :: reportsOf a index rest
      ∧ failuresOf a index (e :: rest) = failuresOf a index rest
      ∧ linksOf a index (e :: rest) = link.toList ++ linksOf a index rest := by
  cases link <;> simp [reportsOf, failuresOf, linksOf, h]

end Lists

/-- Every export has a report or fails. -/
theorem length_reportsOf_add (a : Asset) (index : EventIndex) (exports : List Export) :
    (reportsOf a index exports).length + (failuresOf a index exports).length
      = exports.length := by
  induction exports with
  | nil => rfl
  | cons e rest ih =>
    cases h : e.report a index with
    | ok result =>
      obtain ⟨hreports, hfailures, -⟩ := lists_cons_ok h rest
      rw [hreports, hfailures, List.length_cons, List.length_cons]
      omega
    | error f =>
      obtain ⟨hreports, hfailures, -⟩ := lists_cons_error h rest
      rw [hreports, hfailures, List.length_cons, List.length_cons]
      omega

/-- Stores reports in a directory, one after the other. -/
def FileTree.storeAll (t : FileTree) (target : Path) : List Report → Except Fault FileTree
  | [] => .ok t
  | r :: rest =>
    match t.store (target.child r.fileName) r.text.toUTF8 with
    | .error f => .error f
    | .ok t' => t'.storeAll target rest

theorem FileTree.storeAll_cons (t : FileTree) (target : Path) (r : Report) (rest : List Report) :
    t.storeAll target (r :: rest)
      = match t.store (target.child r.fileName) r.text.toUTF8 with
        | .error f => .error f
        | .ok t' => t'.storeAll target rest := rfl

theorem FileTree.storeAll_append (target : Path) (a b : List Report) : ∀ t : FileTree,
    t.storeAll target (a ++ b) = t.storeAll target a >>= fun t' => t'.storeAll target b := by
  induction a with
  | nil => intro t; rfl
  | cons r rest ih =>
    intro t
    rw [List.cons_append, storeAll_cons, storeAll_cons]
    cases t.store (target.child r.fileName) r.text.toUTF8 with
    | error f => rfl
    | ok t' => exact ih t'

/-! ## One list of exports -/

namespace Progress

/-- Progress after the exports of a list have been processed. -/
def settle (p : Progress) (a : Asset) (target : Path) (index : EventIndex)
    (exports : List Export) : Progress where
  summary := {
    asset := p.summary.asset
    written := p.summary.written
      ++ (reportsOf a index exports).map fun r => target.child r.fileName
    failed := p.summary.failed ++ failuresOf a index exports }
  links := p.links ++ linksOf a index exports
  graphs := p.graphs

@[simp] theorem settle_nil (p : Progress) (a : Asset) (target : Path) (index : EventIndex) :
    p.settle a target index [] = p := by
  simp [settle, reportsOf, failuresOf, linksOf]

theorem settle_cons_ok {p : Progress} {a : Asset} {target : Path} {index : EventIndex} {e : Export}
    {r : Report} {link : Option EventLink} (h : e.report a index = .ok (r, link))
    (rest : List Export) :
    p.settle a target index (e :: rest)
      = ((p.addLink link).addWritten (target.child r.fileName)).settle a target index rest := by
  obtain ⟨hreports, hfailures, hlinks⟩ := lists_cons_ok h rest
  simp [settle, hreports, hfailures, hlinks, addLink, addWritten]

theorem settle_cons_error {p : Progress} {a : Asset} {target : Path} {index : EventIndex}
    {e : Export} {f : Fault} (h : e.report a index = .error f) (rest : List Export) :
    p.settle a target index (e :: rest)
      = (p.addFailed e.name).settle a target index rest := by
  obtain ⟨hreports, hfailures, hlinks⟩ := lists_cons_error h rest
  simp [settle, hreports, hfailures, hlinks, addFailed]

/-- Sets event graphs aside. -/
def deferAll (p : Progress) (graphs : List Export) : Progress :=
  { p with graphs := p.graphs ++ graphs }

end Progress

namespace Workspace

/-- A list of exports is processed to its end just when the reports can be stored. -/
theorem processGraphs_eq (a : Asset) (target : Path) (index : EventIndex)
    (exports : List Export) : ∀ (w : Workspace) (p : Progress),
    ∃ w', w.processGraphs a target index p exports
        = (w', (w.tree.storeAll target (reportsOf a index exports)).map
            fun _ => p.settle a target index exports)
      ∧ ∀ tree, w.tree.storeAll target (reportsOf a index exports) = .ok tree →
        w'.tree = tree := by
  induction exports with
  | nil =>
    intro w p
    refine ⟨w, by rw [Progress.settle_nil]; rfl, ?_⟩
    intro tree h
    exact Except.ok.inj h
  | cons e rest ih =>
    intro w p
    cases h : e.report a index with
    | error f =>
      obtain ⟨w', hw', htree⟩ :=
        ih (w.note .error .dumper (failureText e.name a.name f)) (p.addFailed e.name)
      have hreports := (lists_cons_error h rest).1
      refine ⟨w', ?_, by rwa [hreports]⟩
      rw [hreports, Progress.settle_cons_error h, processGraphs]
      simp only [process, h]
      exact hw'
    | ok result =>
      obtain ⟨r, link⟩ := result
      have hreports := (lists_cons_ok h rest).1
      rw [hreports, Progress.settle_cons_ok h, processGraphs, FileTree.storeAll_cons]
      simp only [process, h]
      cases hstore : w.tree.store (target.child r.fileName) r.text.toUTF8 with
      | error f => exact ⟨w, rfl, fun tree htree => by simp at htree⟩
      | ok tree => exact ih _ _

/-! ## Two phases -/

/-- Setting a graph aside does not interfere with an export. -/
theorem process_defer (w : Workspace) (a : Asset) (target : Path) (index : EventIndex)
    (p : Progress) (e graph : Export) :
    w.process a target index (p.defer graph) e
      = ((w.process a target index p e).1,
          (w.process a target index p e).2.map fun p' => p'.defer graph) := by
  unfold process
  cases e.report a index with
  | error f => rfl
  | ok result =>
    obtain ⟨r, link⟩ := result
    dsimp only
    cases w.tree.store (target.child r.fileName) r.text.toUTF8 <;> rfl

theorem processGraphs_defer (a : Asset) (target : Path) (index : EventIndex) (graph : Export)
    (exports : List Export) : ∀ (w : Workspace) (p : Progress),
    w.processGraphs a target index (p.defer graph) exports
      = ((w.processGraphs a target index p exports).1,
          (w.processGraphs a target index p exports).2.map fun p' => p'.defer graph) := by
  induction exports with
  | nil => intro w p; rfl
  | cons e rest ih =>
    intro w p
    rw [processGraphs, processGraphs, process_defer]
    cases w.process a target index p e with
    | mk w' result =>
      cases result with
      | error f => rfl
      | ok p' => exact ih w' p'

/-- The first phase processes the exports that are no event graphs, and sets the event
graphs aside. -/
theorem processPlain_eq (a : Asset) (target : Path) (exports : List Export) :
    ∀ (w : Workspace) (p : Progress),
    w.processPlain a target p exports
      = ((w.processGraphs a target {} p (exports.filter fun e => !e.isGraph)).1,
          (w.processGraphs a target {} p (exports.filter fun e => !e.isGraph)).2.map
            fun p' => p'.deferAll (exports.filter Export.isGraph)) := by
  induction exports with
  | nil =>
    intro w p
    simp [processPlain, processGraphs, Progress.deferAll, Except.map]
  | cons e rest ih =>
    intro w p
    cases hgraph : e.isGraph with
    | true =>
      simp only [processPlain, hgraph, if_true, ih, processGraphs_defer, List.filter_cons,
        Bool.not_true, Bool.false_eq_true, if_false]
      cases (w.processGraphs a target {} p (rest.filter fun e => !e.isGraph)).2 with
      | error f => rfl
      | ok p' => simp [Except.map, Progress.defer, Progress.deferAll]
    | false =>
      simp only [processPlain, hgraph, Bool.false_eq_true, if_false, List.filter_cons,
        Bool.not_false, if_true, processGraphs]
      cases w.process a target {} p e with
      | mk w' result =>
        cases result with
        | error f => rfl
        | ok p' => exact ih w' p'

end Workspace

/-! ## Assets -/

namespace Asset

/-- The exports that are no event graphs. -/
def plainExports (a : Asset) : List Export :=
  a.exports.filter fun e => !e.isGraph

/-- The event graphs. -/
def graphExports (a : Asset) : List Export :=
  a.exports.filter Export.isGraph

/-- The links found in exports that are no event graphs. -/
def eventLinks (a : Asset) : List EventLink :=
  linksOf a {} a.plainExports

/-- The reports of an asset, those of event graphs with notes for the events in
`index`. -/
def reports (a : Asset) (index : EventIndex) : List Report :=
  reportsOf a {} a.plainExports ++ reportsOf a index a.graphExports

/-- The names of the exports of an asset that fail. -/
def failures (a : Asset) (index : EventIndex) : List Document :=
  failuresOf a {} a.plainExports ++ failuresOf a index a.graphExports

/-- What a dump to its end says that it has done. -/
def summary (a : Asset) (target : Path) (index : EventIndex) : DumpSummary where
  asset := a.name
  written := (a.reports index).map fun r => target.child r.fileName
  failed := a.failures index

theorem length_plainExports_add (a : Asset) :
    a.plainExports.length + a.graphExports.length = a.exports.length := by
  rw [plainExports, graphExports, ← List.countP_eq_length_filter, ← List.countP_eq_length_filter,
    List.length_eq_countP_add_countP Export.isGraph, Nat.add_comm]
  simp

/-- Every export of an asset has a report or fails. -/
theorem length_reports_add (a : Asset) (index : EventIndex) :
    (a.reports index).length + (a.failures index).length = a.exports.length := by
  have hplain := length_reportsOf_add a {} a.plainExports
  have hgraph := length_reportsOf_add a index a.graphExports
  have hall := a.length_plainExports_add
  simp only [reports, failures, List.length_append]
  omega

end Asset

namespace Workspace

/-- The first phase of a dump finds the event links. -/
theorem links_of_processPlain {w w' : Workspace} {a : Asset} {target : Path} {p : Progress}
    (h : w.processPlain a target { summary := { asset := a.name } } a.exports = (w', .ok p)) :
    p.links = a.eventLinks := by
  obtain ⟨w₁, hplain, -⟩ :=
    processGraphs_eq a target {} a.plainExports w { summary := { asset := a.name } }
  rw [processPlain_eq, ← Asset.plainExports, hplain] at h
  obtain ⟨p₁, hp₁, rfl⟩ := map_eq_ok_iff.mp (Prod.mk.inj h).2
  obtain ⟨tree, -, rfl⟩ := map_eq_ok_iff.mp hp₁
  simp [Progress.settle, Progress.deferAll, Asset.eventLinks]

/-- A dump comes to its end just when the reports can be stored. -/
theorem dumpInto_eq (w : Workspace) (a : Asset) (target : Path) {index : EventIndex}
    (hindex : EventIndex.ofLinks a.eventLinks = .ok index) :
    ∃ w', w.dumpInto a target
        = (w', (w.tree.storeAll target (a.reports index)).map fun _ => a.summary target index)
      ∧ ∀ tree, w.tree.storeAll target (a.reports index) = .ok tree → w'.tree = tree := by
  obtain ⟨w₁, hplain, htree₁⟩ :=
    processGraphs_eq a target {} a.plainExports w { summary := { asset := a.name } }
  rw [dumpInto, processPlain_eq, ← Asset.plainExports, hplain, Asset.reports,
    FileTree.storeAll_append]
  cases h₁ : w.tree.storeAll target (reportsOf a {} a.plainExports) with
  | error f => exact ⟨w₁, rfl, fun tree htree => by simp [bind, Except.bind] at htree⟩
  | ok tree₁ =>
    obtain ⟨first, hfirst⟩ : ∃ first, first =
      (({ summary := { asset := a.name } } : Progress).settle a target {} a.plainExports).deferAll
        (a.exports.filter Export.isGraph) := ⟨_, rfl⟩
    -- The index is made from the links of the first phase.
    have hlinks : first.links = a.eventLinks := by
      simp [hfirst, Progress.settle, Progress.deferAll, Asset.eventLinks]
    have hgraphs : first.graphs = a.graphExports := by
      simp [hfirst, Progress.settle, Progress.deferAll, Asset.graphExports]
    have hsummary : (first.settle a target index a.graphExports).summary
        = a.summary target index := by
      simp [hfirst, Progress.settle, Progress.deferAll, Asset.summary, Asset.reports,
        Asset.failures]
    obtain ⟨w₂, hsecond, htree₂⟩ := processGraphs_eq a target index a.graphExports w₁ first
    rw [htree₁ tree₁ h₁] at hsecond htree₂
    refine ⟨w₂, ?_, htree₂⟩
    simp only [Except.map, ← hfirst, hlinks, hindex, hgraphs, hsecond, bind, Except.bind]
    cases tree₁.storeAll target (reportsOf a index a.graphExports) with
    | error f => rfl
    | ok tree => exact congrArg (Prod.mk w₂ ∘ Except.ok) hsummary

/-- The same, with the directory of the asset made before. -/
theorem dump_eq {w w₁ : Workspace} {a : Asset} {out : Path} {name : String} {index : EventIndex}
    (hname : a.name = .text name) (hdir : w.makeDirectories (out.child name) = (w₁, .ok ()))
    (hindex : EventIndex.ofLinks a.eventLinks = .ok index) :
    ∃ w', w.dump a out
        = (w', (w₁.tree.storeAll (out.child name) (a.reports index)).map
            fun _ => a.summary (out.child name) index)
      ∧ ∀ tree, w₁.tree.storeAll (out.child name) (a.reports index) = .ok tree →
        w'.tree = tree := by
  simp only [dump, hname, hdir]
  exact dumpInto_eq (w₁.note .info .dumper a.path.display) a (out.child name) hindex

end Workspace

end Kismet
