import Kismet.Proofs.Link
set_option autoImplicit false

/-!
# Isolation: exports do not disturb each other

The report of an export depends on the export, on the name and the encoding of its
asset, and, for an event graph, on which event continues at which offset.  So an
export that fails leaves the others alone, and so does the order of the exports as
long as no two events continue at the same offset.  `dump_isolation` says this of
whole dumps.
-/

namespace Kismet

/-! ## Indexes -/

/-- The event continues at the offset. -/
def EventLink.continuesAt (link : EventLink) (n : Int) : Bool :=
  match link.offset with
  | .ok m => m == n
  | .error _ => false

theorem EventLink.offset_of_continuesAt {link : EventLink} {n : Int}
    (h : link.continuesAt n = true) : link.offset = .ok n := by
  unfold continuesAt at h
  split at h
  · rename_i m hm
    rw [hm, eq_of_beq h]
  · simp at h

namespace EventIndex

theorem find?_insert (index : EventIndex) (offset : Int) (link : EventLink) (n : Int) :
    (index.insert offset link).find? n = if offset = n then some link else index.find? n := by
  by_cases h : offset = n
  · simp [find?, insert, h]
  · have hfilter : (index.entries.filter fun e => e.1 != offset).find? (fun e => e.1 == n)
        = index.entries.find? fun e => e.1 == n := by
      rw [List.find?_filter]
      congr 1
      funext e
      by_cases he : e.1 = n
      · simp [he, Ne.symm h]
      · simp [he]
    simp [find?, insert, h, hfilter]

/-- Of the links to one offset the last one counts. -/
theorem find?_insertAll {links : List EventLink} : ∀ {index index' : EventIndex},
    index.insertAll links = .ok index' → ∀ n,
    index'.find? n = ((links.filter (·.continuesAt n)).getLast?).or (index.find? n) := by
  induction links with
  | nil =>
    intro index index' h n
    obtain rfl := Except.ok.inj h
    rfl
  | cons link rest ih =>
    intro index index' h n
    cases hoffset : link.offset with
    | error f => simp [insertAll, hoffset] at h
    | ok m =>
      simp only [insertAll, hoffset] at h
      rw [ih h n, find?_insert, List.filter_cons]
      by_cases hm : m = n
      · have hlink : link.continuesAt n = true := by simp [EventLink.continuesAt, hoffset, hm]
        rw [if_pos hm, if_pos hlink, List.getLast?_cons]
        cases (rest.filter (·.continuesAt n)).getLast? <;> rfl
      · have hlink : ¬link.continuesAt n = true := by simp [EventLink.continuesAt, hoffset, hm]
        rw [if_neg hm, if_neg hlink]

theorem find?_ofLinks {links : List EventLink} {index : EventIndex}
    (h : ofLinks links = .ok index) (n : Int) :
    index.find? n = (links.filter (·.continuesAt n)).getLast? := by
  rw [find?_insertAll h n]
  exact Option.or_none

/-- Where no two events continue at the same offset, at most one continues at any. -/
theorem length_filter_continuesAt {links : List EventLink}
    (h : links.Pairwise fun x y => x.offset ≠ y.offset) (n : Int) :
    (links.filter (·.continuesAt n)).length ≤ 1 := by
  have hpair := h.filter (·.continuesAt n)
  have hall : ∀ x ∈ links.filter (·.continuesAt n), x.offset = .ok n := fun x hx =>
    EventLink.offset_of_continuesAt (List.mem_filter.mp hx).2
  generalize links.filter (·.continuesAt n) = found at hpair hall ⊢
  match found with
  | [] => simp
  | [_] => simp
  | x :: y :: rest =>
    have hne := (List.pairwise_cons.mp hpair).1 y (by simp)
    exact absurd ((hall x (by simp)).trans (hall y (by simp)).symm) hne

/-- Where no two events continue at the same offset, the order of the links does not
matter. -/
theorem find?_eq_of_perm {links links' : List EventLink} {index index' : EventIndex}
    (hperm : links'.Perm links) (hdistinct : links.Pairwise fun x y => x.offset ≠ y.offset)
    (h : ofLinks links = .ok index) (h' : ofLinks links' = .ok index') :
    index'.find? = index.find? := by
  funext n
  rw [find?_ofLinks h, find?_ofLinks h']
  have hfilter := hperm.filter (·.continuesAt n)
  have hlength := length_filter_continuesAt hdistinct n
  generalize links.filter (·.continuesAt n) = found at hfilter hlength ⊢
  match found with
  | [] => rw [hfilter.eq_nil]
  | [x] => rw [List.perm_singleton.mp hfilter]
  | x :: y :: rest => simp at hlength

end EventIndex

/-! ## Reports -/

/-- An index matters for a report only by which event continues where. -/
theorem Export.report_congr {index index' : EventIndex} (h : index'.find? = index.find?)
    (e : Export) (a : Asset) : e.report a index' = e.report a index := by
  cases e with
  | generatedClass c => rfl
  | function f => simp only [report, FunctionExport.report, FunctionExport.disassemble, h]

namespace Asset

/-- The asset with other exports. -/
def withExports (a : Asset) (exports : List Export) : Asset :=
  { a with exports }

theorem exports_withExports (a : Asset) (exports : List Export) :
    (a.withExports exports).exports = exports := rfl

/-- The other exports do not matter for a report. -/
theorem report_withExports (a : Asset) (exports : List Export) (e : Export)
    (index : EventIndex) : e.report (a.withExports exports) index = e.report a index := by
  cases e <;> rfl

@[simp] theorem reportsOf_withExports (a : Asset) (exports : List Export) :
    reportsOf (a.withExports exports) = reportsOf a := by
  funext index es
  simp only [reportsOf, report_withExports]

@[simp] theorem failuresOf_withExports (a : Asset) (exports : List Export) :
    failuresOf (a.withExports exports) = failuresOf a := by
  funext index es
  simp only [failuresOf, report_withExports]

@[simp] theorem linksOf_withExports (a : Asset) (exports : List Export) :
    linksOf (a.withExports exports) = linksOf a := by
  funext index es
  simp only [linksOf, report_withExports]

/-! ## Exports that fail -/

/-- An export that fails has no link, and without it the other reports and failures
are the same. -/
theorem without_failing {a : Asset} {front back : List Export} {e : Export} {index : EventIndex}
    {f : Fault} (hexports : a.exports = front ++ e :: back)
    (hfail : e.report a (if e.isGraph then index else {}) = .error f) :
    (a.withExports (front ++ back)).eventLinks = a.eventLinks
      ∧ (a.withExports (front ++ back)).reports index = a.reports index
      ∧ (a.failures index).Perm (e.name :: (a.withExports (front ++ back)).failures index) := by
  cases hgraph : e.isGraph with
  | false =>
    simp only [hgraph, Bool.false_eq_true, if_false] at hfail
    obtain ⟨hreports, hfailures, hlinks⟩ := lists_cons_error hfail (back.filter fun e => !e.isGraph)
    refine ⟨?_, ?_, ?_⟩
    · simp [eventLinks, plainExports, exports_withExports, hexports, hgraph, hlinks]
    · simp [reports, plainExports, graphExports, exports_withExports, hexports, hgraph, hreports]
    · simp [failures, plainExports, graphExports, exports_withExports, hexports, hgraph, hfailures]
  | true =>
    simp only [hgraph, if_true] at hfail
    obtain ⟨hreports, hfailures, -⟩ := lists_cons_error hfail (back.filter Export.isGraph)
    refine ⟨?_, ?_, ?_⟩
    · simp [eventLinks, plainExports, exports_withExports, hexports, hgraph]
    · simp [reports, plainExports, graphExports, exports_withExports, hexports, hgraph, hreports]
    · have hmiddle := @List.perm_middle _ e.name
        (failuresOf a {} ((front ++ back).filter fun e => !e.isGraph)
          ++ failuresOf a index (front.filter Export.isGraph))
        (failuresOf a index (back.filter Export.isGraph))
      simpa [failures, plainExports, graphExports, exports_withExports, hexports, hgraph,
        hfailures] using hmiddle

/-- An event graph has no say in the links. -/
theorem eventLinks_without_graph {a : Asset} {front back : List Export} {e : Export}
    (hexports : a.exports = front ++ e :: back) (hgraph : e.isGraph = true) :
    (a.withExports (front ++ back)).eventLinks = a.eventLinks := by
  simp [eventLinks, plainExports, exports_withExports, hexports, hgraph]

/-! ## Exports in another order -/

theorem eventLinks_perm {a : Asset} {exports : List Export} (h : exports.Perm a.exports) :
    (a.withExports exports).eventLinks.Perm a.eventLinks := by
  rw [eventLinks, linksOf_withExports]
  exact (h.filter _).filterMap _

theorem reports_perm {a : Asset} {exports : List Export} {index index' : EventIndex}
    (h : exports.Perm a.exports) (hindex : index'.find? = index.find?) :
    ((a.withExports exports).reports index').Perm (a.reports index) := by
  have hgraphs : reportsOf a index' = reportsOf a index := by
    funext es
    simp only [reportsOf, Export.report_congr hindex]
  rw [reports, reportsOf_withExports, hgraphs]
  exact ((h.filter _).filterMap _).append ((h.filter _).filterMap _)

theorem failures_perm {a : Asset} {exports : List Export} {index index' : EventIndex}
    (h : exports.Perm a.exports) (hindex : index'.find? = index.find?) :
    ((a.withExports exports).failures index').Perm (a.failures index) := by
  have hgraphs : failuresOf a index' = failuresOf a index := by
    funext es
    simp only [failuresOf, Export.report_congr hindex]
  rw [failures, failuresOf_withExports, hgraphs]
  exact ((h.filter _).filterMap _).append ((h.filter _).filterMap _)

end Asset

/-! ## Dumps -/

/-- Exports do not disturb each other in a dump whose directory can be made and whose
reports can be stored.  What is stored are the reports of the exports that are no
event graphs, and those of the event graphs with all links found in the former; all
other exports are named as failures.  A report does not depend on the other exports.
An export that fails leaves the links, the reports and the other failures as they
are, and so does any event graph with the links.  And if no two events continue at
the same offset, the order of the exports does not matter. -/
theorem dump_isolation (a : Asset) :
    ∃ index, EventIndex.ofLinks a.eventLinks = .ok index
      ∧ (∀ (w w₁ : Workspace) (out : Path) (name : String) (tree : FileTree),
          a.name = .text name → w.makeDirectories (out.child name) = (w₁, .ok ()) →
          w₁.tree.storeAll (out.child name) (a.reports index) = .ok tree →
          ∃ log, w.dump a out = (⟨tree, log⟩, .ok (a.summary (out.child name) index))
            ∧ (a.summary (out.child name) index).written.length
                + (a.summary (out.child name) index).failed.length = a.exports.length)
      ∧ (∀ (exports : List Export) (e : Export) (i : EventIndex),
          e.report (a.withExports exports) i = e.report a i)
      ∧ (∀ (front back : List Export) (e : Export) (f : Fault), a.exports = front ++ e :: back →
          e.report a (if e.isGraph then index else {}) = .error f →
          (a.withExports (front ++ back)).eventLinks = a.eventLinks
            ∧ (a.withExports (front ++ back)).reports index = a.reports index
            ∧ (a.failures index).Perm
                (e.name :: (a.withExports (front ++ back)).failures index))
      ∧ (∀ (front back : List Export) (e : Export), a.exports = front ++ e :: back →
          e.isGraph = true → (a.withExports (front ++ back)).eventLinks = a.eventLinks)
      ∧ ∀ exports : List Export, exports.Perm a.exports →
          a.eventLinks.Pairwise (fun x y => x.offset ≠ y.offset) →
          ∃ index', EventIndex.ofLinks (a.withExports exports).eventLinks = .ok index'
            ∧ ((a.withExports exports).reports index').Perm (a.reports index)
            ∧ ((a.withExports exports).failures index').Perm (a.failures index) := by
  obtain ⟨index, hindex⟩ := a.exists_index
  refine ⟨index, hindex, ?_, a.report_withExports, fun _ _ _ _ => Asset.without_failing,
    fun _ _ _ => Asset.eventLinks_without_graph, ?_⟩
  · intro w w₁ out name tree hname hdir htree
    obtain ⟨w', hdump, hw'⟩ := Workspace.dump_eq hname hdir hindex
    rw [htree] at hdump
    obtain rfl := hw' tree htree
    refine ⟨w'.log, hdump, ?_⟩
    rw [Asset.summary, List.length_map]
    exact a.length_reports_add index
  · intro exports hperm hdistinct
    obtain ⟨index', hindex'⟩ := (a.withExports exports).exists_index
    have hfind := EventIndex.find?_eq_of_perm (Asset.eventLinks_perm hperm) hdistinct hindex hindex'
    exact ⟨index', hindex', Asset.reports_perm hperm hfind, Asset.failures_perm hperm hfind⟩

/-- An asset with an event graph, a function that was not loaded, and the stub of an
event that continues at the start of the graph. -/
def sampleDoor : Asset where
  name := .text "Door"
  path := .text "Door.uasset"
  encoding := {}
  exports := [
    .function ⟨.text "Graph", .number 0x8000, [], some [.mk (.code 0x0B) .marker]⟩,
    .function ⟨.text "Open", .number 0, [], none⟩,
    .function ⟨.text "Tick", .number 0x800, [], some [EventLink.stub (.int 0)]⟩]

/-- The index of its events. -/
def sampleDoorIndex : EventIndex := ⟨[(0, ⟨.text "Tick", EventLink.stub (.int 0)⟩)]⟩

/-- The directory of its reports. -/
def sampleDoorTarget : Path := (Path.ofText "out").child "Door"

/-- The dump of the sample in an empty file tree: the function that was not loaded
fails, and in another order the reports and the failure are the same. -/
theorem dump_isolation_door :
    ∃ w₁ tree log,
      ({ tree := ⟨[], []⟩ } : Workspace).makeDirectories sampleDoorTarget = (w₁, .ok ())
      ∧ w₁.tree.storeAll sampleDoorTarget (sampleDoor.reports sampleDoorIndex) = .ok tree
      ∧ ({ tree := ⟨[], []⟩ } : Workspace).dump sampleDoor (Path.ofText "out")
          = (⟨tree, log⟩, .ok (sampleDoor.summary sampleDoorTarget sampleDoorIndex))
      ∧ sampleDoor.failures sampleDoorIndex = [.text "Open"]
      ∧ ∃ index, EventIndex.ofLinks
            (sampleDoor.withExports sampleDoor.exports.reverse).eventLinks = .ok index
          ∧ ((sampleDoor.withExports sampleDoor.exports.reverse).reports index).Perm
              (sampleDoor.reports sampleDoorIndex)
          ∧ ((sampleDoor.withExports sampleDoor.exports.reverse).failures index).Perm
              (sampleDoor.failures sampleDoorIndex) := by
  have hlinks : EventIndex.ofLinks sampleDoor.eventLinks = .ok sampleDoorIndex := rfl
  obtain ⟨index, hindex, hdump, -, -, -, horder⟩ := dump_isolation sampleDoor
  obtain rfl := Except.ok.inj (hindex.symm.trans hlinks)
  have hdir : ∃ w₁, ({ tree := ⟨[], []⟩ } : Workspace).makeDirectories sampleDoorTarget
      = (w₁, .ok ()) ∧ ∃ tree,
        w₁.tree.storeAll sampleDoorTarget (sampleDoor.reports sampleDoorIndex) = .ok tree :=
    ⟨_, rfl, _, rfl⟩
  obtain ⟨w₁, hdir, tree, htree⟩ := hdir
  obtain ⟨log, hlog, -⟩ := hdump _ _ (Path.ofText "out") "Door" _ rfl hdir htree
  refine ⟨w₁, tree, log, hdir, htree, hlog, rfl, ?_⟩
  exact horder _ (List.reverse_perm _) (List.pairwise_singleton _ _)

end Kismet
