import Kismet.Proofs.Catalog
import Kismet.Proofs.Cutting
set_option autoImplicit false

/-!
# Index: which document an asset path stands for

The asset path of a document is its path with another suffix.  A suffix is never the whole of a
name, so the name `.json` keeps what looks like one, and gets the asset path of `.json.json`.
`Catalog.assetPath_eq_iff` says that no other two entries of a directory have one asset path, and
`Catalog.find?_ofDocuments` that of several the last one is found.  From this the catalog of a
tree is described against the tree itself: `Catalog.ofTree_indexes`.
-/

namespace Kismet

/-! ## Suffixes -/

namespace Text

theorem beforeLast?_eq_none {c : Char} {cs : List Char} (h : c ∉ cs) :
    beforeLast? [c] cs = none := by
  induction cs with
  | nil => rfl
  | cons d rest ih =>
    rw [List.mem_cons, not_or] at h
    simp [beforeLast?, ih h.2, h.1]

theorem beforeLast?_append {c : Char} {rest : List Char} (h : c ∉ rest) (front : List Char) :
    beforeLast? [c] (front ++ c :: rest) = some front := by
  induction front with
  | nil => simp [beforeLast?, beforeLast?_eq_none h]
  | cons d front ih => simp [beforeLast?, ih]

end Text

namespace Catalog

/-- The ending of a document is the suffix of its name, unless it is the whole name. -/
theorem stemOf_document (stem : String) :
    Path.stemOf (stem ++ documentSuffix) = if stem = "" then documentSuffix else stem := by
  have hchars : (stem ++ documentSuffix).toList = stem.toList ++ '.' :: ['j', 's', 'o', 'n'] := by
    simp [documentSuffix]
  have hlast : Text.beforeLast? ['.'] (stem ++ documentSuffix).toList = some stem.toList := by
    rw [hchars, Text.beforeLast?_append (by simp)]
  have hlength : (stem ++ documentSuffix).toList.length = stem.toList.length + 5 := by simp [hchars]
  rw [Path.stemOf, Path.suffixStart?, hlast]
  dsimp only
  by_cases hstem : stem = ""
  · subst hstem
    rfl
  · have hpos : 0 < stem.toList.length := by
      rw [List.length_pos_iff]
      simpa using hstem
    rw [if_pos ⟨hpos, by omega⟩, if_neg hstem, hchars]
    dsimp only
    rw [List.take_left, String.ofList_toList]

theorem isDocumentName_iff (name : String) :
    isDocumentName name = true ↔ ∃ stem, name = stem ++ documentSuffix := by
  rw [isDocumentName, List.isSuffixOf_iff_suffix]
  constructor
  · rintro ⟨front, hfront⟩
    exact ⟨String.ofList front, by rw [← String.toList_inj, ← hfront]; simp⟩
  · rintro ⟨stem, rfl⟩
    exact ⟨stem.toList, by simp⟩

/-- Which names of documents differ in their suffix only. -/
theorem stemOf_eq_iff {name name' : String} (h : isDocumentName name = true)
    (h' : isDocumentName name' = true) :
    Path.stemOf name = Path.stemOf name' ↔ name = name'
      ∨ name = ".json.json" ∧ name' = ".json" ∨ name' = ".json.json" ∧ name = ".json" := by
  obtain ⟨stem, rfl⟩ := (isDocumentName_iff name).mp h
  obtain ⟨stem', rfl⟩ := (isDocumentName_iff name').mp h'
  have hshort (s : String) : s ++ documentSuffix = ".json" ↔ s = "" := by
    rw [show ".json" = "" ++ documentSuffix from rfl, String.append_left_inj]
  have hlong (s : String) : s ++ documentSuffix = ".json.json" ↔ s = documentSuffix := by
    rw [show ".json.json" = documentSuffix ++ documentSuffix from rfl, String.append_left_inj]
  rw [stemOf_document, stemOf_document, hshort, hshort, hlong, hlong, String.append_left_inj]
  by_cases hstem : stem = "" <;> by_cases hstem' : stem' = ""
  · simp [hstem, hstem']
  · simp [hstem, hstem', eq_comm]
  · simp [hstem, hstem']
  · simp [hstem, hstem']

/-! ## Asset paths -/

/-- The first document has the asset path of the second, which stands beside it. -/
def Hides (d d' : Location) : Prop :=
  ∃ dir, d = dir ++ [".json.json"] ∧ d' = dir ++ [".json"]

theorem hides_append_iff (dir dir' : Location) (name name' : String) :
    Hides (dir ++ [name]) (dir' ++ [name'])
      ↔ dir = dir' ∧ name = ".json.json" ∧ name' = ".json" := by
  constructor
  · rintro ⟨here, hlong, hshort⟩
    obtain ⟨rfl, hname⟩ := List.append_inj' hlong rfl
    obtain ⟨rfl, hname'⟩ := List.append_inj' hshort rfl
    exact ⟨rfl, List.singleton_inj.mp hname, List.singleton_inj.mp hname'⟩
  · rintro ⟨rfl, rfl, rfl⟩
    exact ⟨dir, rfl, rfl⟩

/-- A document that hides another one is not hidden. -/
theorem Hides.not_hidden {d d' d'' : Location} (h : Hides d d') : ¬Hides d'' d := by
  obtain ⟨dir, rfl, -⟩ := h
  rintro ⟨dir', -, hlast⟩
  simpa using (List.append_inj' hlast rfl).2

theorem not_precedes_of_hides {d d' : Location} (h : Hides d d') : precedes d d' = false := by
  obtain ⟨dir, rfl, rfl⟩ := h
  induction dir with
  | nil => decide +kernel
  | cons x dir ih => simpa [precedes] using ih

theorem assetPath_append (dir : Location) (name : String) :
    assetPath (dir ++ [name]) = "/".intercalate (dir ++ [Path.stemOf name ++ assetSuffix]) := by
  simp [assetPath, Path.withSuffix, Path.name, Path.display]

theorem mem_of_mem_stemOf {name : String} {c : Char} (h : c ∈ (Path.stemOf name).toList) :
    c ∈ name.toList := by
  unfold Path.stemOf at h
  split at h
  · rw [String.toList_ofList] at h
    exact List.mem_of_mem_take h
  · exact h

/-- The names on the way to an asset have no slash in them. -/
theorem slash_not_mem {dir : Location} {name : String}
    (h : ∀ s ∈ dir ++ [name], '/' ∉ s.toList) :
    ∀ s ∈ dir ++ [Path.stemOf name ++ assetSuffix], '/' ∉ s.toList := by
  intro s hs
  rcases List.mem_append.mp hs with hs | hs
  · exact h s (by simp [hs])
  · rw [List.mem_singleton.mp hs, String.toList_append, List.mem_append, not_or]
    exact ⟨fun hc => h name (by simp) (mem_of_mem_stemOf hc), by decide⟩

/-- Documents have one asset path only if one hides the other. -/
theorem assetPath_eq_iff {dir dir' : Location} {name name' : String}
    (h : ∀ s ∈ dir ++ [name], '/' ∉ s.toList) (h' : ∀ s ∈ dir' ++ [name'], '/' ∉ s.toList)
    (hname : isDocumentName name = true) (hname' : isDocumentName name' = true) :
    assetPath (dir ++ [name]) = assetPath (dir' ++ [name'])
      ↔ dir ++ [name] = dir' ++ [name'] ∨ Hides (dir ++ [name]) (dir' ++ [name'])
        ∨ Hides (dir' ++ [name']) (dir ++ [name]) := by
  have hsegments : assetPath (dir ++ [name]) = assetPath (dir' ++ [name'])
      ↔ dir = dir' ∧ Path.stemOf name = Path.stemOf name' := by
    rw [assetPath_append, assetPath_append]
    constructor
    · intro htext
      have hcut := congrArg (Text.cut '/') htext
      rw [show ("/" : String) = String.singleton '/' from rfl,
        Text.cut_intercalate (slash_not_mem h) (by simp),
        Text.cut_intercalate (slash_not_mem h') (by simp)] at hcut
      obtain ⟨hdir, hlast⟩ := List.append_inj' hcut rfl
      exact ⟨hdir, String.append_left_inj _ |>.mp (List.singleton_inj.mp hlast)⟩
    · rintro ⟨rfl, hstem⟩
      rw [hstem]
  have hplaces : dir ++ [name] = dir' ++ [name'] ↔ dir = dir' ∧ name = name' := by
    simp
  rw [hsegments, stemOf_eq_iff hname hname', hplaces, hides_append_iff, hides_append_iff,
    eq_comm (a := dir') (b := dir), and_or_left, and_or_left]

/-! ## Documents in a tree -/

/-- What loading makes of an entry. -/
def loadNode (path : String) : FileTree.Node → List Log.Entry × Except Fault Asset
  | .directory => ([], .error .isDirectory)
  | .file content =>
    match textOf content with
    | .error f => ([], .error f)
    | .ok s =>
      match Document.parse s with
      | .error f => ([], .error f)
      | .ok d => Asset.decode d path

section Tree

variable {t : FileTree} {root : Path} {base d d' : Location}

/-- Loading reads the entry at the place of the document that is found. -/
theorem load_eq_loadNode (wf : t.WellFormed) (hroot : t.resolve root = .ok base) {c : Catalog}
    {path : String} {n : FileTree.Node} (hlimits : c.limits = {}) (hd : IsDocument t base d)
    (hfind : c.find? path = some (root.join ⟨"", d⟩)) (hn : t.node? (base ++ d) = some n) :
    c.load t path = loadNode path n := by
  obtain ⟨e, he, hplace⟩ := hd.exists_entry
  have hresolve := wf.resolve_join hroot he hplace
  rw [load, hfind, hlimits]
  simp only [readDocument, FileTree.contentAt, hresolve, hn]
  cases n with
  | directory => rfl
  | file content =>
    simp only [loadNode]
    cases textOf content with
    | error f => rfl
    | ok s => rfl

namespace IsDocument

theorem slash_not_mem (wf : t.WellFormed) (h : IsDocument t base d) :
    ∀ s ∈ d, '/' ∉ s.toList := by
  intro s hs hslash
  obtain ⟨e, he, hplace⟩ := h.exists_entry
  exact Path.ne_slash_of_isName (wf.names e he s (by simp [hplace, hs])) hslash rfl

/-- Which documents of a tree have one asset path. -/
theorem assetPath_eq_iff (wf : t.WellFormed) (h : IsDocument t base d)
    (h' : IsDocument t base d') :
    assetPath d = assetPath d' ↔ d = d' ∨ Hides d d' ∨ Hides d' d := by
  have hslash := h.slash_not_mem wf
  have hslash' := h'.slash_not_mem wf
  obtain ⟨-, dir, name, rfl, hname⟩ := h
  obtain ⟨-, dir', name', rfl, hname'⟩ := h'
  exact Catalog.assetPath_eq_iff hslash hslash' hname hname'

/-- A document that no other one hides is found under its asset path. -/
theorem find?_eq (wf : t.WellFormed) (h : IsDocument t base d)
    (hvisible : ∀ d', IsDocument t base d' → ¬Hides d' d) :
    (ofDocuments root (documentsBelow t base)).find? (assetPath d)
      = some (root.join ⟨"", d⟩) := by
  have hmem : d ∈ (documentsBelow t base).reverse := by
    rw [List.mem_reverse, mem_documentsBelow_iff]
    exact h
  rw [find?_ofDocuments]
  cases hfind : (documentsBelow t base).reverse.find? fun d' => assetPath d' == assetPath d with
  | none => simpa using List.find?_eq_none.mp hfind d hmem
  | some found =>
    obtain ⟨hpath, front, back, hsplit, hfront⟩ := List.find?_eq_some_iff_append.mp hfind
    have hfound : IsDocument t base found := by
      rw [← mem_documentsBelow_iff, ← List.mem_reverse, hsplit]
      simp
    rcases (hfound.assetPath_eq_iff wf h).mp (by simpa using hpath) with rfl | hhides | hhides
    · rfl
    · exact absurd hhides (hvisible found hfound)
    · -- the document hides the one that was found, so it stands behind it
      have horder : (documentsBelow t base).reverse.Pairwise fun a b => precedes b a = true :=
        List.pairwise_reverse.mpr (pairwise_documentsBelow t base)
      rw [hsplit] at horder hmem
      have hback : d ∈ back := by
        rcases List.mem_append.mp hmem with hd | hd
        · simpa using hfront d hd
        · rcases List.mem_cons.mp hd with rfl | hd
          · exact absurd hhides hhides.not_hidden
          · exact hd
      have hprecedes := List.rel_of_pairwise_cons (List.pairwise_append.mp horder).2.1 hback
      simp [not_precedes_of_hides hhides] at hprecedes

end IsDocument

/-- The catalog of a directory lists the asset paths of the documents below it, each once and in
order, and nothing else can be loaded.  Two documents have one asset path if and only if they are
named `.json` and `.json.json` and stand in one directory, and then the second is loaded.  Where
there is no such pair, every path stands for one document, and loading it reads that document. -/
theorem ofTree_indexes (wf : t.WellFormed) (hroot : t.resolve root = .ok base)
    (hbase : t.node? base = some .directory) :
    ∃ c, ofTree t root = .ok c
      ∧ (∀ d d', IsDocument t base d → IsDocument t base d' → d ≠ d' →
        (assetPath d = assetPath d' ↔ Hides d d' ∨ Hides d' d))
      ∧ (∀ d d' n, IsDocument t base d → IsDocument t base d' → Hides d d' →
        t.node? (base ++ d) = some n → c.load t (assetPath d') = loadNode (assetPath d') n)
      ∧ c.paths.Pairwise (· < ·)
      ∧ (∀ path, path ∈ c.paths ↔ ∃ d, IsDocument t base d ∧ assetPath d = path)
      ∧ (∀ path, path ∉ c.paths → c.load t path = ([], .error (.missingKey path)))
      ∧ ((∀ d d', IsDocument t base d → IsDocument t base d' → ¬Hides d d') →
        (∀ path ∈ c.paths, ∃! d, IsDocument t base d ∧ assetPath d = path)
        ∧ ∀ d n, IsDocument t base d → t.node? (base ++ d) = some n →
          c.load t (assetPath d) = loadNode (assetPath d) n) := by
  have hdirectory : t.isDirectory root = true := by simp [FileTree.isDirectory, hroot, hbase]
  have hmem (path : String) : path ∈ (ofDocuments root (documentsBelow t base)).paths
      ↔ ∃ d, IsDocument t base d ∧ assetPath d = path := by
    rw [mem_paths_iff, find?_ofDocuments, ← Option.isSome_iff_exists, Option.isSome_map,
      List.find?_isSome]
    simp [mem_documentsBelow_iff]
  have hc : ofTree t root = .ok { ofDocuments root (documentsBelow t base) with limits := {} } := by
    rw [ofTree, if_pos hdirectory, hroot]
  refine ⟨_, hc, fun d d' hd hd' hne => ?_,
    fun d d' n hd hd' hhides hn => ?_, pairwise_paths (nodup_ofDocuments root _), hmem,
    fun path hpath => load_eq_missing hpath t,
    fun hnone => ⟨fun path hpath => ?_, fun d n hd hn => ?_⟩⟩
  · rw [hd.assetPath_eq_iff wf hd']
    simp [hne]
  · have hpath : assetPath d' = assetPath d := (hd'.assetPath_eq_iff wf hd).mpr (.inr (.inr hhides))
    rw [hpath]
    exact load_eq_loadNode wf hroot rfl hd (hd.find?_eq wf fun _ _ => hhides.not_hidden) hn
  · obtain ⟨d, hd, rfl⟩ := (hmem path).mp hpath
    refine ⟨d, ⟨hd, rfl⟩, ?_⟩
    rintro d' ⟨hd', hsame⟩
    rcases (hd'.assetPath_eq_iff wf hd).mp hsame with heq | hhides | hhides
    · exact heq
    · exact absurd hhides (hnone d' d hd' hd)
    · exact absurd hhides (hnone d d' hd hd')
  · exact load_eq_loadNode wf hroot rfl hd (hd.find?_eq wf fun d' hd' => hnone d' d hd' hd) hn

end Tree

/-- A directory with two files in it. -/
def sampleShelf (first second : String) : FileTree where
  workingDirectory := []
  nodes := [(["assets"], .directory), (["assets", first], .file ⟨#[]⟩),
    (["assets", second], .file ⟨#[0x30]⟩)]

theorem wellFormed_sampleShelf {first second : String} (hfirst : Path.isName first = true)
    (hsecond : Path.isName second = true) : (sampleShelf first second).WellFormed where
  names e he name hname := by
    have hassets : Path.isName "assets" = true := by decide
    simp only [sampleShelf, List.mem_cons, List.not_mem_nil, or_false] at he
    rcases he with rfl | rfl | rfl <;>
      simp only [List.mem_cons, List.not_mem_nil, or_false] at hname <;>
      rcases hname with rfl | rfl <;> assumption
  parents e he k hk := by
    simp only [sampleShelf, List.mem_cons, List.not_mem_nil, or_false] at he
    have hsmall : k = 0 ∨ k = 1 := by
      rcases he with rfl | rfl | rfl <;> dsimp only [List.length] at hk <;> omega
    rcases he with rfl | rfl | rfl <;> rcases hsmall with rfl | rfl <;> rfl

theorem resolve_sampleShelf (first second : String) :
    (sampleShelf first second).resolve ⟨"", ["assets"]⟩ = .ok ["assets"] := rfl

theorem name_of_isDocument_sampleShelf {first second name : String} {dir : Location}
    (h : IsDocument (sampleShelf first second) ["assets"] (dir ++ [name])) :
    name = first ∨ name = second := by
  obtain ⟨e, he, hplace⟩ := h.exists_entry
  have hlast : e.1.getLast? = some name := by
    rw [hplace, ← List.append_assoc, List.getLast?_concat]
  have hlength : 2 ≤ e.1.length := by
    rw [hplace]
    simp
  simp only [sampleShelf, List.mem_cons, List.not_mem_nil, or_false] at he
  rcases he with rfl | rfl | rfl
  · simp at hlength
  · exact .inl (Option.some.inj hlast).symm
  · exact .inr (Option.some.inj hlast).symm

/-- Of two documents with one asset path the second is loaded, and of two with different ones
each. -/
theorem ofTree_indexes_shelves :
    (∃ c, ofTree (sampleShelf ".json" ".json.json") ⟨"", ["assets"]⟩ = .ok c
      ∧ c.load (sampleShelf ".json" ".json.json") ".json.uasset"
        = loadNode ".json.uasset" (.file ⟨#[0x30]⟩))
    ∧ ∃ c, ofTree (sampleShelf ".json" "A.B.json") ⟨"", ["assets"]⟩ = .ok c
      ∧ c.load (sampleShelf ".json" "A.B.json") ".json.uasset"
        = loadNode ".json.uasset" (.file ⟨#[]⟩)
      ∧ c.load (sampleShelf ".json" "A.B.json") "A.B.uasset"
        = loadNode "A.B.uasset" (.file ⟨#[0x30]⟩) := by
  have hshort : isDocumentName ".json" = true := by decide +kernel
  have hlong : isDocumentName ".json.json" = true := by decide +kernel
  have hother : isDocumentName "A.B.json" = true := by decide +kernel
  have hpath : assetPath [".json"] = ".json.uasset" := by decide +kernel
  have hpath' : assetPath ["A.B.json"] = "A.B.uasset" := by decide +kernel
  constructor
  · obtain ⟨c, hc, -, hload, -⟩ :=
      ofTree_indexes (wellFormed_sampleShelf (by decide) (by decide))
        (resolve_sampleShelf ".json" ".json.json") rfl
    have hhides := hload [".json.json"] [".json"] _ ⟨⟨_, rfl⟩, [], _, rfl, hlong⟩
      ⟨⟨_, rfl⟩, [], _, rfl, hshort⟩ ⟨[], rfl, rfl⟩ rfl
    exact ⟨c, hc, hpath ▸ hhides⟩
  · obtain ⟨c, hc, -, -, -, -, -, hload⟩ :=
      ofTree_indexes (wellFormed_sampleShelf (by decide) (by decide))
        (resolve_sampleShelf ".json" "A.B.json") rfl
    have hnone : ∀ d d', IsDocument (sampleShelf ".json" "A.B.json") ["assets"] d →
        IsDocument (sampleShelf ".json" "A.B.json") ["assets"] d' → ¬Hides d d' := by
      rintro d d' hd hd' ⟨dir, rfl, rfl⟩
      rcases name_of_isDocument_sampleShelf hd with hname | hname
      · simp at hname
      · simp at hname
    have hfirst := (hload hnone).2 [".json"] _ ⟨⟨_, rfl⟩, [], _, rfl, hshort⟩ rfl
    have hsecond := (hload hnone).2 ["A.B.json"] _ ⟨⟨_, rfl⟩, [], _, rfl, hother⟩ rfl
    exact ⟨c, hc, hpath ▸ hfirst, hpath' ▸ hsecond⟩

end Catalog

end Kismet
