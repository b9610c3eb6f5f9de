import Kismet.Catalog
import Kismet.Proofs.FileTree
import Mathlib.Data.List.Induction
import Mathlib.Data.String.Basic
set_option autoImplicit false

/-!
# Catalog: what a catalog holds

A catalog is made by adding documents one after the other, so of several with one asset path the
last one is found, `find?_ofDocuments`.  The documents come from a tree: they are the entries
that stand below a directory under the name of a document, `mem_documentsBelow_iff`, in the order
of their places.
-/

namespace Kismet.Catalog

/-! ## Lookup -/

theorem find?_insert (c : Catalog) (path : String) (document : Path) (q : String) :
    (c.insert path document).find? q = if q = path then some document else c.find? q := by
  unfold find? insert
  by_cases hq : q = path
  · simp [hq]
  · have hfilter : (c.entries.filter fun e => e.1 != path).find? (fun e => e.1 == q)
        = c.entries.find? fun e => e.1 == q := by
      rw [List.find?_filter]
      congr 1
      funext e
      by_cases he : e.1 = q
      · simp [he, hq]
      · simp [he]
    simp [hq, Ne.symm hq, hfilter]

theorem ofDocuments_concat (root : Path) (documents : List Location) (d : Location) :
    ofDocuments root (documents ++ [d])
      = (ofDocuments root documents).insert (assetPath d) (root.join ⟨"", d⟩) := by
  simp [ofDocuments]

/-- Of the documents with one asset path the last one is found. -/
theorem find?_ofDocuments (root : Path) (documents : List Location) (path : String) :
    (ofDocuments root documents).find? path
      = (documents.reverse.find? fun d => assetPath d == path).map fun d => root.join ⟨"", d⟩ := by
  induction documents using List.reverseRecOn with
  | nil => rfl
  | append_singleton documents d ih =>
    rw [ofDocuments_concat, find?_insert, ih, List.reverse_append, List.reverse_singleton,
      List.singleton_append, List.find?_cons]
    by_cases hd : assetPath d = path
    · simp [hd]
    · have hbeq : (assetPath d == path) = false := beq_false_of_ne hd
      rw [if_neg (Ne.symm hd), hbeq]

/-- Every asset path stands once in a catalog. -/
theorem nodup_ofDocuments (root : Path) (documents : List Location) :
    ((ofDocuments root documents).entries.map (·.1)).Nodup := by
  induction documents using List.reverseRecOn with
  | nil => exact List.nodup_nil
  | append_singleton documents d ih =>
    rw [ofDocuments_concat, insert, List.map_cons, List.nodup_cons]
    exact ⟨by simp, ih.sublist (List.filter_sublist.map _)⟩

theorem mem_paths_iff (c : Catalog) (path : String) :
    path ∈ c.paths ↔ ∃ p, c.find? path = some p := by
  rw [paths, List.mem_mergeSort, find?, ← Option.isSome_iff_exists, Option.isSome_map,
    List.find?_isSome]
  simp

theorem pairwise_paths {c : Catalog} (h : (c.entries.map (·.1)).Nodup) :
    c.paths.Pairwise (· < ·) := by
  have htrans (x y z : String) (hxy : decide (x ≤ y) = true) (hyz : decide (y ≤ z) = true) :
      decide (x ≤ z) = true :=
    decide_eq_true (le_trans (of_decide_eq_true hxy) (of_decide_eq_true hyz))
  have htotal (x y : String) : (decide (x ≤ y) || decide (y ≤ x)) = true := by
    simpa using le_total x y
  have hsorted : c.paths.Pairwise fun x y => decide (x ≤ y) = true :=
    List.pairwise_mergeSort htrans htotal _
  have hnodup : c.paths.Nodup := (List.mergeSort_perm _ _).nodup_iff.mpr h
  refine List.Pairwise.imp₂ (fun x y hle hne => ?_) hsorted hnodup
  exact lt_of_le_of_ne (of_decide_eq_true hle) hne

theorem load_eq_missing {c : Catalog} {path : String} (h : path ∉ c.paths) (t : FileTree) :
    c.load t path = ([], .error (.missingKey path)) := by
  have hnone : c.find? path = none := by
    rw [Option.eq_none_iff_forall_ne_some]
    exact fun p hp => h ((mem_paths_iff c path).mpr ⟨p, hp⟩)
  rw [load, hnone]

/-! ## Documents in order -/

theorem precedes_total (a b : Location) : (precedes a b || precedes b a) = true := by
  induction a generalizing b with
  | nil => simp [precedes]
  | cons x a ih =>
    cases b with
    | nil => simp [precedes]
    | cons y b =>
      by_cases hxy : x = y
      · simpa [precedes, hxy] using ih b
      · simpa [precedes, hxy, Ne.symm hxy] using lt_or_gt_of_ne hxy

theorem precedes_trans (a b d : Location) (hab : precedes a b = true) (hbd : precedes b d = true) :
    precedes a d = true := by
  induction a generalizing b d with
  | nil => simp [precedes]
  | cons x a ih =>
    cases b with
    | nil => simp [precedes] at hab
    | cons y b =>
      cases d with
      | nil => simp [precedes] at hbd
      | cons z d =>
        rw [precedes] at hab hbd ⊢
        by_cases hxy : x = y
        · subst hxy
          rw [if_pos rfl] at hab
          by_cases hxz : x = z
          · rw [if_pos hxz] at hbd ⊢
            exact ih b d hab hbd
          · rw [if_neg hxz] at hbd ⊢
            exact hbd
        · rw [if_neg hxy] at hab
          have hlt : x < y := of_decide_eq_true hab
          have hle : y ≤ z := by
            by_cases hyz : y = z
            · exact hyz.le
            · rw [if_neg hyz] at hbd
              exact (of_decide_eq_true hbd).le
          have hxz : x < z := lt_of_lt_of_le hlt hle
          rw [if_neg hxz.ne]
          exact decide_eq_true hxz

theorem pairwise_documentsBelow (t : FileTree) (base : Location) :
    (documentsBelow t base).Pairwise fun a b => precedes a b = true :=
  List.pairwise_mergeSort precedes_trans precedes_total _

/-! ## Documents in a tree -/

/-- Something stands at the place `d` as seen from `base`, under the name of a document. -/
def IsDocument (t : FileTree) (base d : Location) : Prop :=
  (∃ n, t.node? (base ++ d) = some n) ∧ ∃ dir name, d = dir ++ [name] ∧ isDocumentName name = true

theorem eq_append_of_below? {base place rest : Location}
    (h : FileTree.below? base place = some rest) : place = base ++ rest := by
  induction base generalizing place with
  | nil => exact Option.some.inj h
  | cons a base ih =>
    cases place with
    | nil => simp [FileTree.below?] at h
    | cons b place =>
      rw [FileTree.below?] at h
      split at h
      · rename_i hab
        rw [hab, ih h]
        rfl
      · simp at h

theorem below?_append (base rest : Location) :
    FileTree.below? base (base ++ rest) = some rest := by
  induction base with
  | nil => rfl
  | cons x base ih => simpa [FileTree.below?] using ih

theorem exists_mem_of_node? {t : FileTree} {here : Location} {n : FileTree.Node}
    (h : t.node? here = some n) (hne : here ≠ []) : ∃ e ∈ t.nodes, e.1 = here := by
  rw [FileTree.node?, if_neg hne] at h
  obtain ⟨e, he, -⟩ := Option.map_eq_some_iff.mp h
  exact ⟨e, List.mem_of_find?_eq_some he, by simpa using List.find?_some he⟩

namespace IsDocument

variable {t : FileTree} {base d : Location}

theorem ne_nil (h : IsDocument t base d) : d ≠ [] := by
  obtain ⟨-, dir, name, rfl, -⟩ := h
  simp

/-- A document has an entry of its own in the tree. -/
theorem exists_entry (h : IsDocument t base d) : ∃ e ∈ t.nodes, e.1 = base ++ d := by
  obtain ⟨n, hn⟩ := h.1
  exact exists_mem_of_node? hn (by simp [h.ne_nil])

end IsDocument

/-- The documents below a place are those that stand there. -/
theorem mem_documentsBelow_iff (t : FileTree) (base d : Location) :
    d ∈ documentsBelow t base ↔ IsDocument t base d := by
  rw [documentsBelow, List.mem_mergeSort]
  simp only [List.mem_filterMap, FileTree.entriesBelow]
  constructor
  · rintro ⟨found, ⟨e, he, hbelow⟩, hd⟩
    split at hd
    · rename_i hname
      obtain rfl := Option.some.inj hd
      split at hbelow
      · rename_i first rest hrest
        obtain rfl := Option.some.inj hbelow
        obtain ⟨n, hn⟩ := FileTree.isSome_node?_of_mem he
        rw [eq_append_of_below? hrest] at hn
        have hlast := List.dropLast_concat_getLast (List.cons_ne_nil first rest)
        refine ⟨⟨n, hn⟩, _, _, hlast.symm, ?_⟩
        rwa [List.getLast?_eq_some_getLast (List.cons_ne_nil first rest)] at hname
      · simp at hbelow
    · simp at hd
  · rintro ⟨⟨n, hn⟩, dir, name, rfl, hname⟩
    obtain ⟨e, he, hplace⟩ := exists_mem_of_node? hn (by simp)
    refine ⟨(dir ++ [name], e.2), ⟨e, he, ?_⟩, by simp [hname]⟩
    rw [hplace, below?_append]
    obtain ⟨first, rest, hcons⟩ := List.exists_cons_of_ne_nil (show dir ++ [name] ≠ [] by simp)
    rw [hcons]

/-- A catalog reads documents within the limits that it was made with. -/
theorem limits_of_ofTree {t : FileTree} {root : Path} {limits : Limits} {c : Catalog}
    (hc : ofTree t root limits = .ok c) : c.limits = limits := by
  unfold ofTree at hc
  split at hc
  · split at hc
    · rw [← Except.ok.inj hc]
    · simp at hc
  · simp at hc

/-- The documents of the catalog of a well-formed tree are there. -/
theorem holds_of_find? {t : FileTree} {root p : Path} {c : Catalog} {path : String}
    {limits : Limits} (wf : t.WellFormed) (hc : ofTree t root limits = .ok c)
    (hp : c.find? path = some p) : t.Holds p := by
  unfold ofTree at hc
  split at hc
  · split at hc
    · rename_i base hbase
      obtain rfl := Except.ok.inj hc
      change (ofDocuments root (documentsBelow t base)).find? path = some p at hp
      rw [find?_ofDocuments] at hp
      obtain ⟨d, hd, rfl⟩ := Option.map_eq_some_iff.mp hp
      have hmem : d ∈ documentsBelow t base := List.mem_reverse.mp (List.mem_of_find?_eq_some hd)
      obtain ⟨e, he, hplace⟩ := ((mem_documentsBelow_iff t base d).mp hmem).exists_entry
      exact wf.holds_join hbase he hplace
    · simp at hc
  · simp at hc

end Kismet.Catalog
