import Kismet.Proofs.Dump
import Kismet.Proofs.FileTree
set_option autoImplicit false

/-!
# Places: where paths lead, and what changes there

Whether a path can be followed depends on the files, but where it leads does not: in a tree
without links a path leads to one place, `FileTree.place`, found by its names alone.  So the
places at which an operation changes anything are known beforehand.  `FileTree.Changes` says
which they can be: directories are made where nothing stood, and files are stored where no
directory stood.  For reports stored one after the other `node?_storeAll` says what stands
where at the end.
-/

namespace Kismet.FileTree

/-! ## Where paths lead -/

/-- The place that one segment leads to. -/
def enter (here : Location) (segment : String) : Location :=
  if segment = ".." then here.dropLast else here ++ [segment]

/-- The place that segments lead to, one after the other. -/
def walk (here : Location) (segments : List String) : Location :=
  segments.foldl enter here

/-- The place that a path leads to, whatever stands there and on the way. -/
def place (t : FileTree) (p : Path) : Location :=
  walk (t.start p) p.segments

@[simp] theorem walk_nil (here : Location) : walk here [] = here := rfl

@[simp] theorem walk_cons (here : Location) (segment : String) (rest : List String) :
    walk here (segment :: rest) = walk (enter here segment) rest := rfl

theorem walk_append (here : Location) (a b : List String) :
    walk here (a ++ b) = walk (walk here a) b :=
  List.foldl_append

theorem enter_eq_of_step {t : FileTree} {here next : Location} {segment : String}
    (h : t.step here segment = .ok next) : enter here segment = next := by
  unfold step at h
  split at h
  · simp at h
  · simp at h
  · exact Except.ok.inj h

/-- Steps that can be taken lead where the segments lead. -/
theorem walk_eq_of_follow {t : FileTree} {there : Location} (segments : List String) :
    ∀ {here : Location}, t.follow here segments = .ok there → walk here segments = there := by
  induction segments with
  | nil => exact fun h => Except.ok.inj h
  | cons segment rest ih =>
    intro here h
    rw [follow] at h
    split at h
    · simp at h
    · rename_i next hnext
      rw [walk_cons, enter_eq_of_step hnext]
      exact ih h

theorem follow_of_resolve {t : FileTree} {p : Path} {here : Location}
    (h : t.resolve p = .ok here) : t.follow (t.start p) p.segments = .ok here := by
  unfold resolve at h
  split at h
  · simp at h
  · exact h

theorem place_eq_of_resolve {t : FileTree} {p : Path} {here : Location}
    (h : t.resolve p = .ok here) : t.place p = here :=
  walk_eq_of_follow p.segments (follow_of_resolve h)

/-- Where a path leads depends on the working directory only. -/
theorem place_congr {t u : FileTree} (h : u.workingDirectory = t.workingDirectory) (p : Path) :
    u.place p = t.place p := by
  rw [place, place, start, start, h]

/-- A relative path goes on from where another one leads. -/
theorem place_join {p q : Path} (hq : q.isAbsolute = false) (t : FileTree) :
    t.place (p.join q) = walk (t.place p) q.segments := by
  have hjoin : p.join q = ⟨p.root, p.segments ++ q.segments⟩ := by simp [Path.join, hq]
  rw [hjoin]
  exact walk_append _ _ _

theorem place_child {name : String} (hname : Path.isName name = true) (t : FileTree) (p : Path) :
    t.place (p.child name) = t.place p ++ [name] := by
  have hpath := Path.ofText_of_isName hname
  have hrelative : (Path.ofText name).isAbsolute = false := by rw [hpath]; rfl
  rw [Path.child, place_join hrelative, hpath]
  simp [enter, Path.ne_parent_of_isName hname]

/-- The place lies on the way of a path. -/
def OnTheWay (t : FileTree) (p : Path) (here : Location) : Prop :=
  ∃ front, front <+: p.segments ∧ here = t.place ⟨p.root, front⟩

/-- The way of a path that can be followed leads through directories. -/
theorem node?_of_follow {t : FileTree} {there : Location} {segment : String} {rest : List String}
    (front : List String) : ∀ {here : Location},
    t.follow here (front ++ segment :: rest) = .ok there →
      t.node? (walk here front) = some .directory := by
  induction front with
  | nil =>
    intro here h
    rw [List.nil_append, follow, step] at h
    rw [walk_nil]
    cases hnode : t.node? here with
    | none => simp [hnode] at h
    | some n =>
      cases n with
      | file content => simp [hnode] at h
      | directory => rfl
  | cons first front ih =>
    intro here h
    rw [List.cons_append, follow] at h
    split at h
    · simp at h
    · rename_i next hnext
      rw [walk_cons, enter_eq_of_step hnext]
      exact ih h

/-- On the way to a directory that is there stand directories. -/
theorem OnTheWay.node?_eq {t : FileTree} {p : Path} {here : Location} (h : t.OnTheWay p here)
    (hp : t.isDirectory p = true) : t.node? here = some .directory := by
  obtain ⟨front, ⟨back, hback⟩, rfl⟩ := h
  unfold isDirectory at hp
  split at hp
  · rename_i there hthere
    have hfollow := follow_of_resolve hthere
    have hstart : t.start ⟨p.root, front⟩ = t.start p := rfl
    cases back with
    | nil =>
      have hpath : (⟨p.root, front⟩ : Path) = p := by
        rw [List.append_nil] at hback
        rw [hback]
      rw [hpath, place_eq_of_resolve hthere]
      split at hp
      · assumption
      · simp at hp
    | cons segment rest =>
      rw [← hback] at hfollow
      rw [place, hstart]
      exact node?_of_follow front hfollow
  · simp at hp

/-! ## What changes -/

/-- What sets the tree `u` apart from `t`: directories of one kind have been made where
nothing stood, and files of another kind have been stored where no directory stood. -/
structure Changes (t u : FileTree) (made : Location → Prop)
    (stored : Location → ByteArray → Prop) : Prop where
  workingDirectory : u.workingDirectory = t.workingDirectory
  node : ∀ here, u.node? here = t.node? here
    ∨ (made here ∧ t.node? here = none ∧ u.node? here = some .directory)
    ∨ (t.node? here ≠ some .directory
        ∧ ∃ content, stored here content ∧ u.node? here = some (.file content))

namespace Changes

variable {t u v : FileTree} {made : Location → Prop} {stored : Location → ByteArray → Prop}

theorem refl (t : FileTree) : Changes t t made stored :=
  ⟨rfl, fun _ => .inl rfl⟩

theorem trans (h : Changes t u made stored) (h' : Changes u v made stored) :
    Changes t v made stored where
  workingDirectory := h'.workingDirectory.trans h.workingDirectory
  node here := by
    rcases h'.node here with hv | ⟨hmade, hnone, hv⟩ | ⟨hfree, content, hstored, hv⟩
    · rw [hv]
      exact h.node here
    · -- What is missing in the second tree is missing in the first one.
      rcases h.node here with hu | ⟨-, -, hu⟩ | ⟨-, content, -, hu⟩
      · exact .inr (.inl ⟨hmade, hu.symm.trans hnone, hv⟩)
      · simp [hnone] at hu
      · simp [hnone] at hu
    · rcases h.node here with hu | ⟨-, -, hu⟩ | ⟨hfirst, -⟩
      · exact .inr (.inr ⟨hu ▸ hfree, content, hstored, hv⟩)
      · exact absurd hu hfree
      · exact .inr (.inr ⟨hfirst, content, hstored, hv⟩)

theorem put_directory {here : Location} (hnone : t.node? here = none) (hmade : made here) :
    Changes t (t.put here .directory) made stored := by
  refine ⟨rfl, fun other => ?_⟩
  have hne : here ≠ [] := by
    rintro rfl
    simp [node?] at hnone
  rw [node?_put t hne]
  split
  · rename_i hother
    subst hother
    exact .inr (.inl ⟨hmade, hnone, rfl⟩)
  · exact .inl rfl

theorem put_file {here : Location} {content : ByteArray} (hfree : t.node? here ≠ some .directory)
    (hstored : stored here content) : Changes t (t.put here (.file content)) made stored := by
  refine ⟨rfl, fun other => ?_⟩
  have hne : here ≠ [] := by
    rintro rfl
    simp [node?] at hfree
  rw [node?_put t hne]
  split
  · rename_i hother
    subst hother
    exact .inr (.inr ⟨hfree, content, hstored, rfl⟩)
  · exact .inl rfl

end Changes

section Operations

variable {t u : FileTree} {made : Location → Prop} {stored : Location → ByteArray → Prop} {p : Path}

theorem changes_makeDirectory (h : t.makeDirectory p = .ok u) (hmade : made (t.place p)) :
    Changes t u made stored := by
  unfold makeDirectory at h
  split at h
  · simp at h
  · rename_i here hhere
    rw [place_eq_of_resolve hhere] at hmade
    split at h
    · simp at h
    · rename_i hnone
      obtain rfl := Except.ok.inj h
      exact .put_directory hnone hmade

theorem changes_ensureDirectory (hmade : made (t.place p)) :
    Changes t (t.ensureDirectory p).1 made stored := by
  unfold ensureDirectory
  split
  · rename_i u hu
    exact changes_makeDirectory hu hmade
  · split <;> exact .refl t

/-- Directories are made on the way only. -/
theorem changes_ensureAll (root : String) (segments : List String) : ∀ {t : FileTree},
    (∀ front, front <+: segments.reverse → made (t.place ⟨root, front⟩)) →
    Changes t (t.ensureAll root segments).1 made stored := by
  induction segments with
  | nil =>
    intro t hmade
    exact changes_ensureDirectory (hmade [] (List.prefix_refl []))
  | cons segment front ih =>
    intro t hmade
    have hlast := hmade (segment :: front).reverse (List.prefix_refl _)
    have hfront : Changes t (t.ensureAll root front).1 made stored := by
      apply ih
      intro shorter hshorter
      apply hmade shorter
      rw [List.reverse_cons]
      exact hshorter.trans (List.prefix_append _ _)
    rw [ensureAll]
    split
    · rename_i u hu
      exact changes_makeDirectory hu hlast
    · split
      · rename_i u f hu
        exact hu ▸ hfront
      · rename_i u hu
        have hbefore : Changes t u made stored := by rwa [hu] at hfront
        refine hbefore.trans (changes_ensureDirectory ?_)
        rwa [place_congr hbefore.workingDirectory]
    · exact changes_ensureDirectory hlast

theorem changes_makeDirectories (t : FileTree) (p : Path) :
    Changes t (t.makeDirectories p).1 (t.OnTheWay p) stored := by
  apply changes_ensureAll
  intro front hfront
  rw [List.reverse_reverse] at hfront
  exact ⟨front, hfront, rfl⟩

theorem store_eq_ok {content : ByteArray} (h : t.store p content = .ok u) :
    t.node? (t.place p) ≠ some .directory ∧ u = t.put (t.place p) (.file content) := by
  unfold store at h
  split at h
  · simp at h
  · rename_i here hhere
    rw [place_eq_of_resolve hhere]
    split at h
    · simp at h
    · rename_i hfree
      exact ⟨hfree, (Except.ok.inj h).symm⟩

theorem changes_store {content : ByteArray} (h : t.store p content = .ok u)
    (hstored : stored (t.place p) content) : Changes t u made stored := by
  obtain ⟨hfree, rfl⟩ := store_eq_ok h
  exact .put_file hfree hstored

end Operations

/-! ## Reports stored one after the other -/

/-- Of the reports that lead to one place the last one stands there at the end; elsewhere
nothing has changed. -/
theorem node?_storeAll (target : Path) (reports : List Report) : ∀ {t u : FileTree},
    t.storeAll target reports = .ok u →
    u.workingDirectory = t.workingDirectory ∧ ∀ here, u.node? here
      = ((reports.filter fun r => t.place (target.child r.fileName) == here).getLast?.map
          fun r => Node.file r.text.toUTF8).or (t.node? here) := by
  induction reports with
  | nil =>
    intro t u h
    obtain rfl := Except.ok.inj h
    exact ⟨rfl, fun _ => rfl⟩
  | cons r rest ih =>
    intro t u h
    rw [storeAll_cons] at h
    split at h
    · simp at h
    · rename_i t' hstore
      obtain ⟨hfree, ht'⟩ := store_eq_ok hstore
      have hne : t.place (target.child r.fileName) ≠ [] := by
        intro hroot
        simp [hroot, node?] at hfree
      have hdirectory : t'.workingDirectory = t.workingDirectory := by rw [ht']; rfl
      obtain ⟨hu, hrest⟩ := ih h
      refine ⟨hu.trans hdirectory, fun here => ?_⟩
      simp only [hrest here, place_congr hdirectory, List.filter_cons]
      rw [ht', node?_put t hne]
      by_cases hhere : t.place (target.child r.fileName) = here
      · rw [if_pos hhere.symm, if_pos (by simp [hhere]), List.getLast?_cons]
        cases (rest.filter fun r => t.place (target.child r.fileName) == here).getLast? <;> rfl
      · rw [if_neg (Ne.symm hhere), if_neg (by simp [hhere])]

end Kismet.FileTree
