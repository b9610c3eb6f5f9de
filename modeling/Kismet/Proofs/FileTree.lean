import Kismet.FileTree
import Kismet.Proofs.Cause
import Kismet.Proofs.Cutting
set_option autoImplicit false

/-!
# FileTree: what writing into an empty directory leaves alone

A run writes into directories of its own below one directory that is empty at
first.  `Spread` says how far a tree can have come from the one at the start: all
that does not lie below that directory is as it was, what lies in the directory are
directories, and in these stand no further directories.  Making a directory and
storing a file there always succeed and keep to this, and whatever could be read at
the start is read the same.
-/

namespace Kismet

/-! ## Names -/

/-- The character can be part of the name of an entry of a directory. -/
def Path.isNameChar (c : Char) : Bool :=
  c != '/' && c.toNat != 0

/-- The text is the name of a single entry of a directory. -/
def Path.isName (s : String) : Bool :=
  s != "" && s != "." && s != ".." && s.toList.all isNameChar

namespace Path

section Names

variable {s : String} (h : isName s = true)

include h

theorem ne_slash_of_isName {c : Char} (hc : c ∈ s.toList) : c ≠ '/' := by
  simp only [isName, isNameChar, Bool.and_eq_true, List.all_eq_true, bne_iff_ne] at h
  exact (h.2 c hc).1

theorem ofText_of_isName : ofText s = ⟨"", [s]⟩ := by
  have hcut : Text.cut '/' s = [s] := by
    simp [Text.cut, Text.cutAt_eq_singleton fun hc => ne_slash_of_isName h hc rfl]
  have hroot : rootOf s.toList = "" := by
    have hfront : s.toList.takeWhile (· == '/') = [] := by
      cases hs : s.toList with
      | nil => rfl
      | cons c rest =>
        have hc := ne_slash_of_isName h (c := c) (by simp [hs])
        simp [hc]
    simp [rootOf, hfront]
  simp only [isName, Bool.and_eq_true, bne_iff_ne] at h
  simp [ofText, hroot, hcut, h.1.1]

theorem child_of_isName (p : Path) : p.child s = ⟨p.root, p.segments ++ [s]⟩ := by
  simp [child, join, ofText_of_isName h, isAbsolute]

theorem ne_parent_of_isName : s ≠ ".." := by
  simp only [isName, Bool.and_eq_true, bne_iff_ne] at h
  exact h.1.2

theorem hasNull_of_isName : FileTree.hasNull s = false := by
  simp only [isName, isNameChar, Bool.and_eq_true, List.all_eq_true, bne_iff_ne] at h
  simpa [FileTree.hasNull] using fun c hc => (h.2 c hc).2

end Names

end Path

namespace FileTree

/-! ## Places -/

/-- What stands where after something is put at a place. -/
theorem node?_put (t : FileTree) {here : Location} (h : here ≠ []) (n : Node) (place : Location) :
    (t.put here n).node? place = if place = here then some n else t.node? place := by
  by_cases hroot : place = []
  · subst hroot
    simp [node?, Ne.symm h]
  · by_cases hplace : place = here
    · simp [node?, put, hplace, h]
    · have hfilter : (t.nodes.filter fun e => e.1 != here).find? (fun e => e.1 == place)
          = t.nodes.find? fun e => e.1 == place := by
        rw [List.find?_filter]
        congr 1
        funext e
        by_cases he : e.1 = place
        · simp [he, hplace]
        · simp [he]
      simp [node?, put, hroot, hplace, Ne.symm hplace, hfilter]

theorem follow_append (t : FileTree) (a b : List String) : ∀ here,
    t.follow here (a ++ b) = t.follow here a >>= fun there => t.follow there b := by
  induction a with
  | nil => intro here; rfl
  | cons segment rest ih =>
    intro here
    simp only [List.cons_append, follow]
    cases t.step here segment with
    | error f => rfl
    | ok next => exact ih next

/-- A longer path goes on from where the shorter one leads. -/
theorem resolve_append {t : FileTree} {p : Path} {here : Location} {segments : List String}
    (hp : t.resolve p = .ok here) (hnull : segments.any hasNull = false) :
    t.resolve ⟨p.root, p.segments ++ segments⟩ = t.follow here segments := by
  unfold resolve at hp ⊢
  split at hp
  · simp at hp
  · rename_i hfront
    have hstart : t.start ⟨p.root, p.segments ++ segments⟩ = t.start p := rfl
    have hall : ¬(p.segments ++ segments).any hasNull = true := by
      rw [List.any_append, hnull, Bool.or_false]
      exact hfront
    simp only [hall, hstart, follow_append, hp]
    rfl

/-- The place of an entry of a directory. -/
theorem resolve_child {t : FileTree} {p : Path} {here : Location} {name : String}
    (hname : Path.isName name = true) (hp : t.resolve p = .ok here)
    (hdir : t.node? here = some .directory) : t.resolve (p.child name) = .ok (here ++ [name]) := by
  have hnull : [name].any hasNull = false := by simp [Path.hasNull_of_isName hname]
  rw [Path.child_of_isName hname, resolve_append hp hnull]
  simp [follow, step, hdir, Path.ne_parent_of_isName hname]

/-! ## Trees that grow -/

/-- The tree `v` has all places of `u`.  The files two steps below `here` come from `u` or
are among some others, given by the two names and the content. -/
structure Grows (u v : FileTree) (here : Location) (added : String → String → ByteArray → Prop) :
    Prop where
  kept : ∀ place n, u.node? place = some n → ∃ n', v.node? place = some n'
  files : ∀ name file content, v.node? (here ++ [name, file]) = some (.file content) →
    u.node? (here ++ [name, file]) = some (.file content) ∨ added name file content

namespace Grows

variable {u v w : FileTree} {here : Location} {added : String → String → ByteArray → Prop}

theorem refl (u : FileTree) : Grows u u here added where
  kept _ n h := ⟨n, h⟩
  files _ _ _ h := .inl h

theorem trans (h : Grows u v here added) (h' : Grows v w here added) : Grows u w here added where
  kept place n hn := by
    obtain ⟨n', hn'⟩ := h.kept place n hn
    exact h'.kept place n' hn'
  files name file content hw := by
    rcases h'.files name file content hw with hv | hadded
    · exact h.files name file content hv
    · exact .inr hadded

theorem kept_put (u : FileTree) {here : Location} (hne : here ≠ []) (n : Node) (place : Location)
    (n' : Node) (hn' : u.node? place = some n') : ∃ n'', (u.put here n).node? place = some n'' := by
  rw [node?_put u hne]
  split
  · exact ⟨n, rfl⟩
  · exact ⟨n', hn'⟩

theorem put_directory (u : FileTree) (name : String) :
    Grows u (u.put (here ++ [name]) .directory) here added where
  kept := kept_put u (by simp) _
  files other file content h := by
    rw [node?_put _ (by simp), if_neg (by simp)] at h
    exact .inl h

theorem put_file (u : FileTree) {name file : String} {content : ByteArray}
    (hadded : added name file content) :
    Grows u (u.put (here ++ [name, file]) (.file content)) here added where
  kept := kept_put u (by simp) _
  files name' file' content' h := by
    rw [node?_put _ (by simp)] at h
    split at h
    · rename_i hplace
      obtain ⟨rfl, rfl⟩ : name' = name ∧ file' = file := by simpa using hplace
      obtain rfl : content = content' := by simpa using h
      exact .inr hadded
    · exact .inl h

end Grows

/-! ## Well-formed trees -/

/-- The entries have names, and what is on the way to an entry are directories. -/
structure WellFormed (t : FileTree) : Prop where
  names : ∀ e ∈ t.nodes, ∀ name ∈ e.1, Path.isName name = true
  parents : ∀ e ∈ t.nodes, ∀ k < e.1.length, t.node? (e.1.take k) = some .directory

/-- Something stands at the path. -/
def Holds (t : FileTree) (p : Path) : Prop :=
  ∃ here n, t.resolve p = .ok here ∧ t.node? here = some n

theorem isSome_node?_of_mem {t : FileTree} {e : Location × Node} (h : e ∈ t.nodes) :
    ∃ n, t.node? e.1 = some n := by
  unfold node?
  split
  · exact ⟨.directory, rfl⟩
  · have hfind : (t.nodes.find? fun e' => e'.1 == e.1).isSome = true := by
      rw [List.find?_isSome]
      exact ⟨e, h, by simp⟩
    obtain ⟨found, hfound⟩ := Option.isSome_iff_exists.mp hfind
    exact ⟨found.2, by rw [hfound]; rfl⟩

/-- The way from a directory to an entry below it. -/
theorem WellFormed.follow_eq {t : FileTree} (wf : t.WellFormed) {e : Location × Node}
    (he : e ∈ t.nodes) (segments : List String) : ∀ base, e.1 = base ++ segments →
    t.follow base segments = .ok (base ++ segments) := by
  induction segments with
  | nil => intro base _; simp [follow]
  | cons segment rest ih =>
    intro base hplace
    have hdir : t.node? base = some .directory := by
      have hparent := wf.parents e he base.length (by simp [hplace])
      rwa [hplace, List.take_left] at hparent
    have hname := Path.ne_parent_of_isName (wf.names e he segment (by simp [hplace]))
    have hrest := ih (base ++ [segment]) (by simp [hplace])
    simp [follow, step, hdir, hname, hrest]

/-- The place of an entry below a directory is where its path leads. -/
theorem WellFormed.resolve_join {t : FileTree} (wf : t.WellFormed) {root : Path}
    {base d : Location} (hroot : t.resolve root = .ok base) {e : Location × Node}
    (he : e ∈ t.nodes) (hplace : e.1 = base ++ d) :
    t.resolve (root.join ⟨"", d⟩) = .ok (base ++ d) := by
  have hjoin : root.join ⟨"", d⟩ = ⟨root.root, root.segments ++ d⟩ := by
    simp [Path.join, Path.isAbsolute]
  have hnames : d.any hasNull = false := by
    rw [List.any_eq_false]
    intro name hname
    simp [Path.hasNull_of_isName (wf.names e he name (by simp [hplace, hname]))]
  rw [hjoin, resolve_append hroot hnames]
  exact wf.follow_eq he d base hplace

/-- An entry below a directory stands at the path that leads to it. -/
theorem WellFormed.holds_join {t : FileTree} (wf : t.WellFormed) {root : Path}
    {base d : Location} (hroot : t.resolve root = .ok base) {e : Location × Node}
    (he : e ∈ t.nodes) (hplace : e.1 = base ++ d) : t.Holds (root.join ⟨"", d⟩) := by
  obtain ⟨n, hn⟩ := isSome_node?_of_mem he
  exact ⟨base ++ d, n, wf.resolve_join hroot he hplace, by rw [← hplace, hn]⟩

/-! ## Spread -/

/-- The place does not lie below another one. -/
def IsOutside (here place : Location) : Prop :=
  ∀ name rest, place ≠ here ++ name :: rest

/-- The path leads to a directory with nothing in it. -/
structure EmptyAt (t : FileTree) (p : Path) (here : Location) : Prop where
  resolve : t.resolve p = .ok here
  directory : t.node? here = some .directory
  empty : ∀ name rest, t.node? (here ++ name :: rest) = none

/-- The tree `u` can have come from `t` by making directories in the directory `here`
and storing files in these. -/
structure Spread (t u : FileTree) (here : Location) : Prop where
  workingDirectory : u.workingDirectory = t.workingDirectory
  outside : ∀ place, IsOutside here place → u.node? place = t.node? place
  first : ∀ name, u.node? (here ++ [name]) = none ∨ u.node? (here ++ [name]) = some .directory
  second : ∀ name file, u.node? (here ++ [name, file]) ≠ some .directory

namespace Spread

variable {t u : FileTree} {here : Location}

/-- A directory is made in the directory. -/
theorem put_directory (hu : Spread t u here) (name : String) :
    Spread t (u.put (here ++ [name]) .directory) here where
  workingDirectory := hu.workingDirectory
  outside place hplace := by
    rw [node?_put _ (by simp), if_neg (hplace name [])]
    exact hu.outside place hplace
  first other := by
    rw [node?_put _ (by simp)]
    split
    · exact .inr rfl
    · exact hu.first other
  second other file := by
    rw [node?_put _ (by simp), if_neg (by simp)]
    exact hu.second other file

/-- A file is stored in a directory of the directory. -/
theorem put_file (hu : Spread t u here) (name file : String) (content : ByteArray) :
    Spread t (u.put (here ++ [name, file]) (.file content)) here where
  workingDirectory := hu.workingDirectory
  outside place hplace := by
    rw [node?_put _ (by simp), if_neg (hplace name [file])]
    exact hu.outside place hplace
  first other := by
    rw [node?_put _ (by simp), if_neg (by simp)]
    exact hu.first other
  second other file' := by
    rw [node?_put _ (by simp)]
    split
    · simp
    · exact hu.second other file'

end Spread

namespace EmptyAt

variable {t u : FileTree} {p : Path} {here : Location}

theorem spread_self (h : t.EmptyAt p here) : Spread t t here where
  workingDirectory := rfl
  outside _ _ := rfl
  first name := .inl (h.empty name [])
  second name file := by simp [h.empty name [file]]

/-- Where something stands at the start is outside. -/
theorem isOutside (h : t.EmptyAt p here) {place : Location} {n : Node}
    (hn : t.node? place = some n) : IsOutside here place := by
  rintro name rest rfl
  simp [h.empty name rest] at hn

theorem node?_eq (h : t.EmptyAt p here) (hu : Spread t u here) {place : Location} {n : Node}
    (hn : t.node? place = some n) : u.node? place = some n := by
  rw [hu.outside place (h.isOutside hn), hn]

theorem follow_eq (h : t.EmptyAt p here) (hu : Spread t u here) (segments : List String) :
    ∀ {base place : Location}, t.follow base segments = .ok place →
      u.follow base segments = .ok place := by
  induction segments with
  | nil => exact fun hf => hf
  | cons segment rest ih =>
    intro base place hf
    cases hnode : t.node? base with
    | none => simp [follow, step, hnode] at hf
    | some n =>
      have hstep : u.step base segment = t.step base segment := by
        rw [step, step, hnode, h.node?_eq hu hnode]
      rw [follow] at hf ⊢
      rw [hstep]
      split at hf
      · simp at hf
      · exact ih hf

theorem resolve_eq (h : t.EmptyAt p here) (hu : Spread t u here) {q : Path} {place : Location}
    (hq : t.resolve q = .ok place) : u.resolve q = .ok place := by
  have hstart : u.start q = t.start q := by rw [start, start, hu.workingDirectory]
  unfold FileTree.resolve at hq ⊢
  split at hq
  · simp at hq
  · rename_i hnull
    rw [if_neg hnull, hstart]
    exact h.follow_eq hu q.segments hq

/-- What is there at the start can be read as at the start. -/
theorem contentAt_eq (h : t.EmptyAt p here) (hu : Spread t u here) {q : Path} (hq : t.Holds q) :
    u.contentAt q = t.contentAt q := by
  obtain ⟨place, n, hplace, hn⟩ := hq
  simp only [contentAt, hplace, h.resolve_eq hu hplace, hn, h.node?_eq hu hn]

/-! ## Writing -/

/-- The directory of a name, as long as nothing but directories has been made. -/
theorem resolve_child_eq (h : t.EmptyAt p here) (hu : Spread t u here) {name : String}
    (hname : Path.isName name = true) : u.resolve (p.child name) = .ok (here ++ [name]) :=
  resolve_child hname (h.resolve_eq hu h.resolve) (h.node?_eq hu h.directory)

/-- A directory of any name can be made. -/
theorem makeDirectories_eq (h : t.EmptyAt p here) (hu : Spread t u here) {name : String}
    (hname : Path.isName name = true) (added : String → String → ByteArray → Prop) :
    ∃ v, u.makeDirectories (p.child name) = (v, .ok ()) ∧ Spread t v here ∧ Grows u v here added
      ∧ v.node? (here ++ [name]) = some .directory := by
  have hresolve := h.resolve_child_eq hu hname
  have hsegments : (p.child name).segments.reverse = name :: p.segments.reverse := by
    simp [Path.child_of_isName hname]
  have hpath : (⟨(p.child name).root, (name :: p.segments.reverse).reverse⟩ : Path)
      = p.child name := by
    simp [Path.child_of_isName hname]
  rw [makeDirectories, hsegments, ensureAll, hpath]
  rcases hu.first name with hnone | hdirectory
  · have hmake : u.makeDirectory (p.child name) = .ok (u.put (here ++ [name]) .directory) := by
      simp [makeDirectory, hresolve, hnone]
    exact ⟨_, by rw [hmake], hu.put_directory name, .put_directory u name, by simp [node?_put]⟩
  · have hmake : u.makeDirectory (p.child name) = .error .alreadyExists := by
      simp [makeDirectory, hresolve, hdirectory]
    refine ⟨u, ?_, hu, .refl u, hdirectory⟩
    simp [hmake, ensureDirectory, isDirectory, hresolve, hdirectory]

/-- A file of any name can be stored in a directory that has been made. -/
theorem store_eq (h : t.EmptyAt p here) (hu : Spread t u here) {name file : String}
    (hname : Path.isName name = true) (hfile : Path.isName file = true)
    (hdir : u.node? (here ++ [name]) = some .directory) (content : ByteArray) :
    u.store ((p.child name).child file) content
      = .ok (u.put (here ++ [name, file]) (.file content)) := by
  have hresolve : u.resolve ((p.child name).child file) = .ok (here ++ [name, file]) := by
    rw [resolve_child hfile (h.resolve_child_eq hu hname) hdir]
    simp
  have hsecond := hu.second name file
  unfold store
  rw [hresolve]
  dsimp only
  split
  · rename_i hnode
    exact absurd hnode hsecond
  · rfl

end EmptyAt

end FileTree

end Kismet
