import Kismet.Proofs.Format
import Kismet.Proofs.Recursion
set_option autoImplicit false

/-!
# ValueFormat: how property values are written as documents

A container is written as an object with one key that says what it is; an array may also be
written as a plain list.  `Value.WrittenAs` relates a value to all documents that write it, and
decoding any of them gives the value back (`Value.decode_of_written`).

In such a document every subvalue counts: if an object without any of these keys stands in the
place of one, however deep, then that object is the reason why the whole is refused
(`Value.decode_of_replaced`).
-/

namespace Kismet

namespace Value

/-! ## Documents that write a value -/

/-- The document writes a member of a structure; `R` says which documents write a value. -/
def MemberWrittenAs (R : Value → Document → Prop) (m : Document × Value) (d : Document) : Prop :=
  ∃ x, d = .object [("name", m.1), ("value", x)] ∧ R m.2 x

/-- The document writes an entry of a map; `R` says which documents write a value. -/
def EntryWrittenAs (R : Value → Document → Prop) (e : Value × Value) (d : Document) : Prop :=
  ∃ k x, d = .list [k, x] ∧ R e.1 k ∧ R e.2 x

/-- The document writes the value.  What is nested is written in some way `R` that is allowed
here, so each array in a value may be written in either way. -/
inductive WrittenAs : Value → Document → Prop where
  | leaf (s : Scalar) : WrittenAs (.leaf s) (.scalar s)
  | unresolved (type : Document) :
      WrittenAs (.unresolved type) (.object [("struct", type), ("opaque", .bool true)])
  | struct {R : Value → Document → Prop} {type : Document} {members : List (Document × Value)}
      {ds : List Document} (inside : ∀ v d, R v d → WrittenAs v d)
      (written : List.Forall₂ (MemberWrittenAs R) members ds) :
      WrittenAs (.struct type members) (.object [("struct", type), ("properties", .list ds)])
  | array {R : Value → Document → Prop} {items : List Value} {ds : List Document}
      (inside : ∀ v d, R v d → WrittenAs v d) (written : List.Forall₂ R items ds) :
      WrittenAs (.array items) (.object [("array", .list ds)])
  | plainArray {R : Value → Document → Prop} {items : List Value} {ds : List Document}
      (inside : ∀ v d, R v d → WrittenAs v d) (written : List.Forall₂ R items ds) :
      WrittenAs (.array items) (.list ds)
  | set {R : Value → Document → Prop} {items : List Value} {ds : List Document}
      (inside : ∀ v d, R v d → WrittenAs v d) (written : List.Forall₂ R items ds) :
      WrittenAs (.set items) (.object [("set", .list ds)])
  | map {R : Value → Document → Prop} {entries : List (Value × Value)} {ds : List Document}
      (inside : ∀ v d, R v d → WrittenAs v d)
      (written : List.Forall₂ (EntryWrittenAs R) entries ds) :
      WrittenAs (.map entries) (.object [("map", .list ds)])

mutual

/-- Every value can be written. -/
theorem exists_written : (v : Value) → ∃ d, v.WrittenAs d
  | .leaf s => ⟨_, .leaf s⟩
  | .unresolved type => ⟨_, .unresolved type⟩
  | .struct _ members =>
    let ⟨_, h⟩ := exists_written_members members
    ⟨_, .struct (fun _ _ h => h) h⟩
  | .array items =>
    let ⟨_, h⟩ := exists_written_items items
    ⟨_, .array (fun _ _ h => h) h⟩
  | .set items =>
    let ⟨_, h⟩ := exists_written_items items
    ⟨_, .set (fun _ _ h => h) h⟩
  | .map entries =>
    let ⟨_, h⟩ := exists_written_entries entries
    ⟨_, .map (fun _ _ h => h) h⟩

theorem exists_written_items : (vs : List Value) → ∃ ds, List.Forall₂ WrittenAs vs ds
  | [] => ⟨[], .nil⟩
  | v :: rest =>
    let ⟨_, h⟩ := exists_written v
    let ⟨_, hrest⟩ := exists_written_items rest
    ⟨_, .cons h hrest⟩

theorem exists_written_members : (ms : List (Document × Value)) →
    ∃ ds, List.Forall₂ (MemberWrittenAs WrittenAs) ms ds
  | [] => ⟨[], .nil⟩
  | (_, v) :: rest =>
    let ⟨_, h⟩ := exists_written v
    let ⟨_, hrest⟩ := exists_written_members rest
    ⟨_, .cons ⟨_, rfl, h⟩ hrest⟩

theorem exists_written_entries : (es : List (Value × Value)) →
    ∃ ds, List.Forall₂ (EntryWrittenAs WrittenAs) es ds
  | [] => ⟨[], .nil⟩
  | (k, v) :: rest =>
    let ⟨_, hk⟩ := exists_written k
    let ⟨_, hv⟩ := exists_written v
    let ⟨_, hrest⟩ := exists_written_entries rest
    ⟨_, .cons ⟨_, _, rfl, hk, hv⟩ hrest⟩

end

/-! ## What each form is decoded to -/

section Forms

variable (type name k x : Document) (ds : List Document)

theorem decode_struct : decode (.object [("struct", type), ("properties", .list ds)])
    = (ds.mapM (decodeMember decode)).map (.struct type) := by
  rw [decode_eq_step]
  simp [decodeStep, decodeObject, Fields.getOrNull, Fields.get?_cons, decodeParts, Document.parts,
    Document.holds]

theorem decode_array : decode (.object [("array", .list ds)]) = (ds.mapM decode).map .array := by
  rw [decode_eq_step]
  simp [decodeStep, decodeObject, Fields.get?_cons, decodeParts, Document.parts]

theorem decode_list : decode (.list ds) = (ds.mapM decode).map .array := by
  rw [decode_eq_step, decodeStep]

theorem decode_set : decode (.object [("set", .list ds)]) = (ds.mapM decode).map .set := by
  rw [decode_eq_step]
  simp [decodeStep, decodeObject, Fields.get?_cons, decodeParts, Document.parts]

theorem decode_map :
    decode (.object [("map", .list ds)]) = (ds.mapM (decodeEntry decode)).map .map := by
  rw [decode_eq_step]
  simp [decodeStep, decodeObject, Fields.get?_cons, decodeParts, Document.parts]

theorem decodeMember_object : decodeMember decode (.object [("name", name), ("value", x)])
    = (decode x).map fun v => (name, v) := by
  simp [decodeMember, Fields.getOrNull, Fields.get?_cons]

theorem decodeEntry_list : decodeEntry decode (.list [k, x])
    = decode k >>= fun key => (decode x).map fun value => (key, value) := by
  simp only [decodeEntry, Document.pair, Document.parts]
  cases decode k <;> rfl

end Forms

/-! ## Values are read back -/

/-- A document that writes a value is decoded to it. -/
theorem decode_of_written {v : Value} {d : Document} (h : v.WrittenAs d) : decode d = .ok v := by
  induction h with
  | leaf s => rfl
  | unresolved type => rfl
  | struct inside written ih =>
    rw [decode_struct, mapM_eq_ok (written.imp fun m d hm => ?_)]
    · rfl
    · obtain ⟨x, rfl, hx⟩ := hm
      rw [decodeMember_object, ih _ _ hx]
      rfl
  | array inside written ih =>
    rw [decode_array, mapM_eq_ok (written.imp ih)]
    rfl
  | plainArray inside written ih =>
    rw [decode_list, mapM_eq_ok (written.imp ih)]
    rfl
  | set inside written ih =>
    rw [decode_set, mapM_eq_ok (written.imp ih)]
    rfl
  | map inside written ih =>
    rw [decode_map, mapM_eq_ok (written.imp fun e d he => ?_)]
    · rfl
    · obtain ⟨k, x, rfl, hk, hx⟩ := he
      rw [decodeEntry_list, ih _ _ hk, ih _ _ hx]
      rfl

/-! ## One subvalue replaced -/

/-- The object has none of the keys by which containers are known. -/
def isUnrecognised (fields : Fields) : Bool :=
  ["struct", "array", "set", "map"].all fun key => !Fields.has fields key

/-- The fault of an object that is not in any form of a value. -/
def faultOf (fields : Fields) : Fault :=
  .unrecognisedValue ((Fields.keys fields).mergeSort fun a b => decide (a ≤ b))

theorem decode_of_isUnrecognised {fields : Fields} (h : isUnrecognised fields = true) :
    decode (.object fields) = .error (faultOf fields) := by
  have hnone : ∀ key ∈ ["struct", "array", "set", "map"], Fields.get? fields key = none := by
    intro key hkey
    exact Fields.get?_eq_none (by simpa using List.all_eq_true.mp h key hkey)
  simp only [List.forall_mem_cons] at hnone
  obtain ⟨hstruct, harray, hset, hmap, -⟩ := hnone
  rw [decode_eq_step]
  simp only [decodeStep, decodeObject, hstruct, harray, hset, hmap, faultOf]

/-- The second document is the first one with `bad` in the place of one subvalue. -/
inductive Replaced (bad : Document) : Document → Document → Prop where
  | here (d : Document) : Replaced bad d bad
  | member {type name x x' : Document} {before after : List Document} (inner : Replaced bad x x') :
      Replaced bad
        (.object [("struct", type), ("properties",
          .list (before ++ .object [("name", name), ("value", x)] :: after))])
        (.object [("struct", type), ("properties",
          .list (before ++ .object [("name", name), ("value", x')] :: after))])
  | arrayItem {x x' : Document} {before after : List Document} (inner : Replaced bad x x') :
      Replaced bad (.object [("array", .list (before ++ x :: after))])
        (.object [("array", .list (before ++ x' :: after))])
  | plainItem {x x' : Document} {before after : List Document} (inner : Replaced bad x x') :
      Replaced bad (.list (before ++ x :: after)) (.list (before ++ x' :: after))
  | setItem {x x' : Document} {before after : List Document} (inner : Replaced bad x x') :
      Replaced bad (.object [("set", .list (before ++ x :: after))])
        (.object [("set", .list (before ++ x' :: after))])
  | mapKey {k k' x : Document} {before after : List Document} (inner : Replaced bad k k') :
      Replaced bad (.object [("map", .list (before ++ .list [k, x] :: after))])
        (.object [("map", .list (before ++ .list [k', x] :: after))])
  | mapValue {k x x' : Document} {before after : List Document} (inner : Replaced bad x x') :
      Replaced bad (.object [("map", .list (before ++ .list [k, x] :: after))])
        (.object [("map", .list (before ++ .list [k, x'] :: after))])

/-- What is made of a traversal that ended well: with one item replaced by a bad one, it is the
fault of that item. -/
theorem map_mapM_of_replaced {α β γ : Type} {f : α → Except Fault β} {g : List β → γ}
    {before after : List α} {x x' : α} {c : γ} {e : Fault}
    (h : ((before ++ x :: after).mapM f).map g = .ok c)
    (hx : ∀ y, f x = .ok y → f x' = .error e) :
    ((before ++ x' :: after).mapM f).map g = .error e := by
  obtain ⟨ys, h, -⟩ := map_eq_ok_iff.mp h
  simp only [List.mapM_append, List.mapM_cons, bind_eq_ok_iff] at h
  obtain ⟨front, hfront, back, ⟨y, hy, -⟩, -⟩ := h
  rw [List.mapM_append, hfront, List.mapM_cons, hx y hy]
  rfl

/-- Where an object that is no value stands in the place of a subvalue, its fault is the fault of
the whole. -/
theorem decode_of_replaced {fields : Fields} (hbad : isUnrecognised fields = true)
    {d d' : Document} (h : Replaced (.object fields) d d') :
    ∀ v, decode d = .ok v → decode d' = .error (faultOf fields) := by
  induction h with
  | here d =>
    intro v _
    exact decode_of_isUnrecognised hbad
  | member inner ih =>
    intro v hv
    rw [decode_struct] at hv ⊢
    refine map_mapM_of_replaced hv fun m hm => ?_
    rw [decodeMember_object] at hm ⊢
    obtain ⟨w, hw, -⟩ := map_eq_ok_iff.mp hm
    rw [ih w hw]
    rfl
  | arrayItem inner ih =>
    intro v hv
    rw [decode_array] at hv ⊢
    exact map_mapM_of_replaced hv ih
  | plainItem inner ih =>
    intro v hv
    rw [decode_list] at hv ⊢
    exact map_mapM_of_replaced hv ih
  | setItem inner ih =>
    intro v hv
    rw [decode_set] at hv ⊢
    exact map_mapM_of_replaced hv ih
  | mapKey inner ih =>
    intro v hv
    rw [decode_map] at hv ⊢
    refine map_mapM_of_replaced hv fun e he => ?_
    rw [decodeEntry_list] at he ⊢
    obtain ⟨key, hkey, -⟩ := bind_eq_ok_iff.mp he
    rw [ih key hkey]
    rfl
  | mapValue inner ih =>
    intro v hv
    rw [decode_map] at hv ⊢
    refine map_mapM_of_replaced hv fun e he => ?_
    rw [decodeEntry_list] at he ⊢
    obtain ⟨key, hkey, he⟩ := bind_eq_ok_iff.mp he
    obtain ⟨value, hvalue, -⟩ := map_eq_ok_iff.mp he
    -- The key is read before the value, and it is as good as before.
    rw [hkey, ih value hvalue]
    rfl

/-- Every value can be written as a document, and every document that writes it is decoded to it.
With an object that is not in any form of a value in the place of one subvalue, at any depth, the
document is refused as malformed, for the fault of that object. -/
theorem decode_inverts_writing (v : Value) :
    (∃ d, v.WrittenAs d)
    ∧ ∀ d, v.WrittenAs d →
        decode d = .ok v
        ∧ ∀ fields d', isUnrecognised fields = true → Replaced (.object fields) d d' →
            decode d' = .error (faultOf fields) ∧ (faultOf fields).kind = "MalformedStream" := by
  refine ⟨v.exists_written, fun d hd => ?_⟩
  have hdecode := decode_of_written hd
  exact ⟨hdecode, fun fields d' hbad h => ⟨decode_of_replaced hbad h v hdecode, rfl⟩⟩

/-- A map whose first key is an array of two arrays. -/
def sampleNested : Value :=
  .map [(.array [.array [.leaf .null], .array []], .leaf (.int 1)),
    (.unresolved (.text "Guid"), .struct (.text "Pair") [(.text "First", .set [.leaf (.int 2)])])]

/-- The arrays of `sampleNested` are written in both ways; `x` stands for the one member of the
set. -/
def sampleNestedDocument (x : Document) : Document :=
  .object [("map", .list
    [.list [.list [.object [("array", .list [.scalar .null])], .list []], .scalar (.int 1)],
      .list [.object [("struct", .text "Guid"), ("opaque", .bool true)],
        .object [("struct", .text "Pair"), ("properties", .list
          [.object [("name", .text "First"), ("value", .object [("set", .list [x])])]])]]])]

theorem sampleNested_writtenAs :
    sampleNested.WrittenAs (sampleNestedDocument (.scalar (.int 2))) := by
  have hkey : WrittenAs (.array [.array [.leaf .null], .array []])
      (.list [.object [("array", .list [.scalar .null])], .list []]) :=
    .plainArray (fun _ _ h => h)
      (.cons (.array (fun _ _ h => h) (.cons (.leaf _) .nil))
        (.cons (.plainArray (fun _ _ h => h) .nil) .nil))
  have hset : WrittenAs (.set [.leaf (.int 2)]) (.object [("set", .list [.scalar (.int 2)])]) :=
    .set (fun _ _ h => h) (.cons (.leaf _) .nil)
  exact .map (fun _ _ h => h)
    (.cons ⟨_, _, rfl, hkey, .leaf _⟩
      (.cons ⟨_, _, rfl, .unresolved _, .struct (fun _ _ h => h) (.cons ⟨_, rfl, hset⟩ .nil)⟩ .nil))

theorem sampleNestedDocument_replaced (bad x : Document) :
    Replaced bad (sampleNestedDocument x) (sampleNestedDocument bad) := by
  have hset : Replaced bad (.object [("set", .list [x])]) (.object [("set", .list [bad])]) :=
    @Replaced.setItem bad x bad [] [] (.here x)
  have hstruct := @Replaced.member bad (.text "Pair") (.text "First") _ _ [] [] hset
  exact @Replaced.mapValue bad _ _ _ [_] [] hstruct

theorem decode_inverts_writing_sample :
    sampleNested.WrittenAs (sampleNestedDocument (.scalar (.int 2)))
    ∧ decode (sampleNestedDocument (.scalar (.int 2))) = .ok sampleNested
    ∧ isUnrecognised [("Struct", .text "Guid")] = true
    ∧ decode (sampleNestedDocument (.object [("Struct", .text "Guid")]))
        = .error (faultOf [("Struct", .text "Guid")]) := by
  have hbad : isUnrecognised [("Struct", .text "Guid")] = true := by decide
  have h := (decode_inverts_writing sampleNested).2 _ sampleNested_writtenAs
  exact ⟨sampleNested_writtenAs, h.1, hbad, (h.2 _ _ hbad (sampleNestedDocument_replaced _ _)).1⟩

end Value

end Kismet
