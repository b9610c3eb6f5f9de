import Kismet.Proofs.Hex
import Kismet.Proofs.Offset
set_option autoImplicit false

/-!
# Skeleton: the script behind a listing can be read off its text

The text of a line tells which kind of line it is: it begins with a digit, or
with ten blanks, or it is the separator.  The text of the line of an instruction
gives its offset, its indentation and its code, whatever label and detail follow.
`disassemble_skeleton` says that what is read off the lines of a listing is the
sequence of the instructions, each in front of those nested in it.
-/

namespace Kismet.Listing

/-! ## Kinds of lines -/

/-- The kinds of lines. -/
inductive LineKind where
  | op
  | note
  | separator
  deriving DecidableEq, Repr, Inhabited

/-- The text is that of a line of the kind. -/
def LineKind.holds (t : String) : LineKind → Bool
  | .op => t.toList.head?.any Text.isHexDigit
  | .note => (List.replicate 10 ' ').isPrefixOf t.toList
  | .separator => t == String.ofList (List.replicate 80 '-')

/-- The kind that the first character of a text tells. -/
def LineKind.ofFirst (c : Char) : LineKind :=
  if Text.isHexDigit c then .op else if c = ' ' then .note else .separator

theorem LineKind.ofFirst_of_holds {t : String} {kind : LineKind} (h : kind.holds t = true) :
    t.toList.head?.map ofFirst = some kind := by
  cases kind with
  | op =>
    obtain ⟨c, hc, hdigit⟩ : ∃ c, t.toList.head? = some c ∧ Text.isHexDigit c = true := by
      simpa [holds, Option.any_eq_true] using h
    simp [hc, ofFirst, hdigit]
  | note =>
    obtain ⟨rest, hrest⟩ := List.isPrefixOf_iff_prefix.mp h
    rw [← hrest]
    rfl
  | separator =>
    obtain rfl := eq_of_beq h
    rw [String.toList_ofList]
    rfl

/-- No text is of two kinds. -/
theorem LineKind.eq_of_holds {t : String} {a b : LineKind} (ha : a.holds t = true)
    (hb : b.holds t = true) : a = b := by
  have ha' := ofFirst_of_holds ha
  rw [ofFirst_of_holds hb] at ha'
  exact (Option.some.inj ha').symm

/-! ## Lines are read back -/

/-- What the line of an instruction says about its place. -/
structure Reading where
  offset : Nat
  indent : Nat
  code : Nat
  deriving DecidableEq, Repr, Inhabited

/-- Reads the text of the line of an instruction: digits, blanks, and digits in
brackets. -/
def read (t : String) : Reading where
  offset := Text.readHex (t.toList.takeWhile Text.isHexDigit)
  indent := ((t.toList.dropWhile Text.isHexDigit).takeWhile (· == ' ')).length / 2 - 1
  code :=
    let bracket := (t.toList.dropWhile Text.isHexDigit).dropWhile (· == ' ')
    Text.readHex (bracket.tail.takeWhile Text.isHexDigit)

/-- What is to be read off the line with a head. -/
def Head.reading? (h : Head) : Option Reading :=
  h.op.map fun op => ⟨h.offset.toNat, h.indent.toNat, op.code⟩

/-- The line can have been written: its offset and indentation are not
negative. -/
def Head.Proper (h : Head) : Prop :=
  0 ≤ h.offset ∧ 0 ≤ h.indent

/-- A run of characters ends where the first other one stands. -/
theorem run_append {p : Char → Bool} {run rest : List Char} (h : ∀ c ∈ run, p c = true)
    (hrest : rest.head?.any p = false) :
    (run ++ rest).takeWhile p = run ∧ (run ++ rest).dropWhile p = rest := by
  rw [List.takeWhile_append_of_pos h, List.dropWhile_append_of_pos h]
  cases rest with
  | nil => simp
  | cons c rest =>
    have hc : p c = false := hrest
    simp [hc]

theorem toList_text_instr (offset indent : Nat) (op : Opcode) (label : String)
    (detail : Option String) :
    ∃ rest, (Line.text (.instr offset indent op label detail)).toList
      = Text.zeroFill 8 (Text.hexDigits offset) ++ (List.replicate (2 * (indent + 1)) ' '
          ++ '[' :: (Text.zeroFill 2 (Text.hexDigits op.code) ++ ']' :: rest)) := by
  have hblanks : List.replicate (2 * (indent + 1)) ' '
      = ' ' :: ' ' :: List.replicate (2 * indent) ' ' := rfl
  cases detail with
  | none => exact ⟨' ' :: label.toList, by simp [Line.text, Text.toList_hex, padding, hblanks]⟩
  | some d =>
    exact ⟨' ' :: label.toList ++ ':' :: ' ' :: d.toList,
      by simp [Line.text, Text.toList_hex, padding, hblanks]⟩

theorem read_text_instr (offset indent : Nat) (op : Opcode) (label : String)
    (detail : Option String) :
    read (Line.text (.instr offset indent op label detail)) = ⟨offset, indent, op.code⟩ := by
  obtain ⟨rest, hrest⟩ := toList_text_instr offset indent op label detail
  have hoffset : ∀ c ∈ Text.zeroFill 8 (Text.hexDigits offset), Text.isHexDigit c = true :=
    Text.isHexDigit_of_mem_zeroFill (Text.isHexDigit_of_mem_hexDigits offset)
  have hcode : ∀ c ∈ Text.zeroFill 2 (Text.hexDigits op.code), Text.isHexDigit c = true :=
    Text.isHexDigit_of_mem_zeroFill (Text.isHexDigit_of_mem_hexDigits op.code)
  have hblanks : ∀ c ∈ List.replicate (2 * (indent + 1)) ' ', (c == ' ') = true := by
    intro c hc
    rw [(List.mem_replicate.mp hc).2]
    rfl
  obtain ⟨hdigits, hafter⟩ := run_append hoffset
    (show (List.replicate (2 * (indent + 1)) ' ' ++ '[' :: (Text.zeroFill 2
      (Text.hexDigits op.code) ++ ']' :: rest)).head?.any Text.isHexDigit = false from rfl)
  obtain ⟨hindent, hbracket⟩ := run_append hblanks
    (show ('[' :: (Text.zeroFill 2 (Text.hexDigits op.code) ++ ']' :: rest)).head?.any
      (· == ' ') = false from rfl)
  obtain ⟨hinner, -⟩ := run_append hcode
    (show (']' :: rest).head?.any Text.isHexDigit = false from rfl)
  have hhalf : 2 * (indent + 1) / 2 - 1 = indent := by omega
  simp only [read, hrest, hdigits, hafter, hindent, hbracket, List.tail_cons, hinner,
    Text.readHex_zeroFill, Text.readHex_hexDigits, List.length_replicate, hhalf]

/-! ## Lines are of a kind -/

/-- The kind of a line. -/
def Line.kind : Line → LineKind
  | .instr .. => .op
  | .note .. => .note
  | .separator => .separator

theorem holds_text_instr (offset indent : Nat) (op : Opcode) (label : String)
    (detail : Option String) :
    LineKind.op.holds (Line.text (.instr offset indent op label detail)) = true := by
  obtain ⟨rest, hrest⟩ := toList_text_instr offset indent op label detail
  have hdigit : ∀ c ∈ Text.zeroFill 8 (Text.hexDigits offset), Text.isHexDigit c = true :=
    Text.isHexDigit_of_mem_zeroFill (Text.isHexDigit_of_mem_hexDigits offset)
  rw [LineKind.holds, hrest]
  cases hdigits : Text.zeroFill 8 (Text.hexDigits offset) with
  | nil =>
    rw [Text.zeroFill, Text.hexDigits_eq] at hdigits
    simp at hdigits
  | cons c digits =>
    rw [hdigits] at hdigit
    exact hdigit c (List.mem_cons_self ..)

/-- The text of a line tells its kind. -/
theorem Line.holds_kind {line : Line} (h : ∀ hd, line.head? = some hd → hd.Proper) :
    line.kind.holds line.text = true := by
  cases line with
  | instr offset indent op label detail =>
    obtain ⟨hoffset, hindent⟩ := h _ rfl
    obtain ⟨offset, rfl⟩ := Int.eq_ofNat_of_zero_le hoffset
    obtain ⟨indent, rfl⟩ := Int.eq_ofNat_of_zero_le hindent
    exact holds_text_instr offset indent op label detail
  | note indent text =>
    refine List.isPrefixOf_iff_prefix.mpr ⟨(padding indent ++ text).toList, ?_⟩
    simp [Line.text, noteMargin]
  | separator => exact beq_self_eq_true _

/-- The texts of the lines of instructions. -/
def opTexts (lines : List Line) : List String :=
  (lines.map Line.text).filter fun t => LineKind.op.holds t

theorem map_read_opTexts_singleton {line : Line} (h : ∀ hd, line.head? = some hd → hd.Proper) :
    (opTexts [line]).map (fun t => some (read t)) = (heads [line]).map Head.reading? := by
  have hkind := line.holds_kind h
  cases line with
  | instr offset indent op label detail =>
    obtain ⟨hoffset, hindent⟩ := h _ rfl
    obtain ⟨offset, rfl⟩ := Int.eq_ofNat_of_zero_le hoffset
    obtain ⟨indent, rfl⟩ := Int.eq_ofNat_of_zero_le hindent
    have hop : LineKind.op.holds (Line.text (.instr offset indent op label detail)) = true := hkind
    simp [opTexts, hop, read_text_instr, heads, Line.head?, Head.reading?]
  | note indent text =>
    have hop : LineKind.op.holds (Line.text (.note indent text)) = false := by
      rw [Bool.eq_false_iff]
      intro hop
      exact LineKind.noConfusion (LineKind.eq_of_holds hop hkind)
    simp [opTexts, hop, heads, Line.head?]
  | separator => rfl

/-- What is read off the lines of instructions is what their heads say. -/
theorem map_read_opTexts {lines : List Line} (h : ∀ hd ∈ heads lines, hd.Proper) :
    (opTexts lines).map (fun t => some (read t)) = (heads lines).map Head.reading? := by
  induction lines with
  | nil => rfl
  | cons line rest ih =>
    have hheads : heads (line :: rest) = heads [line] ++ heads rest := heads_append [line] rest
    have htexts : opTexts (line :: rest) = opTexts [line] ++ opTexts rest := by
      rw [opTexts, ← List.singleton_append, List.map_append, List.filter_append]
      rfl
    rw [hheads] at h ⊢
    have hline : ∀ hd, line.head? = some hd → hd.Proper := by
      intro hd hhd
      exact h hd (List.mem_append_left _ (List.mem_filterMap.mpr ⟨line, by simp, hhd⟩))
    rw [htexts, List.map_append, List.map_append, map_read_opTexts_singleton hline,
      ih fun hd hmem => h hd (List.mem_append_right _ hmem)]

end Kismet.Listing

namespace Kismet

/-- What is to be read off the line of a visited instruction. -/
def Visit.reading? (v : Visit) : Option Listing.Reading :=
  v.operand.opcode?.map fun op => ⟨v.offset, v.indent, op.code⟩

end Kismet

namespace Kismet.Listing

/-- Offsets that are read off lines increase as those of the instructions do. -/
theorem pairwise_read {texts : List String} {vs : List Visit}
    (hread : texts.map (fun t => some (read t)) = vs.map Visit.reading?)
    (hvs : vs.Pairwise fun a b => a.offset < b.offset) :
    (texts.map read).Pairwise fun a b => a.offset < b.offset := by
  have hreadings : (vs.map Visit.reading?).Pairwise
      fun x y => ∀ a ∈ x, ∀ b ∈ y, a.offset < b.offset := by
    rw [List.pairwise_map]
    refine hvs.imp ?_
    intro v w hlt a ha b hb
    obtain ⟨op, -, rfl⟩ := Option.map_eq_some_iff.mp ha
    obtain ⟨op', -, rfl⟩ := Option.map_eq_some_iff.mp hb
    exact hlt
  rw [← hread, List.pairwise_map] at hreadings
  rw [List.pairwise_map]
  exact hreadings.imp fun hlt => hlt _ rfl _ rfl

/-- In a listing every line is of one of three kinds, which exclude one another.
Read off their texts, the lines of instructions are the visited instructions in
order, each with its offset, its indentation and the code of its tag; and the
offsets increase from line to line. -/
theorem disassemble_skeleton {e : Encoding} {s : Setting} {script : List Operand} {l : Listing}
    (h : disassemble e s script = .ok l) :
    (∀ line ∈ l.lines, ∃ kind : LineKind, kind.holds line.text = true)
    ∧ (∀ (t : String) (a b : LineKind), a.holds t = true → b.holds t = true → a = b)
    ∧ (opTexts l.lines).map (fun t => some (read t)) = (visits e script).map Visit.reading?
    ∧ ((opTexts l.lines).map read).Pairwise fun a b => a.offset < b.offset := by
  obtain ⟨hf, rfl⟩ := disassemble_eq_ok h
  have hheads := (scriptItems_faithful s hf).2
  have hproper : ∀ hd ∈ heads (itemsLines s 0 0 (-1) (scriptItems e script)), hd.Proper := by
    intro hd hmem
    rw [hheads] at hmem
    obtain ⟨v, -, rfl⟩ := List.mem_map.mp hmem
    exact ⟨Int.natCast_nonneg _, Int.natCast_nonneg _⟩
  have hread := map_read_opTexts hproper
  rw [hheads, List.map_map] at hread
  refine ⟨?_, fun t a b => LineKind.eq_of_holds, hread, ?_⟩
  · intro line hline
    exact ⟨line.kind, line.holds_kind fun hd hhd =>
      hproper hd (List.mem_filterMap.mpr ⟨line, hline, hhd⟩)⟩
  · exact pairwise_read hread (visits_pairwise hf)

/-- What is read off the listing of the sample script. -/
theorem disassemble_skeleton_sample :
    ∃ l, disassemble {} {} [sampleBranch, sampleReturn] = .ok l
      ∧ (opTexts l.lines).map (fun t => some (read t))
          = [some ⟨0, 0, 0x07⟩, some ⟨5, 1, 0x00⟩, some ⟨14, 0, 0x04⟩, some ⟨15, 1, 0x1D⟩] := by
  have h : ∃ l, disassemble {} {} [sampleBranch, sampleReturn] = .ok l := ⟨_, rfl⟩
  obtain ⟨l, hl⟩ := h
  obtain ⟨-, -, hread, -⟩ := disassemble_skeleton hl
  rw [visits_sample] at hread
  exact ⟨l, hl, hread⟩

end Kismet.Listing
