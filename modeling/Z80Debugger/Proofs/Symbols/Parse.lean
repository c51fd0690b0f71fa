import Z80Debugger.Proofs.Symbols.Definition
import Z80Debugger.Proofs.Symbols.Directions

/-!
# A symbol file counts as a whole

Lines that are skipped or define a name are read as what they say, and the table afterwards is the
one that the definitions in order give.  If some line is neither, the first such line is named with
its number, and the table stays as it was.
-/

set_option autoImplicit false

namespace Z80Debugger.Symbols

namespace File

open Text (isBlank)

/-- A line that is neither skipped nor a definition: the pattern does not match, or the digits of
the match give no 32-bit value. -/
structure IsMalformed (line : List Char) : Prop where
  not_skipped : ¬ IsSkipped line
  unread : definitionPattern.captures (Text.trim line) = none ∨
    ∃ name digits value, definitionPattern.captures (Text.trim line) = some [name, digits] ∧
      Text.Hex.value? digits = some value ∧ 0x100000000 ≤ value

/-- The lines define the names at their addresses, in this order, and nothing else. -/
inductive Writes : List (List Char) → List (String × UInt32) → Prop where
  | nil : Writes [] []
  | skip {line : List Char} {lines : List (List Char)} {ds : List (String × UInt32)}
    (hbreak : '\n' ∉ line) (hline : IsSkipped line) (hrest : Writes lines ds) :
    Writes (line :: lines) ds
  | define {line name : List Char} {address : UInt32} {lines : List (List Char)}
    {ds : List (String × UInt32)} (hbreak : '\n' ∉ line) (hline : Defines name address line)
    (hrest : Writes lines ds) : Writes (line :: lines) ((String.ofList name, address) :: ds)

variable {line : List Char} {lines : List (List Char)} {ds : List (String × UInt32)}

/-- Whether reading stops at a line. -/
def stopsAt (line : List Char) : Bool :=
  !isSilent (Text.trim line) && (definition? (Text.trim line)).isNone

/-- What is taken behind a name as digits is digits. -/
theorem digits_of_digitsAfterName? {cs digits : List Char} (h : digitsAfterName? cs = some digits) :
    digits ≠ [] ∧ ∀ c ∈ digits, isDigit c = true := by
  rw [digitsAfterName?, Option.bind_eq_bind, Option.bind_eq_some_iff] at h
  obtain ⟨rest, -, h⟩ := h
  simp only at h
  split at h
  · cases h
  · next hne =>
    split at h
    · cases h
      refine ⟨by simpa using hne, fun c hc => ?_⟩
      exact List.mem_takeWhile_imp hc
    · cases h

/-- So it is wherever the name ends. -/
theorem digits_of_splitAtName? {n : Nat} {name digits : List Char}
    (h : splitAtName? line n = some (name, digits)) :
    digits ≠ [] ∧ ∀ c ∈ digits, isDigit c = true := by
  induction n with
  | zero => cases h
  | succ n ih =>
    rw [splitAtName?] at h
    split at h
    · next found hfound =>
      cases h
      exact digits_of_digitsAfterName? hfound
    · exact ih h

/-- Digits have a value. -/
theorem exists_valueFrom? {digits : List Char} (hdigits : ∀ c ∈ digits, isDigit c = true)
    (acc : Nat) : ∃ value, Text.Hex.valueFrom? acc digits = some value := by
  induction digits generalizing acc with
  | nil => exact ⟨acc, rfl⟩
  | cons d digits ih =>
    obtain ⟨hd, hrest⟩ := List.forall_mem_cons.mp hdigits
    obtain ⟨v, hv⟩ := Option.isSome_iff_exists.mp hd
    rw [Text.Hex.valueFrom?, hv]
    exact ih hrest _

/-- A line that is not skipped has a first character that is no blank. -/
theorem exists_cons_of_not_skipped (hbreak : '\n' ∉ line) (hkept : ¬ IsSkipped line) :
    ∃ c cs, Text.trim line = c :: cs ∧ isBlank c = false ∧ '\n' ∉ cs := by
  obtain hblank | ⟨lead, c, rest, rfl, hlead, hc⟩ := Text.blank_or_exists_append_cons line
  · exact absurd (.blank hblank) hkept
  · refine ⟨c, Text.trimEnd rest, Text.trim_append_cons hlead hc rest, hc, fun hmem => hbreak ?_⟩
    exact List.mem_append_right lead (List.mem_cons_of_mem c (Text.trimEnd_subset rest hmem))

/-- A line that is not skipped defines nothing if the pattern does not match it, or if the digits of
the match are more than 32 bits. -/
theorem definition?_trim_eq_none_iff (hbreak : '\n' ∉ line) (hkept : ¬ IsSkipped line) :
    definition? (Text.trim line) = none ↔ definitionPattern.captures (Text.trim line) = none ∨
      ∃ name digits value, definitionPattern.captures (Text.trim line) = some [name, digits] ∧
        Text.Hex.value? digits = some value ∧ 0x100000000 ≤ value := by
  obtain ⟨c, cs, htrim, hblank, hbreak⟩ := exists_cons_of_not_skipped hbreak hkept
  rw [htrim, captures_definition hblank hbreak]
  simp only [definition?]
  by_cases hstart : isNameStart c = true
  · cases hsplit : splitAtName? (c :: cs) (1 + (cs.takeWhile isNameCharacter).length) with
    | none => simp [hstart]
    | some found =>
      obtain ⟨name, digits⟩ := found
      obtain ⟨hne, hdigits⟩ := digits_of_splitAtName? hsplit
      obtain ⟨value, hvalue⟩ := exists_valueFrom? hdigits 0
      have hvalue : Text.Hex.value? digits = some value := by
        rw [Text.Hex.value?, if_neg (by simpa using hne), hvalue]
      have hword : Text.Hex.word? digits = none ↔ 0x100000000 ≤ value := by
        simp [Text.Hex.word?, hvalue]
      have hread : ((Text.Hex.word? digits).bind fun address =>
          some (String.ofList name, address)) = none ↔ Text.Hex.word? digits = none := by
        cases Text.Hex.word? digits <;> simp
      simp only [hstart, if_true, Option.bind_eq_bind, Option.bind_some, Option.map_some,
        reduceCtorEq, false_or]
      refine hread.trans (hword.trans ⟨fun h => ⟨name, digits, value, rfl, hvalue, h⟩, ?_⟩)
      rintro ⟨_, _, found, hfound, hother, h⟩
      cases hfound
      rw [hvalue] at hother
      cases hother
      exact h
  · simp [hstart]

/-- Reading stops at a line exactly if it is malformed. -/
theorem stopsAt_iff (hbreak : '\n' ∉ line) : stopsAt line = true ↔ IsMalformed line := by
  rw [stopsAt, Bool.and_eq_true, Bool.not_eq_true', Option.isNone_iff_eq_none,
    ← Bool.not_eq_true, isSilent_trim_iff]
  constructor
  · rintro ⟨hkept, hnone⟩
    exact ⟨hkept, (definition?_trim_eq_none_iff hbreak hkept).mp hnone⟩
  · rintro ⟨hkept, hunread⟩
    exact ⟨hkept, (definition?_trim_eq_none_iff hbreak hkept).mpr hunread⟩

/-- Reading goes on up to the first line at which it stops. -/
theorem definitionsFrom_of_stopsAt {before behind : List (List Char)}
    (hbefore : ∀ l ∈ before, stopsAt l = false) (hline : stopsAt line = true) (number : Nat) :
    definitionsFrom number (before ++ line :: behind) =
      .error { line := number + before.length, text := String.ofList (Text.trim line) } := by
  induction before generalizing number with
  | nil =>
    rw [stopsAt, Bool.and_eq_true, Bool.not_eq_true', Option.isNone_iff_eq_none] at hline
    obtain ⟨hsilent, hnone⟩ := hline
    simp only [List.nil_append, definitionsFrom, hsilent, Bool.false_eq_true, if_false, hnone]
    rfl
  | cons l before ih =>
    obtain ⟨hl, hbefore⟩ := List.forall_mem_cons.mp hbefore
    have hrest := ih hbefore (number + 1)
    have hnumber : number + 1 + before.length = number + (l :: before).length := by
      rw [List.length_cons]
      omega
    rw [List.cons_append, definitionsFrom, hrest, hnumber]
    cases hsilent : isSilent (Text.trim l) with
    | true => rfl
    | false =>
      cases hread : definition? (Text.trim l) with
      | none => simp [stopsAt, hsilent, hread] at hl
      | some entry => rfl

/-- Lines that write definitions are read as those, whatever their number. -/
theorem definitionsFrom_of_writes (h : Writes lines ds) (number : Nat) :
    definitionsFrom number lines = .ok ds := by
  induction h generalizing number with
  | nil => rfl
  | skip hbreak hline hrest ih =>
    rw [definitionsFrom, if_pos (isSilent_trim_iff.mpr hline), ih]
  | define hbreak hline hrest ih =>
    obtain ⟨hread, hsilent⟩ := definition?_of_defines hline
    simp only [definitionsFrom, hsilent, Bool.false_eq_true, if_false, hread, ih]
    rfl

/-- A line that writes a definition has no break in it. -/
theorem not_mem_of_writes (h : Writes lines ds) : ∀ l ∈ lines, '\n' ∉ l := by
  induction h with
  | nil => simp
  | skip hbreak hline hrest ih => exact List.forall_mem_cons.mpr ⟨hbreak, ih⟩
  | define hbreak hline hrest ih => exact List.forall_mem_cons.mpr ⟨hbreak, ih⟩

/-- A text that writes definitions is read as those. -/
theorem definitions_of_writes (h : Writes lines ds) :
    definitions (String.ofList (Text.joinLines lines)) = .ok ds := by
  rw [definitions, String.toList_ofList]
  cases hlines : lines with
  | nil =>
    rw [hlines] at h
    cases h
    rfl
  | cons line rest =>
    rw [← hlines]
    have hback := Text.lines_joinLines (by simp [hlines]) (not_mem_of_writes h)
    rw [← Text.lines, hback, definitionsFrom_of_writes h]

/-- The first line of a text at which reading stops. -/
theorem exists_first_stop (h : ∃ line ∈ lines, stopsAt line = true) :
    ∃ before line behind, lines = before ++ line :: behind ∧
      (∀ l ∈ before, stopsAt l = false) ∧ stopsAt line = true := by
  obtain ⟨line, hline⟩ := Option.isSome_iff_exists.mp (List.find?_isSome.mpr h)
  obtain ⟨hstop, before, behind, hsplit, hbefore⟩ := List.find?_eq_some_iff_append.mp hline
  exact ⟨before, line, behind, hsplit, by simpa using hbefore, hstop⟩

end File

/-- Reading a symbol file is all or nothing.  Lines that are skipped or define names give the table
that the definitions in their order give, and the number of definitions.  If some line of a text is
malformed, its first such line is named, by its number from one and without the blanks around it,
and the table stays as it was. -/
theorem parse_all_or_nothing (s : Symbols) :
    (∀ lines ds, File.Writes lines ds →
      s.parse (String.ofList (Text.joinLines lines)) = .ok (s.insertAll ds, ds.length)) ∧
    ∀ text : String, (∃ line ∈ Text.lines text.toList, File.IsMalformed line) →
      ∃ before line behind, Text.lines text.toList = before ++ line :: behind ∧
        (∀ l ∈ before, ¬ File.IsMalformed l) ∧ File.IsMalformed line ∧
        s.parse text =
          .error { line := before.length + 1, text := String.ofList (Text.trim line) } ∧
        (Operation.parse text).apply s = s := by
  constructor
  · intro lines ds hwrites
    rw [parse, File.definitions_of_writes hwrites]
    rfl
  · rintro text ⟨bad, hbad, hmalformed⟩
    have hbreaks : ∀ l ∈ Text.lines text.toList, '\n' ∉ l := fun l => Text.not_mem_of_mem_lines
    obtain ⟨before, line, behind, hsplit, hbefore, hline⟩ :=
      File.exists_first_stop ⟨bad, hbad, (File.stopsAt_iff (hbreaks bad hbad)).mpr hmalformed⟩
    have herror : File.definitions text =
        .error { line := before.length + 1, text := String.ofList (Text.trim line) } := by
      rw [File.definitions, ← Text.lines, hsplit,
        File.definitionsFrom_of_stopsAt hbefore hline, Nat.add_comm]
    have hparse : s.parse text =
        .error { line := before.length + 1, text := String.ofList (Text.trim line) } := by
      rw [parse, herror]
      rfl
    refine ⟨before, line, behind, hsplit, ?_, ?_, hparse, ?_⟩
    · intro l hl hl'
      have hkept := hbefore l hl
      rw [(File.stopsAt_iff (hbreaks l (by simp [hsplit, hl]))).mpr hl'] at hkept
      cases hkept
    · exact (File.stopsAt_iff (hbreaks line (by simp [hsplit]))).mp hline
    · simp only [Operation.apply, hparse]

end Z80Debugger.Symbols
