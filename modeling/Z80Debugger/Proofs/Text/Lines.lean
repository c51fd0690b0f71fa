import Mathlib
import Z80Debugger.Text.Pieces
import Z80Debugger.Text.WordCharacter

/-!
# Lines and the blanks around them

Lines that are joined by line breaks are found again, and no line that is found has a break in it.
Trimming stops at the first and the last character that is no blank, so what is known of a line
around such a character holds of the trimmed line as well.
-/

set_option autoImplicit false

namespace Z80Debugger.Text

variable {c : Char} {lead line : List Char}

/-- The lines with a break between each two of them. -/
def joinLines (lines : List (List Char)) : List Char := ['\n'].intercalate lines

/-- The lines of a text. -/
def lines (cs : List Char) : List (List Char) := pieces (· == '\n') cs

/-- Joined lines are split where they were joined. -/
theorem lines_joinLines {ls : List (List Char)} (hne : ls ≠ []) (hbreaks : ∀ l ∈ ls, '\n' ∉ l) :
    lines (joinLines ls) = ls := by
  induction ls with
  | nil => exact absurd rfl hne
  | cons l ls ih =>
    have hl : ∀ c ∈ l, (c == '\n') = false := by
      intro c hc
      exact beq_eq_false_iff_ne.mpr (ne_of_mem_of_not_mem hc (hbreaks l List.mem_cons_self))
    cases ls with
    | nil =>
      rw [joinLines, List.intercalate_singleton]
      exact pieces_of_forall_not hl
    | cons m ms =>
      have hjoin : joinLines (l :: m :: ms) = l ++ '\n' :: joinLines (m :: ms) := by
        simp [joinLines, List.intercalate_cons_cons]
      have hms := ih (List.cons_ne_nil m ms) fun k hk => hbreaks k (List.mem_cons_of_mem l hk)
      rw [hjoin, lines, pieces_append_cons hl rfl, ← lines, hms]

/-- A line has no break in it. -/
theorem not_mem_of_mem_lines {cs : List Char} (hline : line ∈ lines cs) : '\n' ∉ line := by
  rw [lines] at hline
  induction cs generalizing line with
  | nil =>
    rw [pieces_nil, List.mem_singleton] at hline
    simp [hline]
  | cons c cs ih =>
    rw [pieces_cons] at hline
    split at hline
    · rcases List.mem_cons.mp hline with rfl | hline
      · exact List.not_mem_nil
      · exact ih hline
    · next hc =>
      -- The character becomes the first of the first line.
      obtain ⟨first, others, hpieces⟩ := List.exists_cons_of_ne_nil (pieces_ne_nil (· == '\n') cs)
      rw [hpieces, extendFirst] at hline
      rcases List.mem_cons.mp hline with rfl | hline
      · have hfirst := ih (hpieces ▸ List.mem_cons_self)
        simpa [Ne.symm (by simpa using hc : c ≠ '\n')] using hfirst
      · exact ih (hpieces ▸ List.mem_cons_of_mem first hline)

/-- Blanks at the start are trimmed. -/
theorem trimStart_append_cons (hlead : ∀ b ∈ lead, isBlank b = true) (hc : isBlank c = false)
    (rest : List Char) :
    trimStart (lead ++ c :: rest) = c :: rest := by
  rw [trimStart, List.dropWhile_append_of_pos hlead, List.dropWhile_cons_of_neg (by simp [hc])]

/-- Nothing before the last character that is no blank is trimmed at the end. -/
theorem trimEnd_append_cons (hc : isBlank c = false) (lead rest : List Char) :
    trimEnd (lead ++ c :: rest) = lead ++ c :: trimEnd rest := by
  have hstop : (c :: lead.reverse).dropWhile isBlank = c :: lead.reverse :=
    List.dropWhile_cons_of_neg (by simp [hc])
  have hreverse : (lead ++ c :: rest).reverse = rest.reverse ++ c :: lead.reverse := by simp
  rw [trimEnd, hreverse, List.dropWhile_append, hstop, trimEnd]
  split
  · next hempty => simp [List.isEmpty_iff.mp hempty]
  · simp

/-- Of blanks nothing is left at the end. -/
theorem trimEnd_of_forall_isBlank (h : ∀ b ∈ line, isBlank b = true) : trimEnd line = [] := by
  rw [trimEnd, List.reverse_eq_nil_iff, List.dropWhile_eq_nil_iff]
  exact fun b hb => h b (List.mem_reverse.mp hb)

/-- Of blanks nothing is left. -/
theorem trim_of_forall_isBlank (h : ∀ b ∈ line, isBlank b = true) : trim line = [] := by
  have hstart : trimStart line = [] := List.dropWhile_eq_nil_iff.mpr h
  rw [trim, hstart]
  rfl

/-- Trimming begins with the first character that is no blank. -/
theorem trim_append_cons (hlead : ∀ b ∈ lead, isBlank b = true) (hc : isBlank c = false)
    (rest : List Char) :
    trim (lead ++ c :: rest) = c :: trimEnd rest := by
  rw [trim, trimStart_append_cons hlead hc]
  exact trimEnd_append_cons hc [] rest

/-- A line is blank, or it has a first character that is not. -/
theorem blank_or_exists_append_cons (line : List Char) :
    (∀ b ∈ line, isBlank b = true) ∨ ∃ lead c rest, line = lead ++ c :: rest ∧
      (∀ b ∈ lead, isBlank b = true) ∧ isBlank c = false := by
  induction line with
  | nil => exact .inl (by simp)
  | cons d line ih =>
    cases hd : isBlank d with
    | false => exact .inr ⟨[], d, line, rfl, by simp, hd⟩
    | true =>
      rcases ih with hall | ⟨lead, c, rest, rfl, hlead, hc⟩
      · exact .inl (List.forall_mem_cons.mpr ⟨hd, hall⟩)
      · exact .inr ⟨d :: lead, c, rest, rfl, List.forall_mem_cons.mpr ⟨hd, hlead⟩, hc⟩

/-- Trimming adds nothing. -/
theorem trimEnd_subset (line : List Char) : trimEnd line ⊆ line := by
  intro c hc
  exact List.mem_reverse.mp (List.dropWhile_subset _ (List.mem_reverse.mp hc))

/-- The blanks beyond ASCII. -/
def blankRanges : List (Nat × Nat) :=
  [(0x85, 0x85), (0xA0, 0xA0), (0x1680, 0x1680), (0x2000, 0x200A), (0x2028, 0x2029),
    (0x202F, 0x202F), (0x205F, 0x205F), (0x3000, 0x3000)]

/-- No word character is a blank beyond ASCII. -/
theorem wordRanges_disjoint : (wordRanges.toList.all fun r => blankRanges.all fun b =>
    Nat.blt b.2 r.1 || Nat.blt r.2 b.1) = true := by
  decide +kernel

/-- A blank beyond the first 128 characters lies in a range of blanks. -/
theorem code_of_isBlank (hc : isBlank c = true) (hascii : ¬ c.toNat < 0x80) :
    ∃ r ∈ blankRanges, r.1 ≤ c.toNat ∧ c.toNat ≤ r.2 := by
  simp only [isBlank, Bool.or_eq_true, Bool.and_eq_true, decide_eq_true_eq, beq_iff_eq] at hc
  simp only [blankRanges, List.exists_mem_cons_iff, List.not_mem_nil, false_and, exists_false]
  omega

/-- Such a blank lies in no range of word characters. -/
theorem not_inRanges_of_isBlank (hc : isBlank c = true) (hascii : ¬ c.toNat < 0x80) :
    inRanges wordRanges c = false := by
  rw [inRanges, ← Array.any_toList, List.any_eq_false]
  intro r hr hin
  simp only [Bool.and_eq_true, decide_eq_true_eq] at hin
  obtain ⟨b, hb, hcode⟩ := code_of_isBlank hc hascii
  have happart := List.all_eq_true.mp (List.all_eq_true.mp wordRanges_disjoint r hr) b hb
  rw [Bool.or_eq_true, Nat.blt_eq, Nat.blt_eq] at happart
  omega

/-- A blank is no word character. -/
theorem not_isWordCharacter_of_isBlank (hc : isBlank c = true) : isWordCharacter c = false := by
  rw [isWordCharacter]
  split
  · rw [Bool.eq_false_iff]
    intro hword
    have hcode : (((65 ≤ c.toNat ∧ c.toNat ≤ 90) ∨ (97 ≤ c.toNat ∧ c.toNat ≤ 122)) ∨
        (48 ≤ c.toNat ∧ c.toNat ≤ 57)) ∨ c.toNat = 95 := by
      simpa [Char.isAlphanum, Char.isAlpha, Char.isUpper, Char.isLower, Char.isDigit,
        UInt32.le_iff_toNat_le, ← Char.toNat_inj, or_assoc] using hword
    simp only [isBlank, Bool.or_eq_true, Bool.and_eq_true, decide_eq_true_eq, beq_iff_eq] at hc
    omega
  · next hascii => exact not_inRanges_of_isBlank hc hascii

end Z80Debugger.Text
