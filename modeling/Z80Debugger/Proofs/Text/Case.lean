import Mathlib
import Z80Debugger.Address
import Z80Debugger.Symbols.Table

/-!
# Texts that differ in case

Folding a text changes capitals only, so it moves no blank and no separator.  It commutes with
everything that takes a text apart, and the value of a numeral stays.  `parse?_fold` follows: an
address may be written in either case, if the labels do not tell the cases apart, as the names of a
symbol table do not.
-/

set_option autoImplicit false

namespace Z80Debugger

open Text (fold)

namespace Text

/-- Folding moves the code points of capitals, and no others. -/
theorem toNat_toLower (c : Char) :
    c.toLower.toNat = if 65 ≤ c.toNat ∧ c.toNat ≤ 90 then c.toNat + 32 else c.toNat := by
  have hcapital : c.isUpper = true ↔ 65 ≤ c.toNat ∧ c.toNat ≤ 90 := by
    simp [Char.isUpper, UInt32.le_iff_toNat_le]
  by_cases hc : c.isUpper = true
  · have hvalid : (c.toNat + 32).isValidChar := by
      have hrange := hcapital.mp hc
      exact Or.inl (by omega)
    rw [if_pos (hcapital.mp hc), Char.toLower_eq_of_isUpper hc, Char.toNat_ofNat, if_pos hvalid]
  · rw [if_neg (mt hcapital.mpr hc), Char.toLower_eq_of_not_isUpper hc]

/-- A character that is no letter is folded to by itself only. -/
theorem toLower_eq_iff {c : Char} (hlow : c.toNat < 97) (hcapital : ¬ (65 ≤ c.toNat ∧ c.toNat ≤ 90))
    (d : Char) : d.toLower = c ↔ d = c := by
  rw [← Char.toNat_inj, ← Char.toNat_inj, toNat_toLower]
  split <;> omega

/-- A letter in either case is folded to by its two cases only. -/
theorem toLower_eq_or_iff {small capital : Char} (hsmall : small.toNat = capital.toNat + 32)
    (hcapital : 65 ≤ capital.toNat ∧ capital.toNat ≤ 90) (d : Char) :
    (d.toLower = small ∨ d.toLower = capital) ↔ (d = small ∨ d = capital) := by
  simp only [← Char.toNat_inj, toNat_toLower]
  split <;> omega

/-- A character folds to a small letter if it is that letter or its capital. -/
theorem toLower_eq_small_iff (small capital d : Char)
    (hsmall : small.toNat = capital.toNat + 32 := by decide)
    (hcapital : 65 ≤ capital.toNat ∧ capital.toNat ≤ 90 := by decide) :
    d.toLower = small ↔ d = small ∨ d = capital := by
  simp only [← Char.toNat_inj, toNat_toLower]
  split <;> omega

/-- A blank differs from what is none. -/
theorem ne_of_isBlank {c d : Char} (hc : isBlank c = true) (hd : isBlank d = false) : c ≠ d := by
  rintro rfl
  rw [hc] at hd
  cases hd

/-- Whether a character is blank does not depend on case. -/
theorem isBlank_toLower (c : Char) : isBlank c.toLower = isBlank c := by
  rw [Bool.eq_iff_iff]
  simp only [isBlank, toNat_toLower, Bool.or_eq_true, Bool.and_eq_true, decide_eq_true_eq,
    beq_iff_eq]
  split <;> omega

/-- Folding twice is folding once. -/
@[simp] theorem fold_fold (cs : List Char) : fold (fold cs) = fold cs := by
  simp only [fold, List.map_map]
  exact List.map_congr_left fun c _ => Char.toLower_toLower_eq_toLower c

/-- Folding makes nothing empty. -/
@[simp] theorem isEmpty_fold (cs : List Char) : (fold cs).isEmpty = cs.isEmpty := by
  simp [fold]

/-- Pieces are cut at the same places after a change of characters that keeps the separators. -/
theorem pieces_map {α : Type} {p : α → Bool} {f : α → α} (hf : ∀ a, p (f a) = p a) (as : List α) :
    pieces p (as.map f) = (pieces p as).map (List.map f) := by
  induction as with
  | nil => rfl
  | cons a as ih =>
    rw [List.map_cons, pieces_cons, pieces_cons, hf, ih]
    split
    · rfl
    · cases pieces p as <;> rfl

/-- The words of a folded text are the folded words. -/
theorem words_fold (cs : List Char) : words (fold cs) = (words cs).map fold := by
  rw [words, fold, pieces_map isBlank_toLower, List.filter_map, words]
  congr 1
  apply List.filter_congr
  intro piece _
  simp

/-- Trimming commutes with folding. -/
theorem trim_fold (cs : List Char) : trim (fold cs) = fold (trim cs) := by
  -- Each end is trimmed by the same dropping of blanks, the far one in the reversed text.
  have hdrop (ds : List Char) : (fold ds).dropWhile isBlank = fold (ds.dropWhile isBlank) := by
    have hsame : isBlank ∘ Char.toLower = isBlank := funext isBlank_toLower
    rw [fold, List.dropWhile_map, hsame, fold]
  rw [trim, trim, trimStart, hdrop, trimEnd, trimEnd, fold, ← List.map_reverse, ← fold, hdrop, fold,
    ← List.map_reverse, trimStart, fold]

/-- Splitting at a character without case commutes with folding. -/
theorem splitFirst?_fold {c : Char} (hc : ∀ d : Char, d.toLower = c ↔ d = c) (cs : List Char) :
    splitFirst? c (fold cs) = (splitFirst? c cs).map fun (a, b) => (fold a, fold b) := by
  induction cs with
  | nil => rfl
  | cons d cs ih =>
    have hcons : fold (d :: cs) = d.toLower :: fold cs := rfl
    rw [hcons, splitFirst?, splitFirst?, ih]
    by_cases hd : d = c
    · rw [if_pos ((hc d).mpr hd), if_pos hd]
      rfl
    · rw [if_neg (fun h => hd ((hc d).mp h)), if_neg hd]
      cases splitFirst? c cs <;> rfl

/-- Folding neither adds nor removes a character without case. -/
theorem mem_fold_iff {c : Char} (hc : ∀ d : Char, d.toLower = c ↔ d = c) {cs : List Char} :
    c ∈ fold cs ↔ c ∈ cs := by
  simp [fold, hc]

namespace Hex

/-- A digit has the same value in both cases. -/
theorem digit?_toLower (c : Char) : digit? c.toLower = digit? c := by
  simp only [digit?, Char.le_def, UInt32.le_iff_toNat_le, Char.toNat_val, toNat_toLower]
  split
  all_goals grind

/-- So have several. -/
theorem valueFrom?_fold (acc : Nat) (cs : List Char) :
    valueFrom? acc (fold cs) = valueFrom? acc cs := by
  induction cs generalizing acc with
  | nil => rfl
  | cons c cs ih =>
    have hcons : fold (c :: cs) = c.toLower :: fold cs := rfl
    rw [hcons, valueFrom?, valueFrom?, digit?_toLower]
    cases digit? c with
    | none => rfl
    | some d => exact ih _

/-- So has a word of digits. -/
theorem word?_fold (cs : List Char) : word? (fold cs) = word? cs := by
  rw [word?, word?, value?, value?, isEmpty_fold, valueFrom?_fold]

/-- The mark of hexadecimal at the start, by the first two characters. -/
theorem withoutRadix_cons (c : Char) (cs : List Char) :
    withoutRadix (c :: cs) =
      if c = '$' then cs
      else if c = '0' ∧ (cs.head? = some 'x' ∨ cs.head? = some 'X') then cs.tail
      else c :: cs := by
  unfold withoutRadix
  split
  · next heq =>
    cases heq
    rfl
  · next heq =>
    cases heq
    rfl
  · next heq =>
    cases heq
    rfl
  · next hdollar hsmall hcapital =>
    have hc : c ≠ '$' := by
      rintro rfl
      exact hdollar cs rfl
    have hnone : ¬ (c = '0' ∧ (cs.head? = some 'x' ∨ cs.head? = some 'X')) := by
      rintro ⟨rfl, hhead⟩
      cases cs with
      | nil => simp at hhead
      | cons d cs =>
        simp only [List.head?_cons, Option.some.injEq] at hhead
        obtain rfl | rfl := hhead
        · exact hsmall cs rfl
        · exact hcapital cs rfl
    rw [if_neg hc, if_neg hnone]

/-- Taking off the prefix commutes with folding. -/
theorem withoutRadix_fold (cs : List Char) :
    withoutRadix (fold cs) = fold (withoutRadix cs) := by
  cases cs with
  | nil => rfl
  | cons c cs =>
    have hcons : fold (c :: cs) = c.toLower :: fold cs := rfl
    have hdollar := toLower_eq_iff (c := '$') (by decide) (by decide) c
    have hzero := toLower_eq_iff (c := '0') (by decide) (by decide) c
    have hhead : ((fold cs).head? = some 'x' ∨ (fold cs).head? = some 'X') ↔
        (cs.head? = some 'x' ∨ cs.head? = some 'X') := by
      cases cs with
      | nil => rfl
      | cons d cs =>
        simp only [fold, List.map_cons, List.head?_cons, Option.some.injEq]
        exact toLower_eq_or_iff (by decide) (by decide) d
    rw [hcons, withoutRadix_cons, withoutRadix_cons]
    simp only [hdollar, hzero, hhead, apply_ite fold]
    simp only [fold, List.map_tail, List.map_cons]

end Hex

end Text

namespace Address

/-- Taking off the suffix commutes with folding. -/
theorem withoutSuffix_fold (cs : List Char) :
    withoutSuffix (fold cs) = fold (withoutSuffix cs) := by
  have hif (ds : List Char) : withoutSuffix ds =
      if ds.getLast? = some 'h' ∨ ds.getLast? = some 'H' then ds.dropLast else ds := by
    rw [withoutSuffix]
    split
    · next heq => rw [if_pos (Or.inl heq)]
    · next heq => rw [if_pos (Or.inr heq)]
    · next hsmall hcapital => rw [if_neg (not_or.mpr ⟨hsmall, hcapital⟩)]
  have hlast : ((fold cs).getLast? = some 'h' ∨ (fold cs).getLast? = some 'H') ↔
      (cs.getLast? = some 'h' ∨ cs.getLast? = some 'H') := by
    rw [fold, List.getLast?_map]
    cases cs.getLast? with
    | none => simp
    | some d =>
      simp only [Option.map_some, Option.some.injEq]
      exact Text.toLower_eq_or_iff (by decide) (by decide) d
  rw [hif, hif]
  simp only [hlast, apply_ite fold]
  simp only [fold, List.map_dropLast]

/-- A number is the same in every case. -/
theorem number?_fold (cs : List Char) : number? (fold cs) = number? cs := by
  rw [number?, Text.Hex.withoutRadix_fold, withoutSuffix_fold, Text.Hex.word?_fold, number?]

end Address

/-- Names that differ in case only have the same address. -/
def Labels.IgnoresCase (labels : Labels) : Prop :=
  ∀ cs ds, fold cs = fold ds → labels (String.ofList cs) = labels (String.ofList ds)

/-- The names of a symbol table are looked up without regard to case. -/
theorem Symbols.ignoresCase_resolve (s : Symbols) : Labels.IgnoresCase s.resolve := by
  intro cs ds hsame
  simp only [resolve, foldName, String.toList_ofList, hsame]

namespace Address

variable {labels : Labels}

/-- An address is the same in every case, if labels are. -/
theorem parse?_fold (hlabels : labels.IgnoresCase) (cs : List Char) :
    parse? labels (fold cs) = parse? labels cs := by
  rw [parse?, parse?, Text.trim_fold, number?_fold, hlabels _ _ (Text.fold_fold _)]

/-- So is an address of a page. -/
theorem parsePaged?_fold (hlabels : labels.IgnoresCase) (layout : Layout) (cs : List Char) :
    parsePaged? layout labels (fold cs) = parsePaged? layout labels cs := by
  have hcolon := Text.toLower_eq_iff (c := ':') (by decide) (by decide)
  rw [parsePaged?, parsePaged?, Text.splitFirst?_fold hcolon]
  cases Text.splitFirst? ':' cs with
  | none => rfl
  | some ends =>
    simp only [Option.map_some, Option.bind_eq_bind, Option.bind_some, parse?_fold hlabels]

end Address

end Z80Debugger
