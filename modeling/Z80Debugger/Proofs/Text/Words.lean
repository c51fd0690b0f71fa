import Z80Debugger.Proofs.Text.Case

/-!
# Reading back what was written

Words that are joined by spaces are found again when none of them is empty or has a blank in it.
Digits that were written are read back after their capitals were folded, too, so a numeral may stand
inside of a word that is compared without case.
-/

set_option autoImplicit false

namespace Z80Debugger

namespace Text

/-- A word that can be found again: it is not empty and has no blank. -/
structure IsWord (w : List Char) : Prop where
  ne_nil : w ≠ []
  not_blank : ∀ c ∈ w, isBlank c = false

/-- Characters that are no blanks are a word, if there are any. -/
theorem IsWord.of_all {w : List Char} (hne : w.isEmpty = false)
    (h : w.all (fun c => !isBlank c) = true) : IsWord w where
  ne_nil := List.isEmpty_eq_false_iff.mp hne
  not_blank := by simpa using h

/-- Every item is a separator or stands in a piece. -/
theorem isSeparator_or_mem_pieces {α : Type} (isSeparator : α → Bool) {a : α} {as : List α}
    (h : a ∈ as) : isSeparator a = true ∨ ∃ piece ∈ pieces isSeparator as, a ∈ piece := by
  induction as with
  | nil => cases h
  | cons b as ih =>
    obtain ⟨first, rest, hpieces⟩ := List.exists_cons_of_ne_nil (pieces_ne_nil isSeparator as)
    rw [pieces_cons]
    cases hb : isSeparator b with
    | true =>
      obtain rfl | h := List.mem_cons.mp h
      · exact Or.inl hb
      · obtain ha | ⟨piece, hpiece, ha⟩ := ih h
        · exact Or.inl ha
        · exact Or.inr ⟨piece, List.mem_cons_of_mem _ hpiece, ha⟩
    | false =>
      rw [hpieces] at ih ⊢
      obtain rfl | h := List.mem_cons.mp h
      · exact Or.inr ⟨a :: first, List.mem_cons_self, List.mem_cons_self⟩
      · obtain ha | ⟨piece, hpiece, ha⟩ := ih h
        · exact Or.inl ha
        · obtain rfl | hpiece := List.mem_cons.mp hpiece
          · exact Or.inr ⟨b :: piece, List.mem_cons_self, List.mem_cons_of_mem _ ha⟩
          · exact Or.inr ⟨piece, List.mem_cons_of_mem _ hpiece, ha⟩

/-- A separator cuts the text in two, whatever stands on its two sides. -/
theorem pieces_append_separator {α : Type} {p : α → Bool} {s : α} (hs : p s = true)
    (as bs : List α) : pieces p (as ++ s :: bs) = pieces p as ++ pieces p bs := by
  induction as with
  | nil => rw [List.nil_append, pieces_cons, if_pos hs, pieces_nil, List.singleton_append]
  | cons a as ih =>
    obtain ⟨first, rest, hpieces⟩ := List.exists_cons_of_ne_nil (pieces_ne_nil p as)
    rw [List.cons_append, pieces_cons, pieces_cons, ih, hpieces]
    split <;> rfl

/-- A blank cuts the words in two. -/
theorem words_append_blank {b : Char} (hb : isBlank b = true) (as bs : List Char) :
    words (as ++ b :: bs) = words as ++ words bs := by
  rw [words, pieces_append_separator hb, List.filter_append, words, words]

/-- A word is cut into itself. -/
theorem words_of_isWord {w : List Char} (h : IsWord w) : words w = [w] := by
  have hkept : w.isEmpty = false := by
    simp [h.ne_nil]
  simp [words, pieces_of_forall_not h.not_blank, hkept]

/-- A word in front of a blank is the first word. -/
theorem words_append_cons {w : List Char} (h : IsWord w) {s : Char} (hs : isBlank s = true)
    (cs : List Char) : words (w ++ s :: cs) = w :: words cs := by
  rw [words_append_blank hs, words_of_isWord h, List.singleton_append]

/-- The words of texts that are joined by spaces are those of the texts. -/
theorem words_joinWords_eq_flatMap (texts : List (List Char)) :
    words (joinWords texts) = texts.flatMap words := by
  induction texts with
  | nil => rfl
  | cons text texts ih =>
    cases texts with
    | nil => rw [joinWords, List.intercalate_singleton, List.flatMap_singleton]
    | cons next texts =>
      have hjoin : joinWords (text :: next :: texts) =
          text ++ ' ' :: joinWords (next :: texts) := by
        simp [joinWords, List.intercalate_cons_cons]
      rw [hjoin, words_append_blank rfl, ih, ← List.flatMap_cons]

/-- Joining words loses none of them. -/
theorem words_joinWords {ws : List (List Char)} (h : ∀ w ∈ ws, IsWord w) :
    words (joinWords ws) = ws := by
  rw [words_joinWords_eq_flatMap]
  induction ws with
  | nil => rfl
  | cons w ws ih =>
    rw [List.flatMap_cons, words_of_isWord (h w List.mem_cons_self),
      ih fun v hv => h v (List.mem_cons_of_mem w hv), List.singleton_append]

/-- The text consists of the words, with a blank behind each but the last and any further blanks in
front of them and behind them. -/
inductive Spells : List (List Char) → List Char → Prop where
  | nil : Spells [] []
  | blank {ws : List (List Char)} {cs : List Char} {b : Char} (hb : isBlank b = true)
    (hrest : Spells ws cs) : Spells ws (b :: cs)
  | last {w : List Char} (hw : IsWord w) : Spells [w] w
  | cons {w : List Char} {ws : List (List Char)} {cs : List Char} {b : Char} (hw : IsWord w)
    (hb : isBlank b = true) (hrest : Spells ws cs) : Spells (w :: ws) (w ++ b :: cs)

/-- A blank at the start does not matter. -/
theorem words_cons_blank {b : Char} (hb : isBlank b = true) (cs : List Char) :
    words (b :: cs) = words cs := by
  rw [words, pieces_cons, if_pos hb, words]
  exact List.filter_cons_of_neg (by simp)

/-- The words that a text consists of are found, however many blanks of whatever kind stand between
them. -/
theorem Spells.words_eq {ws : List (List Char)} {cs : List Char} (h : Spells ws cs) :
    words cs = ws := by
  induction h with
  | nil => rfl
  | blank hb _ ih => rw [words_cons_blank hb, ih]
  | last hw => exact words_of_isWord hw
  | cons hw hb _ ih => rw [words_append_cons hw hb, ih]

/-- A word may be made longer at the front. -/
theorem IsWord.cons {c : Char} {w : List Char} (hc : isBlank c = false) (hw : IsWord w) :
    IsWord (c :: w) where
  ne_nil := List.cons_ne_nil c w
  not_blank := List.forall_mem_cons.mpr ⟨hc, hw.not_blank⟩

/-- One character that is no blank is a word. -/
theorem isWord_singleton {c : Char} (hc : isBlank c = false) : IsWord [c] where
  ne_nil := List.cons_ne_nil c []
  not_blank := List.forall_mem_singleton.mpr hc

/-- Every text consists of words. -/
theorem exists_spells (cs : List Char) : ∃ ws, Spells ws cs := by
  induction cs with
  | nil => exact ⟨[], .nil⟩
  | cons c cs ih =>
    obtain ⟨ws, hspells⟩ := ih
    cases hc : isBlank c with
    | true => exact ⟨ws, .blank hc hspells⟩
    | false =>
      -- The character starts a word of its own or is put in front of the first one.
      cases hspells with
      | nil => exact ⟨[[c]], .last (isWord_singleton hc)⟩
      | blank hb hrest => exact ⟨[c] :: ws, .cons (isWord_singleton hc) hb hrest⟩
      | last hw => exact ⟨[c :: cs], .last (hw.cons hc)⟩
      | @cons w vs ds b hw hb hrest => exact ⟨(c :: w) :: vs, .cons (hw.cons hc) hb hrest⟩

/-- A text spells words exactly if it is cut into them. -/
theorem spells_iff {ws : List (List Char)} {cs : List Char} : Spells ws cs ↔ words cs = ws := by
  constructor
  · exact Spells.words_eq
  · rintro rfl
    obtain ⟨ws, hspells⟩ := exists_spells cs
    rw [hspells.words_eq]
    exact hspells

/-- What a text spells is words. -/
theorem Spells.isWord {ws : List (List Char)} {cs : List Char} (h : Spells ws cs) :
    ∀ w ∈ ws, IsWord w := by
  induction h with
  | nil => exact List.forall_mem_nil _
  | blank _ _ ih => exact ih
  | last hw => exact List.forall_mem_singleton.mpr hw
  | cons hw _ _ ih => exact List.forall_mem_cons.mpr ⟨hw, ih⟩

/-- The words of any text are words. -/
theorem isWord_of_mem_words {cs w : List Char} (hw : w ∈ words cs) : IsWord w :=
  (spells_iff.mpr rfl).isWord w hw

/-- Words that were joined by single spaces are found again. -/
theorem words_joinWords_words (cs : List Char) : words (joinWords (words cs)) = words cs :=
  words_joinWords fun _ hw => isWord_of_mem_words hw

/-- The words behind blanks are the words. -/
theorem words_append_of_blank {lead : List Char} (hlead : ∀ b ∈ lead, isBlank b = true)
    (cs : List Char) : words (lead ++ cs) = words cs := by
  induction lead with
  | nil => rfl
  | cons b lead ih =>
    obtain ⟨hb, hrest⟩ := List.forall_mem_cons.mp hlead
    rw [List.cons_append, words_cons_blank hb, ih hrest]

/-- The rest of a text that was put together is found again. -/
theorem after?_append (start rest : List Char) : after? start (start ++ rest) = some rest := by
  induction start with
  | nil => rfl
  | cons c start ih => simpa [after?] using ih

/-- A text splits at the first occurrence of a character. -/
theorem splitFirst?_append_cons {c : Char} {a : List Char} (h : c ∉ a) (b : List Char) :
    splitFirst? c (a ++ c :: b) = some (a, b) := by
  induction a with
  | nil => simp [splitFirst?]
  | cons d a ih =>
    have hd : d ≠ c := fun heq => h (by simp [heq])
    have ha : c ∉ a := fun hmem => h (by simp [hmem])
    simp [splitFirst?, hd, ih ha]

/-- A text without a character does not split at it. -/
theorem splitFirst?_eq_none {c : Char} {cs : List Char} (h : c ∉ cs) :
    splitFirst? c cs = none := by
  induction cs with
  | nil => rfl
  | cons d cs ih =>
    have hd : d ≠ c := fun heq => h (by simp [heq])
    have hcs : c ∉ cs := fun hmem => h (by simp [hmem])
    simp [splitFirst?, hd, ih hcs]

namespace Hex

/-- What was written is read back after folding. -/
theorem word?_fold_padded (width : Nat) (w : UInt32) :
    word? (fold (padded width w.toNat)) = some w := by
  rw [word?_fold, word?_padded]

/-- Nothing but digits is left after folding digits. -/
theorem isSome_digit?_of_mem_fold {cs : List Char} (h : ∀ c ∈ cs, (digit? c).isSome = true) :
    ∀ c ∈ fold cs, (digit? c).isSome = true := by
  intro c hc
  obtain ⟨d, hd, rfl⟩ := List.mem_map.mp hc
  rw [digit?_toLower]
  exact h d hd

/-- What has a value is digits. -/
theorem isSome_digit?_of_valueFrom? {acc value : Nat} {cs : List Char}
    (h : valueFrom? acc cs = some value) : ∀ c ∈ cs, (digit? c).isSome = true := by
  induction cs generalizing acc with
  | nil => simp
  | cons d cs ih =>
    rw [valueFrom?] at h
    cases hd : digit? d with
    | none => simp [hd] at h
    | some v =>
      rw [hd] at h
      refine List.forall_mem_cons.mpr ⟨?_, ih h⟩
      rw [hd, Option.isSome_some]

/-- What has a value is one or more digits. -/
theorem digits_of_value? {value : Nat} {cs : List Char} (h : value? cs = some value) :
    cs ≠ [] ∧ ∀ c ∈ cs, (digit? c).isSome = true := by
  rw [value?] at h
  split at h
  · cases h
  · next hne => exact ⟨by simpa using hne, isSome_digit?_of_valueFrom? h⟩

/-- What is read as a word of digits is digits, and not empty. -/
theorem digits_of_word? {w : UInt32} {cs : List Char} (h : word? cs = some w) :
    cs ≠ [] ∧ ∀ c ∈ cs, (digit? c).isSome = true := by
  rw [word?] at h
  split at h
  · next hvalue => exact digits_of_value? hvalue
  · cases h

/-- What is no digit does not stand in a numeral. -/
theorem not_mem_of_word? {w : UInt32} {cs : List Char} (h : word? cs = some w) {c : Char}
    (hc : digit? c = none) : c ∉ cs := by
  intro hmem
  have hsome := (digits_of_word? h).2 c hmem
  rw [hc] at hsome
  cases hsome

/-- Digits that begin with a zero are not taken for a mark. -/
theorem withoutRadix_of_digits {digits rest : List Char} (hne : digits ≠ [])
    (hdigits : ∀ c ∈ digits, (digit? c).isSome = true)
    (hrest : ∀ c, rest.head? = some c → c ≠ 'x' ∧ c ≠ 'X') :
    withoutRadix (digits ++ rest) = digits ++ rest := by
  obtain ⟨d, digits, rfl⟩ := List.exists_cons_of_ne_nil hne
  obtain ⟨hd, hdigits⟩ := List.forall_mem_cons.mp hdigits
  have hnext : ∀ c, (digits ++ rest).head? = some c → c ≠ 'x' ∧ c ≠ 'X' := by
    intro c hc
    cases digits with
    | nil => exact hrest c hc
    | cons e digits =>
      obtain rfl : e = c := by simpa using hc
      obtain ⟨-, hsmall, hcapital, -⟩ := Address.of_isSome_digit? (hdigits e List.mem_cons_self)
      exact ⟨hsmall, hcapital⟩
  rw [List.cons_append, withoutRadix_cons, if_neg (Address.of_isSome_digit? hd).1, if_neg]
  rintro ⟨-, hhead | hhead⟩
  · exact (hnext 'x' hhead).1 rfl
  · exact (hnext 'X' hhead).2 rfl

end Hex

end Text

/-- What was written is read back after folding, whatever labels there are. -/
theorem Address.parse?_fold_padded (labels : Labels) (width : Nat) (w : UInt32) :
    parse? labels (Text.fold (Text.Hex.padded width w.toNat)) = some w :=
  parse?_of_forall_digit
    (Text.Hex.isSome_digit?_of_mem_fold fun _ hc => Text.Hex.isSome_digit?_of_mem_padded hc)
    (Text.Hex.word?_fold_padded width w) labels

end Z80Debugger
