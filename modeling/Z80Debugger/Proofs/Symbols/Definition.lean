import Z80Debugger.Proofs.Symbols.Pattern
import Z80Debugger.Proofs.Text.Words

/-!
# What a line of a symbol file may look like

A line is skipped, or it defines a name.  `definition?_of_defines` says that a definition is read
whatever its blanks, cases, leading zeros and marks are: the characters behind the name cannot
continue it, and the digits end where the suffix, a blank or the comment begins.
-/

set_option autoImplicit false

namespace Z80Debugger.Symbols.File

open Text (isBlank fold)

/-- A line that defines nothing. -/
inductive IsSkipped : List Char → Prop where
  | blank {line : List Char} (hline : ∀ b ∈ line, isBlank b = true) : IsSkipped line
  | comment {lead text : List Char} {mark : Char} (hlead : ∀ b ∈ lead, isBlank b = true)
    (hmark : mark = ';' ∨ mark = '#') : IsSkipped (lead ++ mark :: text)

/-- A name of ASCII letters, digits, underscores and dots that does not begin with a digit. -/
inductive IsName : List Char → Prop where
  | cons {first : Char} {rest : List Char}
    (hfirst : first.isAlpha = true ∨ first = '_' ∨ first = '.')
    (hrest : ∀ c ∈ rest, c.isAlphanum = true ∨ c = '_' ∨ c = '.') : IsName (first :: rest)

/-- What stands between name and address: `=`, or `equ` in any case with a dot or without, behind
a blank. -/
inductive IsSign : List Char → Prop where
  | equals {before behind : List Char} (hbefore : ∀ b ∈ before, isBlank b = true)
    (hbehind : ∀ b ∈ behind, isBlank b = true) : IsSign (before ++ '=' :: behind)
  | equ {before word behind : List Char} (hne : before ≠ [])
    (hbefore : ∀ b ∈ before, isBlank b = true) (hbehind : ∀ b ∈ behind, isBlank b = true)
    (hword : fold word = ['e', 'q', 'u'] ∨ fold word = ['.', 'e', 'q', 'u']) :
    IsSign (before ++ word ++ behind)

/-- An address: digits in any case with any leading zeros, a mark before them or not, and a suffix
behind them or not. -/
inductive IsNumeral (address : UInt32) : List Char → Prop where
  | marked {radix digits suffix : List Char} (hradix : fold radix ∈ [[], ['$'], ['0', 'x']])
    (hdigits : Text.Hex.value? digits = some address.toNat) (hsuffix : fold suffix ∈ [[], ['h']]) :
    IsNumeral address (radix ++ digits ++ suffix)

/-- What stands behind an address: blanks, and a comment or not. -/
inductive IsRemark : List Char → Prop where
  | blank {gap : List Char} (hgap : ∀ b ∈ gap, isBlank b = true) : IsRemark gap
  | comment {gap text : List Char} (hgap : ∀ b ∈ gap, isBlank b = true) :
    IsRemark (gap ++ ';' :: text)

/-- A line that defines a name at an address. -/
inductive Defines (name : List Char) (address : UInt32) : List Char → Prop where
  | definition {lead sign numeral remark : List Char} (hlead : ∀ b ∈ lead, isBlank b = true)
    (hname : IsName name) (hsign : IsSign sign) (hnumeral : IsNumeral address numeral)
    (hremark : IsRemark remark) : Defines name address (lead ++ name ++ sign ++ numeral ++ remark)

variable {c : Char} {cs line name sign numeral tail : List Char} {address : UInt32}

/-- A line is silent exactly if it is blank or a remark. -/
theorem isSilent_trim_iff : isSilent (Text.trim line) = true ↔ IsSkipped line := by
  constructor
  · intro hsilent
    obtain hblank | ⟨lead, c, rest, rfl, hlead, hc⟩ := Text.blank_or_exists_append_cons line
    · exact .blank hblank
    · rw [Text.trim_append_cons hlead hc] at hsilent
      exact .comment hlead (by simpa [isSilent] using hsilent)
  · intro hskipped
    cases hskipped with
    | blank hline =>
      rw [Text.trim_of_forall_isBlank hline]
      rfl
    | @comment lead text mark hlead hmark =>
      have hc : isBlank mark = false := by
        obtain rfl | rfl := hmark <;> decide
      rw [Text.trim_append_cons hlead hc]
      simpa [isSilent] using hmark

/-- A remark may stand behind a definition, without the blanks at its end. -/
theorem IsRemark.isTail_trimEnd {remark : List Char} (h : IsRemark remark) :
    isTail (Text.trimEnd remark) = true := by
  cases h with
  | blank hgap =>
    rw [Text.trimEnd_of_forall_isBlank hgap]
    rfl
  | comment hgap =>
    rw [Text.trimEnd_append_cons (by decide), isTail,
      Text.trimStart_append_cons hgap (by decide)]
    rfl

/-- A name starts as a name does and goes on as one. -/
theorem IsName.isNameStart {first : Char} {rest : List Char} (h : IsName (first :: rest)) :
    isNameStart first = true ∧ ∀ c ∈ rest, isNameCharacter c = true := by
  cases h with
  | cons hfirst hrest =>
    refine ⟨?_, fun c hc => ?_⟩
    · obtain hletter | rfl | rfl := hfirst
      · simp [File.isNameStart, hletter]
      · decide
      · decide
    · obtain hword | rfl | rfl := hrest c hc
      · have hcode : ((65 ≤ c.toNat ∧ c.toNat ≤ 90) ∨ (97 ≤ c.toNat ∧ c.toNat ≤ 122)) ∨
            (48 ≤ c.toNat ∧ c.toNat ≤ 57) := by
          simpa [Char.isAlphanum, Char.isAlpha, Char.isUpper, Char.isLower, Char.isDigit,
            UInt32.le_iff_toNat_le] using hword
        have hascii : c.toNat < 0x80 := by omega
        simp [isNameCharacter, Text.isWordCharacter, hascii, hword]
      · decide
      · decide

/-- What stands behind a name does not continue it. -/
theorem IsSign.exists_cons (h : IsSign sign) :
    ∃ c rest, sign = c :: rest ∧ isNameCharacter c = false := by
  cases h with
  | @equals before behind hbefore hbehind =>
    cases before with
    | nil => exact ⟨'=', behind, rfl, by decide⟩
    | cons b before =>
      exact ⟨b, _, rfl, not_isNameCharacter_of_isBlank (hbefore b List.mem_cons_self)⟩
  | @equ before word behind hne hbefore hbehind hword =>
    obtain ⟨b, before, rfl⟩ := List.exists_cons_of_ne_nil hne
    exact ⟨b, _, rfl, not_isNameCharacter_of_isBlank (hbefore b List.mem_cons_self)⟩

/-- The word for a definition is taken as one, in every case. -/
theorem afterSign?_of_fold_eq_equ {word : List Char}
    (hword : fold word = ['e', 'q', 'u'] ∨ fold word = ['.', 'e', 'q', 'u']) (rest : List Char) :
    afterSign? (word ++ rest) = some rest ∧ ∃ c cs, word = c :: cs ∧ isBlank c = false := by
  have hequ : ∀ w, fold w = ['e', 'q', 'u'] → ∃ e q u, w = [e, q, u] ∧ e.toLower = 'e' := by
    intro w hw
    obtain ⟨e, w, rfl, he, hw⟩ := List.map_eq_cons_iff.mp hw
    obtain ⟨q, w, rfl, -, hw⟩ := List.map_eq_cons_iff.mp hw
    obtain ⟨u, w, rfl, -, hw⟩ := List.map_eq_cons_iff.mp hw
    rw [List.map_eq_nil_iff.mp hw]
    exact ⟨e, q, u, rfl, he⟩
  obtain hword | hword := hword
  · obtain ⟨e, q, u, rfl, he⟩ := hequ word hword
    have hfirst := (Text.toLower_eq_small_iff 'e' 'E' e).mp he
    refine ⟨?_, e, [q, u], rfl, ?_⟩
    · have hafter : afterEqu? (e :: q :: u :: rest) = some rest := if_pos hword
      rw [List.cons_append, afterSign?_cons]
      obtain rfl | rfl := hfirst
      all_goals exact hafter
    · obtain rfl | rfl := hfirst <;> decide
  · obtain ⟨d, equ, rfl, hd, hrest⟩ := List.map_eq_cons_iff.mp hword
    obtain rfl := (Text.toLower_eq_iff (by decide) (by decide) d).mp hd
    obtain ⟨e, q, u, rfl, -⟩ := hequ equ hrest
    have hafter : afterEqu? (e :: q :: u :: rest) = some rest := if_pos hrest
    exact ⟨hafter, '.', [e, q, u], rfl, by decide⟩

/-- The sign is found behind the blanks in front of it, and leaves the blanks behind it. -/
theorem IsSign.afterSign?_trimStart (h : IsSign sign) (rest : List Char) :
    ∃ gap, afterSign? (Text.trimStart (sign ++ rest)) = some (gap ++ rest) ∧
      ∀ b ∈ gap, isBlank b = true := by
  cases h with
  | @equals before behind hbefore hbehind =>
    refine ⟨behind, ?_, hbehind⟩
    rw [List.append_assoc, List.cons_append, Text.trimStart_append_cons hbefore (by decide)]
    rfl
  | @equ before word behind hne hbefore hbehind hword =>
    refine ⟨behind, ?_, hbehind⟩
    obtain ⟨hafter, c, cs, rfl, hc⟩ := afterSign?_of_fold_eq_equ hword (behind ++ rest)
    have htrim := Text.trimStart_append_cons hbefore hc (cs ++ (behind ++ rest))
    rw [List.append_assoc, List.append_assoc, List.cons_append, htrim]
    exact hafter

/-- What stands behind a definition begins with a blank or a remark. -/
theorem isTail_cons (htail : isTail (c :: cs) = true) : isBlank c = true ∨ c = ';' := by
  cases hc : isBlank c with
  | true => exact .inl rfl
  | false =>
    rw [isTail, Text.trimStart, List.dropWhile_cons_of_neg (by simp [hc])] at htail
    exact .inr (by simpa using htail)

/-- What follows the digits of an address: an `h` or none, and the tail. -/
theorem suffix_cases {suffix : List Char} (hsuffix : fold suffix ∈ [[], ['h']]) :
    suffix = [] ∨ ∃ h, suffix = [h] ∧ h.toLower = 'h' := by
  simp only [List.mem_cons, List.not_mem_nil, or_false, fold, List.map_eq_nil_iff] at hsuffix
  obtain rfl | hsuffix := hsuffix
  · exact .inl rfl
  · obtain ⟨h, rest, rfl, hh, hrest⟩ := List.map_eq_cons_iff.mp hsuffix
    rw [List.map_eq_nil_iff.mp hrest]
    exact .inr ⟨h, rfl, hh⟩

/-- Neither a digit nor the letter of `0x` stands behind the digits of an address. -/
theorem not_digit_of_suffix_append {suffix : List Char} (hsuffix : fold suffix ∈ [[], ['h']])
    (htail : isTail tail = true) (h : suffix ++ tail = c :: cs) :
    isDigit c = false ∧ c ≠ 'x' ∧ c ≠ 'X' := by
  obtain rfl | ⟨d, rfl, hd⟩ := suffix_cases hsuffix
  · rw [List.nil_append] at h
    subst h
    obtain hblank | rfl := isTail_cons htail
    · exact ⟨not_isDigit_of_isBlank hblank, Text.ne_of_isBlank hblank rfl,
        Text.ne_of_isBlank hblank rfl⟩
    · decide
  · obtain ⟨rfl, -⟩ := List.cons_eq_cons.mp h
    obtain rfl | rfl := (Text.toLower_eq_small_iff 'h' 'H' d).mp hd
    all_goals decide

/-- A suffix of the radix is taken off before the tail. -/
theorem withoutSuffix_append {suffix : List Char} (hsuffix : fold suffix ∈ [[], ['h']])
    (htail : isTail tail = true) : withoutSuffix (suffix ++ tail) = tail := by
  obtain rfl | ⟨d, rfl, hd⟩ := suffix_cases hsuffix
  · cases tail with
    | nil => rfl
    | cons c cs =>
      have hc : ¬ c.toLower = 'h' := by
        intro hlower
        rw [Text.toLower_eq_small_iff 'h' 'H' c] at hlower
        obtain hblank | rfl := isTail_cons htail
        · exact hlower.elim (Text.ne_of_isBlank hblank rfl) (Text.ne_of_isBlank hblank rfl)
        · exact absurd hlower (by decide)
      rw [List.nil_append, withoutSuffix_cons, if_neg hc]
  · rw [List.singleton_append, withoutSuffix_cons, if_pos hd]

/-- Digits with the value of an address are read as that address. -/
theorem word?_of_value? {digits : List Char}
    (h : Text.Hex.value? digits = some address.toNat) : Text.Hex.word? digits = some address := by
  simp [Text.Hex.word?, h, address.toNat_lt]

/-- Digits have no prefix of the radix. -/
theorem withoutRadix_digits {digits suffix : List Char} (hne : digits ≠ [])
    (hdigits : ∀ c ∈ digits, isDigit c = true) (hsuffix : fold suffix ∈ [[], ['h']])
    (htail : isTail tail = true) :
    Text.Hex.withoutRadix (digits ++ (suffix ++ tail)) = digits ++ (suffix ++ tail) := by
  apply Text.Hex.withoutRadix_of_digits hne hdigits
  intro c hc
  obtain ⟨cs, hcs⟩ := List.head?_eq_some_iff.mp hc
  exact (not_digit_of_suffix_append hsuffix htail hcs).2

/-- A numeral before a tail is digits with a suffix, once its prefix is off. -/
theorem IsNumeral.withoutRadix_append (h : IsNumeral address numeral) (htail : isTail tail = true) :
    ∃ digits suffix, Text.Hex.value? digits = some address.toNat ∧ fold suffix ∈ [[], ['h']] ∧
      Text.Hex.withoutRadix (numeral ++ tail) = digits ++ (suffix ++ tail) := by
  cases h with
  | @marked radix digits suffix hradix hdigits hsuffix =>
    refine ⟨digits, suffix, hdigits, hsuffix, ?_⟩
    rw [List.append_assoc, List.append_assoc]
    simp only [List.mem_cons, List.not_mem_nil, or_false, fold, List.map_eq_nil_iff] at hradix
    obtain rfl | hradix | hradix := hradix
    · obtain ⟨hne, hall⟩ := Text.Hex.digits_of_value? hdigits
      rw [List.nil_append]
      exact withoutRadix_digits hne hall hsuffix htail
    · obtain ⟨d, rest, rfl, hd, hrest⟩ := List.map_eq_cons_iff.mp hradix
      rw [List.map_eq_nil_iff.mp hrest, (Text.toLower_eq_iff (by decide) (by decide) d).mp hd]
      rfl
    · obtain ⟨d, rest, rfl, hd, hrest⟩ := List.map_eq_cons_iff.mp hradix
      obtain ⟨x, rest, rfl, hx, hrest⟩ := List.map_eq_cons_iff.mp hrest
      rw [List.map_eq_nil_iff.mp hrest, (Text.toLower_eq_iff (by decide) (by decide) d).mp hd]
      obtain rfl | rfl := (Text.toLower_eq_small_iff 'x' 'X' x).mp hx
      all_goals rfl

/-- A word that is a keyword in some case has no blank. -/
theorem not_blank_of_fold_mem {w : List Char} {ws : List (List Char)} (hw : fold w ∈ ws)
    (hws : ws.all (fun v => v.all fun c => !isBlank c) = true) :
    ∀ c ∈ w, isBlank c = false := by
  intro c hc
  have hfolded := List.all_eq_true.mp (List.all_eq_true.mp hws _ hw) _ (List.mem_map_of_mem hc)
  rwa [Text.isBlank_toLower, Bool.not_eq_true'] at hfolded

/-- A numeral is a word. -/
theorem IsNumeral.isWord (h : IsNumeral address numeral) : Text.IsWord numeral := by
  cases h with
  | @marked radix digits suffix hradix hdigits hsuffix =>
    obtain ⟨hne, hall⟩ := Text.Hex.digits_of_value? hdigits
    refine ⟨by simp [hne], ?_⟩
    intro c hc
    rcases List.mem_append.mp hc with hc | hc
    · rcases List.mem_append.mp hc with hc | hc
      · exact not_blank_of_fold_mem hradix (by decide) c hc
      · exact (Address.of_isSome_digit? (hall c hc)).2.2.2.2.2
    · exact not_blank_of_fold_mem hsuffix (by decide) c hc

/-- The digits behind a name are those of the numeral. -/
theorem digitsAfterName?_append (hsign : IsSign sign) (hnumeral : IsNumeral address numeral)
    (htail : isTail tail = true) :
    ∃ digits, Text.Hex.word? digits = some address ∧
      digitsAfterName? (sign ++ (numeral ++ tail)) = some digits := by
  obtain ⟨gap, hafter, hgap⟩ := hsign.afterSign?_trimStart (numeral ++ tail)
  obtain ⟨digits, suffix, hvalue, hsuffix, hradix⟩ := hnumeral.withoutRadix_append htail
  obtain ⟨c, cs, hfirst⟩ := List.exists_cons_of_ne_nil hnumeral.isWord.ne_nil
  obtain ⟨hne, hdigits⟩ : digits ≠ [] ∧ ∀ c ∈ digits, isDigit c = true :=
    Text.Hex.digits_of_value? hvalue
  have hstart : Text.trimStart (gap ++ (numeral ++ tail)) = numeral ++ tail := by
    have hc := hnumeral.isWord.not_blank c (hfirst ▸ List.mem_cons_self)
    rw [hfirst, List.cons_append, Text.trimStart_append_cons hgap hc]
  have hstop : (suffix ++ tail).takeWhile isDigit = [] ∧
      (suffix ++ tail).dropWhile isDigit = suffix ++ tail := by
    cases hrest : suffix ++ tail with
    | nil => exact ⟨rfl, rfl⟩
    | cons c cs =>
      have hc := (not_digit_of_suffix_append hsuffix htail hrest).1
      exact ⟨List.takeWhile_cons_of_neg (by simp [hc]), List.dropWhile_cons_of_neg (by simp [hc])⟩
  have htaken : (digits ++ (suffix ++ tail)).takeWhile isDigit = digits := by
    rw [List.takeWhile_append_of_pos hdigits, hstop.1, List.append_nil]
  have hleft : (digits ++ (suffix ++ tail)).dropWhile isDigit = suffix ++ tail := by
    rw [List.dropWhile_append_of_pos hdigits, hstop.2]
  refine ⟨digits, word?_of_value? hvalue, ?_⟩
  rw [digitsAfterName?, hafter, Option.bind_eq_bind, Option.bind_some, hstart, hradix]
  change (if (List.takeWhile isDigit _).isEmpty then none
    else if isTail (withoutSuffix (List.dropWhile isDigit _)) then some (List.takeWhile isDigit _)
    else none) = some digits
  rw [htaken, hleft, withoutSuffix_append hsuffix htail, htail, if_neg (by simpa using hne),
    if_pos rfl]

/-- The blanks around a definition are all that trimming takes away. -/
theorem trim_definition {lead remark : List Char} {first : Char} {rest : List Char}
    (hlead : ∀ b ∈ lead, isBlank b = true) (hfirst : isBlank first = false)
    (hnumeral : IsNumeral address numeral) :
    Text.trim (lead ++ first :: rest ++ sign ++ numeral ++ remark) =
      first :: (rest ++ (sign ++ (numeral ++ Text.trimEnd remark))) := by
  have hword := hnumeral.isWord
  obtain ⟨body, d, rfl⟩ : ∃ body d, numeral = body ++ [d] :=
    ⟨_, _, (List.dropLast_append_getLast hword.ne_nil).symm⟩
  have hd : isBlank d = false := hword.not_blank d (by simp)
  have hstart := Text.trim_append_cons hlead hfirst (rest ++ sign ++ body ++ d :: remark)
  rw [Text.trimEnd_append_cons hd] at hstart
  simpa using hstart

/-- A definition is read as what it says, and it is not skipped. -/
theorem definition?_of_defines (h : Defines name address line) :
    definition? (Text.trim line) = some (String.ofList name, address) ∧
      isSilent (Text.trim line) = false := by
  cases h with
  | @definition lead sign numeral remark hlead hname hsign hnumeral hremark =>
    obtain ⟨first, rest, rfl⟩ : ∃ first rest, name = first :: rest := by
      cases hname
      exact ⟨_, _, rfl⟩
    obtain ⟨hstart, hrest⟩ := hname.isNameStart
    obtain ⟨c, others, hother, hc⟩ := hsign.exists_cons
    obtain ⟨digits, haddress, hdigits⟩ :=
      digitsAfterName?_append hsign hnumeral hremark.isTail_trimEnd
    have hfirst : isBlank first = false := by
      rw [Bool.eq_false_iff]
      intro hblank
      rw [not_isNameStart_of_isBlank hblank] at hstart
      cases hstart
    rw [trim_definition hlead hfirst hnumeral]
    generalize hvalue : sign ++ (numeral ++ Text.trimEnd remark) = value at hdigits
    have htaken : (rest ++ value).takeWhile isNameCharacter = rest := by
      rw [List.takeWhile_append_of_pos hrest, ← hvalue, hother, List.cons_append,
        List.takeWhile_cons_of_neg (by simp [hc]), List.append_nil]
    have hname : splitAtName? (first :: (rest ++ value)) (rest.length + 1) =
        some (first :: rest, digits) := by
      have hdrop : (first :: (rest ++ value)).drop (rest.length + 1) = value := by simp
      have htake : (first :: (rest ++ value)).take (rest.length + 1) = first :: rest := by simp
      rw [splitAtName?, hdrop, hdigits, htake]
    constructor
    · simp only [definition?, hstart, if_true, htaken, Nat.add_comm 1, hname, haddress,
        Option.bind_eq_bind, Option.bind_some]
      rfl
    · rw [isSilent, Bool.or_eq_false_iff, beq_eq_false_iff_ne, beq_eq_false_iff_ne]
      constructor
      all_goals
        rintro rfl
        exact absurd hstart (by decide)

end Z80Debugger.Symbols.File
