import Z80Debugger.Breakpoint.Text
import Z80Debugger.Proofs.Text.Words

/-!
# Spellings of a breakpoint

The words of a breakpoint's text say something about its space, its mask, its modes, its range, or
that it is disabled, and of each kind only what comes first counts.  So only the order of words of
one kind matters (`addAll_of_rearranged`), and blanks matter only in that they separate words.  Case
does not matter either, if the labels ignore it; then it changes nothing but the text that an error
quotes (`parseWords_fold`).
-/

set_option autoImplicit false

namespace Z80Debugger

open Text (fold Spells)

namespace BreakpointError

/-- The cause with the case of the text that it quotes folded. -/
def fold : BreakpointError → BreakpointError
  | empty => empty
  | missingAddress => missingAddress
  | invalidAddress t => invalidAddress (Symbols.foldName t)
  | invalidEnd t => invalidEnd (Symbols.foldName t)
  | invalidMask t => invalidMask (Symbols.foldName t)
  | invalidModes t => invalidModes (Symbols.foldName t)
  | endBeforeStart t => endBeforeStart (Symbols.foldName t)

end BreakpointError

namespace Breakpoint

/-- What a word is about. -/
inductive WordKind where
  | space
  | mask
  | disabled
  | modes
  | address
  deriving DecidableEq

def Word.kind : Word → WordKind
  | .space _ => .space
  | .mask _ => .mask
  | .disabled => .disabled
  | .modes _ => .modes
  | .address => .address

/-- The words of one kind, in order. -/
def wordsOf (kind : WordKind) (ws : List (List Char)) : List (List Char) :=
  ws.filter fun w => (Word.ofText w).kind = kind

/-- The words are the same, and those of one kind are in the same order. -/
def Rearranged (ws vs : List (List Char)) : Prop := ∀ kind, wordsOf kind ws = wordsOf kind vs

namespace Fields

/-- The space that a word names. -/
def spaceOf? (w : List Char) : Option Space :=
  match Word.ofText w with
  | .space s => some s
  | _ => none

/-- The modes that a word names, with the word. -/
def modesOf? (w : List Char) : Option (Modes × List Char) :=
  match Word.ofText w with
  | .modes m => some (m, w)
  | _ => none

/-- The mask that a word gives. -/
def maskOf? (labels : Labels) (w : List Char) : Option UInt32 :=
  match Word.ofText w with
  | .mask value => Address.parse? labels value
  | _ => none

/-- The error of a word that gives a mask that is no number. -/
def badMask? (labels : Labels) (w : List Char) : Option BreakpointError :=
  match Word.ofText w with
  | .mask value =>
    if (Address.parse? labels value).isNone then some (.invalidMask (String.ofList w)) else none
  | _ => none

/-- The first bad mask counts before everything else, and then the first word of each kind. -/
theorem addAll_eq (labels : Labels) (f : Fields) (ws : List (List Char)) :
    f.addAll labels ws =
      match (wordsOf .mask ws).findSome? (badMask? labels) with
      | some e => .error e
      | none => .ok {
          space := f.space.or ((wordsOf .space ws).findSome? spaceOf?)
          modes := f.modes.or ((wordsOf .modes ws).findSome? modesOf?)
          mask := f.mask.or ((wordsOf .mask ws).findSome? (maskOf? labels))
          address := f.address.or (wordsOf .address ws).head?
          enabled := f.enabled && (wordsOf .disabled ws).isEmpty } := by
  induction ws generalizing f with
  | nil => simp [addAll, wordsOf]
  | cons w ws ih =>
    have hcons (kind : WordKind) : wordsOf kind (w :: ws) =
        if (Word.ofText w).kind = kind then w :: wordsOf kind ws else wordsOf kind ws := by
      simp [wordsOf, List.filter_cons]
    rw [addAll, add]
    -- A bad mask ends the reading; any other word fills a field that is empty, and no other one.
    cases hw : Word.ofText w with
    | mask value =>
      cases hvalue : Address.parse? labels value with
      | none => simp [hcons, badMask?, Word.kind, hw, hvalue]
      | some v => simp [hcons, ih, maskOf?, badMask?, Word.kind, hw, hvalue]
    | space | disabled | modes | address =>
      simp [hcons, ih, spaceOf?, modesOf?, Word.kind, hw]

/-- Only the order of the words of one kind matters. -/
theorem addAll_of_rearranged {ws vs : List (List Char)} (h : Rearranged ws vs) (labels : Labels)
    (f : Fields) : f.addAll labels ws = f.addAll labels vs := by
  simp only [addAll_eq, h _]

end Fields

variable {ws vs : List (List Char)} {d : Defaults} {context : Context}

/-- Rearranged words are the same words in another order. -/
theorem Rearranged.perm (h : Rearranged ws vs) : ws.Perm vs := by
  rw [List.perm_iff_count]
  intro w
  -- All copies of a word are of one kind.
  have hcount (us : List (List Char)) : us.count w = (wordsOf (Word.ofText w).kind us).count w :=
    (List.count_filter (by simp)).symm
  rw [hcount ws, hcount vs, h]

/-- Rearranged words are read alike. -/
theorem parseWords_of_rearranged (h : Rearranged ws vs) (d : Defaults) (context : Context) :
    parseWords d context ws = parseWords d context vs := by
  rw [parseWords, parseWords, h.perm.isEmpty_eq, Fields.addAll_of_rearranged h]

/-- Folding a name folds its characters. -/
@[simp] theorem foldName_ofList (cs : List Char) :
    Symbols.foldName (String.ofList cs) = String.ofList (fold cs) := by
  rw [Symbols.foldName, String.toList_ofList]

namespace Fields

/-- What the words of a text said, had they been folded before. -/
def fold (f : Fields) : Fields :=
  { f with
    modes := f.modes.map fun (m, w) => (m, Text.fold w)
    address := f.address.map Text.fold }

/-- A word is of the same kind in every case. -/
theorem ofText_fold (w : List Char) : Word.ofText (Text.fold w) = Word.ofText w := by
  rw [Word.ofText, Text.fold_fold, Word.ofText]

/-- Taking in a folded word gives the folded fields, or the folded error. -/
theorem add_fold (labels : Labels) (f : Fields) (w : List Char) :
    f.fold.add labels (Text.fold w) =
      ((f.add labels w).map fold).mapError BreakpointError.fold := by
  rw [add, add, ofText_fold]
  cases Word.ofText w with
  | mask value =>
    cases hvalue : Address.parse? labels value with
    | none => simp [Except.map, Except.mapError, BreakpointError.fold, hvalue]
    | some v => simp [fold, Except.map, Except.mapError, hvalue]
  | space | disabled => rfl
  | modes m => cases hmodes : f.modes <;> simp [fold, Except.map, Except.mapError, hmodes]
  | address => cases haddress : f.address <;> simp [fold, Except.map, Except.mapError, haddress]

/-- So does taking in several words. -/
theorem addAll_fold (labels : Labels) (f : Fields) (ws : List (List Char)) :
    f.fold.addAll labels (ws.map Text.fold) =
      ((f.addAll labels ws).map fold).mapError BreakpointError.fold := by
  induction ws generalizing f with
  | nil => rfl
  | cons w ws ih =>
    rw [List.map_cons, addAll, addAll, add_fold]
    cases f.add labels w with
    | error e => rfl
    | ok next => exact ih next

end Fields

/-- Which modes are meant does not depend on case; an error names the folded word. -/
theorem modesIn_fold (space : Space) (named : Option (Modes × List Char)) (last : Modes) :
    modesIn space (named.map fun (m, w) => (m, fold w)) last =
      (modesIn space named last).mapError BreakpointError.fold := by
  cases named with
  | none =>
    cases space with
    | port =>
      rw [Option.map_none, modesIn]
      split <;> rfl
    | logical | physical | opcode => rfl
  | some named =>
    cases space with
    | port =>
      simp only [Option.map_some, modesIn]
      split
      · simp [Except.mapError, BreakpointError.fold]
      · rfl
    | logical | physical | opcode => rfl

/-- An address is the same in every case, if labels are. -/
theorem addressIn?_fold (hlabels : context.labels.IgnoresCase) (space : Space) (cs : List Char) :
    addressIn? space context (fold cs) = addressIn? space context cs := by
  have hcolon := Text.toLower_eq_iff (c := ':') (by decide) (by decide)
  simp only [addressIn?, Text.mem_fold_iff hcolon, Address.parse?_fold hlabels,
    Address.parsePaged?_fold hlabels]

/-- A folded range has folded ends. -/
theorem rangeEnds_fold (cs : List Char) :
    rangeEnds (fold cs) = (fold (rangeEnds cs).1, (rangeEnds cs).2.map fold) := by
  have hhyphen := Text.toLower_eq_iff (c := '-') (by decide) (by decide)
  rw [rangeEnds, rangeEnds, Text.splitFirst?_fold hhyphen]
  cases Text.splitFirst? '-' cs with
  | none => rfl
  | some ends =>
    obtain ⟨a, b⟩ := ends
    cases b <;> rfl

/-- A range is the same in every case, if labels are. -/
theorem rangeIn_fold (hlabels : context.labels.IgnoresCase) (space : Space) (cs : List Char) :
    rangeIn space context (fold cs) = (rangeIn space context cs).mapError BreakpointError.fold := by
  rw [rangeIn, rangeIn, rangeEnds_fold]
  obtain ⟨start, stop?⟩ := rangeEnds cs
  simp only [addressIn?_fold hlabels]
  cases addressIn? space context start with
  | none => simp [Except.mapError, BreakpointError.fold]
  | some first =>
    cases stop? with
    | none => rfl
    | some stop =>
      simp only [Option.map_some, addressIn?_fold hlabels]
      cases addressIn? space context stop with
      | none => simp [Except.mapError, BreakpointError.fold]
      | some last => rfl

/-- Folded fields give the same breakpoint, or the folded error. -/
theorem ofFields_fold (hlabels : context.labels.IgnoresCase) (d : Defaults) (f : Fields) :
    ofFields d context f.fold = (ofFields d context f).mapError BreakpointError.fold := by
  obtain ⟨space?, modes?, mask?, range?, enabled⟩ := f
  have hmodes := modesIn_fold (space?.getD d.space) modes? d.modes
  rw [Fields.fold]
  simp only [ofFields, bind, Except.bind, hmodes]
  cases modesIn (space?.getD d.space) modes? d.modes with
  | error e => rfl
  | ok modes =>
    cases range? with
    | none => rfl
    | some range =>
      simp only [Except.mapError, Option.map_some, rangeIn_fold hlabels]
      cases rangeIn (space?.getD d.space) context range with
      | error e => rfl
      | ok ends =>
        simp only
        split
        · simp [throw, throwThe, MonadExceptOf.throw, BreakpointError.fold]
        · rfl

/-- Folding the words before they are read changes nothing but what an error quotes. -/
theorem parseWords_fold (hlabels : context.labels.IgnoresCase) (d : Defaults)
    (ws : List (List Char)) :
    parseWords d context (ws.map fold) =
      (parseWords d context ws).mapError BreakpointError.fold := by
  have hall := Fields.addAll_fold context.labels {} ws
  have hempty : Fields.fold {} = {} := rfl
  rw [hempty] at hall
  rw [parseWords, parseWords, List.isEmpty_map, hall]
  split
  · rfl
  · cases Fields.addAll context.labels {} ws with
    | error e => rfl
    | ok f => exact ofFields_fold hlabels d f

/-- Folded text gives the same breakpoint, or the folded error. -/
theorem parse_fold (hlabels : context.labels.IgnoresCase) (d : Defaults) (text : String) :
    parse d context (Symbols.foldName text) =
      (parse d context text).mapError BreakpointError.fold := by
  rw [parse, parse, Symbols.foldName, String.toList_ofList, Text.words_fold,
    parseWords_fold hlabels]

/-- Results that are the same but for what an error quotes. -/
theorem agree_of_mapError_eq {x y : Except BreakpointError Breakpoint}
    (hsame : x.mapError BreakpointError.fold = y.mapError BreakpointError.fold) :
    (∀ b, x = .ok b → y = .ok b) ∧ ∀ e, x = .error e → ∃ e', y = .error e' ∧ e'.fold = e.fold := by
  cases x with
  | ok b =>
    cases y with
    | ok c =>
      cases hsame
      exact ⟨fun _ hb => hb, fun e he => (by cases he)⟩
    | error e => cases hsame
  | error e =>
    cases y with
    | ok c => cases hsame
    | error e' =>
      refine ⟨fun b hb => (by cases hb), ?_⟩
      intro _ he
      cases he
      exact ⟨e', rfl, (Except.error.inj hsame).symm⟩

/-- Reading a text gives the same if its words are put in another order, as long as the words of
one kind keep theirs, and if other blanks, more of them or fewer, stand between the words, whatever
the defaults, the layout and the labels are.  If the labels ignore case, texts that differ in ASCII
case only give the same breakpoint, or errors of one kind that quote texts that differ in case
only. -/
theorem parse_ignores_order_blanks_case (d : Defaults) (context : Context) (s t : String) :
    (∀ ws vs, Spells ws s.toList → Spells vs t.toList → Rearranged ws vs →
      parse d context s = parse d context t) ∧
    (∀ ws, Spells ws s.toList → Spells ws t.toList → parse d context s = parse d context t) ∧
    (context.labels.IgnoresCase → Symbols.foldName s = Symbols.foldName t →
      (∀ b, parse d context s = .ok b → parse d context t = .ok b) ∧
      ∀ e, parse d context s = .error e →
        ∃ e', parse d context t = .error e' ∧ e'.fold = e.fold) := by
  have hwords (ws : List (List Char)) (text : String) (hspells : Spells ws text.toList) :
      parse d context text = parseWords d context ws := by
    rw [parse, hspells.words_eq]
  refine ⟨?_, ?_, ?_⟩
  · intro ws vs hs ht hrearranged
    rw [hwords ws s hs, hwords vs t ht, parseWords_of_rearranged hrearranged]
  · intro ws hs ht
    rw [hwords ws s hs, hwords ws t ht]
  · intro hlabels hsame
    apply agree_of_mapError_eq
    rw [← parse_fold hlabels, ← parse_fold hlabels, hsame]

/-- A label that is looked up without regard to case. -/
def mainOnly : Context := { labels := (Symbols.ofList [("Main", 0x8000)]).resolve }

/-- The words of one text are put in another order and other blanks, and then written in the other
case; two masks keep their order. -/
theorem parse_ignores_order_blanks_case_label :
    parse {} mainOnly "P RW mask=FFF0 Main mask=1" =
        parse {} mainOnly "mask=FFF0 Main  mask=1\tRW P" ∧
      parse {} mainOnly "MASK=fff0 mAIN  MASK=1\trw p" =
        .ok { space := .physical, modes := { write := true, read := true }, first := 0x8000,
              last := 0x8000, mask := 0xFFF0, enabled := true } := by
  have hparse : parse {} mainOnly "mask=FFF0 Main  mask=1\tRW P" =
      .ok { space := .physical, modes := { write := true, read := true }, first := 0x8000,
            last := 0x8000, mask := 0xFFF0, enabled := true } := by
    rfl
  constructor
  · apply (parse_ignores_order_blanks_case {} mainOnly _ _).1 _ _ (Text.spells_iff.mpr rfl)
      (Text.spells_iff.mpr rfl)
    intro kind
    cases kind <;> decide +kernel
  · exact ((parse_ignores_order_blanks_case {} mainOnly _ _).2.2 (Symbols.ignoresCase_resolve _)
      (by decide +kernel)).1 _ hparse

end Breakpoint

end Z80Debugger
