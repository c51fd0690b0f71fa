import Z80Debugger.Breakpoint.Text
import Z80Debugger.Command
import Z80Debugger.Proofs.Text.Decimal

/-!
# Command lines

A command is written with its full name and its arguments, and is read back from that line.  The
definition of a breakpoint is handed on to another reader, which cuts it into words again: joining
the words of the line by single spaces does not change what that reader makes of them, however the
line was spaced.
-/

set_option autoImplicit false

namespace Z80Debugger.Command

open Text (IsWord isBlank joinWords words)

/-- The full name of a command. -/
def name : Command → String
  | breakAt _ => "break"
  | edit _ _ => "edit"
  | delete _ => "delete"
  | enable _ => "enable"
  | disable _ => "disable"
  | toggle _ => "toggle"
  | breakpoints => "breakpoints"
  | resume => "continue"
  | step => "step"
  | next => "next"
  | finish => "finish"
  | disassemble => "disasm"
  | goTo _ => "goto"
  | goToPc => "pc"
  | stack _ => "stack"
  | scroll _ => "scroll"
  | move .up => "up"
  | move .down => "down"
  | view _ => "view"
  | registers => "registers"
  | symbols _ => "symbols"
  | help => "help"
  | quit => "quit"

/-- The arguments of a command, as they are written. -/
def arguments : Command → List String
  | breakAt definition => [definition]
  | edit id definition => [toString id, definition]
  | delete id | enable id | disable id => [toString id]
  | toggle address => address.toList
  | goTo text | symbols text => [text]
  | stack n | scroll n => [toString n]
  | view .logical => ["logical"]
  | view .physical => ["physical"]
  | _ => []

/-- The line of a command: its name and its arguments, of which an empty one is left out. -/
def line (c : Command) : String :=
  rest (c.name.toList :: (c.arguments.map String.toList).filter (!·.isEmpty))

/-- The text consists of the words with single spaces between them. -/
def Joins (ws : List (List Char)) (text : String) : Prop :=
  (∀ w ∈ ws, IsWord w) ∧ rest ws = text

/-- Texts are words with single spaces between them, at least one for an address to show and for a
file, and exactly one for a breakpoint to switch; numbers are in range. -/
def Canonical : Command → Prop
  | breakAt definition => ∃ ws, Joins ws definition
  | edit id definition => id < 0x10000000000000000 ∧ ∃ ws, Joins ws definition
  | delete id | enable id | disable id => id < 0x10000000000000000
  | toggle (some address) => IsWord address.toList
  | goTo text | symbols text => ∃ ws, ws ≠ [] ∧ Joins ws text
  | stack n | scroll n => -0x80000000 ≤ n ∧ n < 0x80000000
  | _ => True

variable {c : Command}

/-- A text that joins words is cut into those words. -/
theorem Joins.words_eq {ws : List (List Char)} {text : String} (h : Joins ws text) :
    words text.toList = ws := by
  rw [← h.2, rest, String.toList_ofList]
  exact Text.words_joinWords h.1

/-- The name of a command is a word. -/
theorem isWord_name (c : Command) : IsWord c.name.toList := by
  unfold name
  split <;> exact .of_all rfl rfl

/-- The words of a command's line are its name and the words of its arguments. -/
theorem words_line (c : Command) :
    words c.line.toList = c.name.toList :: c.arguments.flatMap (words ·.toList) := by
  have hdropped (texts : List (List Char)) :
      (texts.filter (!·.isEmpty)).flatMap words = texts.flatMap words := by
    induction texts with
    | nil => rfl
    | cons text texts ih =>
      cases text with
      | nil => exact ih
      | cons a text => exact congrArg (words (a :: text) ++ ·) ih
  rw [line, rest, String.toList_ofList, Text.words_joinWords_eq_flatMap, List.flatMap_cons,
    Text.words_of_isWord c.isWord_name, hdropped, List.flatMap_map, List.singleton_append]

/-- The line of a command is read by its name and the words of its arguments. -/
theorem parse?_line_eq (c : Command) :
    parse? c.line = ofWords? c.name (c.arguments.flatMap (words ·.toList)) := by
  unfold parse?
  rw [c.words_line]
  simp only [String.ofList_toList]

/-- A count is written as one word. -/
theorem words_toString_count {n : Nat} (hn : n < 0x10000000000000000) :
    words (toString n).toList = [(toString n).toList] :=
  Text.words_of_isWord (Text.Decimal.isWord_of_count? (Text.Decimal.count?_toString hn))

/-- So is a number with a sign. -/
theorem words_toString_signed {i : Int} (hi : -0x80000000 ≤ i ∧ i < 0x80000000) :
    words (toString i).toList = [(toString i).toList] :=
  Text.words_of_isWord (Text.Decimal.isWord_of_signed? (Text.Decimal.signed?_toString hi.1 hi.2))

/-- The number of a breakpoint is read back from the first argument. -/
theorem id?_cons_toString {id : BreakpointId} (hid : id < 0x10000000000000000)
    (args : List (List Char)) : id? ((toString id).toList :: args) = some id :=
  Text.Decimal.count?_toString hid

/-- Such a command is read back from its own line. -/
theorem parse?_line (h : c.Canonical) : parse? c.line = some c := by
  rw [parse?_line_eq]
  cases c with
  | breakAt definition =>
    obtain ⟨ws, hjoins⟩ := h
    simp only [arguments, List.flatMap_singleton, hjoins.words_eq]
    exact congrArg (some <| breakAt ·) hjoins.2
  | edit id definition =>
    obtain ⟨hid, ws, hjoins⟩ := h
    simp only [arguments, List.flatMap_cons, List.flatMap_nil, List.append_nil,
      words_toString_count hid, hjoins.words_eq, List.singleton_append]
    change (id? ((toString id).toList :: ws)).map (edit · (rest ws)) = _
    rw [id?_cons_toString hid, hjoins.2, Option.map_some]
  | delete id | enable id | disable id =>
    simp only [arguments, List.flatMap_singleton, words_toString_count h]
    exact congrArg (Option.map _) (id?_cons_toString h [])
  | toggle address =>
    cases address with
    | none => rfl
    | some address =>
      simp only [arguments, Option.toList_some, List.flatMap_singleton, Text.words_of_isWord h]
      exact congrArg (some <| toggle <| some ·) String.ofList_toList
  | goTo text | symbols text =>
    obtain ⟨ws, hne, hjoins⟩ := h
    have hwords := hjoins.words_eq
    obtain ⟨w, ws, rfl⟩ := List.exists_cons_of_ne_nil hne
    obtain ⟨-, rfl⟩ := hjoins
    simp only [arguments, List.flatMap_singleton, hwords]
    rfl
  | stack n | scroll n =>
    simp only [arguments, List.flatMap_singleton, words_toString_signed h]
    exact congrArg (Option.map _) (Text.Decimal.signed?_toString h.1 h.2)
  | move direction => cases direction <;> rfl
  | view view => cases view <;> rfl
  | _ => rfl

/-- The text begins with the word, behind any blanks, and the remainder is what stands behind it:
nothing, or a blank and anything. -/
def Begins (word remainder text : List Char) : Prop :=
  ∃ lead, (∀ b ∈ lead, isBlank b = true) ∧ (∀ c ∈ remainder.head?, isBlank c = true) ∧
    text = lead ++ (word ++ remainder)

/-- A text that begins with a word has that word first. -/
theorem Begins.words_eq {word remainder text : List Char} (h : Begins word remainder text)
    (hword : IsWord word) : words text = word :: words remainder := by
  obtain ⟨lead, hlead, hremainder, rfl⟩ := h
  rw [Text.words_append_of_blank hlead]
  cases remainder with
  | nil =>
    rw [List.append_nil, Text.words_of_isWord hword]
    rfl
  | cons b cs =>
    have hb : isBlank b = true := hremainder b rfl
    rw [Text.words_append_cons hword hb, Text.words_cons_blank hb]

/-- A line that begins with a word is read by it and the words behind. -/
theorem Begins.parse?_eq {word : String} {remainder : List Char} {line : String}
    (h : Begins word.toList remainder line.toList) (hword : IsWord word.toList) :
    parse? line = ofWords? word (words remainder) := by
  unfold parse?
  rw [h.words_eq hword]
  simp only [String.ofList_toList]

/-- A breakpoint is read from words, so its definition may be spaced in any way. -/
theorem parse_rest_words (defaults : Breakpoint.Defaults) (context : Breakpoint.Context)
    (remainder : List Char) : Breakpoint.parse defaults context (rest (words remainder)) =
      Breakpoint.parse defaults context (String.ofList remainder) := by
  simp only [Breakpoint.parse, rest, String.toList_ofList, Text.words_joinWords_words]

/-- Every command whose texts are words with single spaces between them and whose numbers are in
range is read back from its line.  And a line that begins with `break`, or with `edit` and a number,
in full or short, gives a definition that is read just as what the line has behind that: whatever
was used last and whatever labels and layout there are, the outcome is the same breakpoint or the
same error. -/
theorem line_gives_command :
    (∀ c : Command, c.Canonical → parse? c.line = some c) ∧
    (∀ word ∈ ["break", "b"], ∀ (line : String) (remainder : List Char),
      Begins word.toList remainder line.toList →
      ∃ definition, parse? line = some (breakAt definition) ∧ ∀ defaults context,
        Breakpoint.parse defaults context definition =
          Breakpoint.parse defaults context (String.ofList remainder)) ∧
    ∀ word ∈ ["edit", "e"], ∀ (line : String) (tail number remainder : List Char),
      Begins word.toList tail line.toList → Begins number remainder tail →
      ∀ id, Text.Decimal.count? number = some id →
      ∃ definition, parse? line = some (edit id definition) ∧ ∀ defaults context,
        Breakpoint.parse defaults context definition =
          Breakpoint.parse defaults context (String.ofList remainder) := by
  refine ⟨fun c => parse?_line, ?_, ?_⟩
  · intro word hname line remainder hline
    refine ⟨rest (words remainder), ?_, fun _ _ => parse_rest_words _ _ _⟩
    simp only [List.mem_cons, List.not_mem_nil, or_false] at hname
    obtain rfl | rfl := hname
    all_goals exact hline.parse?_eq (.of_all rfl rfl)
  · intro word hname line tail number remainder hline htail id hid
    refine ⟨rest (words remainder), ?_, fun _ _ => parse_rest_words _ _ _⟩
    have hnumber : id? (number :: words remainder) = some id := hid
    have hwords := htail.words_eq (Text.Decimal.isWord_of_count? hid)
    simp only [List.mem_cons, List.not_mem_nil, or_false] at hname
    obtain rfl | rfl := hname
    all_goals
      rw [hline.parse?_eq (.of_all rfl rfl), hwords]
      exact congrArg (Option.map _) hnumber

/-- A replacement is read back from its line, and a line that is spaced with tabs gives the
breakpoint that stands behind its number. -/
theorem line_gives_command_spaced :
    parse? "edit 3 l x 9000" = some (edit 3 "l x 9000") ∧
      ∃ definition, parse? " e\t+03\tio  rw 10-1F" = some (edit 3 definition) ∧
        Breakpoint.parse {} {} definition = Breakpoint.parse {} {} "\tio  rw 10-1F" := by
  obtain ⟨hline, -, hedit⟩ := line_gives_command
  have hwords : ∀ w ∈ ["l".toList, "x".toList, "9000".toList], IsWord w := by
    simp only [List.forall_mem_cons, List.not_mem_nil, false_imp_iff, implies_true, and_true]
    exact ⟨.of_all rfl rfl, .of_all rfl rfl, .of_all rfl rfl⟩
  have hcanonical : (edit 3 "l x 9000").Canonical := ⟨by decide, _, hwords, rfl⟩
  have hspelled : line (edit 3 "l x 9000") = "edit 3 l x 9000" := by rfl
  refine ⟨hspelled ▸ hline _ hcanonical, ?_⟩
  have hbegins : Begins "e".toList "\t+03\tio  rw 10-1F".toList " e\t+03\tio  rw 10-1F".toList :=
    ⟨[' '], List.forall_mem_singleton.mpr rfl, by rintro b ⟨⟩; rfl, rfl⟩
  have htail : Begins "+03".toList "\tio  rw 10-1F".toList "\t+03\tio  rw 10-1F".toList :=
    ⟨['\t'], List.forall_mem_singleton.mpr rfl, by rintro b ⟨⟩; rfl, rfl⟩
  obtain ⟨definition, hparse, hread⟩ := hedit "e" (by simp) _ _ _ _ hbegins htail 3 (by decide)
  exact ⟨definition, hparse, hread {} {}⟩

end Z80Debugger.Command
