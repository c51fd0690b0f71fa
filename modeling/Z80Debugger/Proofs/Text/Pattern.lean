import Mathlib.Data.List.Basic
import Z80Debugger.Text.Pieces

/-!
# Patterns with backtracking

A pattern is tried at the start of a text.  Where there is a choice, every way to go on is a
reading, and the readings stand in the order in which a matcher that backtracks tries them: a
repetition takes as much as it can first, and of two alternatives the first comes first.  The match
is the first reading.

Most choices are none: a repetition need not give anything back if what follows it refuses the
characters that it takes.  The lemmas on what is refused say where that is so.
-/

set_option autoImplicit false

namespace Z80Debugger.Text

/-- A pattern for the start of a text. -/
inductive Pattern where
  | empty
  /-- One character of a kind. -/
  | one (p : Char → Bool)
  /-- Characters of a kind, as many as possible. -/
  | many (p : Char → Bool)
  | seq (first second : Pattern)
  /-- The second pattern only where the first one leads nowhere. -/
  | either (first second : Pattern)
  /-- The text that the pattern takes is part of the result. -/
  | group (inside : Pattern)
  | atEnd

namespace Pattern

/-- What is left of a text when characters of a kind are taken from its start, the shortest rest
first. -/
def leftovers (p : Char → Bool) : List Char → List (List Char)
  | [] => [[]]
  | c :: cs => if p c then leftovers p cs ++ [c :: cs] else [c :: cs]

/-- The groups of each reading and what the reading leaves of the text, in the order in which the
readings are tried. -/
def readings : Pattern → List Char → List (List (List Char) × List Char)
  | empty, cs => [([], cs)]
  | one p, cs => match cs with
    | [] => []
    | c :: rest => if p c then [([], rest)] else []
  | many p, cs => (leftovers p cs).map fun rest => ([], rest)
  | seq first second, cs => (first.readings cs).flatMap fun (groups, rest) =>
    (second.readings rest).map fun (more, rest) => (groups ++ more, rest)
  | either first second, cs => first.readings cs ++ second.readings cs
  | group inside, cs => (inside.readings cs).map fun (groups, rest) =>
    (cs.take (cs.length - rest.length) :: groups, rest)
  | atEnd, cs => if cs.isEmpty then [([], [])] else []

/-- The groups of the match. -/
def captures (pattern : Pattern) (cs : List Char) : Option (List (List Char)) :=
  (pattern.readings cs).head?.map (·.1)

/-- A letter in either case, given as a small letter. -/
def letter (small : Char) : Pattern := one fun c => c.toLower == small

/-- The pattern if it leads somewhere, and otherwise nothing. -/
def optional (pattern : Pattern) : Pattern := either pattern empty

/-- The pattern does not match a text that begins with such a character. -/
def Refuses (pattern : Pattern) (p : Char → Bool) : Prop :=
  ∀ c cs, p c = true → pattern.readings (c :: cs) = []

variable {p q : Char → Bool} {a b k : Pattern} {c : Char} {cs : List Char}

/-- The empty pattern takes nothing. -/
@[simp] theorem readings_empty_seq : (seq empty k).readings cs = k.readings cs := by
  simp [readings]

/-- Patterns in a row may be grouped in any way. -/
@[simp] theorem readings_seq_seq :
    (seq (seq a b) k).readings cs = (seq a (seq b k)).readings cs := by
  simp [readings, List.flatMap_assoc, List.flatMap_map, List.map_flatMap, Function.comp_def]

/-- The first alternative is tried first. -/
@[simp] theorem readings_either_seq :
    (seq (either a b) k).readings cs = (seq a k).readings cs ++ (seq b k).readings cs := by
  simp [readings]

/-- What is optional is first tried and then left out. -/
theorem readings_optional_seq :
    (seq (optional a) k).readings cs = (seq a k).readings cs ++ k.readings cs := by
  simp [optional]

/-- One character is taken if it may be. -/
@[simp] theorem readings_one_seq_cons :
    (seq (one p) k).readings (c :: cs) = if p c = true then k.readings cs else [] := by
  by_cases hc : p c = true <;> simp [readings, hc]

/-- A group refuses what its first character cannot be. -/
theorem Refuses.group_seq (h : ∀ c, p c = true → q c = false) {r : Char → Bool} :
    (seq (group (seq (one q) (many r))) k).Refuses p := by
  intro c cs hc
  simp [readings, h c hc]

/-- Of the rests that a repetition may leave, only the shortest counts where the others are of no
use. -/
theorem flatMap_leftovers {β : Type} {f : List Char → List β}
    (hf : ∀ c cs, p c = true → f (c :: cs) = []) (cs : List Char) :
    (leftovers p cs).flatMap f = f (cs.dropWhile p) := by
  induction cs with
  | nil => simp [leftovers]
  | cons c cs ih =>
    by_cases hc : p c = true
    · rw [leftovers, if_pos hc, List.flatMap_append, ih, List.flatMap_singleton, hf c cs hc,
        List.append_nil, List.dropWhile_cons_of_pos hc]
    · rw [leftovers, if_neg hc, List.flatMap_singleton, List.dropWhile_cons_of_neg hc]

/-- Before what refuses certain characters, all of them are taken. -/
theorem Refuses.readings_many_seq (hk : k.Refuses p) (cs : List Char) :
    (seq (many p) k).readings cs = k.readings (cs.dropWhile p) := by
  rw [← flatMap_leftovers hk]
  simp [readings, List.flatMap_map]

/-- The rests that a repetition may leave, by the number of characters that it takes. -/
theorem leftovers_eq (p : Char → Bool) (cs : List Char) :
    leftovers p cs =
      (List.range ((cs.takeWhile p).length + 1)).reverse.map fun n => cs.drop n := by
  induction cs with
  | nil => rfl
  | cons c cs ih =>
    by_cases hc : p c = true
    · rw [leftovers, if_pos hc, List.takeWhile_cons_of_pos hc, List.length_cons,
        List.range_succ_eq_map, List.reverse_cons, List.map_append, ← List.map_reverse,
        List.map_map, ih]
      rfl
    · rw [leftovers, if_neg hc, List.takeWhile_cons_of_neg hc]
      rfl

/-- A group is read with every length that it can have, the longest first. -/
theorem readings_group_seq_eq (hc : p c = true) :
    (seq (group (seq (one p) (many q))) k).readings (c :: cs) =
      (leftovers q cs).flatMap fun rest => (k.readings rest).map fun (groups, left) =>
        ((c :: cs).take ((c :: cs).length - rest.length) :: groups, left) := by
  simp [readings, hc, List.flatMap_map]

/-- A group of a character and a repetition takes as much as it can first, and one character at
least. -/
theorem readings_group_seq (hc : p c = true) :
    (seq (group (seq (one p) (many q))) k).readings (c :: cs) =
      (List.range ((cs.takeWhile q).length + 1)).reverse.flatMap fun n =>
        (k.readings (cs.drop n)).map fun (groups, left) =>
          ((c :: cs).take (n + 1) :: groups, left) := by
  rw [readings_group_seq_eq hc, leftovers_eq, List.flatMap_map]
  refine List.flatMap_congr fun n hn => ?_
  have hle : (cs.takeWhile q).length ≤ cs.length := (List.takeWhile_sublist q).length_le
  have hlt : n < (cs.takeWhile q).length + 1 := by simpa using hn
  have htaken : (c :: cs).length - (cs.drop n).length = n + 1 := by
    rw [List.length_cons, List.length_drop]
    omega
  rw [htaken]

/-- Such a group takes all that it can if nothing of it is needed behind. -/
theorem Refuses.readings_group_seq (hk : k.Refuses p) (cs : List Char) :
    (seq (group (seq (one p) (many p))) k).readings cs =
      if (cs.takeWhile p).isEmpty then []
      else (k.readings (cs.dropWhile p)).map fun (groups, left) =>
        (cs.takeWhile p :: groups, left) := by
  cases cs with
  | nil => rfl
  | cons c cs =>
    by_cases hc : p c = true
    · have htaken : (c :: cs).take ((c :: cs).length - (cs.dropWhile p).length) =
          (c :: cs).takeWhile p := by
        have hlength : (cs.takeWhile p).length + (cs.dropWhile p).length = cs.length := by
          rw [← List.length_append, List.takeWhile_append_dropWhile]
        have hcount : (c :: cs).length - (cs.dropWhile p).length =
            ((c :: cs).takeWhile p).length := by
          rw [List.takeWhile_cons_of_pos hc, List.length_cons, List.length_cons]
          omega
        rw [hcount]
        exact (List.prefix_iff_eq_take.mp (List.takeWhile_prefix p)).symm
      have hshorter : ∀ d ds, p d = true → ((k.readings (d :: ds)).map fun (groups, left) =>
          ((c :: cs).take ((c :: cs).length - (d :: ds).length) :: groups, left)) = [] := by
        intro d ds hd
        rw [hk d ds hd]
        rfl
      rw [readings_group_seq_eq hc, flatMap_leftovers hshorter, htaken,
        List.takeWhile_cons_of_pos hc, List.dropWhile_cons_of_pos hc]
      rfl
    · simp [readings, hc]

end Pattern

end Z80Debugger.Text
