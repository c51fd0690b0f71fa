/-!
# Blanks, pieces and words

Text is taken apart as a list of characters.  `pieces` cuts a list at every separator and keeps the
empty pieces, `words` cuts it at blanks and drops them, and `trim` removes the blanks at both ends.
A blank is any character with the Unicode property White_Space.
-/

set_option autoImplicit false

namespace Z80Debugger.Text

/-- The characters with the Unicode property White_Space. -/
def isBlank (c : Char) : Bool :=
  let n := c.toNat
  (0x09 ≤ n && n ≤ 0x0D) || n == 0x20 || n == 0x85 || n == 0xA0 || n == 0x1680 ||
    (0x2000 ≤ n && n ≤ 0x200A) || n == 0x2028 || n == 0x2029 || n == 0x202F || n == 0x205F ||
    n == 0x3000

/-- Puts an item in front of the first piece. -/
def extendFirst {α : Type} (a : α) : List (List α) → List (List α)
  | [] => [[a]]
  | piece :: rest => (a :: piece) :: rest

/-- Every separator ends a piece, so there is one piece more than there are separators. -/
def pieces {α : Type} (isSeparator : α → Bool) (as : List α) : List (List α) :=
  as.foldr (fun a rest => if isSeparator a then [] :: rest else extendFirst a rest) [[]]

/-- The pieces between blanks that are not empty. -/
def words (cs : List Char) : List (List Char) :=
  (pieces isBlank cs).filter (!·.isEmpty)

/-- The text without its leading blanks. -/
def trimStart (cs : List Char) : List Char := cs.dropWhile isBlank

/-- The text without its trailing blanks. -/
def trimEnd (cs : List Char) : List Char := (cs.reverse.dropWhile isBlank).reverse

/-- The text without the blanks at its two ends. -/
def trim (cs : List Char) : List Char := trimEnd (trimStart cs)

/-- The trimmed text of a string. -/
def trimmed (s : String) : String := String.ofList (trim s.toList)

/-- What stands before and after the first occurrence of a character, if it occurs. -/
def splitFirst? (c : Char) : List Char → Option (List Char × List Char)
  | [] => none
  | d :: cs => if d = c then some ([], cs) else (splitFirst? c cs).map fun (a, b) => (d :: a, b)

/-- The rest of a text that starts with the given characters. -/
def after? : List Char → List Char → Option (List Char)
  | [], cs => some cs
  | _ :: _, [] => none
  | p :: ps, c :: cs => if p = c then after? ps cs else none

/-- ASCII capitals become small letters; every other character stays. -/
def fold (cs : List Char) : List Char := cs.map Char.toLower

/-- The words joined by single spaces. -/
def joinWords (ws : List (List Char)) : List Char := [' '].intercalate ws

/-- Nothing is one empty piece. -/
@[simp] theorem pieces_nil {α : Type} (p : α → Bool) : pieces p [] = [[]] := rfl

/-- A separator begins a new piece, and anything else goes on with the first one. -/
theorem pieces_cons {α : Type} (p : α → Bool) (a : α) (as : List α) :
    pieces p (a :: as) = if p a then [] :: pieces p as else extendFirst a (pieces p as) := rfl

/-- There is always a piece. -/
theorem pieces_ne_nil {α : Type} (p : α → Bool) (as : List α) : pieces p as ≠ [] := by
  cases as with
  | nil => simp
  | cons a as =>
    rw [pieces_cons]
    split
    · simp
    · cases pieces p as <;> simp [extendFirst]

/-- A separator cuts the text in two. -/
theorem pieces_append_cons {α : Type} {p : α → Bool} {as : List α} (h : ∀ a ∈ as, p a = false)
    {s : α} (hs : p s = true) (bs : List α) :
    pieces p (as ++ s :: bs) = as :: pieces p bs := by
  induction as with
  | nil => simp [pieces_cons, hs]
  | cons a as ih =>
    have ha : p a = false := h a (by simp)
    have has := ih fun b hb => h b (by simp [hb])
    simp [pieces_cons, ha, has, extendFirst]

/-- Without a separator the text is its own single piece. -/
theorem pieces_of_forall_not {α : Type} {p : α → Bool} {as : List α} (h : ∀ a ∈ as, p a = false) :
    pieces p as = [as] := by
  induction as with
  | nil => rfl
  | cons a as ih =>
    have ha : p a = false := h a (by simp)
    have has := ih fun b hb => h b (by simp [hb])
    simp [pieces_cons, ha, has, extendFirst]

/-- A text without blanks is trimmed already. -/
theorem trim_of_forall_not {cs : List Char} (h : ∀ c ∈ cs, isBlank c = false) : trim cs = cs := by
  have hkept : ∀ ds : List Char, (∀ c ∈ ds, isBlank c = false) → ds.dropWhile isBlank = ds := by
    intro ds hds
    cases ds with
    | nil => rfl
    | cons d ds => simp [hds d (by simp)]
  have hrev : ∀ c ∈ cs.reverse, isBlank c = false := by
    intro c hc
    exact h c (List.mem_reverse.mp hc)
  rw [trim, trimStart, hkept cs h, trimEnd, hkept _ hrev, List.reverse_reverse]

end Z80Debugger.Text
