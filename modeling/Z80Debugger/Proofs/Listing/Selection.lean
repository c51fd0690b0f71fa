import Z80Debugger.Proofs.Listing.Lines
import Z80Debugger.Proofs.Listing.Stride

/-!
# The selection and the window

Base and selection of a cursor move on their own: the window is scrolled under the selection, the
selection is moved out of the window, and the program counter may be anywhere.  `Cursor.Anchored`
says that the selection stands in a line of the window.  Going somewhere anchors a cursor, whatever
it was before; scrolling, moving and following the program counter keep it anchored, because the one
that was left behind is set to the other.  `Cursor.Moves` lists these ways of a cursor in its view.
-/

set_option autoImplicit false

namespace Z80Debugger

namespace Listing

variable {l k : Listing} {base address : UInt32} {target steps position last found back : Nat}

/-- The line that is found before a target is not behind it. -/
theorem lastBefore?_le (hlast : last ≤ target)
    (hfound : l.lastBefore? target steps position last = some found) : found ≤ target := by
  induction steps generalizing position last with
  | zero =>
    rw [lastBefore?] at hfound
    split at hfound
    · rwa [← Option.some.inj hfound]
    · cases hfound
  | succ steps ih =>
    rw [lastBefore?] at hfound
    split at hfound
    · rwa [← Option.some.inj hfound]
    · split at hfound
      · cases hfound
      · exact ih (by omega) hfound

/-- So is the line that a walk from further back finds. -/
theorem previousFrom?_le (hfound : l.previousFrom? target back = some found) : found ≤ target := by
  induction back with
  | zero => cases hfound
  | succ back ih =>
    rw [previousFrom?, Option.or_eq_some_iff] at hfound
    rcases hfound with hfound | ⟨-, hfound⟩
    · exact lastBefore?_le (Nat.sub_le _ _) hfound
    · exact ih hfound

/-- Nothing before an address of the view leaves the view. -/
@[simp] theorem cut_previous (l : Listing) (address : UInt32) :
    l.cut (l.previous address) = l.previous address := by
  have hview : (l.cut address).toNat < l.size := cut_eq_self_iff.mp (l.cut_cut address)
  have hword := (l.cut address).toNat_lt
  have hle : (l.previousFrom? (l.cut address).toNat
      (min lookBack (l.cut address).toNat)).getD ((l.cut address).toNat - 1) ≤
        (l.cut address).toNat := by
    cases hfound : l.previousFrom? (l.cut address).toNat (min lookBack (l.cut address).toNat) with
    | none => exact Nat.sub_le _ _
    | some found => exact previousFrom?_le hfound
  rw [cut_eq_self_iff, previous, UInt32.toNat_ofNat_of_lt' (Nat.lt_of_le_of_lt hle hword)]
  exact Nat.lt_of_le_of_lt hle hview

/-- The neighbour of a line is an address of the view. -/
@[simp] theorem cut_neighbour (l : Listing) (direction : Direction) (address : UInt32) :
    l.cut (l.neighbour direction address) = l.neighbour direction address := by
  cases direction
  · exact l.cut_previous address
  · exact l.cut_next address

/-- So is the neighbour of a neighbour, however often. -/
theorem cut_repeat_neighbour (hbase : l.cut base = base) (direction : Direction) (n : Nat) :
    l.cut (n.repeat (l.neighbour direction) base) = n.repeat (l.neighbour direction) base := by
  cases n with
  | zero => exact hbase
  | succ n => exact l.cut_neighbour direction _

/-- The chain depends only on where each instruction leads. -/
theorem addressAt_congr (hview : l.view = k.view) (hnext : l.next = k.next) (base : UInt32)
    (line : Nat) : l.addressAt base line = k.addressAt base line := by
  rw [addressAt, addressAt, cut, cut, hview, hnext]

/-- Names change the text of a listing, but not where its instructions lead. -/
theorem next_of_symbols (r s : Symbols) (c : Cpu) (view : View) :
    (of r.disassembler c view).next = (of s.disassembler c view).next := by
  funext address
  unfold next
  have hline : ∀ t : Symbols, (of t.disassembler c view).line? address =
      (c.codeIn? view address).map (Code.line t.nameAt address) := fun _ => rfl
  rw [hline r, hline s]
  cases c.codeIn? view address with
  | none => rfl
  | some code => rfl

end Listing

namespace Cursor

variable {c : Cursor} {l k : Listing} {address : UInt32}

/-- The selection stands in the window, and both have addresses of the listing's view. -/
structure Anchored (c : Cursor) (l : Listing) : Prop where
  view : c.view = l.view
  base : l.cut c.base = c.base
  selected : l.cut c.selected = c.selected
  shown : c.shows l c.selected = true

/-- An address is shown exactly if a line has it. -/
theorem shows_iff :
    c.shows l address = true ↔ ∃ line < c.lines, l.addressAt c.base line = l.cut address :=
  Listing.isSome_lineOf?_iff

/-- A window that has a line shows its base. -/
theorem shows_base (hlines : 0 < c.lines) : c.shows l c.base = true :=
  shows_iff.mpr ⟨0, hlines, rfl⟩

/-- The selection of an anchored cursor is on a line. -/
theorem Anchored.exists_line (h : c.Anchored l) :
    ∃ line < c.lines, l.addressAt c.base line = c.selected := by
  obtain ⟨line, hlt, hat⟩ := shows_iff.mp h.shown
  exact ⟨line, hlt, by rw [hat, h.selected]⟩

/-- An anchored cursor shows at least one line. -/
theorem Anchored.lines_pos (h : c.Anchored l) : 0 < c.lines := by
  obtain ⟨line, hlt, -⟩ := h.exists_line
  omega

/-- Whether a cursor is anchored depends on the view and on where lines end. -/
theorem Anchored.congr (h : c.Anchored l) (hview : l.view = k.view) (hnext : l.next = k.next) :
    c.Anchored k where
  view := h.view.trans hview
  base := by
    rw [Listing.cut, ← hview]
    exact h.base
  selected := by
    rw [Listing.cut, ← hview]
    exact h.selected
  shown := by
    obtain ⟨line, hlt, hat⟩ := shows_iff.mp h.shown
    rw [Listing.addressAt_congr hview hnext] at hat
    rw [shows_iff, Listing.cut, ← hview]
    exact ⟨line, hlt, hat⟩

/-- Going to an address anchors the cursor, wherever it was. -/
theorem anchored_goTo (hview : c.view = l.view) (hlines : 0 < c.lines) (address : UInt32) :
    (c.goTo address).Anchored l := by
  have hplace : l.cut (address &&& c.view.mask) = address &&& c.view.mask := by
    rw [hview]
    exact l.cut_cut address
  exact ⟨hview, hplace, hplace, shows_base hlines⟩

/-- Showing the program counter anchors a cursor. -/
theorem anchored_goToPc (hview : c.view = l.view) (hlines : 0 < c.lines) (pc : UInt32) :
    (c.goToPc pc).Anchored l := by
  obtain ⟨_, hbase, hselected, hshown⟩ := anchored_goTo hview hlines pc
  exact ⟨hview, hbase, hselected, hshown⟩

/-- Wherever the base goes, the selection goes there too if it is out of the window. -/
theorem Anchored.selectShown (h : c.Anchored l) {base : UInt32} (hbase : l.cut base = base) :
    ({ c with base }.selectShown l).Anchored l := by
  unfold Cursor.selectShown
  split
  · next hshown => exact ⟨h.view, hbase, h.selected, hshown⟩
  · exact ⟨h.view, hbase, hbase, shows_base h.lines_pos⟩

/-- Wherever the selection goes, the base goes there too if that is out of the window. -/
theorem Anchored.showSelected (h : c.Anchored l) {selected : UInt32}
    (hselected : l.cut selected = selected) :
    ({ c with selected }.showSelected l).Anchored l := by
  unfold Cursor.showSelected
  split
  · next hshown => exact ⟨h.view, h.base, hselected, hshown⟩
  · exact ⟨h.view, hselected, hselected, shows_base h.lines_pos⟩

/-- Scrolling keeps a cursor anchored. -/
theorem Anchored.scroll (h : c.Anchored l) (delta : Int) : (c.scroll l delta).Anchored l := by
  have hmoved := h.selectShown
    (Listing.cut_repeat_neighbour h.base (if 0 < delta then .down else .up) delta.natAbs)
  exact ⟨hmoved.view, hmoved.base, hmoved.selected, hmoved.shown⟩

/-- Moving the selection keeps a cursor anchored. -/
theorem Anchored.move (h : c.Anchored l) (direction : Direction) :
    (c.move l direction).Anchored l := by
  have hmoved := h.showSelected (l.cut_neighbour direction c.selected)
  exact ⟨hmoved.view, hmoved.base, hmoved.selected, hmoved.shown⟩

/-- Following the program counter keeps the cursor anchored, wherever that is. -/
theorem Anchored.sync (h : c.Anchored l) (pc : UInt32) : (c.sync l pc).Anchored l := by
  unfold Cursor.sync
  split
  · have hpc : l.cut (pc &&& c.view.mask) = pc &&& c.view.mask := by
      rw [h.view]
      exact l.cut_cut pc
    exact h.showSelected hpc
  · exact h

/-- Selecting a shown line leaves the number of lines. -/
@[simp] theorem lines_selectShown (c : Cursor) (l : Listing) :
    (c.selectShown l).lines = c.lines := by
  unfold Cursor.selectShown
  split <;> rfl

/-- Showing the selection leaves the number of lines. -/
@[simp] theorem lines_showSelected (c : Cursor) (l : Listing) :
    (c.showSelected l).lines = c.lines := by
  unfold Cursor.showSelected
  split <;> rfl

/-- Scrolling leaves the number of lines. -/
@[simp] theorem lines_scroll (c : Cursor) (l : Listing) (delta : Int) :
    (c.scroll l delta).lines = c.lines :=
  lines_selectShown _ l

/-- Moving the selection leaves the number of lines. -/
@[simp] theorem lines_move (c : Cursor) (l : Listing) (direction : Direction) :
    (c.move l direction).lines = c.lines :=
  lines_showSelected _ l

/-- Following the program counter leaves the number of lines. -/
@[simp] theorem lines_sync (c : Cursor) (l : Listing) (pc : UInt32) :
    (c.sync l pc).lines = c.lines := by
  unfold sync
  split
  · exact lines_showSelected _ l
  · rfl

/-- What a cursor may become while it stays in its view: it goes somewhere, or it moves in the
listing, if there is one. -/
inductive Moves (l? : Option Listing) (c : Cursor) : Cursor → Prop where
  | stay : c.Moves l? c
  | goTo (address : UInt32) : c.Moves l? (c.goTo address)
  | goToPc (pc : UInt32) : c.Moves l? (c.goToPc pc)
  | scroll {l : Listing} (hlisting : l? = some l) (delta : Int) : c.Moves l? (c.scroll l delta)
  | move {l : Listing} (hlisting : l? = some l) (direction : Direction) :
    c.Moves l? (c.move l direction)
  | sync {l : Listing} (hlisting : l? = some l) (pc : UInt32) : c.Moves l? (c.sync l pc)

/-- However a cursor moves, the number of lines stays. -/
theorem Moves.lines_eq {l? : Option Listing} {after : Cursor} (hmoves : c.Moves l? after) :
    after.lines = c.lines := by
  cases hmoves with
  | stay | goTo | goToPc => rfl
  | scroll => exact c.lines_scroll _ _
  | move => exact c.lines_move _ _
  | sync => exact c.lines_sync _ _

/-- However an anchored cursor moves, it stays anchored. -/
theorem Anchored.moves (h : c.Anchored l) {after : Cursor} (hmoves : c.Moves (some l) after) :
    after.Anchored l := by
  cases hmoves with
  | stay => exact h
  | goTo address => exact anchored_goTo h.view h.lines_pos address
  | goToPc pc => exact anchored_goToPc h.view h.lines_pos pc
  | scroll hlisting delta =>
    cases hlisting
    exact h.scroll delta
  | move hlisting direction =>
    cases hlisting
    exact h.move direction
  | sync hlisting pc =>
    cases hlisting
    exact h.sync pc

/-- A cursor that follows the program counter selects it when the window is shown. -/
theorem selected_sync (l : Listing) (hfollows : c.followsPc = true) (pc : UInt32) :
    (c.sync l pc).selected = pc &&& (c.sync l pc).view.mask := by
  unfold sync showSelected
  rw [if_pos hfollows]
  split <;> rfl

/-- An anchored cursor's window has a row that is selected; if the program counter is selected, the
row is marked with it. -/
theorem Anchored.exists_row (h : c.Anchored l) (pc : UInt32) (hasBreakpoint : UInt32 → Bool) :
    ∃ row ∈ c.rows l pc hasBreakpoint, row.isSelected = true ∧
      (c.selected = pc &&& c.view.mask → row.isPc = true) := by
  obtain ⟨line, hlt, hat⟩ := h.exists_line
  have hrow := getElem?_rows h.base pc hasBreakpoint hlt
  rw [hat] at hrow
  refine ⟨_, List.mem_of_getElem? hrow, beq_self_eq_true c.selected, fun hpc => ?_⟩
  exact beq_iff_eq.mpr hpc

end Cursor

end Z80Debugger
