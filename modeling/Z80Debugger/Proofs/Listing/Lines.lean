import Mathlib.Data.Nat.Find
import Z80Debugger.Listing.Cursor

/-!
# Lines, addresses and rows

Three loops go through a listing: one counts up to a line, one looks for an address, one collects
the rows of a window.  All three follow the same chain of addresses, whatever the disassembler says,
also one that fails, stands still or jumps back.  `lines_addresses_rows_agree` puts them side by
side: a search answers with the first line that has the address, and a row stands where its line
does.
-/

set_option autoImplicit false

namespace Z80Debugger

namespace Listing

variable {l : Listing} {base position target address : UInt32} {lines i : Nat}

/-- The lines depend on the base as an address of the view. -/
@[simp] theorem addressAt_cut (l : Listing) (base : UInt32) (line : Nat) :
    l.addressAt (l.cut base) line = l.addressAt base line := by
  simp [addressAt]

/-- The chain from the next instruction is the rest of the chain from an instruction. -/
theorem addressAt_next (hposition : l.cut position = position) (line : Nat) :
    l.addressAt (l.next position) line = l.addressAt position (line + 1) := by
  induction line with
  | zero => simp [hposition]
  | succ line ih => rw [addressAt_succ, ih, ← addressAt_succ]

/-- A search finds the first line with the address. -/
theorem findLine?_eq_some_iff (hposition : l.cut position = position) :
    l.findLine? target lines position = some i ↔
      i < lines ∧ l.addressAt position i = target ∧
        ∀ j < i, l.addressAt position j ≠ target := by
  induction lines generalizing position i with
  | zero => simp [findLine?]
  | succ lines ih =>
    have hrest := fun {i : Nat} => ih (i := i) (l.cut_next position)
    simp only [addressAt_next hposition] at hrest
    by_cases harrived : position = target
    · rw [findLine?, if_pos harrived, Option.some_inj]
      constructor
      · rintro rfl
        exact ⟨Nat.succ_pos lines, by rw [addressAt_zero, hposition, harrived], by simp⟩
      · rintro ⟨-, -, hbefore⟩
        cases i with
        | zero => rfl
        | succ i =>
          exact absurd (by rw [addressAt_zero, hposition, harrived]) (hbefore 0 (by omega))
    · rw [findLine?, if_neg harrived, Option.map_eq_some_iff]
      constructor
      · rintro ⟨rest, hfound, rfl⟩
        obtain ⟨hlt, hat, hbefore⟩ := hrest.mp hfound
        refine ⟨by omega, hat, fun j hj => ?_⟩
        cases j with
        | zero => rwa [addressAt_zero, hposition]
        | succ j => exact hbefore j (by omega)
      · rintro ⟨hlt, hat, hbefore⟩
        cases i with
        | zero =>
          rw [addressAt_zero, hposition] at hat
          exact absurd hat harrived
        | succ i =>
          refine ⟨i, hrest.mpr ⟨by omega, hat, fun j hj => hbefore (j + 1) (by omega)⟩, rfl⟩

/-- A line is found exactly if it is the first one with the address. -/
theorem lineOf?_eq_some_iff :
    l.lineOf? base lines address = some i ↔
      i < lines ∧ l.addressAt base i = l.cut address ∧
        ∀ j < i, l.addressAt base j ≠ l.cut address := by
  rw [lineOf?, findLine?_eq_some_iff (l.cut_cut base)]
  simp only [addressAt_cut]

/-- The address of a line is found in that line or, where the chain goes in a circle, in an earlier
one. -/
theorem exists_lineOf?_addressAt (hi : i < lines) :
    ∃ j ≤ i, l.lineOf? base lines (l.addressAt base i) = some j := by
  have hexists : ∃ j, l.addressAt base j = l.addressAt base i := ⟨i, rfl⟩
  have hfirst : Nat.find hexists ≤ i := Nat.find_min' hexists rfl
  refine ⟨Nat.find hexists, hfirst, ?_⟩
  rw [lineOf?_eq_some_iff, cut_addressAt]
  exact ⟨by omega, Nat.find_spec hexists, fun j hj => Nat.find_min hexists hj⟩

/-- An address is found exactly if one of the lines has it. -/
theorem isSome_lineOf?_iff :
    (l.lineOf? base lines address).isSome = true ↔
      ∃ line < lines, l.addressAt base line = l.cut address := by
  rw [Option.isSome_iff_exists]
  constructor
  · rintro ⟨line, hline⟩
    obtain ⟨hlt, hat, -⟩ := lineOf?_eq_some_iff.mp hline
    exact ⟨line, hlt, hat⟩
  · rintro ⟨line, hlt, hat⟩
    obtain ⟨first, -, hfirst⟩ : ∃ first ≤ line, l.lineOf? base lines (l.addressAt base line) =
        some first := exists_lineOf?_addressAt hlt
    rw [hat] at hfirst
    exact ⟨first, by rwa [lineOf?, cut_cut] at hfirst⟩

/-- The listed addresses are those of the lines. -/
theorem getElem?_addresses (hposition : l.cut position = position) (hi : i < lines) :
    (l.addresses lines position)[i]? = some (l.addressAt position i) := by
  induction lines generalizing position i with
  | zero => omega
  | succ lines ih =>
    rw [addresses]
    cases i with
    | zero => simp [hposition]
    | succ i =>
      rw [List.getElem?_cons_succ, ih (l.cut_next position) (by omega), addressAt_next hposition]

end Listing

/-- The row of a line has the line's address. -/
theorem Cursor.getElem?_rows {c : Cursor} {l : Listing} (hbase : l.cut c.base = c.base)
    (pc : UInt32) (hasBreakpoint : UInt32 → Bool) {i : Nat} (hi : i < c.lines) :
    (c.rows l pc hasBreakpoint)[i]? = some {
      address := l.addressAt c.base i
      text := l.textAt (l.addressAt c.base i)
      isPc := l.addressAt c.base i == pc &&& c.view.mask
      hasBreakpoint := hasBreakpoint (l.addressAt c.base i)
      isSelected := l.addressAt c.base i == c.selected } := by
  rw [rows, List.getElem?_map, Listing.getElem?_addresses hbase hi, Option.map_some]

namespace Listing

/-- In every listing, whatever its disassembler says, a search answers with a line exactly if that
line is one of those that are searched, has the address cut to the view, and no line before it has.
A window whose base is an address of the view has as many rows as lines; each row has the address of
its line, is marked as the program counter exactly if it has its address, and is found in its own
line or an earlier one. -/
theorem lines_addresses_rows_agree (l : Listing) :
    (∀ (base address : UInt32) (lines i : Nat), l.lineOf? base lines address = some i ↔
      i < lines ∧ l.addressAt base i = l.cut address ∧
        ∀ j < i, l.addressAt base j ≠ l.cut address) ∧
    ∀ (c : Cursor) (pc : UInt32) (hasBreakpoint : UInt32 → Bool), l.cut c.base = c.base →
      (c.rows l pc hasBreakpoint).length = c.lines ∧
      ∀ i < c.lines, ∃ row, (c.rows l pc hasBreakpoint)[i]? = some row ∧
        row.address = l.addressAt c.base i ∧
        (row.isPc = true ↔ row.address = pc &&& c.view.mask) ∧
        ∃ j ≤ i, l.lineOf? c.base c.lines row.address = some j := by
  refine ⟨fun _ _ _ _ => lineOf?_eq_some_iff, fun c pc hasBreakpoint hbase => ?_⟩
  refine ⟨c.length_rows l pc hasBreakpoint, fun i hi => ?_⟩
  exact ⟨_, Cursor.getElem?_rows hbase pc hasBreakpoint hi, rfl, beq_iff_eq,
    exists_lineOf?_addressAt hi⟩

/-- A listing of two instructions that lead to each other. -/
def circle : Listing where
  view := .logical
  line? address := if address = 0x9001 then some { next := 0x9000, text := "jp $9000" } else none

/-- Four lines of the circle: the last one has the address of the program counter, which is found
two lines before. -/
theorem lines_addresses_rows_agree_circling :
    let c : Cursor := { base := 0x9000, lines := 4, view := .logical }
    let rows := c.rows circle 0x9001 fun _ => false
    circle.cut c.base = c.base ∧ rows.length = 4 ∧ circle.lineOf? c.base 4 0x9001 = some 1 ∧
      ∃ row, rows[3]? = some row ∧ row.address = 0x9001 ∧ row.isPc = true ∧
        ∃ j ≤ 3, circle.lineOf? c.base 4 row.address = some j := by
  intro c rows
  have hbase : circle.cut c.base = c.base := by
    decide
  obtain ⟨hlength, hrows⟩ :=
    (lines_addresses_rows_agree circle).2 c 0x9001 (fun _ => false) hbase
  obtain ⟨row, hrow, haddress, hpc, hfound⟩ := hrows 3 (by decide)
  have hat : row.address = 0x9001 := by
    rw [haddress]
    decide
  refine ⟨hbase, hlength, by decide, row, hrow, hat, hpc.mpr ?_, hfound⟩
  rw [hat]
  decide

end Listing

end Z80Debugger
