/-!
# Memory layout

Physical memory is a block of ROM followed by a block of RAM, both cut into pages of 16 KiB.  Page
numbers from `ramPageBase` on count RAM pages, the ones below count ROM pages; a page number beyond
the end of its block wraps around inside that block.
-/

set_option autoImplicit false

namespace Z80Debugger

/-- The number of bytes in a page. -/
def pageSize : UInt32 := 0x4000

/-- The sizes of ROM and RAM and the number of the first RAM page. -/
structure Layout where
  romSize : UInt32
  ramSize : UInt32
  ramPageBase : UInt32
  /-- The end of memory has a 32-bit address. -/
  fits : romSize.toNat + ramSize.toNat < 0x100000000
  deriving DecidableEq, Repr

namespace Layout

/-- The layout with the given sizes, unless their sum takes more than 32 bits. -/
def ofSizes? (romSize ramSize ramPageBase : UInt32) : Option Layout :=
  if fits : romSize.toNat + ramSize.toNat < 0x100000000 then
    some { romSize, ramSize, ramPageBase, fits }
  else none

/-- 512 KiB of ROM, 32 KiB of RAM, and RAM pages from 40 (hexadecimal) on. -/
def standard : Layout where
  romSize := 0x80000
  ramSize := 0x8000
  ramPageBase := 0x40
  fits := by decide

instance : Inhabited Layout := ⟨standard⟩

/-- The number of bytes of ROM and RAM together. -/
def memorySize (l : Layout) : UInt32 := l.romSize + l.ramSize

/-- The physical address of a place in a page.  Only the low 14 bits of the offset count. -/
def pageAddress (l : Layout) (page offset : UInt32) : UInt32 :=
  let offset := offset % pageSize
  if l.ramPageBase ≤ page then
    (offset + (page - l.ramPageBase) <<< 14) % max l.ramSize 1 + l.romSize
  else
    (offset + page <<< 14) % max l.romSize 1

/-- The number of digits with which physical addresses are shown. -/
def addressWidth (l : Layout) : Nat := if 0xFFFF < l.memorySize then 6 else 4

/-- The sizes of ROM and RAM add up without a carry. -/
theorem toNat_memorySize (l : Layout) :
    l.memorySize.toNat = l.romSize.toNat + l.ramSize.toNat := by
  have := l.fits
  simp only [memorySize, UInt32.toNat_add]
  omega

/-- Sizes make a layout exactly if their sum takes no more than 32 bits. -/
theorem ofSizes?_eq_some_iff {romSize ramSize ramPageBase : UInt32} {l : Layout} :
    ofSizes? romSize ramSize ramPageBase = some l ↔
      l.romSize = romSize ∧ l.ramSize = ramSize ∧ l.ramPageBase = ramPageBase := by
  unfold ofSizes?
  constructor
  · intro h
    split at h
    · obtain rfl := Option.some.inj h
      exact ⟨rfl, rfl, rfl⟩
    · exact absurd h (by simp)
  · rintro ⟨rfl, rfl, rfl⟩
    simp [l.fits]

end Layout

end Z80Debugger
