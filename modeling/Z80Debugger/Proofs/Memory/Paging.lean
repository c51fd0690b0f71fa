import Z80Debugger.Cpu.State

/-!
# Pages in banks

If ROM and RAM are whole pages, the address of a place in a page is the start of its block, as many
whole pages as the page has before it, and the place (`WholePages.toNat_pageAddress`).  So a bank
that shows the start of a page shows every place of it, and two pages have a place in common only if
they are one page of one block (`WholePages.pageAddress_eq_iff`).  In all of this only the shift
drops bits: `exact_pageAddress` says so for every layout.  After calls of `mapPage` a bank shows the
page that the last call for it gave (`Assigned.shows`).
-/

set_option autoImplicit false

namespace Z80Debugger

namespace Layout

/-- ROM and RAM have at least one page each and nothing but whole pages. -/
structure WholePages (l : Layout) : Prop where
  rom_pos : 0 < l.romSize.toNat
  rom_pages : 0x4000 ∣ l.romSize.toNat
  ram_pos : 0 < l.ramSize.toNat
  ram_pages : 0x4000 ∣ l.ramSize.toNat

/-- The number of a page as it is counted in its block. -/
def pageNumber (l : Layout) (page : UInt32) : UInt32 :=
  if l.ramPageBase ≤ page then page - l.ramPageBase else page

/-- The number of bytes in the block of a page. -/
def blockSize (l : Layout) (page : UInt32) : UInt32 :=
  if l.ramPageBase ≤ page then l.ramSize else l.romSize

/-- The physical address at which the block of a page starts. -/
def blockStart (l : Layout) (page : UInt32) : UInt32 :=
  if l.ramPageBase ≤ page then l.romSize else 0

/-- How many pages of its block stand before a page.  The start of a page has 32 bits, so of its
number 18 bits count; what is left wraps around at the end of the block. -/
def pageIndex (l : Layout) (page : UInt32) : Nat :=
  (l.pageNumber page).toNat % 0x40000 % ((l.blockSize page).toNat / 0x4000)

/-- Two page numbers stand for one page. -/
def SamePage (l : Layout) (page other : UInt32) : Prop :=
  (l.ramPageBase ≤ page ↔ l.ramPageBase ≤ other) ∧ l.pageIndex page = l.pageIndex other

instance (l : Layout) (page other : UInt32) : Decidable (l.SamePage page other) :=
  inferInstanceAs (Decidable (_ ∧ _))

/-- The pages that a processor shows in its banks as it starts. -/
def startPages (l : Layout) : Fin 4 → UInt32
  | 0 => 0
  | 1 => 1
  | 2 => l.ramPageBase + 1
  | 3 => l.ramPageBase

/-- ROM and RAM have two pages or more, and the first two pages are ROM pages. -/
structure SeparatesBanks (l : Layout) : Prop where
  rom_two : 0x8000 ≤ l.romSize.toNat
  ram_two : 0x8000 ≤ l.ramSize.toNat
  base : 2 ≤ l.ramPageBase.toNat
  /-- The second RAM page has a number. -/
  next : l.ramPageBase.toNat + 1 < 0x100000000

/-- Every difference and every sum on the way to the address of a place in a page is the one of
natural numbers. -/
structure Exact (l : Layout) (page offset : UInt32) : Prop where
  number : l.ramPageBase ≤ page →
    (l.pageNumber page).toNat + l.ramPageBase.toNat = page.toNat
  place : (offset % pageSize + l.pageNumber page <<< 14).toNat =
    (offset % pageSize).toNat + (l.pageNumber page <<< 14).toNat
  address : (l.pageAddress page offset).toNat =
    ((offset % pageSize + l.pageNumber page <<< 14) % max (l.blockSize page) 1).toNat +
      (l.blockStart page).toNat

variable {l : Layout} {page other : UInt32}

/-- The address of a page lies in the page's block, around which it wraps. -/
theorem pageAddress_eq (l : Layout) (page offset : UInt32) :
    l.pageAddress page offset =
      (offset % pageSize + l.pageNumber page <<< 14) % max (l.blockSize page) 1 +
        l.blockStart page := by
  unfold pageAddress pageNumber blockSize blockStart
  by_cases h : l.ramPageBase ≤ page <;> simp [h]

/-- The offset in a page is what remains. -/
theorem toNat_mod_pageSize (offset : UInt32) : (offset % pageSize).toNat = offset.toNat % 0x4000 :=
  UInt32.toNat_mod offset pageSize

/-- Shifting a page number multiplies it by the size of a page, as far as it fits. -/
theorem toNat_shift (number : UInt32) :
    (number <<< 14).toNat = 0x4000 * (number.toNat % 0x40000) := by
  rw [UInt32.toNat_shiftLeft]
  simp only [UInt32.reduceToNat, Nat.reduceMod, Nat.shiftLeft_eq, Nat.reducePow]
  omega

/-- The larger of a size and one, as a number. -/
theorem toNat_max_one (size : UInt32) : (max size 1).toNat = max size.toNat 1 := by
  change (if size ≤ 1 then 1 else size).toNat = max size.toNat 1
  have hle : size ≤ 1 ↔ size.toNat ≤ 1 := UInt32.le_iff_toNat_le
  rw [Nat.max_def]
  simp only [hle]
  split <;> rfl

/-- A block ends where ROM ends or where memory ends. -/
theorem toNat_blockStart_add_blockSize (l : Layout) (page : UInt32) :
    (l.blockStart page).toNat + (l.blockSize page).toNat =
      if l.ramPageBase ≤ page then l.memorySize.toNat else l.romSize.toNat := by
  rw [toNat_memorySize]
  unfold blockStart blockSize
  split <;> simp

/-- A place in a page and its block fit in 32 bits, so nothing but the shift can drop a bit. -/
theorem exact_pageAddress (l : Layout) (page offset : UInt32) : l.Exact page offset where
  number h := by
    rw [pageNumber, if_pos h, UInt32.toNat_sub_of_le _ _ h]
    exact Nat.sub_add_cancel (UInt32.le_iff_toNat_le.mp h)
  place := by
    rw [UInt32.toNat_add, toNat_mod_pageSize, toNat_shift]
    omega
  address := by
    have hblock := l.toNat_blockStart_add_blockSize page
    have hfits := l.fits
    have hmemory := l.toNat_memorySize
    have hplace := Nat.mod_lt (offset % pageSize + l.pageNumber page <<< 14).toNat
      (y := max (l.blockSize page).toNat 1) (by omega)
    rw [pageAddress_eq, UInt32.toNat_add, UInt32.toNat_mod, toNat_max_one]
    apply Nat.mod_eq_of_lt
    split at hblock <;> omega

namespace WholePages

/-- A block has a whole number of pages, and at least one. -/
theorem exists_blockSize (h : l.WholePages) (page : UInt32) :
    ∃ k, 0 < k ∧ (l.blockSize page).toNat = 0x4000 * k := by
  obtain ⟨m, hm⟩ := h.rom_pages
  obtain ⟨n, hn⟩ := h.ram_pages
  have hrom := h.rom_pos
  have hram := h.ram_pos
  rw [blockSize]
  split
  · exact ⟨n, by omega, hn⟩
  · exact ⟨m, by omega, hm⟩

/-- The start of the block, the pages before this one, and the place in it. -/
theorem toNat_pageAddress (h : l.WholePages) (page offset : UInt32) :
    (l.pageAddress page offset).toNat =
      (l.blockStart page).toNat + (0x4000 * l.pageIndex page + offset.toNat % 0x4000) := by
  obtain ⟨k, hk, hsize⟩ := h.exists_blockSize page
  have hexact := l.exact_pageAddress page offset
  have hmax : max (0x4000 * k) 1 = 0x4000 * k := by omega
  rw [hexact.address, UInt32.toNat_mod, hexact.place, toNat_mod_pageSize, toNat_shift,
    toNat_max_one, hsize, hmax, Nat.mod_mul, pageIndex, hsize, Nat.mul_div_cancel_left k (by omega)]
  generalize (l.pageNumber page).toNat % 0x40000 = number
  have hplace : (offset.toNat % 0x4000 + 0x4000 * number) % 0x4000 = offset.toNat % 0x4000 := by
    omega
  have hbefore : (offset.toNat % 0x4000 + 0x4000 * number) / 0x4000 = number := by omega
  rw [hplace, hbefore]
  omega

/-- A place in a page lies in the block of the page. -/
theorem pageAddress_lt_block (h : l.WholePages) (page offset : UInt32) :
    (l.pageAddress page offset).toNat < (l.blockStart page).toNat + (l.blockSize page).toNat := by
  obtain ⟨k, hk, hsize⟩ := h.exists_blockSize page
  have hindex : l.pageIndex page < k := by
    rw [pageIndex, hsize, Nat.mul_div_cancel_left k (by omega)]
    exact Nat.mod_lt _ hk
  rw [h.toNat_pageAddress, hsize]
  omega

/-- Pages show memory only. -/
theorem pageAddress_lt_memorySize (h : l.WholePages) (page offset : UInt32) :
    l.pageAddress page offset < l.memorySize := by
  have hlt := h.pageAddress_lt_block page offset
  have hmemory := l.toNat_memorySize
  rw [toNat_blockStart_add_blockSize] at hlt
  rw [UInt32.lt_iff_toNat_lt]
  split at hlt <;> omega

/-- The pages below the first RAM page are those in ROM. -/
theorem pageAddress_lt_romSize_iff (h : l.WholePages) (page offset : UInt32) :
    l.pageAddress page offset < l.romSize ↔ page < l.ramPageBase := by
  rw [UInt32.lt_iff_toNat_lt, ← UInt32.not_le]
  by_cases hram : l.ramPageBase ≤ page
  · have haddress := h.toNat_pageAddress page offset
    rw [blockStart, if_pos hram] at haddress
    simp only [hram, not_true, iff_false]
    omega
  · have hlt := h.pageAddress_lt_block page offset
    rw [toNat_blockStart_add_blockSize, if_neg hram] at hlt
    simp only [hram, not_false_eq_true, iff_true]
    exact hlt

/-- Two places have one address exactly if they are one place in one page. -/
theorem pageAddress_eq_iff (h : l.WholePages) {offset place : UInt32} :
    l.pageAddress page offset = l.pageAddress other place ↔
      l.SamePage page other ∧ offset.toNat % 0x4000 = place.toNat % 0x4000 := by
  -- Addresses that are equal are both in ROM or both in RAM.
  have hblock : l.pageAddress page offset = l.pageAddress other place →
      (l.ramPageBase ≤ page ↔ l.ramPageBase ≤ other) := by
    intro heq
    have hrom := h.pageAddress_lt_romSize_iff page offset
    rw [heq, h.pageAddress_lt_romSize_iff other place] at hrom
    rw [← UInt32.not_lt, ← UInt32.not_lt, hrom]
  have hstart : (l.ramPageBase ≤ page ↔ l.ramPageBase ≤ other) →
      l.blockStart page = l.blockStart other := by
    intro hsame
    simp only [blockStart, hsame]
  constructor
  · intro heq
    have hsame := hblock heq
    have haddress := congrArg UInt32.toNat heq
    rw [h.toNat_pageAddress, h.toNat_pageAddress, hstart hsame] at haddress
    exact ⟨⟨hsame, by omega⟩, by omega⟩
  · rintro ⟨⟨hsame, hindex⟩, hplace⟩
    rw [← UInt32.toNat_inj, h.toNat_pageAddress, h.toNat_pageAddress, hstart hsame, hindex, hplace]

/-- The start of a page is in line with its places. -/
theorem toNat_pageAddress_zero_add (h : l.WholePages) (page offset : UInt32) :
    (l.pageAddress page 0).toNat + offset.toNat % 0x4000 = (l.pageAddress page offset).toNat := by
  rw [h.toNat_pageAddress, h.toNat_pageAddress, UInt32.toNat_zero]
  omega

end WholePages

namespace SeparatesBanks

/-- The first two pages of a block have their own numbers. -/
theorem pageIndex_of_lt_two (h : l.SeparatesBanks) (hnumber : (l.pageNumber page).toNat < 2) :
    l.pageIndex page = (l.pageNumber page).toNat := by
  have hpages : 2 ≤ (l.blockSize page).toNat / 0x4000 := by
    have hrom := h.rom_two
    have hram := h.ram_two
    rw [blockSize]
    split <;> omega
  rw [pageIndex, Nat.mod_eq_of_lt (by omega), Nat.mod_eq_of_lt (by omega)]

/-- The first two pages are pages of the ROM. -/
theorem pageIndex_of_rom (h : l.SeparatesBanks) (page : UInt32) (hpage : page.toNat < 2) :
    ¬ l.ramPageBase ≤ page ∧ l.pageIndex page = page.toNat := by
  have hbase := h.base
  have hrom : ¬ l.ramPageBase ≤ page := by
    rw [UInt32.le_iff_toNat_le]
    omega
  have hnumber : l.pageNumber page = page := if_neg hrom
  refine ⟨hrom, ?_⟩
  rw [h.pageIndex_of_lt_two (by rwa [hnumber]), hnumber]

/-- The two pages from the RAM's first on are pages of the RAM. -/
theorem pageIndex_of_ram (h : l.SeparatesBanks) (page : UInt32)
    (hfirst : l.ramPageBase.toNat ≤ page.toNat) (hlast : page.toNat < l.ramPageBase.toNat + 2) :
    l.ramPageBase ≤ page ∧ l.pageIndex page = page.toNat - l.ramPageBase.toNat := by
  have hram : l.ramPageBase ≤ page := UInt32.le_iff_toNat_le.mpr hfirst
  have hnumber := (l.exact_pageAddress page 0).number hram
  refine ⟨hram, ?_⟩
  rw [h.pageIndex_of_lt_two (by omega)]
  omega

/-- Banks 2 and 3 start with RAM, and banks 1 and 2 with the second page of their block. -/
theorem startPages_cases (h : l.SeparatesBanks) (bank : Fin 4) :
    (l.ramPageBase ≤ l.startPages bank ↔ 2 ≤ bank.val) ∧
      l.pageIndex (l.startPages bank) = if bank = 1 ∨ bank = 2 then 1 else 0 := by
  have hsecond : (l.ramPageBase + 1).toNat = l.ramPageBase.toNat + 1 := by
    rw [UInt32.toNat_add]
    exact Nat.mod_eq_of_lt h.next
  match bank with
  | 0 =>
    obtain ⟨hrom, hindex⟩ := h.pageIndex_of_rom 0 (by decide)
    exact ⟨iff_of_false hrom (by decide), hindex⟩
  | 1 =>
    obtain ⟨hrom, hindex⟩ := h.pageIndex_of_rom 1 (by decide)
    exact ⟨iff_of_false hrom (by decide), hindex⟩
  | 2 =>
    obtain ⟨hram, hindex⟩ := h.pageIndex_of_ram (l.ramPageBase + 1) (by omega) (by omega)
    refine ⟨iff_of_true hram (by decide), ?_⟩
    rw [startPages, hindex, hsecond]
    simp
  | 3 =>
    obtain ⟨hram, hindex⟩ := h.pageIndex_of_ram l.ramPageBase (by omega) (by omega)
    refine ⟨iff_of_true hram (by decide), ?_⟩
    rw [startPages, hindex]
    simp

/-- No two banks show one page at the start. -/
theorem startPages_distinct (h : l.SeparatesBanks) {bank other : Fin 4}
    (hsame : l.SamePage (l.startPages bank) (l.startPages other)) : bank = other := by
  obtain ⟨hblock, hindex⟩ := h.startPages_cases bank
  obtain ⟨hblock', hindex'⟩ := h.startPages_cases other
  rw [SamePage, hblock, hblock', hindex, hindex'] at hsame
  have hfour : ∀ b d : Fin 4, (2 ≤ b.val ↔ 2 ≤ d.val) ∧
      (if b = 1 ∨ b = 2 then 1 else 0) = (if d = 1 ∨ d = 2 then 1 else 0) → b = d := by
    decide
  exact hfour _ _ hsame

end SeparatesBanks

end Layout

namespace Cpu

variable {c start : Cpu} {page : UInt32} {maps : List (Nat × UInt32)} {bank : Fin 4}

/-- Shows pages in banks, one after another. -/
def mapPages (c : Cpu) (maps : List (Nat × UInt32)) : Cpu :=
  maps.foldl (fun c m => c.mapPage m.1 m.2) c

/-- The page that was shown last in a bank. -/
def lastMapped? : List (Nat × UInt32) → Fin 4 → Option UInt32
  | [], _ => none
  | (number, page) :: maps, bank =>
    (lastMapped? maps bank).or (if number % 4 = bank then some page else none)

/-- The physical address of the first byte that a bank shows. -/
def bankStart (c : Cpu) (bank : Fin 4) : UInt32 := c.banks[bank]

/-- The bank shows the page. -/
def Shows (c : Cpu) (bank : Fin 4) (page : UInt32) : Prop :=
  c.bankStart bank = c.layout.pageAddress page 0

/-- The page is the last one that was shown in the bank, be it before all of the calls. -/
def Assigned (start : Cpu) (maps : List (Nat × UInt32)) (bank : Fin 4) (page : UInt32) : Prop :=
  lastMapped? maps bank = some page ∨ lastMapped? maps bank = none ∧ start.Shows bank page

/-- Mapping a page moves one bank. -/
theorem bankStart_mapPage (c : Cpu) (number : Nat) (page : UInt32) (bank : Fin 4) :
    (c.mapPage number page).bankStart bank =
      if number % 4 = bank then c.layout.pageAddress page 0 else c.bankStart bank :=
  Vector.getElem_set (Nat.mod_lt number (by decide)) bank.isLt

/-- Mapping pages leaves the layout. -/
@[simp] theorem layout_mapPages (c : Cpu) (maps : List (Nat × UInt32)) :
    (c.mapPages maps).layout = c.layout := by
  induction maps generalizing c with
  | nil => rfl
  | cons m maps ih => exact ih (c.mapPage m.1 m.2)

/-- After one call the bank shows the page that it was given, or what it showed before. -/
theorem shows_mapPage_iff {number : Nat} {given : UInt32} :
    (c.mapPage number given).Shows bank page ↔
      if number % 4 = bank then c.layout.pageAddress given 0 = c.layout.pageAddress page 0
      else c.Shows bank page := by
  rw [Shows, bankStart_mapPage, layout_mapPage]
  split <;> rfl

/-- After all of the calls the bank shows the last page that was assigned to it. -/
theorem Assigned.shows (h : start.Assigned maps bank page) :
    (start.mapPages maps).Shows bank page := by
  induction maps generalizing start with
  | nil =>
    obtain h | ⟨-, h⟩ := h
    · cases h
    · exact h
  | cons m maps ih =>
    obtain ⟨number, given⟩ := m
    refine ih (?_ : (start.mapPage number given).Assigned maps bank page)
    rw [Assigned, shows_mapPage_iff]
    rw [Assigned, lastMapped?, Option.or_eq_some_iff, Option.or_eq_none_iff] at h
    obtain (hlast | ⟨hlast, hgiven⟩) | ⟨⟨hlast, hother⟩, hbefore⟩ := h
    · exact Or.inl hlast
    · split at hgiven
      · next hbank =>
        obtain rfl := Option.some.inj hgiven
        exact Or.inr ⟨hlast, by rw [if_pos hbank]⟩
      · cases hgiven
    · split at hother
      · cases hother
      · next hbank => exact Or.inr ⟨hlast, by rwa [if_neg hbank]⟩

/-- A processor starts with the first two ROM pages, the second RAM page and the first one. -/
theorem shows_ofLayout? {l : Layout} (h : ofLayout? l = some c) :
    c.layout = l ∧ ∀ bank, c.Shows bank (l.startPages bank) := by
  rw [ofLayout?] at h
  split at h
  · obtain rfl := Option.some.inj h
    refine ⟨rfl, fun bank => ?_⟩
    match bank with
    | 0 | 1 | 2 | 3 => rfl
  · cases h

/-- The offset of an address in its bank is what remains. -/
theorem toNat_offset (address : UInt16) :
    (address % 0x4000).toUInt32.toNat = address.toNat % 0x4000 := by
  rw [UInt16.toNat_toUInt32, UInt16.toNat_mod]
  rfl

/-- A bank that shows the start of a page shows all of it, and the sum of the two is exact. -/
theorem physical_of_shows {address : UInt16} (hl : c.layout.WholePages)
    (h : c.Shows (bankOf address) page) :
    c.physical address = c.layout.pageAddress page (address % 0x4000).toUInt32 ∧
      (c.physical address).toNat =
        (c.bankStart (bankOf address)).toNat + address.toNat % 0x4000 := by
  have hplace := hl.toNat_pageAddress_zero_add page (address % 0x4000).toUInt32
  have hlt := (c.layout.pageAddress page (address % 0x4000).toUInt32).toNat_lt
  rw [toNat_offset, Nat.mod_mod] at hplace
  have hsum : (c.physical address).toNat =
      (c.bankStart (bankOf address)).toNat + address.toNat % 0x4000 := by
    have hphysical : c.physical address =
        c.bankStart (bankOf address) + (address % 0x4000).toUInt32 := rfl
    rw [hphysical, UInt32.toNat_add, toNat_offset, h, hplace]
    exact Nat.mod_eq_of_lt hlt
  refine ⟨?_, hsum⟩
  rw [← UInt32.toNat_inj, hsum, h, hplace]

/-- If the banks show four pages, every logical address has a physical address of its own. -/
theorem physical_injective (hl : c.layout.WholePages) {pages : Fin 4 → UInt32}
    (hpages : ∀ bank, c.Shows bank (pages bank))
    (hdistinct : ∀ b d, c.layout.SamePage (pages b) (pages d) → b = d) {address other : UInt16}
    (h : c.physical address = c.physical other) : address = other := by
  rw [(physical_of_shows hl (hpages _)).1, (physical_of_shows hl (hpages _)).1,
    hl.pageAddress_eq_iff, toNat_offset, toNat_offset] at h
  have hbank := congrArg Fin.val (hdistinct _ _ h.1)
  simp only [bankOf] at hbank
  rw [← UInt16.toNat_inj]
  omega

end Cpu

end Z80Debugger
