import Z80Debugger.Console.Program
import Z80Debugger.Proofs.Memory.Paging

/-!
# The layouts that the program accepts

The program bounds the sizes of ROM and RAM, so their sum and every address of a page are exact.  It
does not bound the number of the first RAM page, and the core needs the one behind it too.  So all
accepted layouts but those with the last page number start a core, and that core shows RAM in its
upper two banks, however small RAM is (`accepted_layout_starts`).
-/

set_option autoImplicit false

namespace Z80Debugger

/-- ROM and RAM have sizes that the program accepts. -/
structure Options.SizesMemory (o : Options) : Prop where
  rom_pos : 0 < o.romSize
  rom_le : o.romSize ≤ maxMemorySize
  ram_pos : 0 < o.ramSize
  ram_le : o.ramSize ≤ maxMemorySize

namespace Options

variable {o p : Options} {name : Name} {value text : String} {size : UInt32} {args : List String}

/-- A size that is read is positive and at most the maximum. -/
theorem bounds_of_memorySize? (h : memorySize? text = some size) :
    0 < size ∧ size ≤ maxMemorySize := by
  rw [memorySize?, Option.filter_eq_some_iff] at h
  simpa using h.2

/-- Setting an option keeps the sizes of memory in their bounds. -/
theorem SizesMemory.set (h : o.SizesMemory) (hset : o.set name value = some p) :
    p.SizesMemory := by
  cases name with
  | romSize =>
    obtain ⟨size, hsize, rfl⟩ := Option.map_eq_some_iff.mp hset
    obtain ⟨hpos, hle⟩ := bounds_of_memorySize? hsize
    exact { h with rom_pos := hpos, rom_le := hle }
  | ramSize =>
    obtain ⟨size, hsize, rfl⟩ := Option.map_eq_some_iff.mp hset
    obtain ⟨hpos, hle⟩ := bounds_of_memorySize? hsize
    exact { h with ram_pos := hpos, ram_le := hle }
  | org | ramPageBase | lines | timeout =>
    obtain ⟨_, -, rfl⟩ := Option.map_eq_some_iff.mp hset
    exact { h with }
  | symbols | defaultType | defaultMode =>
    obtain rfl := Option.some.inj hset
    exact { h with }

/-- So does setting several. -/
theorem SizesMemory.foldlM {values : List (Name × String)} (h : o.SizesMemory)
    (hset : values.foldlM (fun o (name, value) => o.set name value) o = some p) :
    p.SizesMemory := by
  induction values generalizing o with
  | nil =>
    obtain rfl := Option.some.inj hset
    exact h
  | cons v values ih =>
    rw [List.foldlM_cons] at hset
    obtain ⟨q, hfirst, hrest⟩ := Option.bind_eq_some_iff.mp hset
    exact ih (h.set hfirst) hrest

/-- Whatever the arguments are, the sizes that are taken from them are in range. -/
theorem sizesMemory_of_parse? (h : parse? args = some o) : o.SizesMemory := by
  unfold parse? at h
  split at h
  · simp only [bind, Option.bind_eq_some_iff] at h
    obtain ⟨parsed, -, image, -, hset⟩ := h
    have hdefault : SizesMemory { image, physical := parsed.physical } :=
      ⟨(by decide : (0 : UInt32) < 0x80000), (by decide : (0x80000 : UInt32) ≤ 0x4000000),
        (by decide : (0 : UInt32) < 0x8000), (by decide : (0x8000 : UInt32) ≤ 0x4000000)⟩
    exact hdefault.foldlM hset
  · cases h

end Options

namespace Layout

variable {l : Layout} {page : UInt32}

/-- A place in a RAM page is not below RAM. -/
theorem romSize_le_pageAddress (l : Layout) (hpage : l.ramPageBase ≤ page) (offset : UInt32) :
    l.romSize ≤ l.pageAddress page offset := by
  have haddress := (l.exact_pageAddress page offset).address
  rw [blockStart, if_pos hpage] at haddress
  rw [UInt32.le_iff_toNat_le]
  omega

/-- The places of a block that is not empty are inside of memory. -/
theorem pageAddress_lt_memorySize_of_pos (hsize : 0 < (l.blockSize page).toNat) (offset : UInt32) :
    l.pageAddress page offset < l.memorySize := by
  have hblock := l.toNat_blockStart_add_blockSize page
  have hmemory := l.toNat_memorySize
  have hplace := Nat.mod_lt (offset % pageSize + l.pageNumber page <<< 14).toNat hsize
  have hmax : max (l.blockSize page).toNat 1 = (l.blockSize page).toNat := by omega
  rw [UInt32.lt_iff_toNat_lt, (l.exact_pageAddress page offset).address, UInt32.toNat_mod,
    toNat_max_one, hmax]
  split at hblock <;> omega

/-- The page behind the first RAM page has a number, unless the first one has the last number. -/
theorem hasNext_iff (page : UInt32) :
    (page + 1).toNat = page.toNat + 1 ↔ page ≠ 0xFFFFFFFF := by
  have hlt := page.toNat_lt
  have hadd : (page + 1).toNat = (page.toNat + 1) % 0x100000000 := UInt32.toNat_add page 1
  rw [Ne, ← UInt32.toNat_inj, hadd]
  change _ ↔ ¬ page.toNat = 0xFFFFFFFF
  omega

/-- Banks 2 and 3 start with RAM pages. -/
theorem ramPageBase_le_startPages (hnext : l.ramPageBase ≠ 0xFFFFFFFF) {bank : Fin 4}
    (hbank : 2 ≤ bank.val) : l.ramPageBase ≤ l.startPages bank := by
  match bank with
  | 2 =>
    have hsucc := (hasNext_iff l.ramPageBase).mpr hnext
    change l.ramPageBase ≤ l.ramPageBase + 1
    rw [UInt32.le_iff_toNat_le]
    omega
  | 3 => exact UInt32.le_refl l.ramPageBase

end Layout

/-- A core is made for a layout exactly if the second RAM page has a number. -/
theorem Core.exists_ofLayout?_iff {l : Layout} :
    (∃ core, Core.ofLayout? l = some core) ↔ l.ramPageBase ≠ 0xFFFFFFFF := by
  have hlt := l.ramPageBase.toNat_lt
  have hlast : l.ramPageBase = 0xFFFFFFFF ↔ l.ramPageBase.toNat = 0xFFFFFFFF :=
    UInt32.toNat_inj.symm
  rw [Ne, hlast, Core.ofLayout?, Cpu.ofLayout?]
  split
  · simp only [Option.map_some, Option.some.injEq, exists_eq', true_iff]
    omega
  · simp only [Option.map_none, reduceCtorEq, exists_false, false_iff]
    omega

/-- What a bank of a small memory shows starts in the bank and goes on without a wrap. -/
theorem Cpu.bankStart_le_physical {c : Cpu} {address : UInt16}
    (h : (c.bankStart (bankOf address)).toNat + 0x4000 ≤ 0x100000000) :
    c.bankStart (bankOf address) ≤ c.physical address := by
  have hphysical : c.physical address =
      c.bankStart (bankOf address) + (address % 0x4000).toUInt32 := rfl
  rw [UInt32.le_iff_toNat_le, hphysical, UInt32.toNat_add, toNat_offset]
  omega

namespace Console

variable {o : Options} {l : Layout}

/-- Sizes within the bounds have a layout. -/
theorem exists_layout (h : o.SizesMemory) :
    ∃ l, Layout.ofSizes? o.romSize o.ramSize o.ramPageBase = some l := by
  have hrom : o.romSize.toNat ≤ 0x4000000 := UInt32.le_iff_toNat_le.mp h.rom_le
  have hram : o.ramSize.toNat ≤ 0x4000000 := UInt32.le_iff_toNat_le.mp h.ram_le
  have hfits : o.romSize.toNat + o.ramSize.toNat < 0x100000000 := by omega
  exact ⟨_, dif_pos hfits⟩

/-- The upper two banks start in RAM, and all of their addresses are above ROM. -/
theorem ram_in_upper_banks {core : Core} (h : o.SizesMemory)
    (hlayout : Layout.ofSizes? o.romSize o.ramSize o.ramPageBase = some l)
    (hcore : Core.ofLayout? l = some core) {address : UInt16} (haddress : 0x8000 ≤ address) :
    o.romSize ≤ core.cpu.bankStart (Cpu.bankOf address) ∧
      core.cpu.bankStart (Cpu.bankOf address) < l.memorySize ∧
      o.romSize ≤ core.cpu.physical address := by
  obtain ⟨hromSize, hramSize, -⟩ := Layout.ofSizes?_eq_some_iff.mp hlayout
  have hnext : l.ramPageBase ≠ 0xFFFFFFFF := Core.exists_ofLayout?_iff.mp ⟨core, hcore⟩
  obtain ⟨cpu, hcpu, rfl⟩ := Option.map_eq_some_iff.mp hcore
  obtain ⟨rfl, hshows⟩ := Cpu.shows_ofLayout? hcpu
  have hbank : 2 ≤ (Cpu.bankOf address).val := by
    have hnat : 0x8000 ≤ address.toNat := UInt16.le_iff_toNat_le.mp haddress
    simp only [Cpu.bankOf]
    omega
  have hpage := cpu.layout.ramPageBase_le_startPages hnext hbank
  have hpos : 0 < (cpu.layout.blockSize (cpu.layout.startPages (Cpu.bankOf address))).toNat := by
    rw [Layout.blockSize, if_pos hpage, hramSize]
    exact UInt32.lt_iff_toNat_lt.mp h.ram_pos
  have hstart : o.romSize ≤ cpu.bankStart (Cpu.bankOf address) := by
    rw [hshows, ← hromSize]
    exact cpu.layout.romSize_le_pageAddress hpage 0
  have hinside : cpu.bankStart (Cpu.bankOf address) < cpu.layout.memorySize := by
    rw [hshows]
    exact Layout.pageAddress_lt_memorySize_of_pos hpos 0
  refine ⟨hstart, hinside, UInt32.le_trans hstart (Cpu.bankStart_le_physical ?_)⟩
  have hsum := cpu.layout.toNat_memorySize
  have hrom : o.romSize.toNat ≤ 0x4000000 := UInt32.le_iff_toNat_le.mp h.rom_le
  have hram : o.ramSize.toNat ≤ 0x4000000 := UInt32.le_iff_toNat_le.mp h.ram_le
  rw [hromSize, hramSize] at hsum
  have hlt := UInt32.lt_iff_toNat_lt.mp hinside
  omega

/-- Sizes that the program accepts make a layout whatever the first RAM page is.  Its memory size
and the starts of the pages that a core is to show are exact, but the number of the second RAM page
is so only if the first RAM page does not have the last number; then, and only then, there is a
core.  In it every address from 8000 on is above ROM, and banks 2 and 3 start in RAM. -/
theorem accepted_layout_starts (h : o.SizesMemory) :
    ∃ l, Layout.ofSizes? o.romSize o.ramSize o.ramPageBase = some l ∧
      l.memorySize.toNat = o.romSize.toNat + o.ramSize.toNat ∧
      (∀ bank, l.Exact (l.startPages bank) 0) ∧
      ((o.ramPageBase + 1).toNat = o.ramPageBase.toNat + 1 ↔ o.ramPageBase ≠ 0xFFFFFFFF) ∧
      ((∃ core, Core.ofLayout? l = some core) ↔ o.ramPageBase ≠ 0xFFFFFFFF) ∧
      ∀ core, Core.ofLayout? l = some core → ∀ address, 0x8000 ≤ address →
        o.romSize ≤ core.cpu.bankStart (Cpu.bankOf address) ∧
          core.cpu.bankStart (Cpu.bankOf address) < l.memorySize ∧
          o.romSize ≤ core.cpu.physical address := by
  obtain ⟨l, hlayout⟩ := exists_layout h
  obtain ⟨hrom, hram, hbase⟩ := Layout.ofSizes?_eq_some_iff.mp hlayout
  refine ⟨l, hlayout, ?_, ?_, Layout.hasNext_iff o.ramPageBase, ?_, ?_⟩
  · rw [l.toNat_memorySize, hrom, hram]
  · exact fun bank => l.exact_pageAddress (l.startPages bank) 0
  · rw [← hbase]
    exact Core.exists_ofLayout?_iff
  · exact fun core hcore address => ram_in_upper_banks h hlayout hcore

/-- A single byte of ROM, the most RAM, and only one page number behind the first RAM page. -/
def highestPages : Options where
  image := "prog.bin"
  romSize := 1
  ramSize := 0x4000000
  ramPageBase := 0xFFFFFFFE

/-- There is a core with these pages, and its upper banks start in RAM. -/
theorem accepted_layout_starts_highest :
    highestPages.SizesMemory ∧ ∃ l core,
      Layout.ofSizes? 1 0x4000000 0xFFFFFFFE = some l ∧ Core.ofLayout? l = some core ∧
      1 ≤ core.cpu.physical 0x8000 ∧ 1 ≤ core.cpu.physical 0xC000 := by
  have hsizes : highestPages.SizesMemory := ⟨by decide, by decide, by decide, by decide⟩
  obtain ⟨l, hlayout, -, -, -, hmade, hram⟩ := accepted_layout_starts hsizes
  obtain ⟨core, hcore⟩ := hmade.mpr (by decide)
  have hthird := hram core hcore 0x8000 (by decide)
  have hfourth := hram core hcore 0xC000 (by decide)
  exact ⟨hsizes, l, core, hlayout, hcore, hthird.2.2, hfourth.2.2⟩

/-- The sizes that are taken if none are given, and a first RAM page with the last number. -/
def lastPage : Options where
  image := "prog.bin"
  ramPageBase := 0xFFFFFFFF

/-- The program takes the last number for the first RAM page, and makes a layout with it.  Then
there is no core: the program ends before the first command, whatever image it was to run. -/
theorem accepted_layout_has_no_core :
    let args := ["run", "prog.bin", "--ram-page-base", "FFFFFFFF"]
    Options.parse? args = some lastPage ∧ lastPage.SizesMemory ∧
      (lastPage.ramPageBase + 1).toNat ≠ lastPage.ramPageBase.toNat + 1 ∧
      (∃ l, Layout.ofSizes? lastPage.romSize lastPage.ramSize lastPage.ramPageBase = some l ∧
        Core.ofLayout? l = none) ∧
      ∀ (files : Files) (image : ByteArray) (input : List InputLine),
        files "prog.bin" = some image → lastPage.origin.toNat + image.size ≤ 0x10000 →
          (program args files input).status = 101 := by
  intro args
  have hparsed : Options.parse? args = some lastPage := by decide +kernel
  have hsizes := Options.sizesMemory_of_parse? hparsed
  obtain ⟨l, hlayout⟩ := exists_layout hsizes
  have hnone : Core.ofLayout? l = none := by
    obtain ⟨-, -, hbase⟩ := Layout.ofSizes?_eq_some_iff.mp hlayout
    rw [Option.eq_none_iff_forall_ne_some]
    intro core hcore
    exact Core.exists_ofLayout?_iff.mp ⟨core, hcore⟩ hbase
  refine ⟨hparsed, hsizes, by decide, ⟨l, hlayout, hnone⟩, ?_⟩
  intro files image input hfile hfits
  have hloading : loadImage lastPage files = .error .noPage := by
    have hsmall : ¬ 0x10000 < lastPage.origin.toNat + image.size := Nat.not_lt.mpr hfits
    have hcore : coreWithImage lastPage l image.toList = .error .noPage := by
      rw [coreWithImage, hnone]
    simp only [loadImage, show files lastPage.image = some image from hfile, hlayout, hcore, bind,
      Except.bind, hsmall, if_false]
  rw [program, hparsed]
  simp only [start, hloading]
  rfl

end Console

end Z80Debugger
