import Z80Debugger.Proofs.Console.Layouts
import Z80Debugger.Proofs.Memory.Loading

/-!
# The image that the program loads

An image is accepted if it ends within the 16-bit addresses.  What becomes of its bytes depends on
the layout of memory too: where two of its addresses show one place, the later byte is left, and
where an address shows nothing, no byte is.  `image_is_loaded` says so for every image, and that the
images of a size are all read back exactly if their addresses have places of their own, as they have
where ROM and RAM are whole pages, two or more of either, and the first two pages are ROM pages.
-/

set_option autoImplicit false

namespace Z80Debugger

/-- The loop has the bytes before an index read, the last of them first, and reads on to the end. -/
theorem toList_loop_take (bytes : ByteArray) {i : Nat} (hi : i ≤ bytes.size) :
    ByteArray.toList.loop bytes i (bytes.data.toList.take i).reverse = bytes.data.toList := by
  have hlength : bytes.data.toList.length = bytes.size := rfl
  induction hleft : bytes.size - i generalizing i with
  | zero =>
    rw [ByteArray.toList.loop, if_neg (by omega), List.reverse_reverse]
    exact List.take_of_length_le (by omega)
  | succ left ih =>
    have hlt : i < bytes.size := by omega
    have hnext : bytes.get! i :: (bytes.data.toList.take i).reverse =
        (bytes.data.toList.take (i + 1)).reverse := by
      rw [List.take_succ_eq_append_getElem (by omega), List.reverse_append]
      simp [ByteArray.get!, hlt]
    rw [ByteArray.toList.loop, if_pos hlt, hnext]
    exact ih hlt (by omega)

/-- A row of bytes lists the bytes that it holds. -/
theorem toList_eq_data (bytes : ByteArray) : bytes.toList = bytes.data.toList :=
  toList_loop_take bytes (Nat.zero_le _)

/-- Every list of bytes is an image. -/
theorem exists_toList_eq (bytes : List UInt8) : ∃ image : ByteArray, image.toList = bytes :=
  ⟨⟨bytes.toArray⟩, toList_eq_data _⟩

/-- An image lists as many bytes as it has. -/
theorem length_toList (bytes : ByteArray) : bytes.toList.length = bytes.size := by
  rw [toList_eq_data]
  rfl

/-- The list has a byte at an index exactly if the image has it there. -/
theorem getElem?_toList_eq_some_iff {bytes : ByteArray} {i : Nat} {b : UInt8} :
    bytes.toList[i]? = some b ↔ ∃ hi : i < bytes.size, bytes[i] = b := by
  rw [toList_eq_data, List.getElem?_eq_some_iff]
  rfl

/-- Sizes, a first RAM page and a load address that the program accepts for images of a size. -/
structure Options.Accepts (o : Options) (size : Nat) : Prop where
  rom_pos : 0 < o.romSize
  rom_le : o.romSize ≤ maxMemorySize
  ram_pos : 0 < o.ramSize
  ram_le : o.ramSize ≤ maxMemorySize
  /-- The second RAM page has a number. -/
  page : o.ramPageBase.toNat + 1 < 0x100000000
  fits : o.origin.toNat + size ≤ 0x10000

/-- The image is read back from the core, byte for byte. -/
def Core.HoldsImage (core : Core) (origin : UInt16) (image : ByteArray) : Prop :=
  ∀ i (hi : i < image.size), core.cpu.read (origin + UInt16.ofNat i) = image[i]

namespace Console

variable {o : Options} {n : Nat} {l : Layout} {fresh : Cpu}

/-- Options that are accepted have a layout, and a fresh processor with it. -/
theorem exists_fresh (h : o.Accepts n) :
    ∃ l fresh, Layout.ofSizes? o.romSize o.ramSize o.ramPageBase = some l ∧
      Cpu.ofLayout? l = some fresh := by
  have hpage := h.page
  obtain ⟨l, hlayout⟩ := exists_layout ⟨h.rom_pos, h.rom_le, h.ram_pos, h.ram_le⟩
  obtain ⟨-, -, hbase⟩ := Layout.ofSizes?_eq_some_iff.mp hlayout
  rw [← hbase] at hpage
  exact ⟨l, _, hlayout, if_pos hpage⟩

/-- An image that ends within the addresses is loaded, and the core shows what was loaded. -/
theorem exists_loadImage (files : Files)
    (hlayout : Layout.ofSizes? o.romSize o.ramSize o.ramPageBase = some l)
    (hfresh : Cpu.ofLayout? l = some fresh) {image : ByteArray}
    (hfile : files o.image = some image) (hfits : o.origin.toNat + image.size ≤ 0x10000) :
    ∃ core, loadImage o files = .ok (core, image.size) ∧
      ∀ address, core.cpu.read address = (fresh.load o.origin image.toList).read address := by
  have hcore : ∃ core, coreWithImage o l image.toList = .ok core ∧
      ∀ address, core.cpu.read address = (fresh.load o.origin image.toList).read address := by
    rw [coreWithImage, Core.ofLayout?, hfresh]
    exact ⟨_, rfl, fun _ => rfl⟩
  obtain ⟨core, hloaded, hread⟩ := hcore
  refine ⟨core, ?_, hread⟩
  have hsmall : ¬ 0x10000 < o.origin.toNat + image.size := Nat.not_lt.mpr hfits
  simp only [loadImage, hfile, hlayout, hloaded, bind, Except.bind, hsmall, if_false]
  rfl

/-- Where the banks show whole pages that are not the same, the addresses from the origin on show
places of their own as the processor starts. -/
theorem showsDistinct_of_wholePages (hl : l.WholePages) (hbanks : l.SeparatesBanks)
    (hfresh : Cpu.ofLayout? l = some fresh) {origin : UInt16}
    (hfits : origin.toNat + n ≤ 0x10000) : fresh.ShowsDistinct origin n := by
  obtain ⟨rfl, hpages⟩ := Cpu.shows_ofLayout? hfresh
  constructor
  · intro i _
    rw [Cpu.place, (Cpu.physical_of_shows hl (hpages _)).1]
    exact hl.pageAddress_lt_memorySize _ _
  · intro i hi j hj hsame
    have hdistinct : ∀ b d, fresh.layout.SamePage (fresh.layout.startPages b)
        (fresh.layout.startPages d) → b = d :=
      fun _ _ => hbanks.startPages_distinct
    have haddress := congrArg UInt16.toNat (Cpu.physical_injective hl hpages hdistinct hsame)
    simp only [UInt16.toNat_add, UInt16.toNat_ofNat'] at haddress
    omega

/-- The images of a size are all read back from the core that they were loaded into. -/
def ReadsBack (o : Options) (n : Nat) : Prop :=
  ∀ (files : Files) (image : ByteArray), files o.image = some image → image.size = n →
    ∃ core, loadImage o files = .ok (core, n) ∧ core.HoldsImage o.origin image

/-- An image that fits reads back exactly if its addresses show distinct bytes. -/
theorem readsBack_iff (hlayout : Layout.ofSizes? o.romSize o.ramSize o.ramPageBase = some l)
    (hfresh : Cpu.ofLayout? l = some fresh) (hfits : o.origin.toNat + n ≤ 0x10000) :
    ReadsBack o n ↔ fresh.ShowsDistinct o.origin n := by
  rw [Cpu.showsDistinct_iff]
  constructor
  · rintro h bytes rfl i b hbyte
    obtain ⟨image, rfl⟩ := exists_toList_eq bytes
    rw [length_toList] at h hfits
    obtain ⟨core, hloaded, hread⟩ := exists_loadImage (fun _ => some image) hlayout hfresh rfl hfits
    obtain ⟨same, hsame, hholds⟩ := h (fun _ => some image) image rfl rfl
    rw [hloaded] at hsame
    cases hsame
    obtain ⟨hi, rfl⟩ := getElem?_toList_eq_some_iff.mp hbyte
    rw [← hread]
    exact hholds i hi
  · rintro h files image hfile rfl
    obtain ⟨core, hloaded, hread⟩ := exists_loadImage files hlayout hfresh hfile hfits
    refine ⟨core, hloaded, fun i hi => ?_⟩
    rw [hread]
    exact h image.toList (length_toList image) i _ (getElem?_toList_eq_some_iff.mpr ⟨hi, rfl⟩)

/-- An image of an accepted size is loaded whatever its bytes are.  An address in memory then shows
the last of the bytes at its place, and one beyond memory shows zero.  So the images of the size are
all read back exactly if their addresses show places of their own in memory at the start.  That is
so where ROM and RAM are whole pages, at least two of either, and the first two pages are ROM
pages. -/
theorem image_is_loaded (h : o.Accepts n) :
    ∃ l fresh, Layout.ofSizes? o.romSize o.ramSize o.ramPageBase = some l ∧
      Cpu.ofLayout? l = some fresh ∧
      (∀ (files : Files) (image : ByteArray), files o.image = some image → image.size = n →
        ∃ core, loadImage o files = .ok (core, n) ∧ ∀ i < n,
          (fresh.place o.origin i < l.memorySize → ∃ j, ∃ hj : j < image.size, i ≤ j ∧
            fresh.place o.origin j = fresh.place o.origin i ∧
            (∀ k, j < k → k < n → fresh.place o.origin k ≠ fresh.place o.origin i) ∧
            core.cpu.read (o.origin + UInt16.ofNat i) = image[j]) ∧
          (l.memorySize ≤ fresh.place o.origin i →
            core.cpu.read (o.origin + UInt16.ofNat i) = 0)) ∧
      (ReadsBack o n ↔ fresh.ShowsDistinct o.origin n) ∧
      (l.WholePages → l.SeparatesBanks → ReadsBack o n) := by
  obtain ⟨l, fresh, hlayout, hfresh⟩ := exists_fresh h
  have hreads := readsBack_iff hlayout hfresh h.fits
  obtain ⟨hfreshLayout, -⟩ := Cpu.shows_ofLayout? hfresh
  refine ⟨l, fresh, hlayout, hfresh, ?_, hreads, ?_⟩
  · rintro files image hfile rfl
    obtain ⟨core, hloaded, hread⟩ := exists_loadImage files hlayout hfresh hfile h.fits
    refine ⟨core, hloaded, fun i hi => ⟨fun hmemory => ?_, fun hbeyond => ?_⟩⟩
    · rw [← length_toList] at hi
      rw [← hfreshLayout] at hmemory
      obtain ⟨j, hij, hplace, hlast, hbyte⟩ := Cpu.exists_last_read_load hi hmemory
      rw [length_toList] at hlast
      obtain ⟨hj, hbyte⟩ := getElem?_toList_eq_some_iff.mp hbyte
      exact ⟨j, hj, hij, hplace, hlast, (hread _).trans hbyte.symm⟩
    · rw [hread]
      apply Cpu.read_of_le
      rw [Cpu.layout_load, Cpu.physical_load, hfreshLayout]
      exact hbeyond
  · intro hl hbanks
    exact hreads.mpr (showsDistinct_of_wholePages hl hbanks hfresh h.fits)

/-- ROM and RAM of two pages each, and a load address from which an image can fill all banks. -/
def twoPages : Options where
  image := "full.bin"
  origin := 0
  romSize := 0x8000
  ramSize := 0x8000
  ramPageBase := 2

/-- An image of 64 KiB is read back from the smallest memory that can hold it. -/
theorem image_is_loaded_full : twoPages.Accepts 0x10000 ∧ ReadsBack twoPages 0x10000 := by
  have haccepts : twoPages.Accepts 0x10000 :=
    ⟨by decide, by decide, by decide, by decide, by decide, by decide⟩
  obtain ⟨l, fresh, hlayout, -, -, -, hwhole⟩ := image_is_loaded haccepts
  obtain rfl : l = ⟨0x8000, 0x8000, 2, by decide⟩ := (Option.some.inj hlayout).symm
  have hpages : Layout.WholePages ⟨0x8000, 0x8000, 2, by decide⟩ :=
    ⟨by decide, by decide, by decide, by decide⟩
  have hbanks : Layout.SeparatesBanks ⟨0x8000, 0x8000, 2, by decide⟩ :=
    ⟨by decide, by decide, by decide, by decide⟩
  exact ⟨haccepts, hwhole hpages hbanks⟩

/-- RAM of a single byte, and a load address in the bank that shows it. -/
def singleByte : Options where
  image := "prog.bin"
  origin := 0xC000
  ramSize := 1

/-- The program takes an image of two bytes there, reports that it has loaded both, and drops the
second one. -/
theorem accepted_image_loses_byte :
    let image : ByteArray := ⟨#[0x3E, 0x42]⟩
    Options.parse? ["run", "prog.bin", "--org", "C000", "--ram-size", "1"] = some singleByte ∧
      singleByte.Accepts image.size ∧
      (∀ patience, .output "Loaded 2 bytes at $C000" ∈
        (start singleByte (fun _ => some image) patience).1) ∧
      ∃ core, loadImage singleByte (fun _ => some image) = .ok (core, image.size) ∧
        core.cpu.read 0xC001 = 0 ∧ ¬ core.HoldsImage singleByte.origin image := by
  intro image
  have haccepts : singleByte.Accepts image.size :=
    ⟨by decide, by decide, by decide, by decide, by decide, by decide⟩
  obtain ⟨l, hlayout, fresh, hfresh, hbeyond⟩ : ∃ l,
      Layout.ofSizes? singleByte.romSize singleByte.ramSize singleByte.ramPageBase = some l ∧
      ∃ fresh, Cpu.ofLayout? l = some fresh ∧ fresh.layout.memorySize ≤ fresh.physical 0xC001 :=
    ⟨_, rfl, _, rfl, by decide +kernel⟩
  obtain ⟨core, hloaded, hread⟩ := exists_loadImage (fun _ => some image) hlayout hfresh rfl
    haccepts.fits
  have hzero : core.cpu.read 0xC001 = 0 := by
    rw [hread]
    apply Cpu.read_of_le
    rw [Cpu.layout_load, Cpu.physical_load]
    exact hbeyond
  have hreport : ∀ patience, .output "Loaded 2 bytes at $C000" ∈
      (start singleByte (fun _ => some image) patience).1 := by
    intro patience
    have htext : imageLoaded image.size singleByte.origin = "Loaded 2 bytes at $C000" := by
      decide +kernel
    rw [start, hloaded]
    simp only [htext]
    split
    · simp
    · split <;> simp
  refine ⟨by decide +kernel, haccepts, hreport, core, hloaded, hzero, fun hholds => ?_⟩
  have hsecond : core.cpu.read 0xC001 = 0x42 := hholds 1 (by decide)
  rw [hzero] at hsecond
  cases hsecond

end Console

end Z80Debugger
