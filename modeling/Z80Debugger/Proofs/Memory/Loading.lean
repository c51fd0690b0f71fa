import Mathlib.Data.Nat.Find
import Z80Debugger.Cpu.State

/-!
# Bytes that were loaded

Bytes are loaded at logical addresses, one after another, and land where the banks lead.  Loading
moves no bank, so an address shows afterwards the last byte that landed at its place, and zero if
its place is beyond memory (`exists_last_read_load`, `read_of_le`).  So whatever the bytes are, all
of them are read back exactly if the addresses have places of their own in memory
(`showsDistinct_iff`).
-/

set_option autoImplicit false

namespace Z80Debugger.Cpu

variable {c : Cpu} {origin address : UInt16} {bytes : List UInt8} {n i j : Nat} {b : UInt8}

/-- The physical address that is shown some addresses behind the origin. -/
def place (c : Cpu) (origin : UInt16) (i : Nat) : UInt32 := c.physical (origin + UInt16.ofNat i)

/-- The addresses from the origin on show places of their own, all of which are in memory. -/
structure ShowsDistinct (c : Cpu) (origin : UInt16) (n : Nat) : Prop where
  inMemory : ∀ i < n, c.place origin i < c.layout.memorySize
  injective : ∀ i < n, ∀ j < n, c.place origin i = c.place origin j → i = j

/-- A loaded byte is read back at the addresses that show its place; no other byte changes. -/
theorem read_loadByte (c : Cpu) (address other : UInt16) (value : UInt8) :
    (c.loadByte address value).read other =
      if c.physical other = c.physical address ∧ c.physical address < c.layout.memorySize then value
      else c.read other :=
  Memory.read_load c.memory (c.physical address) (c.physical other) value

/-- What lies beyond memory is zero. -/
theorem read_of_le (h : c.layout.memorySize ≤ c.physical address) : c.read address = 0 :=
  if_neg (UInt32.not_lt.mpr h)

/-- Loading bytes maps no page. -/
@[simp] theorem physical_load (c : Cpu) (origin : UInt16) (bytes : List UInt8) (address : UInt16) :
    (c.load origin bytes).physical address = c.physical address := by
  rw [physical, banks_load, physical]

/-- The first byte goes to the origin. -/
theorem place_zero (c : Cpu) (origin : UInt16) : c.place origin 0 = c.physical origin := by
  rw [place]
  exact congrArg c.physical (UInt16.add_zero origin)

/-- The places behind the first one. -/
theorem place_loadByte (c : Cpu) (origin : UInt16) (value : UInt8) (i : Nat) :
    (c.loadByte origin value).place (origin + 1) i = c.place origin (i + 1) := by
  have hnext : origin + 1 + UInt16.ofNat i = origin + UInt16.ofNat (i + 1) := by
    rw [Nat.add_comm i 1, UInt16.ofNat_add, ← UInt16.add_assoc]
    rfl
  rw [place, place, hnext]
  rfl

/-- Loading leaves the places alone at which no byte lands. -/
theorem read_load_of_untouched (h : ∀ k < bytes.length, c.place origin k ≠ c.physical address) :
    (c.load origin bytes).read address = c.read address := by
  induction bytes generalizing c origin with
  | nil => rfl
  | cons b bytes ih =>
    have hfirst := h 0 (Nat.zero_lt_succ _)
    rw [place_zero] at hfirst
    have hrest : ∀ k < bytes.length,
        (c.loadByte origin b).place (origin + 1) k ≠ (c.loadByte origin b).physical address := by
      intro k hk
      rw [place_loadByte]
      exact h (k + 1) (Nat.succ_lt_succ hk)
    rw [load, ih hrest, read_loadByte, if_neg]
    exact fun hsame => hfirst hsame.1.symm

/-- The last byte that lands at a place in memory stays there. -/
theorem read_load_of_last (hbyte : bytes[j]? = some b)
    (hplace : c.place origin j = c.physical address)
    (hlast : ∀ k, j < k → k < bytes.length → c.place origin k ≠ c.physical address)
    (hmemory : c.physical address < c.layout.memorySize) :
    (c.load origin bytes).read address = b := by
  induction bytes generalizing c origin j with
  | nil => cases hbyte
  | cons first bytes ih =>
    have hrest : ∀ k, j < k + 1 → k < bytes.length →
        (c.loadByte origin first).place (origin + 1) k ≠
          (c.loadByte origin first).physical address := by
      intro k hjk hk
      rw [place_loadByte]
      exact hlast (k + 1) hjk (Nat.succ_lt_succ hk)
    rw [load]
    cases j with
    | zero =>
      obtain rfl := Option.some.inj hbyte
      rw [place_zero] at hplace
      rw [read_load_of_untouched fun k hk => hrest k (Nat.succ_pos k) hk, read_loadByte, if_pos]
      exact ⟨hplace.symm, hplace ▸ hmemory⟩
    | succ j =>
      refine ih hbyte ?_ (fun k hjk hk => hrest k (Nat.succ_lt_succ hjk) hk) ?_
      · rw [place_loadByte]
        exact hplace
      · rwa [layout_loadByte]

/-- Of the bytes that land at the place of one of them, there is a last one. -/
theorem exists_last_at (c : Cpu) (origin : UInt16) (hi : i < n) :
    ∃ j, i ≤ j ∧ j < n ∧ c.place origin j = c.place origin i ∧
      ∀ k, j < k → k < n → c.place origin k ≠ c.place origin i := by
  have hbound : i ≤ n - 1 := Nat.le_pred_of_lt hi
  have hlast := Nat.findGreatest_le (P := fun k => c.place origin k = c.place origin i) (n - 1)
  refine ⟨Nat.findGreatest (fun k => c.place origin k = c.place origin i) (n - 1),
    Nat.le_findGreatest hbound rfl, by omega, ?_, ?_⟩
  · exact Nat.findGreatest_spec (P := fun k => c.place origin k = c.place origin i) hbound rfl
  · intro k hk hkn
    exact Nat.findGreatest_is_greatest hk (Nat.le_pred_of_lt hkn)

/-- In memory, an address shows the last byte that landed at its place. -/
theorem exists_last_read_load (hi : i < bytes.length)
    (hmemory : c.place origin i < c.layout.memorySize) :
    ∃ j, i ≤ j ∧ c.place origin j = c.place origin i ∧
      (∀ k, j < k → k < bytes.length → c.place origin k ≠ c.place origin i) ∧
      bytes[j]? = some ((c.load origin bytes).read (origin + UInt16.ofNat i)) := by
  obtain ⟨j, hij, hj, hplace, hlast⟩ := c.exists_last_at origin hi
  refine ⟨j, hij, hplace, hlast, ?_⟩
  rw [read_load_of_last (List.getElem?_eq_getElem hj) hplace hlast hmemory]
  exact List.getElem?_eq_getElem hj

/-- Bytes at places of their own are all read back. -/
theorem ShowsDistinct.read_load (h : c.ShowsDistinct origin bytes.length)
    (hbyte : bytes[i]? = some b) :
    (c.load origin bytes).read (origin + UInt16.ofNat i) = b := by
  obtain ⟨hi, -⟩ := List.getElem?_eq_some_iff.mp hbyte
  refine read_load_of_last hbyte rfl ?_ (h.inMemory i hi)
  intro k hik hk hsame
  exact absurd (h.injective k hk i hi hsame) (Nat.ne_of_gt hik)

/-- A single one among zeros, which tells the addresses that show its place from all others. -/
def mark (n i : Nat) : List UInt8 := (List.range n).map fun k => if k = i then 1 else 0

/-- All bytes are read back, whatever they are, exactly if they have places of their own. -/
theorem showsDistinct_iff :
    c.ShowsDistinct origin n ↔ ∀ bytes : List UInt8, bytes.length = n → ∀ i b,
      bytes[i]? = some b → (c.load origin bytes).read (origin + UInt16.ofNat i) = b := by
  constructor
  · rintro h bytes rfl i b hbyte
    exact h.read_load hbyte
  · intro h
    have hmark : ∀ i, ∀ k < n, (c.load origin (mark n i)).read (origin + UInt16.ofNat k) =
        if k = i then 1 else 0 := by
      intro i k hk
      exact h (mark n i) (by simp [mark]) k _ (by simp [mark, hk])
    constructor
    · intro i hi
      rw [← UInt32.not_le]
      intro hbeyond
      have hone := hmark i i hi
      rw [if_pos rfl, read_of_le] at hone
      · cases hone
      · rw [layout_load, physical_load]
        exact hbeyond
    · intro i hi j hj hsame
      have hone := hmark i i hi
      have hother := hmark i j hj
      have hread : (c.load origin (mark n i)).read (origin + UInt16.ofNat i) =
          (c.load origin (mark n i)).read (origin + UInt16.ofNat j) := by
        rw [read, read, physical_load, physical_load]
        exact congrArg _ hsame
      by_contra hne
      rw [if_neg (Ne.symm hne), ← hread, hone, if_pos rfl] at hother
      cases hother

end Z80Debugger.Cpu
