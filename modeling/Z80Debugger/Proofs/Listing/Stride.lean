import Z80Debugger.Listing.Walk
import Z80Debugger.Proofs.Instruction.Code

/-!
# The distance between instructions

The next instruction stands at a distance that is counted modulo the size of the view.  From an
address before the target the walk arrives at the target exactly when the target is its next
instruction, since the distance of two addresses of the view tells them apart.  A disassembled
instruction takes at most four bytes, and what cannot be read takes one, so a walk cannot leave the
32-bit addresses if memory ends well below them.
-/

set_option autoImplicit false

namespace Z80Debugger.Listing

variable {l : Listing} {q target : UInt32}

/-- The number of addresses in the view. -/
def size (l : Listing) : Nat :=
  match l.view with
  | .logical => 0x10000
  | .physical => 0x100000000

/-- A view has 16-bit or 32-bit addresses. -/
theorem size_cases (l : Listing) : l.size = 65536 ∨ l.size = 4294967296 := by
  unfold size
  split
  · exact .inl rfl
  · exact .inr rfl

/-- An address of the view is what remains of an address. -/
theorem toNat_cut (l : Listing) (address : UInt32) :
    (l.cut address).toNat = address.toNat % l.size := by
  unfold cut size
  cases l.view with
  | logical => exact Nat.and_two_pow_sub_one_eq_mod address.toNat 16
  | physical => exact Nat.and_two_pow_sub_one_eq_mod address.toNat 32

/-- The addresses of the view are those below its size. -/
theorem cut_eq_self_iff : l.cut q = q ↔ q.toNat < l.size := by
  have hlt := q.toNat_lt
  rw [← UInt32.toNat_inj, toNat_cut]
  obtain hsize | hsize := l.size_cases
  all_goals
    rw [hsize]
    omega

/-- What lies before an address of the view is one too. -/
theorem cut_of_lt (htarget : l.cut target = target) (hq : q < target) : l.cut q = q := by
  rw [cut_eq_self_iff] at htarget ⊢
  exact Nat.lt_trans (UInt32.lt_iff_toNat_lt.mp hq) htarget

/-- The end of a line is an address of the view. -/
theorem toNat_next_lt (l : Listing) (q : UInt32) : (l.next q).toNat < l.size :=
  cut_eq_self_iff.mp (l.cut_next q)

/-- No line is empty. -/
theorem next_ne (hq : l.cut q = q) : l.next q ≠ q := by
  have hsucc : l.cut (q + 1) ≠ q := by
    have hone : (1 : UInt32).toNat = 1 := rfl
    have hlt := q.toNat_lt
    rw [cut_eq_self_iff] at hq
    rw [Ne, ← UInt32.toNat_inj, toNat_cut, UInt32.toNat_add, hone]
    obtain hsize | hsize := l.size_cases
    all_goals
      rw [hsize] at hq ⊢
      omega
  unfold next
  split
  · split
    · next hmoves => rwa [hq] at hmoves
    · exact hsucc
  · exact hsucc

/-- The length of a line is the distance to its end around the view. -/
theorem toNat_stride (hq : l.cut q = q) :
    (l.stride q).toNat = ((l.next q).toNat + l.size - q.toNat) % l.size := by
  have hnext := l.toNat_next_lt q
  have hlt := q.toNat_lt
  rw [cut_eq_self_iff] at hq
  rw [stride, toNat_cut, UInt32.toNat_sub]
  obtain hsize | hsize := l.size_cases
  all_goals
    rw [hsize] at hq hnext ⊢
    omega

/-- A line has at least one byte. -/
theorem stride_pos (hq : l.cut q = q) : 1 ≤ (l.stride q).toNat := by
  have hnext := l.toNat_next_lt q
  have hne : (l.next q).toNat ≠ q.toNat := fun h => next_ne hq (UInt32.toNat_inj.mp h)
  rw [toNat_stride hq]
  rw [cut_eq_self_iff] at hq
  obtain hsize | hsize := l.size_cases
  all_goals
    rw [hsize] at hq hnext ⊢
    omega

/-- The distance leads to the target if that is the next instruction, and only then. -/
theorem next_eq_iff (htarget : l.cut target = target) (hq : q < target) :
    l.next q = target ↔ q.toNat + (l.stride q).toNat = target.toNat := by
  have hnext := l.toNat_next_lt q
  have hlt := UInt32.lt_iff_toNat_lt.mp hq
  rw [← UInt32.toNat_inj, toNat_stride (cut_of_lt htarget hq)]
  rw [cut_eq_self_iff] at htarget
  obtain hsize | hsize := l.size_cases
  all_goals
    rw [hsize] at htarget hnext ⊢
    omega

/-- Whether memory can be read at an address or not, the next instruction stands one byte to four
behind it, and one byte where memory cannot be read. -/
theorem exists_next_of (symbols : Symbols) (c : Cpu) (view : View) (q : UInt32) :
    ∃ n, 1 ≤ n ∧ n ≤ 4 ∧ (c.codeIn? view q = none → n = 1) ∧
      (of symbols.disassembler c view).next q =
        (of symbols.disassembler c view).cut (q + UInt32.ofNat n) := by
  have hline : (of symbols.disassembler c view).line? q =
      (c.codeIn? view q).map (Code.line symbols.nameAt q) := rfl
  unfold next
  rw [hline]
  cases hcode : c.codeIn? view q with
  | none => exact ⟨1, by omega, by omega, fun _ => rfl, rfl⟩
  | some code =>
    obtain ⟨hpos, hfour⟩ := code.size_bounds
    simp only [Option.map_some]
    split
    · exact ⟨code.size, hpos, hfour, by simp, rfl⟩
    · exact ⟨1, by omega, by omega, by simp, rfl⟩

/-- A line of a processor's listing has at most four bytes, and one where there is no code. -/
theorem toNat_stride_of {symbols : Symbols} {c : Cpu} {view : View}
    (hq : (of symbols.disassembler c view).cut q = q) :
    ((of symbols.disassembler c view).stride q).toNat ≤ 4 ∧
      (c.codeIn? view q = none → ((of symbols.disassembler c view).stride q).toNat = 1) := by
  obtain ⟨n, hpos, hfour, hunread, hnext⟩ := exists_next_of symbols c view q
  have hstride : ((of symbols.disassembler c view).stride q).toNat = n := by
    have hcount : (UInt32.ofNat n).toNat = n :=
      UInt32.toNat_ofNat_of_lt' (Nat.lt_of_le_of_lt hfour (by decide))
    have hlt := q.toNat_lt
    rw [toNat_stride hq, hnext, toNat_cut, UInt32.toNat_add, hcount]
    rw [cut_eq_self_iff] at hq
    obtain hsize | hsize := (of symbols.disassembler c view).size_cases
    all_goals
      rw [hsize] at hq ⊢
      omega
  rw [hstride]
  exact ⟨hfour, hunread⟩

/-- No step towards a target leaves the 32-bit addresses if memory ends well below them. -/
theorem add_stride_lt {symbols : Symbols} {c : Cpu} {view : View}
    (hmemory : c.layout.memorySize ≤ 0x08000000)
    (htarget : (of symbols.disassembler c view).cut target = target) (hq : q < target) :
    q.toNat + ((of symbols.disassembler c view).stride q).toNat < 0x100000000 := by
  have hcut := cut_of_lt htarget hq
  obtain ⟨hfour, hunread⟩ := toNat_stride_of hcut
  have hlt := UInt32.lt_iff_toNat_lt.mp hq
  have hend := target.toNat_lt
  cases view with
  | logical =>
    have hsmall := cut_eq_self_iff.mp hcut
    change q.toNat < 0x10000 at hsmall
    omega
  | physical =>
    by_cases hread : q < c.layout.memorySize
    · have hbound := UInt32.le_iff_toNat_le.mp hmemory
      have hinside := UInt32.lt_iff_toNat_lt.mp hread
      change c.layout.memorySize.toNat ≤ 0x08000000 at hbound
      omega
    · have hnone : c.codeIn? .physical q = none := if_neg hread
      have hone := hunread hnone
      omega

end Z80Debugger.Listing
