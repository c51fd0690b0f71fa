import Z80Debugger.Proofs.Listing.Stride

/-!
# Walking back

The instruction before an address is looked for by walks forward from a few bytes before it, the
farthest start first.  `Walk`, `Search` and `ComesBack` are these loops as they run: a run is a
derivation, so it ends, and every addition in it stays inside the 32-bit addresses.
`previous_inverts_next` says that there is such a run from every address, and that the place it
finds has the address as its next instruction whenever any place in reach has.
-/

set_option autoImplicit false

namespace Z80Debugger.Listing

variable {l : Listing} {target position last stop final p q : UInt32} {back : Nat}

/-- The inner loop.  `Walk l target position last stop final` walks from `position`, behind `last`,
until the target is reached or passed, and ends at `stop`, behind `final`. -/
inductive Walk (l : Listing) (target : UInt32) : UInt32 → UInt32 → UInt32 → UInt32 → Prop where
  | stop {position last : UInt32} (hreached : target ≤ position) :
    Walk l target position last position last
  | step {position last stop final : UInt32} (hbefore : position < target)
    (hfits : position.toNat + (l.stride position).toNat < 0x100000000)
    (hrest : Walk l target (position + l.stride position) position stop final) :
    Walk l target position last stop final

/-- The outer loop, with the number of starts that are left: the first walk that arrives decides. -/
inductive Search (l : Listing) (target : UInt32) : Nat → UInt32 → Prop where
  | exhausted : Search l target 0 (target - 1)
  | found {back : Nat} {start last : UInt32} (hstart : start = target - UInt32.ofNat (back + 1))
    (hwalk : Walk l target start start target last) : Search l target (back + 1) last
  | missed {back : Nat} {start stop last p : UInt32}
    (hstart : start = target - UInt32.ofNat (back + 1))
    (hwalk : Walk l target start start stop last) (hstop : stop ≠ target)
    (hrest : Search l target back p) : Search l target (back + 1) p

/-- The run that gives the instruction before an address. -/
inductive ComesBack (l : Listing) (address : UInt32) : UInt32 → Prop where
  | zero (hzero : l.cut address = 0) : ComesBack l address 0
  | search {p : UInt32} (hne : l.cut address ≠ 0)
    (hsearch : Search l (l.cut address) (min lookBack (l.cut address).toNat) p) :
    ComesBack l address p

/-- Every place before the target leads on, and not beyond the 32-bit addresses. -/
structure Advances (l : Listing) (target : UInt32) : Prop where
  pos : ∀ q, q < target → 1 ≤ (l.stride q).toNat
  fits : ∀ q, q < target → q.toNat + (l.stride q).toNat < 0x100000000

/-- The listing of a processor advances by at most four bytes before every target. -/
theorem advances_of {symbols : Symbols} {c : Cpu} {view : View}
    (hmemory : c.layout.memorySize ≤ 0x08000000)
    (htarget : (of symbols.disassembler c view).cut target = target) :
    (of symbols.disassembler c view).Advances target where
  pos _ hq := stride_pos (cut_of_lt htarget hq)
  fits _ hq := add_stride_lt hmemory htarget hq

/-- A walk ends where the last instruction that it passes leads. -/
theorem Walk.arrived (h : Walk l target position last stop final) (hbefore : position < target) :
    position ≤ final ∧ final < target ∧ final.toNat + (l.stride final).toNat = stop.toNat := by
  induction h with
  | stop hreached => exact absurd hbefore (UInt32.not_lt.mpr hreached)
  | @step position last stop final hlt hfits hrest ih =>
    have hnext : (position + l.stride position).toNat =
        position.toNat + (l.stride position).toNat := by
      rw [UInt32.toNat_add]
      omega
    by_cases hagain : position + l.stride position < target
    · obtain ⟨hle, hfinal, hstop⟩ := ih hagain
      rw [UInt32.le_iff_toNat_le] at hle ⊢
      exact ⟨by omega, hfinal, hstop⟩
    · cases hrest with
      | stop hreached => exact ⟨UInt32.le_refl _, hlt, hnext.symm⟩
      | step hbefore' => exact absurd hbefore' hagain

/-- A walk has one end. -/
theorem Walk.deterministic {stop' final' : UInt32} (h : Walk l target position last stop final)
    (h' : Walk l target position last stop' final') : stop = stop' ∧ final = final' := by
  induction h with
  | stop hreached =>
    cases h' with
    | stop => exact ⟨rfl, rfl⟩
    | step hbefore => exact absurd hbefore (UInt32.not_lt.mpr hreached)
  | step hbefore hfits hrest ih =>
    cases h' with
    | stop hreached => exact absurd hbefore (UInt32.not_lt.mpr hreached)
    | step hbefore' hfits' hrest' => exact ih hrest'

/-- A walk with enough steps at hand comes to an end, and arrives if it ends at the target. -/
theorem Advances.exists_walk (hl : l.Advances target) (position last : UInt32) {steps : Nat}
    (hsteps : target.toNat ≤ position.toNat + steps) :
    ∃ stop final, Walk l target position last stop final ∧
      l.lastBefore? target.toNat steps position.toNat last.toNat =
        if stop = target then some final.toNat else none := by
  induction steps generalizing position last with
  | zero =>
    refine ⟨position, last, .stop (UInt32.le_iff_toNat_le.mpr hsteps), ?_⟩
    simp only [lastBefore?, UInt32.toNat_inj]
  | succ steps ih =>
    by_cases hreached : target ≤ position
    · refine ⟨position, last, .stop hreached, ?_⟩
      by_cases harrived : position = target
      · rw [lastBefore?, if_pos (congrArg UInt32.toNat harrived), if_pos harrived]
      · have hne : position.toNat ≠ target.toNat := fun h => harrived (UInt32.toNat_inj.mp h)
        rw [UInt32.le_iff_toNat_le] at hreached
        rw [lastBefore?, if_neg hne, if_pos (by omega), if_neg harrived]
    · have hbefore : position < target := UInt32.not_le.mp hreached
      have hpos := hl.pos position hbefore
      have hfits := hl.fits position hbefore
      have hnext : (position + l.stride position).toNat =
          position.toNat + (l.stride position).toNat := by
        rw [UInt32.toNat_add]
        omega
      have hleft : target.toNat ≤ (position + l.stride position).toNat + steps := by omega
      obtain ⟨stop, final, hwalk, hfound⟩ := ih _ position hleft
      refine ⟨stop, final, .step hbefore hfits hwalk, ?_⟩
      rw [UInt32.lt_iff_toNat_lt] at hbefore
      rw [lastBefore?, if_neg (by omega), if_neg (by omega), UInt32.ofNat_toNat, ← hnext, hfound]

/-- Going back from the target does not wrap. -/
theorem toNat_sub_ofNat {n : Nat} (hn : n ≤ target.toNat) :
    (target - UInt32.ofNat n).toNat = target.toNat - n := by
  have hlt := target.toNat_lt
  have hcount : (UInt32.ofNat n).toNat = n :=
    UInt32.toNat_ofNat_of_lt' (Nat.lt_of_le_of_lt hn hlt)
  rw [UInt32.toNat_sub, hcount]
  omega

/-- The search runs to the end, and finds what is computed. -/
theorem Advances.search (hl : l.Advances target) (hne : target ≠ 0) (hback : back ≤ target.toNat) :
    Search l target back
      (UInt32.ofNat ((l.previousFrom? target.toNat back).getD (target.toNat - 1))) := by
  induction back with
  | zero =>
    have hnat : target.toNat ≠ 0 := fun h => hne (UInt32.toNat_inj.mp h)
    have hlast : UInt32.ofNat (target.toNat - 1) = target - 1 := by
      have hone : 1 ≤ target.toNat := by omega
      rw [← toNat_sub_ofNat hone, UInt32.ofNat_toNat]
      rfl
    rw [previousFrom?, Option.getD_none, hlast]
    exact .exhausted
  | succ back ih =>
    have hstart := toNat_sub_ofNat hback
    have hsteps : target.toNat ≤ (target - UInt32.ofNat (back + 1)).toNat + (back + 1) := by omega
    obtain ⟨stop, final, hwalk, hfound⟩ :=
      hl.exists_walk _ (target - UInt32.ofNat (back + 1)) hsteps
    rw [hstart] at hfound
    rw [previousFrom?, hfound]
    by_cases harrived : stop = target
    · rw [if_pos harrived, Option.some_or, Option.getD_some, UInt32.ofNat_toNat]
      exact .found rfl (harrived ▸ hwalk)
    · rw [if_neg harrived, Option.none_or]
      exact .missed rfl hwalk harrived (ih (by omega))

/-- The walk from a place arrives at the target. -/
def Lands (l : Listing) (target start : UInt32) : Prop :=
  ∃ last, Walk l target start start target last

/-- What a search finds: the last place of the walk from the farthest start that arrives, or the
place one byte before if no walk does. -/
theorem Search.cases (h : Search l target back p) (hback : back ≤ target.toNat) :
    (∃ start, target.toNat - back ≤ start.toNat ∧ start < target ∧
      Walk l target start start target p ∧
      ∀ q, target.toNat - back ≤ q.toNat → q < start → ¬ l.Lands target q) ∨
    p = target - 1 ∧ ∀ q, target.toNat - back ≤ q.toNat → q < target → ¬ l.Lands target q := by
  induction h with
  | exhausted =>
    refine .inr ⟨rfl, fun q hq hlt => ?_⟩
    rw [UInt32.lt_iff_toNat_lt] at hlt
    omega
  | @found back start last hstart hwalk =>
    have hnat := toNat_sub_ofNat hback
    rw [← hstart] at hnat
    have hbefore : start < target := UInt32.lt_iff_toNat_lt.mpr (by omega)
    refine .inl ⟨start, by omega, hbefore, hwalk, fun q hq hlt => ?_⟩
    rw [UInt32.lt_iff_toNat_lt] at hlt
    omega
  | @missed back start stop last p hstart hwalk hstop hrest ih =>
    have hnat := toNat_sub_ofNat hback
    rw [← hstart] at hnat
    have hstartMisses : ¬ l.Lands target start := by
      rintro ⟨_, hlands⟩
      exact hstop (hwalk.deterministic hlands).1
    -- A place in the wider window is the start that missed, or it is in the narrower window.
    have hwider : ∀ q, target.toNat - (back + 1) ≤ q.toNat →
        q = start ∨ target.toNat - back ≤ q.toNat := by
      intro q hq
      by_cases heq : q.toNat = start.toNat
      · exact .inl (UInt32.toNat_inj.mp heq)
      · exact .inr (by omega)
    obtain ⟨found, hin, hbefore, hfound, hfarther⟩ | ⟨hp, hnone⟩ := ih (by omega)
    · refine .inl ⟨found, by omega, hbefore, hfound, fun q hq hlt => ?_⟩
      obtain rfl | hq := hwider q hq
      · exact hstartMisses
      · exact hfarther q hq hlt
    · refine .inr ⟨hp, fun q hq hlt => ?_⟩
      obtain rfl | hq := hwider q hq
      · exact hstartMisses
      · exact hnone q hq hlt

/-- A line that ends at the target lands there. -/
theorem lands_of_next_eq (hl : l.Advances target) (htarget : l.cut target = target)
    (hq : q < target) (hnext : l.next q = target) : l.Lands target q := by
  have hreached : q + l.stride q = target := by
    have hfits := hl.fits q hq
    rw [← UInt32.toNat_inj, UInt32.toNat_add, ← (next_eq_iff htarget hq).mp hnext]
    omega
  refine ⟨q, .step hq (hl.fits q hq) ?_⟩
  rw [hreached]
  exact .stop (UInt32.le_refl target)

/-- Walking back inverts walking forward where that is possible.  From every address of the listing
that a disassembler gives of memory that ends well below the 32-bit addresses, in either view, the
search runs to its end without leaving them.  Before zero it finds zero.  Before any other address
it finds a place at most six bytes before, and that place has the address as its next instruction if
any place in these bytes has; then it is the last place of the walk from the farthest start that
arrives.  Otherwise it is the place one byte before. -/
theorem previous_inverts_next {c : Cpu} (hmemory : c.layout.memorySize ≤ 0x08000000)
    (symbols : Symbols) (view : View) (address : UInt32) :
    let l := of symbols.disassembler c view
    let a := l.cut address
    let p := l.previous address
    l.ComesBack address p ∧ (a = 0 → p = 0) ∧
      (a ≠ 0 → a.toNat - 6 ≤ p.toNat ∧ p < a ∧
        (l.next p = a ↔ ∃ q, a.toNat - 6 ≤ q.toNat ∧ q < a ∧ l.next q = a) ∧
        (l.next p = a → ∃ start, a.toNat - 6 ≤ start.toNat ∧ start < a ∧
          Walk l a start start a p ∧
          ∀ q, a.toNat - 6 ≤ q.toNat → q < start → ¬ l.Lands a q) ∧
        (l.next p ≠ a → p = a - 1)) := by
  intro l a p
  have htarget : l.cut a = a := l.cut_cut address
  have hl : l.Advances a := advances_of hmemory htarget
  by_cases hzero : a = 0
  · have hp : p = 0 := by
      have hnat : (l.cut address).toNat = 0 := congrArg UInt32.toNat hzero
      simp only [p, previous, hnat]
      rfl
    exact ⟨hp ▸ .zero hzero, fun _ => hp, fun hne => absurd hzero hne⟩
  · have hsearch : Search l a (min lookBack a.toNat) p := hl.search hzero (Nat.min_le_right _ _)
    have hwindow : a.toNat - min lookBack a.toNat = a.toNat - 6 := by
      rw [lookBack]
      omega
    refine ⟨.search hzero hsearch, fun h => absurd h hzero, fun _ => ?_⟩
    have hcases := hsearch.cases (Nat.min_le_right _ _)
    rw [hwindow] at hcases
    obtain ⟨start, hin, hbefore, hwalk, hfarther⟩ | ⟨hp, hnone⟩ := hcases
    · obtain ⟨hle, hlt, harrives⟩ := hwalk.arrived hbefore
      have hnext : l.next p = a := (next_eq_iff htarget hlt).mpr harrives
      rw [UInt32.le_iff_toNat_le] at hle
      exact ⟨by omega, hlt, ⟨fun _ => ⟨p, by omega, hlt, hnext⟩, fun _ => hnext⟩,
        fun _ => ⟨start, hin, hbefore, hwalk, hfarther⟩, fun hmisses => absurd hnext hmisses⟩
    · have hone : 1 ≤ a.toNat := by
        have hnat : a.toNat ≠ 0 := fun h => hzero (UInt32.toNat_inj.mp h)
        omega
      have hnat : p.toNat = a.toNat - 1 := by
        rw [hp]
        exact toNat_sub_ofNat hone
      have hlt : p < a := UInt32.lt_iff_toNat_lt.mpr (by omega)
      have hmisses : ∀ q, a.toNat - 6 ≤ q.toNat → q < a → l.next q ≠ a :=
        fun q hq hbefore hnext => hnone q hq hbefore (lands_of_next_eq hl htarget hbefore hnext)
      have hlast : l.next p ≠ a := hmisses p (by omega) hlt
      refine ⟨by omega, hlt, ⟨fun h => absurd h hlast, ?_⟩, fun h => absurd h hlast, fun _ => hp⟩
      rintro ⟨q, hq, hbefore, hnext⟩
      exact absurd hnext (hmisses q hq hbefore)

/-- A walk back to `0x9000`, given with bits that the logical view drops.  Two instructions of four
bytes and two stand in the six bytes before, and the second one is found. -/
theorem previous_inverts_next_indexed :
    let c := Cpu.standard.load 0x8FFA [0xDD, 0x21, 0x34, 0x12, 0x3E, 0x05]
    let l := of (Symbols.disassembler {}) c .logical
    c.layout.memorySize ≤ 0x08000000 ∧ l.previous 0x19000 = 0x8FFE ∧ l.ComesBack 0x19000 0x8FFE ∧
      ∃ start, start < 0x9000 ∧ Walk l 0x9000 start start 0x9000 0x8FFE := by
  intro c l
  have hmemory : c.layout.memorySize ≤ 0x08000000 := by
    decide +kernel
  have hfound : l.previous 0x19000 = 0x8FFE := by
    decide +kernel
  have harrives : l.next (l.previous 0x19000) = l.cut 0x19000 := by
    decide +kernel
  obtain ⟨hrun, -, hsearched⟩ := previous_inverts_next hmemory {} .logical 0x19000
  obtain ⟨-, -, -, hfarthest, -⟩ := hsearched (by decide)
  obtain ⟨start, -, hbefore, hwalk, -⟩ := hfarthest harrives
  have hcut : 0x9000 = l.cut 0x19000 := by
    decide
  refine ⟨hmemory, hfound, ?_⟩
  rw [← hfound, hcut]
  exact ⟨hrun, start, hbefore, hwalk⟩

end Z80Debugger.Listing
