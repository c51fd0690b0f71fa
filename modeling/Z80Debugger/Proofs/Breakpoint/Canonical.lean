import Z80Debugger.Breakpoint.Text

/-!
# What breakpoints read from text have in common

A breakpoint that was read from text has at least one mode, only modes that its space knows, a mask
that its space takes, and a range in order that the two masks leave as it is.  `Canonical` collects
these facts; they hold whatever the text, the labels and the defaults were.
-/

set_option autoImplicit false

namespace Z80Debugger.Breakpoint

/-- The form of the breakpoints that are read from text. -/
structure Canonical (b : Breakpoint) : Prop where
  modes_nonempty : b.modes.isEmpty = false
  modes_legal : b.modes.inter b.space.legalModes = b.modes
  mask_taken : maskIn b.space (some b.mask) = b.mask
  first_cut : b.first &&& b.space.defaultMask &&& b.mask = b.first
  last_cut : b.last &&& b.space.defaultMask &&& b.mask = b.last
  ordered : b.first ≤ b.last

/-- Switching a breakpoint on or off does not touch its form. -/
theorem canonical_withEnabled {b : Breakpoint} (h : b.Canonical) (enabled : Bool) :
    (b.withEnabled enabled).Canonical :=
  ⟨h.modes_nonempty, h.modes_legal, h.mask_taken, h.first_cut, h.last_cut, h.ordered⟩

/-- A breakpoint on running one instruction in memory has that form. -/
theorem canonical_execAt {space : Space} (hspace : space = .logical ∨ space = .physical)
    (address : UInt32) : (execAt space address).Canonical := by
  have hcut (mask : UInt32) : address &&& mask &&& mask &&& mask = address &&& mask := by
    rw [UInt32.and_assoc, UInt32.and_assoc, UInt32.and_self, UInt32.and_self]
  obtain rfl | rfl := hspace
  all_goals exact ⟨rfl, rfl, rfl, hcut _, hcut _, UInt32.le_refl _⟩

/-- What a user may rely on in a breakpoint. -/
structure Sound (b : Breakpoint) : Prop where
  ordered : b.first ≤ b.last
  first_masked : b.first &&& b.mask = b.first
  last_masked : b.last &&& b.mask = b.last
  default_mask : b.space = .logical ∨ b.space = .port → b.mask = b.space.defaultMask
  modes_nonempty : b.modes.isEmpty = false
  modes_legal : ∀ mode, b.modes.contains mode = true → b.space.legalModes.contains mode = true

/-- What text is read to is sound. -/
theorem Canonical.sound {b : Breakpoint} (h : b.Canonical) : b.Sound where
  ordered := h.ordered
  first_masked := by
    rw [← h.first_cut, UInt32.and_assoc _ b.mask b.mask, UInt32.and_self]
  last_masked := by
    rw [← h.last_cut, UInt32.and_assoc _ b.mask b.mask, UInt32.and_self]
  default_mask := by
    have hmask := h.mask_taken
    rintro (hspace | hspace)
    all_goals
      rw [hspace] at hmask ⊢
      exact hmask.symm
  modes_nonempty := h.modes_nonempty
  modes_legal := by
    intro mode hmode
    rw [← h.modes_legal] at hmode
    cases mode
    all_goals exact (Bool.and_eq_true_iff.mp hmode).2

/-- Words describe a breakpoint exactly when the space settles on modes, there is a range that can
be read, and the breakpoint that is cut from it is in order. -/
theorem ofFields_eq_ok_iff {d : Defaults} {context : Context} {f : Fields} {b : Breakpoint} :
    ofFields d context f = .ok b ↔ ∃ modes range first last,
      modesIn (f.space.getD d.space) f.modes d.modes = .ok modes ∧ f.address = some range ∧
        rangeIn (f.space.getD d.space) context range = .ok (first, last) ∧
        ((ofRange (f.space.getD d.space) modes first last).withMask
          (maskIn (f.space.getD d.space) f.mask)).withEnabled f.enabled = b ∧
        b.first ≤ b.last := by
  rw [ofFields]
  cases hmodes : modesIn (f.space.getD d.space) f.modes d.modes with
  | error e => simp [bind, Except.bind]
  | ok modes =>
    cases haddress : f.address with
    | none => simp [bind, Except.bind, throw, throwThe, MonadExceptOf.throw]
    | some range =>
      cases hrange : rangeIn (f.space.getD d.space) context range with
      | error e => simp [hrange, bind, Except.bind]
      | ok ends =>
        simp only [hrange, bind, Except.bind]
        split
        · next hless =>
          refine iff_of_false (by simp [throw, throwThe, MonadExceptOf.throw]) ?_
          rintro ⟨modes', range', first, last, hm, hr, he, rfl, hordered⟩
          cases hm
          cases hr
          cases hrange.symm.trans he
          exact absurd hless (UInt32.not_lt.mpr hordered)
        · next hless =>
          constructor
          · intro h
            cases h
            exact ⟨modes, range, ends.1, ends.2, rfl, rfl, hrange, rfl, UInt32.not_lt.mp hless⟩
          · rintro ⟨modes', range', first, last, hm, hr, he, rfl, hordered⟩
            cases hm
            cases hr
            cases hrange.symm.trans he
            rfl

/-- The modes that a space settles on are some of those that it knows. -/
theorem modesIn_legal {space : Space} {named : Option (Modes × List Char)} {last modes : Modes}
    (h : modesIn space named last = .ok modes) :
    modes.isEmpty = false ∧ modes.inter space.legalModes = modes := by
  cases space with
  | opcode =>
    cases h
    exact ⟨rfl, rfl⟩
  | port =>
    have hinter (m : Modes) :
        (m.inter Space.port.legalModes).inter Space.port.legalModes =
          m.inter Space.port.legalModes := by
      simp [Modes.inter]
    obtain _ | ⟨m, w⟩ := named
    all_goals
      simp only [modesIn] at h
      split at h
    · cases h
      exact ⟨rfl, rfl⟩
    · next hlegal =>
      cases h
      exact ⟨by simpa using hlegal, hinter _⟩
    · cases h
    · next hlegal =>
      cases h
      exact ⟨by simpa using hlegal, hinter _⟩
  | logical | physical =>
    have hall (m : Modes) : m.inter Modes.all = m := by
      simp [Modes.inter, Modes.all]
    have hsome (m : Modes) : (if m.isEmpty then Modes.only .exec else m).isEmpty = false := by
      split
      · rfl
      · next h => simpa using h
    obtain _ | ⟨m, w⟩ := named
    all_goals
      cases h
      exact ⟨hsome _, hall _⟩

/-- A mask that a space settled on is taken by the space. -/
theorem maskIn_maskIn (space : Space) (named : Option UInt32) :
    maskIn space (some (maskIn space named)) = maskIn space named := by
  cases space <;> cases named <;> rfl

/-- Cutting a value again by the two masks that cut it changes nothing. -/
theorem cut_cut (value m n : UInt32) : value &&& m &&& n &&& m &&& n = value &&& m &&& n := by
  rw [UInt32.and_assoc _ m n, UInt32.and_assoc value m n, UInt32.and_assoc, UInt32.and_self]

/-- What is read from text has that form. -/
theorem canonical_of_parse {d : Defaults} {context : Context} {text : String} {b : Breakpoint}
    (h : parse d context text = .ok b) :
    b.Canonical := by
  rw [parse, parseWords] at h
  split at h
  · cases h
  · split at h
    · next f hf =>
      obtain ⟨modes, range, first, last, hmodes, -, -, rfl, hordered⟩ := ofFields_eq_ok_iff.mp h
      have hlegal := modesIn_legal hmodes
      exact
        { modes_nonempty := hlegal.1
          modes_legal := hlegal.2
          mask_taken := maskIn_maskIn _ _
          first_cut := cut_cut _ _ _
          last_cut := cut_cut _ _ _
          ordered := hordered }
    · cases h

end Z80Debugger.Breakpoint
