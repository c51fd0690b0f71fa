import Z80Debugger.Proofs.Breakpoint.RoundTrip
import Z80Debugger.Proofs.Debugger.Selection

/-!
# The cursor and the view

Base and selection of a cursor should be addresses of its view, since a new breakpoint is offered at
the selection.  Going somewhere cuts the address to the view, and whatever moves in a listing stays
in the view of it.  A change of the view does not cut anything: it leaves the addresses as they are
and relies on the program counter being shown next, for which there has to be a core.
`Debugger.Strands` names the one case in which that fails, and `template_names_selection` states
that the cursor is in its view until the first operation of this kind, and not behind it.
-/

set_option autoImplicit false

namespace Z80Debugger

/-- What is cut to a view is an address of it. -/
theorem View.and_mask_le (view : View) (address : UInt32) : address &&& view.mask ≤ view.mask := by
  rw [UInt32.le_iff_toNat_le, UInt32.toNat_and]
  exact Nat.and_le_right

/-- An address of the view is not changed when it is cut. -/
theorem Listing.cut_eq_self_iff_le {l : Listing} {address : UInt32} :
    l.cut address = address ↔ address ≤ l.view.mask := by
  have hword := address.toNat_lt
  rw [cut_eq_self_iff, size, UInt32.le_iff_toNat_le]
  cases l.view with
  | logical => exact Nat.lt_succ_iff
  | physical => exact Nat.lt_succ_iff

namespace Cursor

variable {c : Cursor} {l : Listing}

/-- Base and selection are addresses of the view. -/
structure InView (c : Cursor) : Prop where
  base : c.base ≤ c.view.mask
  selected : c.selected ≤ c.view.mask

/-- Going to an address brings a cursor into its view, wherever it was. -/
theorem inView_goTo (c : Cursor) (address : UInt32) : (c.goTo address).InView where
  base := c.view.and_mask_le address
  selected := c.view.and_mask_le address

/-- Showing the program counter brings a cursor into its view. -/
theorem inView_goToPc (c : Cursor) (pc : UInt32) : (c.goToPc pc).InView where
  base := c.view.and_mask_le pc
  selected := c.view.and_mask_le pc

/-- Wherever in the view the base goes, the selection stays in the view. -/
theorem InView.selectShown (h : c.InView) (l : Listing) {base : UInt32}
    (hbase : base ≤ c.view.mask) : ({ c with base }.selectShown l).InView := by
  unfold Cursor.selectShown
  split
  · exact ⟨hbase, h.selected⟩
  · exact ⟨hbase, hbase⟩

/-- Wherever in the view the selection goes, the base stays in the view. -/
theorem InView.showSelected (h : c.InView) (l : Listing) {selected : UInt32}
    (hselected : selected ≤ c.view.mask) : ({ c with selected }.showSelected l).InView := by
  unfold Cursor.showSelected
  split
  · exact ⟨h.base, hselected⟩
  · exact ⟨hselected, hselected⟩

/-- Scrolling keeps a cursor in its view. -/
theorem InView.scroll (h : c.InView) (hview : c.view = l.view) (delta : Int) :
    (c.scroll l delta).InView := by
  have hbase : l.cut c.base = c.base := Listing.cut_eq_self_iff_le.mpr (hview ▸ h.base)
  have hcut := Listing.cut_repeat_neighbour hbase (if 0 < delta then .down else .up) delta.natAbs
  rw [Listing.cut_eq_self_iff_le, ← hview] at hcut
  have hmoved := h.selectShown l hcut
  exact ⟨hmoved.base, hmoved.selected⟩

/-- Moving the selection keeps a cursor in its view. -/
theorem InView.move (h : c.InView) (hview : c.view = l.view) (direction : Direction) :
    (c.move l direction).InView := by
  have hcut := l.cut_neighbour direction c.selected
  rw [Listing.cut_eq_self_iff_le, ← hview] at hcut
  have hmoved := h.showSelected l hcut
  exact ⟨hmoved.base, hmoved.selected⟩

/-- Following the program counter keeps a cursor in its view. -/
theorem InView.sync (h : c.InView) (l : Listing) (pc : UInt32) : (c.sync l pc).InView := by
  unfold Cursor.sync
  split
  · exact h.showSelected l (c.view.and_mask_le pc)
  · exact h

/-- However a cursor moves, it stays in its view. -/
theorem InView.moves (h : c.InView) {l? : Option Listing} (hview : ∀ l ∈ l?, c.view = l.view)
    {after : Cursor} (hmoves : c.Moves l? after) : after.InView := by
  cases hmoves with
  | stay => exact h
  | goTo address => exact c.inView_goTo address
  | goToPc pc => exact c.inView_goToPc pc
  | scroll hlisting delta => exact h.scroll (hview _ hlisting) delta
  | move hlisting direction => exact h.move (hview _ hlisting) direction
  | sync _ pc => exact h.sync _ pc

end Cursor

namespace Breakpoint

open Text (IsWord)
open Text.Hex (padded)

/-- A written value that stands alone is a range of that one value. -/
theorem rangeIn_padded (space : Space) (context : Context) (width : Nat) (value : UInt32) :
    rangeIn space context (padded width value.toNat) = .ok (value, value) := by
  have hhyphen : '-' ∉ padded width value.toNat := by
    intro hmem
    exact absurd (Text.Hex.isSome_digit?_of_mem_padded hmem) (by decide)
  have hends : rangeEnds (padded width value.toNat) = (padded width value.toNat, none) := by
    rw [rangeEnds, Text.splitFirst?_eq_none hhyphen]
  simp only [rangeIn, hends, addressIn?_padded]

/-- Padded digits are read as an address. -/
theorem ofText_padded (width n : Nat) : Word.ofText (padded width n) = .address := by
  apply ofText_eq_address _ (Or.inl rfl)
  exact Text.Hex.isSome_digit?_of_mem_fold fun _ hc => Text.Hex.isSome_digit?_of_mem_padded hc

/-- A space in memory, the letter `x` and an address describe a breakpoint on running the
instruction at the address, whatever was used last and whatever labels and layout there are. -/
theorem parse_execAt {space : Space} (hspace : space = .logical ∨ space = .physical)
    {name : List Char} (hword : IsWord name) (hname : Word.ofText name = .space space)
    (d : Defaults) (context : Context) {text : String} {width : Nat} {address : UInt32}
    (htext : text.toList = name ++ ' ' :: 'x' :: ' ' :: padded width address.toNat) :
    parse d context text = .ok (execAt space address) := by
  have hwords : Text.words text.toList = [name, ['x'], padded width address.toNat] := by
    have hspace : Text.isBlank ' ' = true := rfl
    have hletter : ['x'] ++ ' ' :: padded width address.toNat =
        'x' :: ' ' :: padded width address.toNat := rfl
    rw [htext, Text.words_append_cons hword hspace, ← hletter,
      Text.words_append_cons (Text.isWord_singleton rfl) hspace,
      Text.words_of_isWord (isWord_padded width _)]
  have hx : Word.ofText ['x'] = .modes (.only .exec) := rfl
  have hfields : Fields.addAll context.labels {} [name, ['x'], padded width address.toNat] =
      .ok { space := some space, modes := some (.only .exec, ['x']),
            address := some (padded width address.toNat) } := by
    simp only [Fields.addAll, Fields.add, hname, hx, ofText_padded, Option.none_or]
  have hcut (mask : UInt32) : address &&& mask &&& mask = address &&& mask := by
    rw [UInt32.and_assoc, UInt32.and_self]
  rw [parse, hwords, parseWords, if_neg (by simp), hfields]
  apply ofFields_eq_ok_iff.mpr
  refine ⟨.only .exec, _, address, address, ?_, rfl, rangeIn_padded _ _ _ _, ?_, ?_⟩
  · obtain rfl | rfl := hspace <;> rfl
  · obtain rfl | rfl := hspace
    all_goals simp only [execAt, ofRange, withMask, withEnabled, maskIn, Option.getD_some, hcut]
  · exact UInt32.le_refl _

end Breakpoint

namespace Debugger

variable {d after : Debugger} {c : Cpu}

/-- The template is read as a breakpoint on running the instruction at the selected address,
whatever was used last and whatever labels and layout there are. -/
theorem parse_template (d : Debugger) (defaults : Breakpoint.Defaults)
    (context : Breakpoint.Context) :
    Breakpoint.parse defaults context d.template = .ok (.execAt d.viewSpace d.cursor.selected) := by
  unfold template viewSpace
  cases d.cursor.view with
  | logical =>
    have hname : Breakpoint.Word.ofText "logical".toList = .space .logical := rfl
    apply Breakpoint.parse_execAt (Or.inl rfl) (Text.IsWord.of_all rfl rfl) hname
    simp only [String.toList_append, Text.Hex.text, String.toList_ofList]
    rfl
  | physical =>
    have hname : Breakpoint.Word.ofText "physical".toList = .space .physical := rfl
    apply Breakpoint.parse_execAt (Or.inr rfl) (Text.IsWord.of_all rfl rfl) hname
    simp only [String.toList_append, Text.Hex.text, String.toList_ofList]
    rfl

/-- What is offered for a new breakpoint names the selection itself, if that is an address of the
view. -/
theorem execAt_selected (h : d.cursor.InView) :
    (Breakpoint.execAt d.viewSpace d.cursor.selected).first = d.cursor.selected := by
  have hcut := (Listing.cut_eq_self_iff_le (l := ⟨d.cursor.view, fun _ => none⟩)).mpr h.selected
  have hmask : d.viewSpace.defaultMask = d.cursor.view.mask := by
    unfold viewSpace
    cases d.cursor.view <;> rfl
  rwa [Breakpoint.execAt, Breakpoint.ofRange, hmask]

/-- The operation changes to a view to which the cursor's addresses do not belong, and there is no
program counter to show instead. -/
def Strands (d : Debugger) : Operation → Prop
  | .setView .logical => d.cpu? = none ∧ (0xFFFF < d.cursor.base ∨ 0xFFFF < d.cursor.selected)
  | _ => False

/-- None of the operations strands the cursor when its turn comes. -/
def NeverStrands (d : Debugger) : List Operation → Prop
  | [] => True
  | op :: ops => ¬ d.Strands op ∧ (d.perform op).2.NeverStrands ops

/-- The program counter of an attached core is shown in the view, wherever the cursor was. -/
theorem inView_goToPc_of_cpu (hcpu : d.cpu? = some c) : d.goToPc.cursor.InView := by
  rw [goToPc, moveCursor_of_cpu hcpu]
  exact Cursor.inView_goToPc _ _

/-- Without a core there is no program counter to show. -/
theorem goToPc_of_detached (hcpu : d.cpu? = none) : d.goToPc = d := by
  rw [goToPc, moveCursor, hcpu]

/-- A change of the view brings the cursor into its view, wherever it was, or else it strands it. -/
theorem inView_setView_iff (d : Debugger) (view : View) :
    (d.setView view).cursor.InView ↔ ¬ d.Strands (.setView view) := by
  cases hcpu : d.cpu? with
  | some c =>
    have hshown : (d.setView view).cursor.InView := inView_goToPc_of_cpu hcpu
    refine iff_of_true hshown ?_
    cases view <;> simp [Strands, hcpu]
  | none =>
    -- Base and selection stay as they are.
    have hkept : (d.setView view).cursor = d.cursor.setView view := by
      have hstays := goToPc_of_detached (d := { d with cursor := d.cursor.setView view }) hcpu
      exact congrArg (·.cursor) hstays
    rw [hkept]
    cases view with
    | logical =>
      simp only [Strands, hcpu, true_and, not_or, UInt32.not_lt]
      exact ⟨fun hview => ⟨hview.base, hview.selected⟩, fun hle => ⟨hle.1, hle.2⟩⟩
    | physical =>
      have hle (address : UInt32) : address ≤ 0xFFFFFFFF := Nat.lt_succ_iff.mp address.toNat_lt
      exact iff_of_true ⟨hle _, hle _⟩ not_false

/-- An operation keeps the cursor in its view, or else it strands the cursor. -/
theorem inView_perform_iff (h : d.cursor.InView) (op : Operation) :
    (d.perform op).2.cursor.InView ↔ ¬ d.Strands op := by
  by_cases hview : ∃ view, op = .setView view
  · obtain ⟨view, rfl⟩ := hview
    exact d.inView_setView_iff view
  · have hnever : ¬ d.Strands op := by
      cases op with
      | setView view => exact absurd ⟨view, rfl⟩ hview
      | _ => exact not_false
    refine iff_of_true (h.moves ?_ (d.moves_perform (not_exists.mp hview))) hnever
    rintro _ hlisting
    obtain ⟨c, -, rfl⟩ := Option.map_eq_some_iff.mp hlisting
    rfl

/-- Operations that never strand the cursor keep it in its view. -/
theorem inView_performAll (h : d.cursor.InView) {ops : List Operation}
    (hops : d.NeverStrands ops) : (d.performAll ops).cursor.InView := by
  induction ops generalizing d with
  | nil => exact h
  | cons op ops ih => exact ih ((inView_perform_iff h op).mpr hops.1) hops.2

/-- The cursor of a new debugger is in its view. -/
theorem inView_ofCore (core : Option Core) (options : DebuggerOptions) :
    (ofCore core options).cursor.InView := by
  have hnew : (Cursor.ofLines options.lines options.view).InView :=
    ⟨UInt32.zero_le, UInt32.zero_le⟩
  refine hnew.moves ?_ (moves_ofCore core options none)
  rintro _ ⟨⟩

/-- Let a debugger start with any core or none, and do any operations with it in any order, where
the core may be changed, replaced or taken away.  As long as none of them changes to the logical
view without a core while base or selection is above FFFF, both are addresses of the view, and the
template is read as a breakpoint on running the instruction at the selection itself.  Such a change
of the view leads out of the view; nothing else does. -/
theorem template_names_selection (core : Option Core) (options : DebuggerOptions)
    {ops : List Operation} (hops : (ofCore core options).NeverStrands ops) :
    let d := (ofCore core options).performAll ops
    d.cursor.base ≤ d.cursor.view.mask ∧ d.cursor.selected ≤ d.cursor.view.mask ∧
      (∀ defaults context, ∃ b, Breakpoint.parse defaults context d.template = .ok b ∧
        b = .execAt d.viewSpace d.cursor.selected ∧ b.first = d.cursor.selected) ∧
      ∀ op, (d.perform op).2.cursor.InView ↔ ¬ d.Strands op := by
  intro d
  have h : d.cursor.InView := inView_performAll (inView_ofCore core options) hops
  refine ⟨h.base, h.selected, ?_, inView_perform_iff h⟩
  intro defaults context
  exact ⟨_, d.parse_template defaults context, rfl, execAt_selected h⟩

/-- A walk through physical addresses with a core, which is taken away on the way, and back to a
selection that is an address of both views. -/
def detachedWalk : List Operation :=
  [.setView .physical, .scroll 3, .machine (.attach none), .goTo "12345", .goTo "2345",
    .setView .logical]

/-- In the end the template names the selection 2345 in the logical view. -/
theorem template_names_selection_detached :
    let start := ofCore (some { cpu := Cpu.standard }) {}
    let d := start.performAll detachedWalk
    start.NeverStrands detachedWalk ∧ d.cursor.view = .logical ∧ d.cursor.selected ≤ 0xFFFF ∧
      d.template = "logical x 2345" ∧
      ∃ b, Breakpoint.parse d.defaults d.context d.template = .ok b ∧ b.first = 0x2345 := by
  intro start d
  have hops : start.NeverStrands detachedWalk := by
    refine ⟨not_false, not_false, not_false, not_false, not_false, ?_, trivial⟩
    rintro ⟨-, hfar⟩
    revert hfar
    decide +kernel
  have hview : d.cursor.view = .logical := by
    decide +kernel
  have hselected : d.cursor.selected = 0x2345 := by
    decide +kernel
  have htemplate : d.template = "logical x 2345" := by
    decide +kernel
  have hnames := template_names_selection _ _ hops
  have hd : (ofCore (some { cpu := Cpu.standard }) {}).performAll detachedWalk = d := rfl
  rw [hd] at hnames
  obtain ⟨-, hle, hparse, -⟩ := hnames
  obtain ⟨b, hb, -, hfirst⟩ := hparse d.defaults d.context
  rw [hview] at hle
  exact ⟨hops, hview, hle, htemplate, b, hb, hfirst.trans hselected⟩

/-- Without a core the selection 12345 of the physical view stays as it is in the logical view,
where there is no such address: the template, which should name it, is read as a breakpoint at
2345. -/
theorem setView_strands_cursor :
    let d := (ofCore none {}).performAll [.setView .physical, .goTo "12345", .setView .logical]
    d.cursor.view.mask = 0xFFFF ∧ d.cursor.base = 0x12345 ∧ d.cursor.selected = 0x12345 ∧
      d.template = "logical x 12345" ∧
      ∃ b, Breakpoint.parse d.defaults d.context d.template = .ok b ∧ b.first = 0x2345 := by
  intro d
  have hspace : d.viewSpace = .logical := by
    decide +kernel
  have hselected : d.cursor.selected = 0x12345 := by
    decide +kernel
  refine ⟨by decide +kernel, by decide +kernel, hselected, by decide +kernel, ?_⟩
  refine ⟨_, d.parse_template _ _, ?_⟩
  rw [hspace, hselected]
  rfl

end Debugger

end Z80Debugger
