import Mathlib.Data.List.Induction
import Z80Debugger.Symbols.Load

/-!
# The two directions of a symbol table

A table is built by definitions, one at a time or a file at a time.  The two directions keep
different ones of them: a name leads to the address of its latest definition, and an address shows
the first name that was defined there.  `directions_agree` says for every table that can be built
what each direction answers.  An address to which a name leads always shows a name.  The name that
an address shows leads back to that address unless the name has since been defined elsewhere; the
address keeps showing it then, and `nameAt_of_moved` is such a table.
-/

set_option autoImplicit false

namespace Z80Debugger.Symbols

/-- A change of a table. -/
inductive Operation where
  | insert (name : String) (address : UInt32)
  | parse (text : String)
  | load (file : String) (contents : Option ByteArray)

namespace Operation

/-- The table after an operation.  One that fails leaves it as it was. -/
def apply (s : Symbols) : Operation → Symbols
  | insert name address => s.insert name address
  | parse text => match s.parse text with
    | .ok (after, _) => after
    | .error _ => s
  | load file contents => match s.load file contents with
    | .ok (after, _) => after
    | .error _ => s

/-- The definitions that an operation makes. -/
def definitions : Operation → List (String × UInt32)
  | insert name address => [(name, address)]
  | parse text => match File.definitions text with
    | .ok ds => ds
    | .error _ => []
  | load _ contents => match FileError.textOf contents with
    | .ok text => match File.definitions text with
      | .ok ds => ds
      | .error _ => []
    | .error _ => []

/-- Every operation on symbols inserts its definitions. -/
theorem apply_eq_insertAll (s : Symbols) (o : Operation) :
    o.apply s = s.insertAll o.definitions := by
  cases o with
  | insert name address => rfl
  | parse text =>
    simp only [apply, definitions, Symbols.parse]
    cases File.definitions text <;> rfl
  | load file contents =>
    simp only [apply, definitions, Symbols.load, Symbols.parse]
    cases FileError.textOf contents with
    | error cause => rfl
    | ok text =>
      simp only
      cases File.definitions text <;> rfl

end Operation

/-- The table that operations build from the empty one. -/
def built (operations : List Operation) : Symbols := operations.foldl Operation.apply {}

/-- The definitions that operations make, in their order. -/
def made (operations : List Operation) : List (String × UInt32) :=
  operations.flatMap Operation.definitions

/-- The name is the first that is defined at the address. -/
def FirstAt (definitions : List (String × UInt32)) (name : String) (address : UInt32) : Prop :=
  ∃ earlier later, definitions = earlier ++ (name, address) :: later ∧
    ∀ d ∈ earlier, d.2 ≠ address

/-- The latest definition of the name, in whatever case, is at the address. -/
def LatestOf (definitions : List (String × UInt32)) (name : String) (address : UInt32) : Prop :=
  ∃ earlier spelling later, definitions = earlier ++ (spelling, address) :: later ∧
    foldName spelling = foldName name ∧ ∀ d ∈ later, foldName d.1 ≠ foldName name

variable {definitions : List (String × UInt32)} {name : String} {address : UInt32}

/-- Symbols are built from all definitions that were made. -/
theorem built_eq_ofList (operations : List Operation) :
    built operations = ofList (made operations) := by
  induction operations using List.reverseRecOn with
  | nil => rfl
  | append_singleton operations o ih =>
    have hlast : built (operations ++ [o]) = o.apply (built operations) := by
      simp only [built, List.foldl_append, List.foldl_cons, List.foldl_nil]
    have hmade : made (operations ++ [o]) = made operations ++ o.definitions := by
      simp only [made, List.flatMap_append, List.flatMap_cons, List.flatMap_nil, List.append_nil]
    rw [hlast, hmade, ih, Operation.apply_eq_insertAll]
    simp only [ofList, insertAll, List.foldl_append]

/-- The last definition is inserted last. -/
theorem ofList_append_singleton (ds : List (String × UInt32)) (d : String × UInt32) :
    ofList (ds ++ [d]) = (ofList ds).insert d.1 d.2 := by
  simp only [ofList, insertAll, List.foldl_append, List.foldl_cons, List.foldl_nil]

/-- The name at an address is that of the first definition of the address. -/
theorem nameAt_ofList (ds : List (String × UInt32)) (address : UInt32) :
    (ofList ds).nameAt address = (ds.find? (·.2 == address)).map (·.1) := by
  induction ds using List.reverseRecOn with
  | nil => simp [ofList, insertAll, nameAt]
  | append_singleton ds d ih =>
    rw [ofList_append_singleton, nameAt_insert, List.find?_append]
    by_cases hhere : address = d.2
    · subst hhere
      rw [ih]
      cases hfirst : ds.find? (·.2 == d.2) <;> simp
    · have hskipped : [d].find? (·.2 == address) = none := by
        simpa using Ne.symm hhere
      rw [if_neg (fun h => hhere h.1), ih, hskipped, Option.or_none]

/-- A name resolves to the address of its latest definition. -/
theorem resolve_ofList (ds : List (String × UInt32)) (name : String) :
    (ofList ds).resolve name =
      (ds.reverse.find? (foldName ·.1 == foldName name)).map (·.2) := by
  induction ds using List.reverseRecOn with
  | nil => simp [ofList, insertAll, resolve]
  | append_singleton ds d ih =>
    rw [ofList_append_singleton, resolve_insert, List.reverse_append, List.reverse_singleton,
      List.singleton_append, List.find?_cons]
    by_cases hsame : foldName d.1 = foldName name
    · rw [if_pos hsame.symm]
      simp [hsame]
    · have hskipped : (foldName d.1 == foldName name) = false := by simpa using hsame
      rw [if_neg (Ne.symm hsame), hskipped, ih]

/-- A name stands at an address exactly if it was the first one defined there. -/
theorem nameAt_eq_some_iff :
    (ofList definitions).nameAt address = some name ↔ FirstAt definitions name address := by
  rw [nameAt_ofList, Option.map_eq_some_iff]
  constructor
  · rintro ⟨⟨first, place⟩, hfind, rfl⟩
    obtain ⟨hplace, earlier, later, hsplit, hearlier⟩ := List.find?_eq_some_iff_append.mp hfind
    obtain rfl : place = address := by simpa using hplace
    exact ⟨earlier, later, hsplit, fun d hd => by simpa using hearlier d hd⟩
  · rintro ⟨earlier, later, hsplit, hearlier⟩
    refine ⟨(name, address), List.find?_eq_some_iff_append.mpr ⟨by simp, earlier, later, hsplit, ?_⟩,
      rfl⟩
    intro d hd
    simpa using hearlier d hd

/-- A name resolves to an address exactly if its latest definition gives it. -/
theorem resolve_eq_some_iff :
    (ofList definitions).resolve name = some address ↔ LatestOf definitions name address := by
  rw [resolve_ofList, Option.map_eq_some_iff]
  constructor
  · rintro ⟨⟨spelling, place⟩, hfind, rfl⟩
    obtain ⟨hsame, later, earlier, hsplit, hlater⟩ := List.find?_eq_some_iff_append.mp hfind
    refine ⟨earlier.reverse, spelling, later.reverse, ?_, by simpa using hsame, ?_⟩
    · rw [← List.reverse_reverse definitions, hsplit]
      simp
    · intro d hd
      simpa using hlater d (List.mem_reverse.mp hd)
  · rintro ⟨earlier, spelling, later, hsplit, hsame, hlater⟩
    refine ⟨(spelling, address),
      List.find?_eq_some_iff_append.mpr ⟨by simpa using hsame, later.reverse, earlier.reverse, ?_, ?_⟩,
      rfl⟩
    · rw [hsplit]
      simp
    · intro d hd
      simpa using hlater d (List.mem_reverse.mp hd)

/-- A defined address has a name. -/
theorem isSome_nameAt (hmem : (name, address) ∈ definitions) :
    ((ofList definitions).nameAt address).isSome = true := by
  rw [nameAt_ofList, Option.isSome_map, List.find?_isSome]
  exact ⟨(name, address), hmem, by simp⟩

/-- A defined name resolves. -/
theorem isSome_resolve (hmem : (name, address) ∈ definitions) :
    ((ofList definitions).resolve name).isSome = true := by
  rw [resolve_ofList, Option.isSome_map, List.find?_isSome]
  exact ⟨(name, address), List.mem_reverse.mpr hmem, by simp⟩

/-- Take any table that is built from the empty one.  An address shows the first name defined there,
and a name leads to the address of its latest definition.  An address to which a name leads shows a
name.  The name that an address shows leads back to it exactly if no other address has the latest
definition of that name. -/
theorem directions_agree (operations : List Operation) (name : String) (address : UInt32) :
    ((built operations).nameAt address = some name ↔ FirstAt (made operations) name address) ∧
    ((built operations).resolve name = some address ↔ LatestOf (made operations) name address) ∧
    ((built operations).resolve name = some address →
      ((built operations).nameAt address).isSome = true) ∧
    ((built operations).nameAt address = some name →
      ((built operations).resolve name = some address ↔
        ∀ other, LatestOf (made operations) name other → other = address)) := by
  rw [built_eq_ofList]
  refine ⟨nameAt_eq_some_iff, resolve_eq_some_iff, ?_, ?_⟩
  · intro hresolve
    obtain ⟨earlier, spelling, later, hsplit, _, _⟩ := resolve_eq_some_iff.mp hresolve
    have hmem : (spelling, address) ∈ made operations := by
      rw [hsplit]
      exact List.mem_append_right earlier List.mem_cons_self
    exact isSome_nameAt hmem
  · intro hname
    obtain ⟨earlier, later, hsplit, _⟩ := nameAt_eq_some_iff.mp hname
    have hmem : (name, address) ∈ made operations := by
      rw [hsplit]
      exact List.mem_append_right earlier List.mem_cons_self
    obtain ⟨latest, hlatest⟩ := Option.isSome_iff_exists.mp (isSome_resolve hmem)
    constructor
    · intro hresolve other hother
      have hsame := resolve_eq_some_iff.mpr hother
      rw [hresolve] at hsame
      exact (Option.some.inj hsame).symm
    · intro honly
      rw [hlatest, honly latest (resolve_eq_some_iff.mp hlatest)]

/-- A name that is defined at 1 and then at 2 leads to 2 and is still shown at 1. -/
theorem nameAt_of_moved :
    let table := built [.insert "x" 1, .insert "x" 2]
    table.nameAt 1 = some "x" ∧ table.resolve "x" = some 2 ∧ table.resolve "x" ≠ some 1 := by
  intro table
  have htable : table = ofList [("x", 1), ("x", 2)] := built_eq_ofList _
  have hname : table.nameAt 1 = some "x" := by
    rw [htable, nameAt_eq_some_iff]
    exact ⟨[], [("x", 2)], rfl, by simp⟩
  have hresolve : table.resolve "x" = some 2 := by
    rw [htable, resolve_eq_some_iff]
    exact ⟨[("x", 1)], "x", [], rfl, rfl, by simp⟩
  refine ⟨hname, hresolve, ?_⟩
  rw [hresolve]
  decide

end Z80Debugger.Symbols
