import Std.Data.TreeMap.Lemmas
import Z80Debugger.Text.Pieces

/-!
# Symbols

Names for addresses.  A name is looked up without regard to ASCII case, and its latest definition
counts.  An address shows the name that was the first to be defined there.
-/

set_option autoImplicit false

namespace Z80Debugger

/-- A symbol table. -/
structure Symbols where
  /-- The latest address of each name, by folded name. -/
  byName : Std.TreeMap String UInt32 := ∅
  /-- The first name at each address. -/
  byAddress : Std.TreeMap UInt32 String := ∅

namespace Symbols

instance : Inhabited Symbols := ⟨{}⟩

/-- The form of a name that lookups compare. -/
def foldName (name : String) : String := String.ofList (Text.fold name.toList)

/-- Defines a name. -/
def insert (s : Symbols) (name : String) (address : UInt32) : Symbols where
  byName := s.byName.insert (foldName name) address
  byAddress := s.byAddress.insertIfNew address name

/-- Defines names in order. -/
def insertAll (s : Symbols) (definitions : List (String × UInt32)) : Symbols :=
  definitions.foldl (fun s (name, address) => s.insert name address) s

/-- The address of a name. -/
def resolve (s : Symbols) (name : String) : Option UInt32 := s.byName[foldName name]?

/-- The name at exactly an address. -/
def nameAt (s : Symbols) (address : UInt32) : Option String := s.byAddress[address]?

/-- The number of names, counted without regard to case. -/
def size (s : Symbols) : Nat := s.byName.size

/-- Whether no name is defined. -/
def isEmpty (s : Symbols) : Bool := s.byName.isEmpty

/-- The table of a list of definitions. -/
def ofList (definitions : List (String × UInt32)) : Symbols := insertAll {} definitions

/-- The latest definition of a name counts. -/
theorem resolve_insert (s : Symbols) (name other : String) (address : UInt32) :
    (s.insert name address).resolve other =
      if foldName other = foldName name then some address else s.resolve other := by
  simp only [resolve, insert, Std.TreeMap.getElem?_insert, Std.compare_eq_iff_eq]
  by_cases h : foldName other = foldName name
  · simp [h]
  · simp [h, Ne.symm h]

/-- The first definition at an address keeps its name. -/
theorem nameAt_insert (s : Symbols) (name : String) (address other : UInt32) :
    (s.insert name address).nameAt other =
      if other = address ∧ s.nameAt address = none then some name else s.nameAt other := by
  simp only [nameAt, insert, Std.TreeMap.getElem?_insertIfNew, Std.compare_eq_iff_eq]
  by_cases h : address = other
  · subst h
    by_cases hm : address ∈ s.byAddress
    · simp [hm]
    · simp [hm]
  · simp [h, Ne.symm h]

end Symbols

end Z80Debugger
