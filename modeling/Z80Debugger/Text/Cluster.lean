import Z80Debugger.Text.ClusterClass

/-!
# Clusters

The rules by which a text falls into clusters.  Most of them look at two neighbouring characters; a
conjunct, a picture put together with joiners and a flag also depend on what stands before, of which
`ClusterEnd` keeps what the rules need.  `ClusterContext.joins` is the rule: it says whether a
character goes on with the cluster before it.  Clusters are the concern of the line input that the
program is given its lines by, which is described here as far as a backspace shows it.
-/

set_option autoImplicit false

namespace Z80Debugger.Text

/-- How a text ends, as far as it matters for the next character. -/
inductive ClusterEnd where
  | plain
  /-- A pictograph and marks. -/
  | pictograph
  /-- A pictograph, marks and a joiner. -/
  | joinedPictograph
  /-- A consonant and marks, none of them a linker. -/
  | consonant
  /-- A consonant and marks, one of them a linker. -/
  | linkedConsonant
  /-- An odd number of halves of flags. -/
  | halfFlag
  deriving DecidableEq, Repr

namespace ClusterEnd

/-- The end of a text after one more character. -/
def next (e : ClusterEnd) (c : ClusterClass) : ClusterEnd :=
  match c, e with
  | .pictograph, _ => pictograph
  | .consonant, _ => consonant
  | .regional, halfFlag => plain
  | .regional, _ => halfFlag
  | .extend, pictograph | .linker, pictograph | .nonJoiner, pictograph => pictograph
  | .joiner, pictograph => joinedPictograph
  | .extend, consonant | .joiner, consonant => consonant
  | .linker, consonant | .linker, linkedConsonant => linkedConsonant
  | .extend, linkedConsonant | .joiner, linkedConsonant => linkedConsonant
  | _, _ => plain

end ClusterEnd

/-- What stands before a character. -/
structure ClusterContext where
  /-- The class of the character before it. -/
  last : ClusterClass
  ending : ClusterEnd
  deriving DecidableEq, Repr

namespace ClusterContext

/-- A context that no character joins, such as the start of a text. -/
def start : ClusterContext where
  last := .control
  ending := .plain

/-- The context after one more character. -/
def next (b : ClusterContext) (c : ClusterClass) : ClusterContext where
  last := c
  ending := b.ending.next c

/-- Whether a character goes on with the cluster before it.  The first rule that applies decides. -/
def joins (b : ClusterContext) (c : ClusterClass) : Bool :=
  match b.last, c with
  | .carriageReturn, .lineFeed => true
  | .control, _ | .carriageReturn, _ | .lineFeed, _ => false
  | _, .control | _, .carriageReturn | _, .lineFeed => false
  | .leading, .leading | .leading, .vowel => true
  | .leading, .openSyllable | .leading, .closedSyllable => true
  | .openSyllable, .vowel | .openSyllable, .trailing => true
  | .vowel, .vowel | .vowel, .trailing => true
  | .closedSyllable, .trailing | .trailing, .trailing => true
  | _, .extend | _, .linker | _, .joiner | _, .nonJoiner => true
  | _, .spacingMark => true
  | .prepend, _ => true
  | _, .consonant => b.ending == .linkedConsonant
  | _, .pictograph => b.ending == .joinedPictograph
  | _, .regional => b.ending == .halfFlag
  | _, _ => false

end ClusterContext

end Z80Debugger.Text
