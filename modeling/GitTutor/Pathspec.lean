/-!
# Pathspec patterns

A pathspec that holds `*`, `?` or `[` is a pattern over file names. A pattern is
a sequence of tokens; alternations and repetitions hold patterns of their own.
-/

namespace GitTutor.Pathspec

/-- One token of a pattern. -/
inductive Token
  /-- Characters that stand for themselves, or up to letter case. -/
  | literal (text : List Char) (anyCase : Bool)
  /-- A slash. -/
  | separator
  /-- One character other than a slash. -/
  | one
  /-- Any run of characters other than slashes. -/
  | many
  /-- Any number of whole path components; rooted when a slash stands before it. -/
  | tree (rooted : Bool)
  /-- One character inside, or outside, the given ranges. -/
  | oneOf (negated : Bool) (ranges : List (Char × Char))
  /-- One of several patterns. -/
  | alternation (branches : List (List Token))
  /-- A pattern several times in a row. -/
  | repetition (body : List Token) (least : Nat) (most : Option Nat)

/-- A sequence of tokens. -/
abbrev Pattern := List Token

/-- Whether a pathspec is a pattern rather than a plain path. -/
def isPattern (path : String) : Bool :=
  path.toList.any fun c => c == '*' || c == '?' || c == '['

namespace Token

/-- Whether a token stands at the border between two path components. -/
def isBoundary : Token → Bool
  | separator => true
  | tree _ => true
  | _ => false

/-- Whether a token is a tree. -/
def isTree : Token → Bool
  | tree _ => true
  | _ => false

/-- Whether a token is a run wildcard. -/
def isMany : Token → Bool
  | many => true
  | _ => false

/-- Whether a token holds patterns of its own. -/
def isGroup : Token → Bool
  | alternation _ => true
  | repetition _ _ _ => true
  | _ => false

/-- Whether a token starts at the root. -/
def isRooted : Token → Bool
  | separator => true
  | tree rooted => rooted
  | _ => false

end Token

/-- The place of a token in its pattern. -/
inductive Place
  | only
  | first
  | middle
  | last
  deriving DecidableEq, Repr

namespace Place

/-- The place of a token, given whether it comes first and whether it comes last. -/
def of (isFirst isLast : Bool) : Place :=
  match isFirst, isLast with
  | true, true => .only
  | true, false => .first
  | false, true => .last
  | false, false => .middle

/-- The place of a tree. `outer` is the place of the outermost group that holds it: a
tree at the edge of a group with neighbours on that side stands in the middle. -/
def within (outer : Option Place) : Place → Place
  | .only => .only
  | .middle => .middle
  | .first => if outer = some .middle ∨ outer = some .last then .middle else .first
  | .last => if outer = some .first ∨ outer = some .middle then .middle else .last

end Place

end GitTutor.Pathspec
