import GitTutor.Pathspec.Size
import GitTutor.Pathspec.Space

/-!
# Patterns without ambiguous neighbours

A pattern that follows the grammar can still ask for something that makes no
sense for paths, such as two borders of path components side by side. The rules
look at neighbouring tokens, at the branches of groups between the tokens around
the group, at the bounds of repetitions and at the size of the whole. They go
through a pattern layer by layer: first its own tokens, then the patterns in its
groups, then those in their groups.
-/

namespace GitTutor.Pathspec

mutual

/-- Whether some token that can stand first in a token satisfies `p`. -/
def opensWith (p : Token → Bool) : Token → Bool
  | .alternation branches => anyOpensWith p branches
  | .repetition body _ _ => patternOpensWith p body
  | .literal text anyCase => p (.literal text anyCase)
  | .separator => p .separator
  | .one => p .one
  | .many => p .many
  | .tree rooted => p (.tree rooted)
  | .oneOf negated ranges => p (.oneOf negated ranges)

/-- Whether some token that can stand first in a pattern satisfies `p`. -/
def patternOpensWith (p : Token → Bool) : Pattern → Bool
  | [] => false
  | token :: _ => opensWith p token

/-- Whether one of several patterns opens with a token that satisfies `p`. -/
def anyOpensWith (p : Token → Bool) : List Pattern → Bool
  | [] => false
  | pattern :: rest => patternOpensWith p pattern || anyOpensWith p rest

end

mutual

/-- Whether some token that can stand last in a token satisfies `p`. -/
def closesWith (p : Token → Bool) : Token → Bool
  | .alternation branches => anyClosesWith p branches
  | .repetition body _ _ => patternClosesWith p body
  | .literal text anyCase => p (.literal text anyCase)
  | .separator => p .separator
  | .one => p .one
  | .many => p .many
  | .tree rooted => p (.tree rooted)
  | .oneOf negated ranges => p (.oneOf negated ranges)

/-- Whether some token that can stand last in a pattern satisfies `p`. -/
def patternClosesWith (p : Token → Bool) : Pattern → Bool
  | [] => false
  | token :: rest =>
      match rest with
      | [] => closesWith p token
      | _ :: _ => patternClosesWith p rest

/-- Whether one of several patterns closes with a token that satisfies `p`. -/
def anyClosesWith (p : Token → Bool) : List Pattern → Bool
  | [] => false
  | pattern :: rest => patternClosesWith p pattern || anyClosesWith p rest

end

/-- A pattern in its layer. A branch of an alternation has a number, and so do the
patterns in the repetitions of that branch. -/
structure Part where
  branch : Option Nat
  tokens : Pattern

/-- The layers of two things side by side. -/
def sideBySide {α : Type} : List (List α) → List (List α) → List (List α)
  | [], layers => layers
  | layer :: more, [] => layer :: more
  | layer :: more, other :: others => (layer ++ other) :: sideBySide more others

mutual

/-- The layers below a token, which stands in a branch. -/
def layersBelow (branch : Option Nat) : Token → List (List Part)
  | .alternation branches => branchLayers 0 branches
  | .repetition body _ _ => [⟨branch, body⟩] :: layersBelowAll branch body
  | _ => []

/-- The layers below the tokens of a pattern. -/
def layersBelowAll (branch : Option Nat) : Pattern → List (List Part)
  | [] => []
  | token :: rest => sideBySide (layersBelow branch token) (layersBelowAll branch rest)

/-- The layers of branches, of which the first has a given number. -/
def branchLayers (number : Nat) : List Pattern → List (List Part)
  | [] => []
  | body :: rest =>
      sideBySide ([⟨some number, body⟩] :: layersBelowAll (some number) body)
        (branchLayers (number + 1) rest)

end

/-- The layers of a whole pattern. -/
def layers (pattern : Pattern) : List (List Part) :=
  [⟨none, pattern⟩] :: layersBelowAll none pattern

/-- The tokens of a part, each with the number of the branch. -/
def Part.entries (part : Part) : List (Option Nat × Token) :=
  part.tokens.map (part.branch, ·)

/-- Whether no two borders of path components follow each other in a layer within
branches of one number. -/
def bordersFit : List (Option Nat × Token) → Bool
  | first :: second :: rest =>
      !(first.1 == second.1 && first.2.isBoundary && second.2.isBoundary) &&
        bordersFit (second :: rest)
  | _ => true

/-- The tokens before and after a group. -/
structure Neighbours where
  left : Option Token
  right : Option Token

/-- Neighbours where those that are missing are taken from others. -/
def Neighbours.or (around others : Neighbours) : Neighbours :=
  ⟨around.left.or others.left, around.right.or others.right⟩

/-- The groups of a pattern with their neighbours; `left` stands before the
pattern. -/
def groupsOf (left : Option Token) : Pattern → List (Neighbours × Token)
  | [] => []
  | token :: rest =>
      if token.isGroup then (⟨left, rest.head?⟩, token) :: groupsOf (some token) rest
      else groupsOf (some token) rest

/-- Whether a branch of a group fits between the neighbours of the group. -/
def branchFits (around : Neighbours) (branch : Pattern) : Bool :=
  match branch.head?, branch.getLast? with
  | some first, some last =>
      !(branch.length == 1 && first.isTree) &&
      !(first.isBoundary && around.left.any (closesWith Token.isBoundary)) &&
      !(last.isBoundary && around.right.any (opensWith Token.isBoundary)) &&
      !(first.isMany && around.left.any (closesWith Token.isMany)) &&
      !(last.isMany && around.right.any (opensWith Token.isMany))
  | _, _ => false

/-- Whether a branch starts at the root. -/
def branchRooted (branch : Pattern) : Bool :=
  branch.head?.any Token.isRooted

/-- Whether the bounds of a repetition can be met by some positive number. -/
def boundsFit (least : Nat) : Option Nat → Bool
  | none => true
  | some most => decide (least ≤ most) && !(most == 0)

/-- Whether repeating a pattern never puts two borders or two run wildcards
side by side. -/
def bodyRepeats (body : Pattern) : Bool :=
  match body with
  | [token] => !(token.isBoundary || token.isMany)
  | _ =>
      !(body.head?.any Token.isBoundary && body.getLast?.any Token.isBoundary)

/-- Whether a group follows the rules between its neighbours. -/
def groupFits (around : Neighbours) : Token → Bool
  | .alternation branches =>
      branches.all fun branch =>
        branchFits around branch && !(around.left.isNone && branchRooted branch)
  | .repetition body least most =>
      boundsFit least most && branchFits around body && bodyRepeats body &&
        !(around.left.isNone && least == 0 && branchRooted body)
  | _ => true

/-- Whether groups follow the rules. A group at an edge of its pattern takes over
the neighbour that the groups before it had on that side. -/
def groupsFit (known : Neighbours) : List (Neighbours × Token) → Bool
  | [] => true
  | (near, group) :: rest =>
      let around := near.or known
      groupFits around group && groupsFit around rest

/-- Whether neither a part nor one of its tokens stands for a large fixed number of
bytes. -/
def Part.isModest (part : Part) : Bool :=
  Pathspec.isModest (patternSize? part.tokens) &&
    part.tokens.all fun token => Pathspec.isModest (fixedSize? token)

/-- Whether a pattern follows the rules. -/
def isSound (pattern : Pattern) : Bool :=
  let layers := layers pattern
  layers.all (fun parts => bordersFit (parts.flatMap Part.entries)) &&
    groupsFit ⟨none, none⟩ (layers.flatten.flatMap fun part => groupsOf none part.tokens) &&
    layers.flatten.all Part.isModest && decide (patternSpace pattern ≤ spaceBound)

end GitTutor.Pathspec
