import GitTutor.Pathspec
import GitTutor.Text.CodeRanges
import GitTutor.Text.LetterCase

/-!
# The space of a pattern

An automaton that reads names byte by byte, from the last to the first, tells
whether a pattern matches. The space that its states take is bounded. Every copy of
a repeated pattern counts, and so does every way to choose.
-/

namespace GitTutor.Pathspec

open Text

/-- A set of characters. -/
abbrev CharSet := List CodeRange

/-- The set of all characters but one. -/
def allBut (c : Char) : CharSet :=
  CodeRange.complement [(c.toNat, c.toNat)]

/-- The set of the characters that a class accepts, which holds no slash. -/
def classSet (negated : Bool) (ranges : List (Char × Char)) : CharSet :=
  if ranges.all fun r => decide (r.1 ≤ r.2) then
    let held := CodeRange.union (ranges.map fun r => (r.1.toNat, r.2.toNat))
    let refused := if negated then held else CodeRange.complement held
    CodeRange.complement (CodeRange.insert ('/'.toNat, '/'.toNat) refused)
  else []

/-- The set of one character, or of all letters that differ from it in case only. -/
def letterSet (anyCase : Bool) (c : Char) : CharSet :=
  if anyCase then CodeRange.union ((caseVariants c).map fun v => (v.toNat, v.toNat))
  else [(c.toNat, c.toNat)]

/-- The character of a set that holds one. -/
def theChar? : CharSet → Option Char
  | [(first, last)] => if first = last then some (Char.ofNat first) else none
  | _ => none

/-- The space of one state. -/
def stateSpace : Nat := 32

/-- The space of a state that chooses between a number of ways. -/
def choiceSpace (ways : Nat) : Nat :=
  stateSpace + 4 * ways

/-- The space of a state that reads a byte out of a number of ranges. -/
def readerSpace (ranges : Nat) : Nat :=
  stateSpace + 8 * ranges

/-- What a list starts with, from one element up to all of them. -/
def starts {α : Type} : List α → List (List α)
  | [] => []
  | a :: more => [a] :: (starts more).map (a :: ·)

/-- The space of the states that read one character of a set. -/
def setSpace (set : CharSet) : Nat :=
  match theChar? set with
  | some c => stateSpace * c.utf8Size
  | none =>
      if set.isEmpty then stateSpace
      else if set.all fun range => decide (range.2 < 0x80) then
        readerSpace set.length + stateSpace
      else
        let ways := set.flatMap CodeRange.stored
        choiceSpace ways.length + stateSpace +
          stateSpace * (ways.flatMap starts).eraseDups.length

/-- A piece of a pattern, as far as it matters for the space. -/
inductive Piece
  /-- One character of a set. -/
  | oneOf (set : CharSet)
  /-- A text of so many bytes. -/
  | text (bytes : Nat)
  /-- One of several pieces. -/
  | choice (pieces : List Piece)
  /-- Anything else: the space of its states and whether it may stand for nothing. -/
  | other (space : Nat) (mayBeEmpty : Bool)

namespace Piece

/-- The number of bytes of a piece that is a text. -/
def textBytes? : Piece → Option Nat
  | oneOf set => (theChar? set).map Char.utf8Size
  | text bytes => some bytes
  | _ => none

/-- The number of bytes of pieces that are texts. -/
def allTextBytes? : List Piece → Option (List Nat)
  | [] => some []
  | piece :: more =>
      match piece.textBytes?, allTextBytes? more with
      | some bytes, some others => some (bytes :: others)
      | _, _ => none

/-- The characters of pieces of which each is one character. -/
def allChars? : List Piece → Option CharSet
  | [] => some []
  | oneOf set :: more => (allChars? more).map (set ++ ·)
  | _ :: _ => none

/-- The space of the states that tell several texts apart. -/
def textsSpace (bytes : List Nat) : Nat :=
  let own := bytes.map fun n => (n - 1) * (stateSpace + choiceSpace 1)
  readerSpace bytes.length + choiceSpace 1 + stateSpace + own.foldl (· + ·) 0

mutual

/-- The space of the states for a piece. -/
def space : Piece → Nat
  | oneOf set => setSpace set
  | text bytes => stateSpace * bytes
  | choice pieces =>
      match allTextBytes? pieces with
      | some bytes => textsSpace bytes
      | none => choiceSpace pieces.length + stateSpace + totalSpace pieces
  | other space _ => space

/-- The space of the states for several pieces. -/
def totalSpace : List Piece → Nat
  | [] => 0
  | piece :: more => piece.space + totalSpace more

end

mutual

/-- Whether a piece may stand for nothing. -/
def mayBeEmpty : Piece → Bool
  | oneOf _ => false
  | text _ => false
  | choice pieces => anyMayBeEmpty pieces
  | other _ mayBeEmpty => mayBeEmpty

/-- Whether one of several pieces may stand for nothing. -/
def anyMayBeEmpty : List Piece → Bool
  | [] => false
  | piece :: more => piece.mayBeEmpty || anyMayBeEmpty more

end

/-- Pieces one after another. -/
def inOrder (pieces : List Piece) : Piece :=
  match pieces with
  | [piece] => piece
  | _ =>
      match allTextBytes? pieces with
      | some bytes => text (bytes.foldl (· + ·) 0)
      | none => other (totalSpace pieces) (pieces.all mayBeEmpty)

/-- The pieces among which a piece is a choice. -/
def options : Piece → List Piece
  | choice pieces => pieces
  | piece => [piece]

/-- One of several pieces. A choice between characters is a set of them. -/
def oneAmong (pieces : List Piece) : Piece :=
  match pieces.flatMap options with
  | [piece] => piece
  | flat =>
      match allChars? flat with
      | some chars => oneOf (CodeRange.union chars)
      | none => choice flat

/-- A piece at least and at most so many times. -/
def times (piece : Piece) (least : Nat) (most : Option Nat) : Piece :=
  let unit := piece.space
  let optional := unit + choiceSpace 2
  let mayBeEmpty := least == 0 || piece.mayBeEmpty
  match least, most with
  | 1, some 1 => piece
  | 0, some 1 => other (optional + stateSpace) true
  | 0, none =>
      other (if piece.mayBeEmpty then optional + choiceSpace 2 + stateSpace else optional) true
  | least, none => other (least * unit + choiceSpace 2) mayBeEmpty
  | least, some most =>
      if least = most then other (least * unit) mayBeEmpty
      else
        let start := if least = 0 then stateSpace else least * unit
        other (start + (most - least) * optional + stateSpace) mayBeEmpty

/-- A piece that may be left out. -/
def maybe (piece : Piece) : Piece :=
  piece.times 0 (some 1)

/-- A slash. -/
def slash : Piece := oneOf [('/'.toNat, '/'.toNat)]

/-- Any run of characters on one line. -/
def anything : Piece := (oneOf (allBut '\n')).times 0 none

/-- A tree at its place. -/
def ofTree (rooted : Bool) : Place → Piece
  | .only => anything
  | .first =>
      if rooted then inOrder [slash, anything, maybe slash]
      else oneAmong [maybe slash, inOrder [anything, slash]]
  | .middle => oneAmong [slash, inOrder [slash, anything, slash]]
  | .last => oneAmong [maybe slash, inOrder [slash, anything]]

mutual

/-- The piece for a token. `outer` is the place of the outermost group that holds it. -/
def ofToken (outer : Option Place) (place : Place) : Token → Piece
  | .literal chars anyCase => inOrder (chars.map fun c => oneOf (letterSet anyCase c))
  | .separator => slash
  | .one => oneOf (allBut '/')
  | .many => (oneOf (allBut '/')).times 0 none
  | .tree rooted => ofTree rooted (place.within outer)
  | .oneOf negated ranges => oneOf (classSet negated ranges)
  | .alternation branches => oneAmong (ofBranches (outer.or (some place)) branches)
  | .repetition body least most =>
      (inOrder (ofTokens (outer.or (some place)) true body)).times least most

/-- The pieces for the tokens of a pattern. -/
def ofTokens (outer : Option Place) (isFirst : Bool) : Pattern → List Piece
  | [] => []
  | token :: more =>
      ofToken outer (Place.of isFirst more.isEmpty) token :: ofTokens outer false more

/-- The pieces for several patterns. -/
def ofBranches (outer : Option Place) : List Pattern → List Piece
  | [] => []
  | branch :: more => inOrder (ofTokens outer true branch) :: ofBranches outer more

end

end Piece

/-- The space of all states for a pattern, with those for both ends of a name. -/
def patternSpace (pattern : Pattern) : Nat :=
  4 * stateSpace + Piece.totalSpace (Piece.ofTokens none true pattern)

/-- The space of all states must not go beyond ten mebibytes. -/
def spaceBound : Nat := 10485760

end GitTutor.Pathspec
