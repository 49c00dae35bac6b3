import GitTutor.Pathspec.Grammar
import GitTutor.Pathspec.Rules
import GitTutor.Text.LetterCase

/-!
# Matching file names

A token turns a text into the texts that may be left after it. A pattern
matches a file name when nothing may be left after all of its tokens. What a
tree stands for depends on its place: alone, first, last or between others.
-/

namespace GitTutor.Pathspec

open Text

/-- Texts, each once, without those whose lengths are given. All of them are ends of
one text, so that their lengths tell them apart. -/
def fresh : List Nat → List (List Char) → List (List Char)
  | _, [] => []
  | seen, rest :: more =>
      let length := rest.length
      if seen.contains length then fresh seen more
      else rest :: fresh (length :: seen) more

/-- What is left after one character that satisfies `p`. -/
def afterOne (p : Char → Bool) : List Char → List (List Char)
  | [] => []
  | c :: cs => if p c then [cs] else []

/-- What is left after a run of characters that satisfy `p`. -/
def afterRun (p : Char → Bool) : List Char → List (List Char)
  | [] => [[]]
  | c :: cs => if p c then (c :: cs) :: afterRun p cs else [c :: cs]

/-- What is left after a literal. -/
def afterLiteral (anyCase : Bool) : List Char → List Char → List (List Char)
  | [], cs => [cs]
  | _ :: _, [] => []
  | l :: ls, c :: cs =>
      if (if anyCase then sameLetter l c else l == c) then afterLiteral anyCase ls cs else []

/-- What is left after a slash. -/
def afterSlash : List Char → List (List Char) :=
  afterOne (· == '/')

/-- What is left after any run of characters on one line. -/
def afterAny : List Char → List (List Char) :=
  afterRun (· != '\n')

/-- A text itself and what is left after a slash. -/
def maybeSlash (cs : List Char) : List (List Char) :=
  cs :: afterSlash cs

/-- Whole components between two others: a slash, or slashes around any text. -/
def afterInnerTree (cs : List Char) : List (List Char) :=
  afterSlash cs ++ ((afterSlash cs).flatMap afterAny).flatMap afterSlash

/-- What is left after a tree at its place. -/
def afterTree (place : Place) (rooted : Bool) (cs : List Char) : List (List Char) :=
  match place with
  | .only => afterAny cs
  | .middle => afterInnerTree cs
  | .first =>
      if rooted then ((afterSlash cs).flatMap afterAny).flatMap maybeSlash
      else maybeSlash cs ++ (afterAny cs).flatMap afterSlash
  | .last => maybeSlash cs ++ (afterSlash cs).flatMap afterAny

/-- Whether one of some ranges holds a character. -/
def anyHolds (ranges : List (Char × Char)) (c : Char) : Bool :=
  ranges.any fun r => decide (r.1 ≤ c) && decide (c ≤ r.2)

/-- Whether a class accepts a character, or a letter that differs in case only. A
class never accepts a slash, and one with a reversed range accepts nothing. -/
def classAccepts (anyCase negated : Bool) (ranges : List (Char × Char)) (c : Char) : Bool :=
  let held := if anyCase then (caseVariants c).any (anyHolds ranges) else anyHolds ranges c
  c != '/' && ranges.all (fun r => decide (r.1 ≤ r.2)) && held != negated

/-- The letter case rule for classes after a token: that of the last literal before
them in their pattern or around it. -/
def caseAfter (anyCase : Bool) : Token → Bool
  | .literal _ anyCase => anyCase
  | _ => anyCase

/-- A step from texts to the texts that may be left of them. -/
abbrev Step := List (List Char) → List (List Char)

/-- Repeat a step a number of times. -/
def repeatExactly (step : Step) : Nat → Step
  | 0, rests => rests
  | n + 1, rests => repeatExactly step n (step rests)

/-- Repeat a step at most a number of times, keeping every outcome. Only outcomes
that are new are taken further. -/
def repeatUpTo (step : Step) : Nat → List (List Char) → Step
  | 0, known, latest => known ++ latest
  | n + 1, known, latest =>
      let all := known ++ latest
      match fresh (all.map List.length) (step latest) with
      | [] => all
      | found => repeatUpTo step n all found

mutual

/-- What may be left of one of several texts after a token. The flag is the letter
case rule for classes at this place. -/
def afterToken (anyCase : Bool) (outer : Option Place) (place : Place) : Token → Step
  | .literal text anyCase, rests => rests.flatMap (afterLiteral anyCase text)
  | .separator, rests => rests.flatMap afterSlash
  | .one, rests => rests.flatMap (afterOne (· != '/'))
  | .many, rests => rests.flatMap (afterRun (· != '/'))
  | .tree rooted, rests => rests.flatMap (afterTree (place.within outer) rooted)
  | .oneOf negated ranges, rests => rests.flatMap (afterOne (classAccepts anyCase negated ranges))
  | .alternation branches, rests => afterBranches anyCase (outer.or (some place)) branches rests
  | .repetition body least most, rests =>
      let step := fun rests => afterTokens anyCase (outer.or (some place)) true body rests
      let enough := (rests.map List.length).foldl max 0 + 1
      let extra := match most with
        | none => enough
        | some m => min enough (m - least)
      repeatUpTo step extra [] (repeatExactly step (min enough least) rests)

/-- What may be left of one of several texts after one of several patterns. -/
def afterBranches (anyCase : Bool) (outer : Option Place) : List Pattern → Step
  | [], _ => []
  | branch :: more, rests =>
      afterTokens anyCase outer true branch rests ++ afterBranches anyCase outer more rests

/-- What may be left of one of several texts after a pattern. -/
def afterTokens (anyCase : Bool) (outer : Option Place) (isFirst : Bool) : Pattern → Step
  | [], rests => rests
  | token :: more, rests =>
      let place := Place.of isFirst more.isEmpty
      afterTokens (caseAfter anyCase token) outer false more
        (fresh [] (afterToken anyCase outer place token rests))

end

/-- Whether a pattern matches a whole text. -/
def isMatch (pattern : Pattern) (cs : List Char) : Bool :=
  (afterTokens false none true pattern [cs]).contains []

/-- The test on file names that a pathspec stands for, if it is well-formed. -/
def compile? (path : String) : Option (String → Bool) :=
  match ofText? path.toList with
  | some pattern =>
      if isSound pattern then some fun file => isMatch pattern file.toList else none
  | none => none

end GitTutor.Pathspec
