import GitTutor.Pathspec
import GitTutor.Text.Count

/-!
# The grammar of patterns

A pattern is read from left to right, one token at a time, until the text or
the enclosing group ends. Letter case switches such as `(?i)` may stand before
any token, and around the stars of a tree wildcard, and hold for the literals
after them. Every token takes at least one
character, so the length of the text bounds the reading.
-/

namespace GitTutor.Pathspec

open Text

/-- Characters that do not stand for themselves outside a class. -/
def specials : List Char :=
  ['/', '?', '*', '$', ':', '<', '>', '(', ')', '[', ']', '{', '}', ',', '\\']

/-- Characters that a backslash may stand before outside a class. -/
def escapables : List Char :=
  ['?', '*', '$', ':', '<', '>', '(', ')', '[', ']', '{', '}', ',']

/-- Characters that a backslash stands before inside a class. -/
def classSpecials : List Char :=
  ['[', ']', '-']

/-- Whether the text, or the group that encloses it, ends here. -/
def atEnd : List Char → Bool
  | [] => true
  | c :: _ => c == ',' || c == '}' || c == ':' || c == '>'

/-- The last of the switches between `(?` and `)`, of which there is at least one,
and the text after them. -/
def readSwitches : List Char → Option (Bool × List Char)
  | 'i' :: ')' :: rest => some (true, rest)
  | '-' :: 'i' :: ')' :: rest => some (false, rest)
  | 'i' :: rest => readSwitches rest
  | '-' :: 'i' :: rest => readSwitches rest
  | _ => none

/-- The text after any number of letter case switches, and the letter case rule
that holds there. -/
def skipSwitches : Nat → Bool → List Char → Bool × List Char
  | fuel + 1, anyCase, '(' :: '?' :: rest =>
      match readSwitches rest with
      | some (anyCase, rest) => skipSwitches fuel anyCase rest
      | none => (anyCase, '(' :: '?' :: rest)
  | _, anyCase, cs => (anyCase, cs)

/-- The longest literal and the text after it; a backslash that escapes nothing
makes the pattern malformed. -/
def readLiteral : List Char → Option (List Char × List Char)
  | [] => some ([], [])
  | ['\\'] => none
  | '\\' :: c :: rest =>
      if c ∈ escapables then (readLiteral rest).map fun (text, rest) => (c :: text, rest)
      else none
  | c :: rest =>
      if c ∈ specials then some ([], c :: rest)
      else (readLiteral rest).map fun (text, rest) => (c :: text, rest)

/-- One character of a class. -/
def readClassChar : List Char → Option (Char × List Char)
  | '\\' :: c :: rest => if c ∈ classSpecials then some (c, rest) else none
  | c :: rest => if c ∈ classSpecials ∨ c = '\\' then none else some (c, rest)
  | [] => none

/-- The ranges of a class up to its closing bracket; a single character is a
range from itself to itself. -/
def readClassItems : Nat → List Char → Option (List (Char × Char) × List Char)
  | 0, _ => none
  | fuel + 1, cs =>
      match readClassChar cs with
      | none => none
      | some (low, ']' :: rest) => some ([(low, low)], rest)
      | some (low, '-' :: rest) =>
          match readClassChar rest with
          | none => none
          | some (high, ']' :: rest) => some ([(low, high)], rest)
          | some (high, rest) =>
              (readClassItems fuel rest).map fun (items, rest) => ((low, high) :: items, rest)
      | some (low, rest) =>
          (readClassItems fuel rest).map fun (items, rest) => ((low, low) :: items, rest)

/-- A class after its opening bracket. -/
def readClass (cs : List Char) : Option (Token × List Char) :=
  match cs with
  | '!' :: rest =>
      (readClassItems rest.length rest).map fun (items, rest) => (.oneOf true items, rest)
  | rest => (readClassItems rest.length rest).map fun (items, rest) => (.oneOf false items, rest)

/-- The digits at the start of a text, as a bound of a repetition. -/
def readBound (cs : List Char) : Option (Nat × List Char) :=
  match (readDigits? (cs.takeWhile isDecimal)).filter (· < wordBound) with
  | some n => some (n, cs.dropWhile isDecimal)
  | none => none

/-- The bounds of a repetition between its body and the closing angle bracket:
nothing for any number, a colon for at least one, and otherwise the bounds
themselves. -/
def readBounds : List Char → Option (Nat × Option Nat × List Char)
  | '>' :: rest => some (0, none, rest)
  | ':' :: '>' :: rest => some (1, none, rest)
  | ':' :: cs =>
      match readBound cs with
      | some (n, '>' :: rest) => some (n, some n, rest)
      | some (n, ',' :: '>' :: rest) => some (n, none, rest)
      | some (n, ',' :: more) =>
          match readBound more with
          | some (m, '>' :: rest) => some (n, some m, rest)
          | _ => none
      | _ => none
  | _ => none

/-- Whether a run wildcard may stand before this text: no other run wildcard
may follow it, not even behind letter case switches. -/
def manyMayPrecede (cs : List Char) : Bool :=
  match (skipSwitches cs.length false cs).2 with
  | [] => cs.isEmpty
  | c :: _ => c != '*' && c != '$'

/-- What follows the two stars of a tree wildcard: letter case switches and a
slash, which belong to it, or the end of the pattern. -/
def afterTree? (anyCase : Bool) (cs : List Char) : Option (Bool × List Char) :=
  match skipSwitches cs.length anyCase cs with
  | (anyCase, '/' :: rest) => some (anyCase, rest)
  | _ => if atEnd cs then some (anyCase, cs) else none

/-- A tree wildcard, which stands at the start of a pattern or behind a slash that
belongs to it, where letter case switches may follow the slash. -/
def readTree? (start anyCase : Bool) (cs : List Char) : Option (Token × Bool × List Char) :=
  let (rooted, anyCase, body) := match cs with
    | '/' :: rest => (true, skipSwitches rest.length anyCase rest)
    | _ => (false, anyCase, cs)
  match body with
  | '*' :: '*' :: rest =>
      if rooted || start then
        (afterTree? anyCase rest).map fun (anyCase, rest) => (.tree rooted, anyCase, rest)
      else none
  | _ => none

/-- A token without tokens of its own, other than a tree wildcard. -/
def readLeaf (anyCase : Bool) (cs : List Char) : Option (Token × List Char) :=
  match cs with
  | [] => none
  | '?' :: rest => some (.one, rest)
  | '[' :: rest => readClass rest
  | '/' :: rest => some (.separator, rest)
  | '$' :: rest => if manyMayPrecede rest then some (.many, rest) else none
  | '*' :: rest => if manyMayPrecede rest then some (.many, rest) else none
  | _ =>
      match readLiteral cs with
      | some (c :: text, rest) => some (.literal (c :: text) anyCase, rest)
      | _ => none

mutual

/-- Read tokens up to the end of the pattern. The result holds the tokens, the
letter case rule in force after them and the text after them. -/
def readTokens : Nat → Bool → Bool → List Char → Option (Pattern × Bool × List Char)
  | 0, _, _, _ => none
  | fuel + 1, start, anyCase, cs =>
      let (anyCase, body) := skipSwitches cs.length anyCase cs
      let token := match body with
        | '<' :: rest =>
            match readTokens fuel true anyCase rest with
            | some (tokens, anyCase, rest) =>
                (readBounds rest).map fun (least, most, rest) =>
                  (Token.repetition tokens least most, anyCase, rest)
            | none => none
        | '{' :: rest =>
            (readBranches fuel anyCase rest).map fun (branches, anyCase, rest) =>
              (Token.alternation branches, anyCase, rest)
        | _ =>
            match readTree? (start && body.length == cs.length) anyCase body with
            | some found => some found
            | none => (readLeaf anyCase body).map fun (token, rest) => (token, anyCase, rest)
      match token with
      | none => none
      | some (token, anyCase, rest) =>
          if atEnd rest then some ([token], anyCase, rest)
          else (readTokens fuel false anyCase rest).map fun (tokens, anyCase, rest) =>
            (token :: tokens, anyCase, rest)

/-- Read the branches of an alternation up to and including its closing brace. -/
def readBranches : Nat → Bool → List Char → Option (List Pattern × Bool × List Char)
  | 0, _, _ => none
  | fuel + 1, anyCase, cs =>
      match readTokens fuel true anyCase cs with
      | some (tokens, anyCase, '}' :: rest) => some ([tokens], anyCase, rest)
      | some (tokens, anyCase, ',' :: rest) =>
          (readBranches fuel anyCase rest).map fun (branches, anyCase, rest) =>
            (tokens :: branches, anyCase, rest)
      | _ => none

end

/-- Read a whole text as a pattern. -/
def ofText? (cs : List Char) : Option Pattern :=
  match readTokens (2 * cs.length + 2) true false cs with
  | some (tokens, _, []) => some tokens
  | _ => none

end GitTutor.Pathspec
