import GitTutor.Toml.Node
import GitTutor.Toml.Scalar

/-!
# Keys and values of TOML

A key is one name or several names with dots between them. A value is written
as a term: a scalar, a list in brackets or a table in braces. Lists and tables
may run over several lines and end in a comma; there is a limit to how deep they
stand in each other.
-/

namespace GitTutor.Toml

open Config

/-- A value as it is written. -/
inductive Term
  | scalar (value : Value)
  | list (items : List Term)
  | inline (entries : List (List String × Term))

namespace Term

mutual

/-- The value of a term, unless one of its tables gives a name two values. -/
def value? : Term → Option Value
  | scalar value => some value
  | list items => (valuesOf? items).map .list
  | inline entries => (rowsOf? [] entries).map fun rows => .table (Node.finishedRows rows)

/-- The values of terms. -/
def valuesOf? : List Term → Option (List Value)
  | [] => some []
  | term :: rest =>
      match value? term, valuesOf? rest with
      | some value, some values => some (value :: values)
      | _, _ => none

/-- Rows with further entries. -/
def rowsOf? (rows : Rows Node) : List (List String × Term) → Option (Rows Node)
  | [] => some rows
  | (path, term) :: rest =>
      match value? term with
      | none => none
      | some value =>
          match Node.enter? value path rows with
          | none => none
          | some rows => rowsOf? rows rest

end

end Term

/-- Whether a character may stand in a name without quotes. -/
def isBareChar (c : Char) : Bool :=
  (decide ('a' ≤ c) && decide (c ≤ 'z')) || (decide ('A' ≤ c) && decide (c ≤ 'Z')) ||
    Text.isDecimal c || c == '_' || c == '-'

/-- One name of a key and the rest. -/
def readName? (cs : List Char) : Option (String × List Char) :=
  match cs with
  | '"' :: rest => (readBasic? rest).map fun quote => (String.ofList quote.1, quote.2)
  | '\'' :: rest => (readLiteral? rest).map fun quote => (String.ofList quote.1, quote.2)
  | cs =>
      match cs.takeWhile isBareChar with
      | [] => none
      | name => some (String.ofList name, cs.dropWhile isBareChar)

/-- A key of at most a given number of names, without the gaps around its dots and
after it, and the rest. -/
def readNames? : Nat → List Char → Option (List String × List Char)
  | 0, _ => none
  | most + 1, cs =>
      match readName? cs with
      | none => none
      | some (name, rest) =>
          match skipGap rest with
          | '.' :: rest =>
              (readNames? most (skipGap rest)).map fun key => (name :: key.1, key.2)
          | rest => some ([name], rest)

/-- How many names a key may have, and how deep values may stand in each other. -/
def depthLimit : Nat := 80

/-- A key and the rest. -/
def readKey? (cs : List Char) : Option (List String × List Char) :=
  readNames? depthLimit cs

mutual

/-- A term, which holds at most `depth` levels of lists and tables, and the rest. -/
def readTerm? : Nat → Nat → List Char → Option (Term × List Char)
  | 0, _, _ => none
  | fuel + 1, depth, cs =>
      match cs with
      | '[' :: rest =>
          match depth with
          | 0 => none
          | depth + 1 =>
              (readItems? fuel depth rest).map fun found => (.list found.1, found.2)
      | '\x7b' :: rest =>
          match depth with
          | 0 => none
          | depth + 1 =>
              (readEntries? fuel depth rest).map fun found => (.inline found.1, found.2)
      | c :: rest =>
          if c = '"' ∨ c = '\'' then
            (readQuoted? (c :: rest)).map fun quote =>
              (.scalar (.text (String.ofList quote.1)), quote.2)
          else (readScalar? (c :: rest)).map fun found => (.scalar found.1, found.2)
      | [] => none

/-- The items of a list up to its closing bracket, and the rest. -/
def readItems? : Nat → Nat → List Char → Option (List Term × List Char)
  | 0, _, _ => none
  | fuel + 1, depth, cs =>
      match skipSpace? false cs with
      | none => none
      | some (']' :: rest) => some ([], rest)
      | some start =>
          match readTerm? fuel depth start with
          | none => none
          | some (term, rest) =>
              match skipSpace? false rest with
              | some (',' :: rest) =>
                  (readItems? fuel depth rest).map fun found => (term :: found.1, found.2)
              | some (']' :: rest) => some ([term], rest)
              | _ => none

/-- The entries of a table up to its closing brace, and the rest. -/
def readEntries? : Nat → Nat → List Char → Option (List (List String × Term) × List Char)
  | 0, _, _ => none
  | fuel + 1, depth, cs =>
      match skipSpace? false cs with
      | none => none
      | some ('\x7d' :: rest) => some ([], rest)
      | some start =>
          match readKey? start with
          | some (path, '=' :: rest) =>
              match readTerm? fuel depth (skipGap rest) with
              | none => none
              | some (term, rest) =>
                  match skipSpace? false rest with
                  | some (',' :: rest) =>
                      (readEntries? fuel depth rest).map fun found =>
                        ((path, term) :: found.1, found.2)
                  | some ('\x7d' :: rest) => some ([(path, term)], rest)
                  | _ => none
          | _ => none

end

end GitTutor.Toml
