import GitTutor.Config.Value
import GitTutor.Text.Blank
import GitTutor.Text.Count

/-!
# Key paths

A key path leads from the top of a configuration to one of its places: a name,
then names after dots and positions in brackets. Positions below zero count from
the end of a list. Writing at a path makes the tables and lists on the way.
-/

namespace GitTutor.Config

open Text

/-- One step below the top. -/
inductive PathStep
  | key (name : String)
  | position (index : Int)
  deriving DecidableEq, Repr

/-- A name at the top and the steps below it. -/
structure KeyPath where
  root : String
  steps : List PathStep
  deriving DecidableEq, Repr

namespace KeyPath

/-- Whether a character may stand in a name of a path. -/
def isNameChar (c : Char) : Bool :=
  (decide ('a' ≤ c) && decide (c ≤ 'z')) || (decide ('A' ≤ c) && decide (c ≤ 'Z')) ||
    isDecimal c || c == '_' || c == '-'

/-- A non-empty name and the text after it. -/
def readName? (cs : List Char) : Option (String × List Char) :=
  let name := cs.takeWhile isNameChar
  if name = [] then none else some (String.ofList name, cs.dropWhile isNameChar)

/-- A position up to its closing bracket, with blanks around it, and the text
after the bracket. -/
def readPosition? (cs : List Char) : Option (Int × List Char) :=
  let isGap := fun c => c == ' ' || c == '\t'
  let body := cs.dropWhile isGap
  let (negative, digits) := match body with
    | '-' :: rest => (true, rest)
    | rest => (false, rest)
  match readDigits? (digits.takeWhile isDecimal) with
  | none => none
  | some n =>
      let index := if negative then -Int.ofNat n else Int.ofNat n
      match (digits.dropWhile isDecimal).dropWhile isGap with
      | ']' :: rest => if isInteger index then some (index, rest) else none
      | _ => none

/-- The steps of a path up to the end of the text. -/
def readSteps? : Nat → List Char → Option (List PathStep)
  | _, [] => some []
  | fuel + 1, '.' :: rest =>
      match readName? rest with
      | some (name, rest) => (readSteps? fuel rest).map (PathStep.key name :: ·)
      | none => none
  | fuel + 1, '[' :: rest =>
      match readPosition? rest with
      | some (index, rest) => (readSteps? fuel rest).map (PathStep.position index :: ·)
      | none => none
  | _, _ => none

/-- Read a text as a path. -/
def ofText? (text : String) : Option KeyPath :=
  match readName? text.toList with
  | some (root, rest) => (readSteps? rest.length rest).map fun steps => ⟨root, steps⟩
  | none => none

end KeyPath

namespace Value

/-- A list in which the item at a position exists; unset items fill the gap. The
result is the list and the position counted from its start. -/
def reach (items : List Value) (index : Int) : List Value × Nat :=
  if 0 ≤ index then
    (items ++ List.replicate (index.toNat + 1 - items.length) .unset, index.toNat)
  else
    let back := (-index).toNat
    if back ≤ items.length then (items, items.length - back)
    else (List.replicate (back - items.length) .unset ++ items, 0)

/-- Change the value at the end of some steps. -/
def change (f : Value → Value) : List PathStep → Value → Value
  | [], v => f v
  | .key name :: rest, v =>
      .table (Rows.assign name (change f rest (look v.rows name)) v.rows)
  | .position index :: rest, v =>
      let room := reach v.items index
      .list (room.1.modify room.2 (change f rest))

/-- Lay a value over the place that a path leads to. -/
def put (path : KeyPath) (value : Value) (rows : Rows Value) :
    Rows Value :=
  Rows.assign path.root
    (change (fun old => overlay old value) path.steps (look rows path.root)) rows

/-- Lay a source over what earlier sources gave. A name at the top of a source is
taken as a path if it reads as one. -/
def putSource (rows : Rows Value) (source : Rows Value) :
    Rows Value :=
  source.foldl (fun rows row => put ((KeyPath.ofText? row.1).getD ⟨row.1, []⟩) row.2 rows) rows

end Value

end GitTutor.Config
