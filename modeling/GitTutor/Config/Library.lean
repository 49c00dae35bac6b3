import GitTutor.Config.Environment
import GitTutor.Config.KeyPath

/-!
# The library behind configurations

Sources are collected and values are read by a library. What loading takes from it
is a parameter: the readings of values and variables, and the orders in which the
entries of its maps are taken. `Library.standard` is the library that is used.
-/

namespace GitTutor.Config

/-- What loading takes from the library that collects sources and reads values. -/
structure Library where
  /-- A value as a text. -/
  text? : Value → Option String
  /-- A value as a count of 64 bits. -/
  count? : Value → Option Nat
  /-- A value as a number of one byte. -/
  byte? : Value → Option Nat
  /-- A value as a truth value. -/
  truth? : Value → Option Bool
  /-- The value that the text of a variable gives. -/
  ofVariable : String → Value
  /-- The key that a variable of some name stands for, if the name starts with a word. -/
  variableKey? : String → String → Option String
  /-- The order in which the rows of a source are taken. Sources are numbered, since two of
  them may have the same rows in different orders. -/
  arrangeRows : Nat → Rows Value → Rows Value
  /-- The order in which overrides are taken. -/
  arrangeOverrides : List (KeyPath × String) → List (KeyPath × String)

/-- Entries as a map holds them: of several with one key the last counts. -/
def lastOf {κ β : Type} [DecidableEq κ] : List (κ × β) → List (κ × β)
  | [] => []
  | entry :: rest => if entry.1 ∈ rest.map Prod.fst then lastOf rest else entry :: lastOf rest

namespace Library

/-- The library that is used, with rows and overrides in the order in which they were written. -/
def standard : Library where
  text? := Value.asText?
  count? := Value.asCount? Text.wordBound
  byte? := Value.asByte?
  truth? := Value.asTruth?
  ofVariable := Value.ofVariable
  variableKey? := Config.variableKey?
  arrangeRows _ rows := rows
  arrangeOverrides overrides := overrides

variable (lib : Library)

/-- The rows of the source with a number as they are taken. -/
def taken (number : Nat) (rows : Rows Value) : Rows Value :=
  lib.arrangeRows number (lastOf rows)

/-- Overrides as they are taken. -/
def takenOverrides (overrides : List (KeyPath × String)) : List (KeyPath × String) :=
  lib.arrangeOverrides (lastOf overrides)

/-- The rows that an environment gives. -/
def environmentRows (start : String) (bindings : List (String × String)) : Rows Value :=
  bindings.filterMap fun v =>
    (lib.variableKey? start v.1).map fun key => (key, lib.ofVariable v.2)

end Library

end GitTutor.Config
