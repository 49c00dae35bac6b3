import GitTutor.Decimal.Binary64
import GitTutor.Rows

/-!
# Configuration values

Every source of configuration gives a tree of values. Sources are laid over each
other: tables are merged name by name and everything else is replaced.
-/

namespace GitTutor.Config

/-- A value as a source of configuration gives it. -/
inductive Value
  /-- A place that was made room for but not written. -/
  | unset
  | truth (b : Bool)
  | integer (n : Int)
  | number (x : Binary64)
  | text (s : String)
  | list (items : List Value)
  | table (rows : List (String × Value))

namespace Value

/-- The rows of a table; any other value has none. -/
def rows : Value → Rows Value
  | table rows => rows
  | _ => []

/-- The items of a list; any other value has none. -/
def items : Value → List Value
  | list items => items
  | _ => []

/-- The value of a name among rows, unset if there is none. -/
def look (rows : Rows Value) (name : String) : Value :=
  (Rows.find? rows name).getD .unset

mutual

/-- Lay a value over another one. -/
def overlay (base : Value) : Value → Value
  | table rows => table (overlayRows base.rows rows)
  | unset => unset
  | truth b => truth b
  | integer n => integer n
  | number x => number x
  | text s => text s
  | list items => list items

/-- Lay rows over others, one after the other. -/
def overlayRows (base : Rows Value) : List (String × Value) → Rows Value
  | [] => base
  | (name, value) :: rest =>
      overlayRows (Rows.assign name (overlay (look base name) value) base) rest

end

end Value

end GitTutor.Config
