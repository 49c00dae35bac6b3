import GitTutor.Config.Value

/-!
# Tables under construction

While a TOML text is read, its tables remember how they came about, because that
decides how they may grow: a table is declared once, a dotted key only passes
tables that no declaration names and keeps them from being declared later, and no
name is given two values.
-/

namespace GitTutor.Toml

open Config

/-- How a table came about. -/
inductive Origin
  /-- Made on the way to another table. -/
  | implied
  | declared
  /-- Made or passed by a dotted key. -/
  | dotted
  deriving DecidableEq, Repr

/-- What a name stands for. -/
inductive Node
  | value (v : Value)
  | table (origin : Origin) (rows : List (String × Node))
  /-- An array of tables, newest first. -/
  | tables (items : List (List (String × Node)))

namespace Node

open Rows (find? assign)

/-- Change the rows of the table under a name, which is made if it is missing.
In an array of tables this is the newest table. -/
def descend? (name : String) (f : Rows Node → Option (Rows Node)) (rows : Rows Node) :
    Option (Rows Node) :=
  match find? rows name with
  | none => (f []).map fun below => assign name (.table .implied below) rows
  | some (.table origin old) => (f old).map fun below => assign name (.table origin below) rows
  | some (.tables (newest :: older)) =>
      (f newest).map fun below => assign name (.tables (below :: older)) rows
  | some _ => none

/-- Change the rows of the table at the end of a path. -/
def under? : List String → (Rows Node → Option (Rows Node)) → Rows Node → Option (Rows Node)
  | [], f, rows => f rows
  | name :: path, f, rows => descend? name (under? path f) rows

/-- Declare a table under a name. -/
def declare? (name : String) (rows : Rows Node) : Option (Rows Node) :=
  match find? rows name with
  | none => some (assign name (.table .declared []) rows)
  | some (.table .implied old) => some (assign name (.table .declared old) rows)
  | some _ => none

/-- Start another table of the array under a name. -/
def extend? (name : String) (rows : Rows Node) : Option (Rows Node) :=
  match find? rows name with
  | none => some (assign name (.tables [[]]) rows)
  | some (.tables items) => some (assign name (.tables ([] :: items)) rows)
  | some _ => none

/-- Give a fresh name a value. -/
def define? (name : String) (value : Value) (rows : Rows Node) : Option (Rows Node) :=
  match find? rows name with
  | none => some (assign name (.value value) rows)
  | some _ => none

/-- Give the last name of a dotted key a value. Tables on the way are made, or were
not declared themselves. The newest table of an array may be passed but not
extended. -/
def enter? (value : Value) : List String → Rows Node → Option (Rows Node)
  | [], _ => none
  | [name], rows => define? name value rows
  | name :: next :: path, rows =>
      match find? rows name with
      | none =>
          (enter? value (next :: path) []).map fun below => assign name (.table .dotted below) rows
      | some (.table .declared _) => none
      | some (.table _ old) =>
          (enter? value (next :: path) old).map fun below =>
            assign name (.table .dotted below) rows
      | some (.tables (newest :: older)) =>
          if path = [] then none
          else (enter? value (next :: path) newest).map fun below =>
            assign name (.tables (below :: older)) rows
      | some _ => none

mutual

/-- The finished value of a node. -/
def finished : Node → Value
  | value v => v
  | table _ rows => .table (finishedRows rows)
  | tables items => .list (finishedTables items).reverse

/-- The finished rows of a table. -/
def finishedRows : List (String × Node) → Rows Value
  | [] => []
  | (name, node) :: rest => (name, finished node) :: finishedRows rest

/-- The finished tables of an array, in the same order. -/
def finishedTables : List (List (String × Node)) → List Value
  | [] => []
  | rows :: rest => .table (finishedRows rows) :: finishedTables rest

end

end Node

end GitTutor.Toml
