import GitTutor.Toml.Term

/-!
# TOML documents

A document is a list of statements: declarations of tables and entries. An entry
belongs to the table that was declared last, at first to the top of the
document. The main definition is `Toml.read?`, which gives the rows at the top.
-/

namespace GitTutor.Toml

open Config

/-- What one statement of a document says. -/
inductive Statement
  | table (path : List String)
  /-- Another table of an array of tables. -/
  | item (path : List String)
  | entry (path : List String) (term : Term)

/-- A statement without the gap before it, and the text after it. -/
def readStatement? (cs : List Char) : Option (Statement × List Char) :=
  match cs with
  | '[' :: '[' :: rest =>
      match readKey? (skipGap rest) with
      | some (path, ']' :: ']' :: rest) => some (.item path, rest)
      | _ => none
  | '[' :: rest =>
      match readKey? (skipGap rest) with
      | some (path, ']' :: rest) => some (.table path, rest)
      | _ => none
  | cs =>
      match readKey? cs with
      | some (path, '=' :: rest) =>
          (readTerm? (2 * rest.length + 2) depthLimit (skipGap rest)).map fun found =>
            (.entry path found.1, found.2)
      | _ => none

/-- The statements up to the end of a text. Each one takes at least one
character, so the length of the text bounds their number. -/
def readStatements? : Nat → List Char → Option (List Statement)
  | 0, _ => none
  | fuel + 1, cs =>
      match skipSpace? false cs with
      | none => none
      | some [] => some []
      | some start =>
          match readStatement? start with
          | none => none
          | some (statement, rest) =>
              match finishLine? rest with
              | none => none
              | some rest => (readStatements? fuel rest).map (statement :: ·)

/-- Change the table at the end of a path, where `f` gets its name. -/
def place? (f : String → Rows Node → Option (Rows Node)) (path : List String)
    (rows : Rows Node) : Option (Rows Node) :=
  match path.getLast? with
  | none => none
  | some name => Node.under? path.dropLast (f name) rows

/-- Carry out statements, given the path of the table that was declared last. -/
def build? : List String → Rows Node → List Statement → Option (Rows Node)
  | _, rows, [] => some rows
  | current, rows, .entry path term :: rest =>
      match term.value? with
      | none => none
      | some value =>
          match Node.under? current (Node.enter? value path) rows with
          | none => none
          | some rows => build? current rows rest
  | _, rows, .table path :: rest =>
      match place? Node.declare? path rows with
      | none => none
      | some rows => build? path rows rest
  | _, rows, .item path :: rest =>
      match place? Node.extend? path rows with
      | none => none
      | some rows => build? path rows rest

/-- A text without the byte order mark at its start. -/
def withoutMark : List Char → List Char
  | '\ufeff' :: rest => rest
  | cs => cs

/-- The rows at the top of a document. A byte order mark may precede it. -/
def read? (text : List Char) : Option (Rows Value) :=
  let cs := withoutMark text
  ((readStatements? (cs.length + 1) cs).bind (build? [] [])).map Node.finishedRows

end GitTutor.Toml
