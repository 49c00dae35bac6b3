import GitTutor.Config.Reading
import GitTutor.Decimal.Reader
import GitTutor.Text.Lead

/-!
# Configuration from the environment

Variables whose names start with a given word and an underscore are options.
Letter case does not matter in their names, and two underscores stand for a dot.
Their values are texts that are read as truth values or numbers where possible.
-/

namespace GitTutor.Config

open Text

/-- The value that a variable gives. -/
def Value.ofVariable (text : String) : Value :=
  if caseless text = "true" then .truth true
  else if caseless text = "false" then .truth false
  else
    match readInteger? text.toList with
    | some n => .integer n
    | none =>
        match Binary64.read? text.toList with
        | some x => .number x
        | none => .text text

/-- A text in which every two underscores are replaced by a dot. -/
def dotted : List Char → List Char
  | '_' :: '_' :: rest => '.' :: dotted rest
  | c :: rest => c :: dotted rest
  | [] => []

/-- The key that a variable stands for, if its name starts with `start`. -/
def variableKey? (start name : String) : Option String :=
  (dropLead? ((caseless start).toList ++ ['_']) (caseless name).toList).map fun rest =>
    String.ofList (dotted rest)

end GitTutor.Config
