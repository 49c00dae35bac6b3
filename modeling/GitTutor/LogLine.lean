import GitTutor.LogLevel
import GitTutor.Text.Blank

/-!
# Log lines

An event becomes one line. On the console it may be in colour and carries no
time; in a file it carries the time and the part of the program it comes from.
-/

namespace GitTutor.LogLine

open Text

/-- The name of a severity, right-aligned. -/
def severityName : Severity → String
  | .info => " INFO"
  | .debug => "DEBUG"
  | .trace => "TRACE"

/-- The number that selects the colour of a severity. -/
def severityCode : Severity → String
  | .info => "32"
  | .debug => "34"
  | .trace => "35"

/-- A text between the sequences that start and end a style. -/
def styled (color : Bool) (code text : String) : String :=
  if color then "\x1b[" ++ code ++ "m" ++ text ++ "\x1b[0m" else text

/-- The message of an event and its fields. -/
def body (color : Bool) (e : Event) : String :=
  e.message ++ String.join (e.fields.map fun field =>
    " " ++ styled color "3" field.1 ++ styled color "2" "=" ++ field.2)

/-- The line of an event on the console. -/
def console (color : Bool) (e : Event) : String :=
  styled color (severityCode e.severity) (severityName e.severity) ++ " " ++ body color e

/-- The line of an event in a file. -/
def file (stamp : String) (e : Event) : String :=
  stamp ++ " " ++ severityName e.severity ++ " " ++ e.origin.text ++ ": " ++ body false e

/-- Lines, each with its line end. -/
def ended (lines : List String) : String :=
  String.join (lines.map (· ++ "\n"))

/-- The lines of the events that a level lets through. -/
def text (level : LogLevel) (line : Event → String) (events : List Event) : String :=
  ended ((events.filter level.admits).map line)

end GitTutor.LogLine
