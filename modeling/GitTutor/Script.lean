import GitTutor.Files
import GitTutor.Terminal
import GitTutor.Text.Quoted

/-!
# Scripts and their results

A script holds one command line per line of text; blank lines and lines that
start with `#` are left out. After a run the transcript is shown as on a
terminal, or written as JSON.
-/

namespace GitTutor

open Text

namespace Script

/-- Whether a trimmed line of a script is a command line. -/
def isCommandLine (line : List Char) : Bool :=
  match line with
  | [] => false
  | c :: _ => c != '#'

/-- The command lines of a script, each without the blanks around it. -/
def commandLines (text : List Char) : List (List Char) :=
  ((textLines text).map trim).filter isCommandLine

/-- The command lines of a script. -/
def lines (text : String) : List String :=
  (commandLines text.toList).map String.ofList

/-- The session after executing lines in order. -/
def execute {σ : Type} [Entropy σ] (s : Session σ) (lines : List String) : Session σ :=
  lines.foldl Session.execute s

@[simp] theorem execute_nil {σ : Type} [Entropy σ] (s : Session σ) : execute s [] = s := rfl

@[simp] theorem execute_cons {σ : Type} [Entropy σ] (s : Session σ) (line : String)
    (rest : List String) : execute s (line :: rest) = execute (s.execute line) rest := by
  rw [execute, execute, List.foldl_cons]

/-- One entry as a JSON object, at the second level of indentation. -/
def entryJson (stamp : String) (e : Entry) : String :=
  "  \x7b\n" ++
  "    \"command\": " ++ jsonString e.command ++ ",\n" ++
  "    \"output\": " ++ jsonString e.output ++ ",\n" ++
  "    \"is_error\": " ++ (if e.isError then "true" else "false") ++ ",\n" ++
  "    \"timestamp\": " ++ jsonString stamp ++ "\n" ++
  "  \x7d"

/-- A transcript as JSON; every entry carries the given time. -/
def transcriptJson (stamp : String) (entries : List Entry) : String :=
  if entries.isEmpty then "[]"
  else "[\n" ++ joinWith ",\n" (entries.map (entryJson stamp)) ++ "\n]"

/-- What a run prints at its end. -/
def report (t : Terminal) (json : Bool) (stamp : String) (entries : List Entry) : String :=
  if json then transcriptJson stamp entries ++ "\n"
  else if entries.isEmpty then ""
  else t.transcript entries ++ "\n"

end Script

/-- Why a script cannot be run. -/
inductive ScriptError
  | unreadable (path : FilePath) (cause : ReadFailure)
  | empty (path : FilePath)
  deriving DecidableEq, Repr

/-- The text that reports a script error. -/
def ScriptError.message : ScriptError → String
  | .unreadable path cause => "failed to read script '" ++ path.display ++ "': " ++ cause.message
  | .empty path => "script '" ++ path.display ++ "' contains no commands"

/-- The text that reports a script error to whoever started the run. -/
def ScriptError.report (e : ScriptError) : String :=
  "script error: " ++ e.message

/-- A report with its causes, outermost first. -/
def ScriptError.chain (e : ScriptError) : List String :=
  [e.report, e.message] ++
    match e with
    | .unreadable _ cause => [cause.message]
    | .empty _ => []

/-- The command lines of the script at a path. -/
def Script.load (files : Files) (path : FilePath) : Except ScriptError (List String) :=
  match files path with
  | .error cause => .error (.unreadable path cause)
  | .ok bytes =>
      match decode? bytes with
      | none => .error (.unreadable path .notText)
      | some text =>
          match Script.lines text with
          | [] => .error (.empty path)
          | lines => .ok lines

end GitTutor
