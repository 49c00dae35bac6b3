import GitTutor.Session

/-!
# The terminal

A terminal has a prompt and may be in colour. Everything here gives text; where
it is printed is decided elsewhere. Colour comes from a painter, a library that gives texts in
tones. `Painter.standard` is the one that is used: it wraps a text between an opening and
a reset sequence and leaves the text itself alone.
-/

namespace GitTutor

open Text

/-- What parts of the output are painted for. -/
inductive Tone
  | host
  | path
  | error
  | muted
  | accent
  deriving DecidableEq, Repr

/-- The numbers that select a tone. -/
def Tone.codes : Tone → String
  | .host => "1;32"
  | .path => "1;34"
  | .error => "31"
  | .muted => "2"
  | .accent => "36"

/-- A library that gives texts in tones. -/
structure Painter where
  inTone : Tone → String → String

namespace Painter

/-- The sequence that starts a tone. -/
def opening (tone : Tone) : String :=
  "\x1b[" ++ tone.codes ++ "m"

/-- The sequence that ends every tone. -/
def reset : String := "\x1b[0m"

/-- Repeat an opening sequence after every reset sequence inside a text. -/
def reopen (start : List Char) : List Char → List Char
  | '\x1b' :: '[' :: '0' :: 'm' :: rest =>
      '\x1b' :: '[' :: '0' :: 'm' :: (start ++ reopen start rest)
  | c :: rest => c :: reopen start rest
  | [] => []

/-- The painter that is used. -/
def standard : Painter where
  inTone tone text :=
    opening tone ++ String.ofList (reopen (opening tone).toList text.toList) ++ reset

end Painter

/-- The texts of the prompt, and whether output is in colour. -/
structure TerminalSettings where
  user : String
  host : String
  path : String
  color : Bool
  deriving DecidableEq, Repr

/-- The prompt without colour. -/
def TerminalSettings.plainPrompt (t : TerminalSettings) : String :=
  t.user ++ "@" ++ t.host ++ ":" ++ t.path ++ "$ "

/-- A terminal and the painter that it has. -/
structure Terminal extends TerminalSettings where
  painter : Painter

namespace Terminal

/-- A text in a tone. -/
def paint (t : Terminal) (tone : Tone) (text : String) : String :=
  if t.color then t.painter.inTone tone text else text

/-- The prompt. -/
def prompt (t : Terminal) : String :=
  t.paint .host (t.user ++ "@" ++ t.host) ++ ":" ++ t.paint .path t.path ++ "$ "

/-- The output of an entry, if it has any. -/
def output? (t : Terminal) (e : Entry) : Option String :=
  if e.output = "" then none
  else some (if e.isError then t.paint .error e.output else e.output)

/-- Whether a command is shown without a prompt. -/
def isComment (command : String) : Bool :=
  command.toList.head? == some '#'

/-- The line that shows the command of an entry. -/
def commandLine (t : Terminal) (command : String) : String :=
  if isComment command then t.paint .muted command else t.prompt ++ command

/-- A whole entry: its command, then its output on the next line. -/
def entry (t : Terminal) (e : Entry) : String :=
  match t.output? e with
  | none => t.commandLine e.command
  | some text => t.commandLine e.command ++ "\n" ++ text

/-- Every entry of a transcript. -/
def transcript (t : Terminal) (entries : List Entry) : String :=
  joinWith "\n" (entries.map t.entry)

/-- A text with spaces in front of it up to a width. -/
def padLeft (width : Nat) (text : String) : String :=
  String.ofList (List.replicate (width - text.length) ' ') ++ text

/-- The lines of the numbered history from a given number on. -/
def historyLines (t : Terminal) (number : Nat) : List Entry → List String
  | [] => []
  | e :: rest =>
      (padLeft 4 (Nat.repr number) ++ (if e.isError then t.paint .error "!" else " ") ++ " " ++
        e.command) :: historyLines t (number + 1) rest

/-- The numbered history of a transcript. -/
def history (t : Terminal) (entries : List Entry) : String :=
  if entries.isEmpty then "No commands yet" else joinWith "\n" (t.historyLines 1 entries)

/-- The lines of a numbered list of commands from a given number on. -/
def choiceLines (t : Terminal) (number : Nat) : List String → List String
  | [] => []
  | command :: rest =>
      ("  " ++ t.paint .accent ("[" ++ Nat.repr number ++ "]") ++ " " ++ command) ::
        choiceLines t (number + 1) rest

/-- A numbered list of commands. -/
def choices (t : Terminal) (commands : List String) : String :=
  joinWith "\n" (t.choiceLines 1 commands)

/-- A remark of the session itself. -/
def note (t : Terminal) (text : String) : String :=
  t.paint .muted text

end Terminal

end GitTutor
