import GitTutor.Journal
import GitTutor.Terminal
import GitTutor.Text.Utf8

/-!
# The interactive shell

The shell reads one line at a time. Blank lines are skipped, lines that start
with a colon and the words `exit` and `quit` address the shell itself, and every
other line is executed in the session. What a line prints is given as text.
-/

namespace GitTutor

open Text

/-- The commands offered as shortcuts. -/
def quickCommands : List String :=
  ["git status", "git branch", "git log --oneline -5", "git config --list"]

/-- What a line can ask of the shell itself. -/
inductive MetaCommand
  | touch (name : Option String)
  | clear
  | history
  /-- List the shortcuts, or run the one with a number counted from one. -/
  | quick (number : Option Nat)
  | help
  | quit
  deriving DecidableEq, Repr

/-- How the shell takes a line. -/
inductive Reading
  /-- The line is for the session. -/
  | command
  | own (request : MetaCommand)
  /-- The line addresses the shell, which does not understand it. -/
  | malformed (message : String)
  deriving DecidableEq, Repr

namespace Reading

/-- Take the number of a shortcut. -/
def ofQuickNumber (word : String) : Reading :=
  match readCount? wordBound word.toList with
  | some n =>
      if 1 ≤ n ∧ n ≤ quickCommands.length then .own (.quick (some n))
      else .malformed "quick command number must be 1-4"
  | none => .malformed "quick command number must be 1-4"

/-- Take the words after a colon. -/
def ofMetaWords (words : List String) : Reading :=
  let name := words.head?.getD ""
  let argument := words[1]?
  if name = "touch" then .own (.touch argument)
  else if name = "clear" then .own .clear
  else if name = "history" then .own .history
  else if name = "quick" then
    match argument with
    | none => .own (.quick none)
    | some word => ofQuickNumber word
  else if name = "help" ∨ name = "h" ∨ name = "?" then .own .help
  else if name = "quit" ∨ name = "q" ∨ name = "exit" then .own .quit
  else .malformed ("unknown session command ':" ++ name ++ "', try :help")

/-- Take a line. -/
def ofLine (line : String) : Reading :=
  let text := trimmed line
  if text = "exit" ∨ text = "quit" then .own .quit
  else match text.toList with
    | ':' :: rest => ofMetaWords (wordsOf (String.ofList rest))
    | _ => .command

end Reading

namespace Shell

/-- The first line of an interactive session. -/
def banner : String :=
  "Git simulator: try `git status`, or `:help` for session commands."

/-- The answer to a request for help. -/
def helpText : String :=
  "Session commands:\n" ++
  "  :touch [name]   create a modified file (random name if omitted)\n" ++
  "  :clear          clear the transcript (repository is kept)\n" ++
  "  :history        list commands run so far\n" ++
  "  :quick [N]      list quick commands, or run the Nth one\n" ++
  "  :help           show this help\n" ++
  "  :quit, exit     leave the session\n" ++
  "\n" ++
  "Supported git commands:\n" ++
  "  config init status branch checkout add commit log merge\n" ++
  "  pull push clone stash rebase cherry-pick --version"

variable {σ : Type} [Entropy σ]

/-- The session after a line, what the line printed, and whether it was the last. -/
structure Turn (σ : Type) where
  session : Session σ
  out : String
  quit : Bool

/-- A turn that prints one line of text. -/
def speak (session : Session σ) (text : String) : Turn σ :=
  ⟨session, text ++ "\n", false⟩

/-- What the newest entry of a session prints. -/
def newestOutput (t : Terminal) (s : Session σ) : String :=
  match s.transcript.getLast?.bind t.output? with
  | some text => text ++ "\n"
  | none => ""

/-- Execute a line and print its output. -/
def execute (t : Terminal) (s : Session σ) (line : String) : Turn σ :=
  let next := s.execute line
  ⟨next, newestOutput t next, false⟩

/-- Carry out a request to the shell itself. -/
def answer (t : Terminal) (s : Session σ) : MetaCommand → Turn σ
  | .touch name =>
      let next := s.touch name
      speak next (t.note ((next.transcript.getLast?.map Entry.output).getD ""))
  | .clear => speak s.clear (t.note "Transcript cleared.")
  | .history => speak s (t.history s.transcript)
  | .quick none => speak s (t.choices quickCommands)
  | .quick (some n) =>
      let command := quickCommands.getD (n - 1) ""
      let turn := execute t s command
      { turn with out := t.prompt ++ command ++ "\n" ++ turn.out }
  | .help => speak s helpText
  | .quit => ⟨s, "", true⟩

/-- Handle one line. -/
def handle (t : Terminal) (s : Session σ) (line : String) : Turn σ :=
  let text := trimmed line
  if text = "" then ⟨s, "", false⟩
  else match Reading.ofLine text with
    | .own request => answer t s request
    | .malformed message => speak s (t.note message)
    | .command => execute t s text

/-- The outcome of a whole input. -/
structure Result (σ : Type) where
  session : Session σ
  out : String
  /-- Whether every line that was read was well-formed text. -/
  readable : Bool

/-- Handle the lines of an input until it ends, a line asks to quit or a line is
malformed. The prompt is printed before every line and before the end. -/
def runLines (t : Terminal) (s : Session σ) : List (List UInt8) → Result σ
  | [] => ⟨s, t.prompt ++ "\n", true⟩
  | bytes :: rest =>
      match decode? bytes with
      | none => ⟨s, t.prompt, false⟩
      | some line =>
          let turn := handle t s line
          if turn.quit then ⟨turn.session, t.prompt ++ turn.out, true⟩
          else
            let result := runLines t turn.session rest
            { result with out := t.prompt ++ turn.out ++ result.out }

/-- Handle a whole input. -/
def run (t : Terminal) (s : Session σ) (input : List UInt8) : Result σ :=
  runLines t s (streamLines input)

/-- A request to the shell as a log line shows it. -/
def requestText : MetaCommand → String
  | .touch none => "Touch(None)"
  | .touch (some name) => "Touch(Some(" ++ quotedForLog name ++ "))"
  | .clear => "Clear"
  | .history => "History"
  | .quick none => "Quick(None)"
  | .quick (some n) => "Quick(Some(" ++ Nat.repr n ++ "))"
  | .help => "Help"
  | .quit => "Quit"

/-- The events of handling one line. -/
def events (s : Session σ) (line : String) : List Event :=
  let text := trimmed line
  if text = "" then []
  else match Reading.ofLine text with
    | .malformed _ => []
    | .command => Journal.ofLine s text
    | .own request =>
        Event.mk .debug .shell "session command" [("meta", requestText request)] ::
          match request with
          | .quick (some n) => Journal.ofLine s (quickCommands.getD (n - 1) "")
          | _ => []

/-- The events of a whole input. -/
def eventsOfLines (t : Terminal) (s : Session σ) : List (List UInt8) → List Event
  | [] => []
  | bytes :: rest =>
      match decode? bytes with
      | none => []
      | some line =>
          let turn := handle t s line
          if turn.quit then events s line
          else events s line ++ eventsOfLines t turn.session rest

end Shell

end GitTutor
