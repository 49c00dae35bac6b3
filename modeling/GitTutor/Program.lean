import GitTutor.Arguments.Reader
import GitTutor.Config.Listing
import GitTutor.Config.Source
import GitTutor.Entropy.Seeded
import GitTutor.LogLine
import GitTutor.Script
import GitTutor.Shell

/-!
# The program

One invocation, as a function of its arguments and surroundings. All tasks but
the interactive session are over once they are started; the session then goes on
line by line. The main definition is `Program.run`, which gives the outcome of a
whole invocation whose input is known from the start.
-/

namespace GitTutor

open Text

/-- What an invocation finds around it. -/
structure Surroundings where
  bindings : List (String × String)
  files : Files
  /-- The library that loads configurations. -/
  library : Config.Library
  /-- The library that paints texts. -/
  painter : Painter
  /-- What is found at each path after a log file was opened. -/
  openLog : FilePath → Except LogFailure Files
  /-- The time that is written on entries and log lines. -/
  stamp : String
  /-- Where a session draws from when no seed is configured. -/
  randomSeed : UInt64
  /-- Whether the output goes to a terminal. -/
  onTerminal : Bool

/-- What an invocation leaves behind. -/
structure Outcome where
  exit : Nat
  out : String
  err : String
  /-- The path of the log file and what is appended to it. -/
  log : Option (FilePath × String)
  deriving DecidableEq, Repr

namespace Program

/-- The name and the version of the program. -/
def versionLine : String := "gitsim 0.1.0"

/-- The summary of the arguments. -/
def usageText : String :=
  "Usage: gitsim [OPTIONS] [COMMAND]\n\n" ++
  "Commands: version, options, inis, repl, run, help"

/-- The configuration file that is used when it is there. -/
def localFile : FilePath := .ofText "gitsim.toml"

/-- The first word in the names of environment variables. -/
def variableStart : String := "GITSIM"

/-- The sources of the configuration. -/
def sources (a : Arguments) : List Config.Source :=
  .optionalFile localFile :: a.configs.map .file

/-- What the configuration is made from. -/
def recipe (s : Surroundings) (a : Arguments) : Config.Recipe where
  sources := sources a
  environment := s.library.environmentRows variableStart s.bindings
  overrides := a.overrides

/-- An outcome that only prints. -/
def prints (text : String) : Outcome :=
  ⟨0, text, "", none⟩

/-- An outcome that only reports a failure. -/
def fails (exit : Nat) (text : String) : Outcome :=
  ⟨exit, "", text ++ "\n", none⟩

/-- The outcome of arguments that are not carried out. -/
def refusal : UsageError → Outcome
  | .displayHelp => prints (usageText ++ "\n")
  | .displayVersion => prints (versionLine ++ "\n")
  | e => fails e.exitCode usageText

/-- The outcome of a program that breaks off: it is stopped by a signal. Of its report only the
message is kept. -/
def breaksOff (c : Config) : Outcome where
  exit := 134
  out := ""
  err := "Formatting argument out of range\n"
  log := c.logging.path.map fun path => (path.displayed, "")

/-- The text of a failure that ends the program. -/
def fatal (text : String) : String :=
  "fatal error: " ++ text

/-- The outcome of a task that printed a text, noted events and may have failed. -/
def conclude (c : Config) (stamp : String) (out : String) (events : List Event)
    (failure : Option String) : Outcome where
  exit := if failure.isSome then 1 else 0
  out := out
  err :=
    LogLine.text c.logging.console (LogLine.console c.terminal.color) events ++
      LogLine.ended (failure.map ("Error: " ++ ·)).toList
  log := c.logging.path.map fun path =>
    (path.displayed, LogLine.text c.logging.file (LogLine.file stamp) events)

/-- The terminal of a session: in colour only if that is wanted and possible. -/
def terminal (s : Surroundings) (c : Config) : Terminal :=
  { c.terminal with
    color := c.terminal.color && s.onTerminal
    painter := s.painter }

/-- A session before its first line. -/
def session (s : Surroundings) (c : Config) : Session Seeded :=
  Session.start c.settings (Seeded.ofSeed ((c.seed.map UInt64.ofNat).getD s.randomSeed))

/-- The lines of a run. -/
def linesOf (files : Files) (r : RunRequest) : Except ScriptError (List String) :=
  match r.script with
  | some path => Script.load files path
  | none => .ok r.lines

/-- The event of a script that was read. -/
def loadedEvents (r : RunRequest) (lines : List String) : List Event :=
  (r.script.map fun path =>
    Event.mk .debug .run "loaded script"
      [("path", path.display), ("commands", Nat.repr lines.length)]).toList

/-- The event at the end of a run. -/
def finishedEvent (lines : List String) (errors : Nat) : Event :=
  ⟨.info, .run, "run finished",
    [("commands", Nat.repr lines.length), ("errors", Nat.repr errors)]⟩

/-- The events of executing lines. -/
def eventsOf {σ : Type} [Entropy σ] (s : Session σ) : List String → List Event
  | [] => []
  | line :: rest => Journal.ofLine s line ++ eventsOf (s.execute line) rest

/-- The outcome of a run. -/
def runScript (s : Surroundings) (files : Files) (c : Config) (r : RunRequest) : Outcome :=
  match linesOf files r with
  | .error e => conclude c s.stamp "" [] (some (joinWith ": " e.chain))
  | .ok lines =>
      let first := session s c
      let last := Script.execute first lines
      let errors := errorCount last.transcript
      conclude c s.stamp
        (Script.report (terminal s c) r.json s.stamp last.transcript)
        (loadedEvents r lines ++ eventsOf first lines ++ [finishedEvent lines errors])
        (if r.failOnError ∧ 0 < errors then
          some (fatal (Nat.repr errors ++ " of " ++ Nat.repr lines.length ++
            " command(s) reported an error"))
        else none)

/-- How an invocation starts. -/
inductive Start
  | done (outcome : Outcome)
  /-- An interactive session, with or without its first line. -/
  | session (config : Config) (noBanner : Bool)

/-- Carry out a task under a configuration, given what is found at each path. -/
def startTask (s : Surroundings) (files : Files) (c : Config) : Option Task → Start
  | none => .session c false
  | some (.repl noBanner) => .session c noBanner
  | some (.run r) => .done (runScript s files c r)
  | some .options =>
      match c.listing? with
      | some lines => .done (conclude c s.stamp (LogLine.ended lines) [] none)
      | none => .done (breaksOff c)
  | some .version => .done (prints (versionLine ++ "\n"))
  | some .inis => .done (prints "")

/-- What is found at each path once the log file, if there is one, is open. -/
def filesAfterLog (s : Surroundings) (c : Config) : Except LogFailure Files :=
  match c.logging.path with
  | none => .ok s.files
  | some path => s.openLog path.displayed

/-- The configuration of a task. The version and the list of sources need none. -/
def configuration? (s : Surroundings) (a : Arguments) : Option (Except Config.Failure Config) :=
  match a.task with
  | some .version => none
  | some .inis => none
  | _ => some ((recipe s a).load s.library s.files)

/-- Open the log of a configuration and carry out a task. -/
def startConfigured (s : Surroundings) (c : Config) (task : Option Task) : Start :=
  match filesAfterLog s c with
  | .error e => .done (fails 1 ("Failed to initialize logging: " ++ e.message))
  | .ok files => startTask s files c task

/-- The outcome of a task without a configuration. -/
def printed (s : Surroundings) (a : Arguments) : Outcome :=
  match a.task with
  | some .inis => prints (LogLine.ended (Config.listSources s.files (sources a)))
  | _ => prints (versionLine ++ "\n")

/-- Start an invocation. -/
def start (s : Surroundings) (words : List String) : Start :=
  match Arguments.ofWords words with
  | .error e => .done (refusal e)
  | .ok a =>
      match configuration? s a with
      | none => .done (printed s a)
      | some (.error e) => .done (fails 1 ("Failed to load config: " ++ e.message))
      | some (.ok c) => startConfigured s c a.task

/-- The first line of a session, unless it is not wanted. -/
def greeting (noBanner : Bool) : String :=
  if noBanner then "" else Shell.banner ++ "\n"

/-- The event at the start of a session. -/
def openingEvent (s : Session Seeded) : Event :=
  ⟨.info, .shell, "session started", [("branch", s.repository.current)]⟩

/-- The event at the end of a session. -/
def closingEvent (s : Session Seeded) : Event :=
  ⟨.info, .shell, "session ended",
    [("commands", Nat.repr s.transcript.length),
     ("errors", Nat.repr (errorCount s.transcript))]⟩

/-- What a session whose input is known from the start leaves behind. -/
def runSession (s : Surroundings) (c : Config) (noBanner : Bool) (input : List UInt8) :
    Outcome :=
  let t := terminal s c
  let first := session s c
  let result := Shell.run t first input
  let events := Shell.eventsOfLines t first (streamLines input)
  conclude c s.stamp (greeting noBanner ++ result.out)
    (openingEvent first :: events ++
      if result.readable then [closingEvent result.session] else [])
    (if result.readable then none else some ReadFailure.notText.message)

/-- The outcome of an invocation. -/
def run (s : Surroundings) (words : List String) (input : List UInt8) : Outcome :=
  match start s words with
  | .done outcome => outcome
  | .session c noBanner => runSession s c noBanner input

end Program

end GitTutor
