import GitTutor.Arguments.Form
import GitTutor.Text.Count

/-!
# Reading arguments

Options for every task come first, then the name of the task and what belongs to
it. The main definition is `Arguments.ofWords`.
-/

namespace GitTutor.Arguments

open Text

/-- Options for every task. -/
inductive SharedOption
  | config
  | level
  | fileLevel
  | logFile
  | set
  | noColor
  | help
  | version
  deriving DecidableEq, Repr

/-- Options of an interactive session. -/
inductive ReplOption
  | noBanner
  | help
  deriving DecidableEq, Repr

/-- Options of a run. -/
inductive RunOption
  | script
  | json
  | failOnError
  | help
  deriving DecidableEq, Repr

/-- Options of the tasks that have none of their own. -/
inductive HelpOption
  | help
  deriving DecidableEq, Repr

/-- A log level as an option gives it. -/
def readLevel? (value : String) : Option LogLevel :=
  (readInteger? value.toList).bind fun n =>
    if 0 ≤ n then LogLevel.ofNat? n.toNat else none

/-- A level must be readable. -/
def checkLevel (value : String) : Except UsageError Unit :=
  if (readLevel? value).isSome then .ok () else .error .valueValidation

/-- A path must not be empty. -/
def checkPath (value : String) : Except UsageError Unit :=
  if value = "" then .error .invalidValue else .ok ()

/-- The form of the options for every task. -/
def sharedForm : Form SharedOption where
  named? name :=
    if name = "config" then some .config
    else if name = "log-level" then some .level
    else if name = "file-log-level" then some .fileLevel
    else if name = "log-file" then some .logFile
    else if name = "set" then some .set
    else if name = "no-color" then some .noColor
    else if name = "help" then some .help
    else if name = "version" then some .version
    else none
  lettered? c :=
    if c = 'c' then some .config
    else if c = 'l' then some .level
    else if c = 's' then some .set
    else if c = 'h' then some .help
    else if c = 'V' then some .version
    else none
  usage
    | .config | .set => .many
    | .level | .fileLevel | .logFile => .once
    | .noColor => .flag
    | .help => .stop .displayHelp
    | .version => .stop .displayVersion
  check
    | .config, value | .logFile, value => checkPath value
    | .level, value | .fileLevel, value => checkLevel value
    | _, _ => .ok ()

/-- The form of a session's options. -/
def replForm : Form ReplOption where
  named? name :=
    if name = "no-banner" then some .noBanner
    else if name = "help" then some .help
    else none
  lettered? c := if c = 'h' then some .help else none
  usage
    | .noBanner => .flag
    | .help => .stop .displayHelp
  check _ _ := .ok ()

/-- The form of a run's options. -/
def runForm : Form RunOption where
  named? name :=
    if name = "script" then some .script
    else if name = "json" then some .json
    else if name = "fail-on-error" then some .failOnError
    else if name = "help" then some .help
    else none
  lettered? c :=
    if c = 'f' then some .script
    else if c = 'h' then some .help
    else none
  usage
    | .script => .once
    | .json | .failOnError => .flag
    | .help => .stop .displayHelp
  check
    | .script, value => checkPath value
    | _, _ => .ok ()

/-- The form of tasks without options. -/
def plainForm : Form HelpOption where
  named? name := if name = "help" then some .help else none
  lettered? c := if c = 'h' then some .help else none
  usage _ := .stop .displayHelp
  check _ _ := .ok ()

/-- The names of the tasks. -/
def taskNames : List String := ["version", "options", "inis", "repl", "run", "help"]

/-- A task without options or words. -/
def readPlainTask (task : Task) (words : List String) : Except UsageError Task :=
  match Progress.readAll plainForm false .start words with
  | .error e => .error e
  | .ok _ => .ok task

/-- An interactive session. -/
def readReplTask (words : List String) : Except UsageError Task :=
  match Progress.readAll replForm false .start words with
  | .error e => .error e
  | .ok p => .ok (.repl (p.isSet .noBanner))

/-- A run: it has lines or a script, and not both. -/
def readRunTask (words : List String) : Except UsageError Task :=
  match Progress.readAll runForm true .start words with
  | .error e => .error e
  | .ok p =>
      match p.words, p.value? .script with
      | [], none => .error .missingRequiredArgument
      | _ :: _, some _ => .error .argumentConflict
      | lines, script =>
          .ok (.run ⟨lines, script.map FilePath.ofText, p.isSet .json, p.isSet .failOnError⟩)

/-- A request for help on a task, or in general. -/
def readHelp : List String → UsageError
  | [] => .displayHelp
  | [name] => if name ∈ taskNames then .displayHelp else .invalidSubcommand
  | _ => .invalidSubcommand

/-- A task from its name and the words after it. -/
def readTask (name : String) (words : List String) : Except UsageError Task :=
  if name = "version" then readPlainTask .version words
  else if name = "options" then readPlainTask .options words
  else if name = "inis" then readPlainTask .inis words
  else if name = "repl" then readReplTask words
  else if name = "run" then readRunTask words
  else if name = "help" then .error (readHelp words)
  else .error .invalidSubcommand

/-- The arguments that shared options and a task make up. -/
def ofProgress (p : Progress SharedOption) (task : Option Task) : Arguments where
  configs := (p.values .config).map FilePath.ofText
  level := (p.value? .level).bind readLevel?
  fileLevel := (p.value? .fileLevel).bind readLevel?
  logFile := (p.value? .logFile).map FilePath.ofText
  options := p.values .set
  noColor := p.isSet .noColor
  task := task

/-- Settle the shared options once the task is known. -/
def finish (p : Progress SharedOption) (task : Option Task) : Except UsageError Arguments :=
  match p.settle sharedForm with
  | .error e => .error e
  | .ok p => .ok (ofProgress p task)

/-- The words after two dashes that stand where a task is expected. No task can
be named there. -/
def afterEscape (p : Progress SharedOption) : List String → Except UsageError Arguments
  | [] => finish p none
  | word :: _ => .error (if word ∈ taskNames then .unknownArgument else .invalidSubcommand)

/-- Read words up to the name of the task, and then the task. A fault in what
belongs to the task counts before an option that is still open. -/
def readShared (p : Progress SharedOption) : List String → Except UsageError Arguments
  | [] => finish p none
  | word :: rest =>
      match Word.of word with
      | .escape => afterEscape p rest
      | .long body =>
          match p.readLong sharedForm body with
          | .error e => .error e
          | .ok p => readShared p rest
      | .short letters =>
          match p.readShort sharedForm letters with
          | .error e => .error e
          | .ok p => readShared p rest
      | .plain =>
          match p.fill? word with
          | some p => readShared p rest
          | none =>
              match readTask word rest with
              | .error e => .error e
              | .ok task => finish p (some task)

/-- Read the arguments of one invocation. -/
def ofWords (words : List String) : Except UsageError Arguments :=
  readShared .start words

end GitTutor.Arguments
