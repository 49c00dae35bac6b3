import GitTutor.FilePath
import GitTutor.LogLevel

/-!
# Arguments of the program

The arguments of one invocation: options that apply to every task, and the task
itself. Options turn into overrides of the configuration; those with an option
of their own come after the free ones, so that they win.
-/

namespace GitTutor

/-- What `run` is asked to do. -/
structure RunRequest where
  lines : List String
  script : Option FilePath
  json : Bool
  failOnError : Bool
  deriving DecidableEq, Repr

/-- What the program is asked to do. -/
inductive Task
  | version
  | options
  | inis
  | repl (noBanner : Bool)
  | run (request : RunRequest)
  deriving DecidableEq, Repr

/-- The arguments of one invocation; without a task an interactive session starts. -/
structure Arguments where
  configs : List FilePath
  level : Option LogLevel
  fileLevel : Option LogLevel
  logFile : Option FilePath
  options : List String
  noColor : Bool
  task : Option Task
  deriving DecidableEq, Repr

namespace Arguments

/-- An override that gives a log level. -/
def levelOverride (key : String) (level : LogLevel) : String :=
  key ++ "=" ++ Nat.repr level.toNat

/-- The overrides of the configuration. The level of the console is also that of
the file unless the file has its own. The path of the log file is given as it is
shown. -/
def overrides (a : Arguments) : List String :=
  a.options ++
  (a.level.map (levelOverride "global.output_log_level")).toList ++
  ((a.fileLevel.or a.level).map (levelOverride "global.file_log_level")).toList ++
  (a.logFile.map fun path => "global.log_file=" ++ path.display).toList ++
  (if a.noColor then ["terminal.color=false"] else [])

end Arguments

/-- Why arguments are not carried out. -/
inductive UsageError
  | displayHelp
  | displayVersion
  | unknownArgument
  | invalidValue
  | valueValidation
  | argumentConflict
  | missingRequiredArgument
  | tooManyValues
  | invalidSubcommand
  deriving DecidableEq, Repr

/-- The exit code; help and version are not failures. -/
def UsageError.exitCode : UsageError → Nat
  | .displayHelp => 0
  | .displayVersion => 0
  | _ => 2

end GitTutor
