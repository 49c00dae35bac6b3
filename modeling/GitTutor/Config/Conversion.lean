import GitTutor.Config
import GitTutor.Config.Library

/-!
# From values to a configuration

Each option is read from its value as a library reads it. A section that is not
given keeps its standard values, and so does an option that a section leaves out.
Nothing may be given that is not an option.
-/

namespace GitTutor.Config

open Text

namespace Value

/-- A value that may be left open. -/
def optionally? {α : Type} (read : Value → Option α) : Value → Option (Option α)
  | unset => some none
  | v => (read v).map some

/-- The rows of a section with given options. A list gives the options in their
order. -/
def asSection? (options : List String) : Value → Option (Rows Value)
  | table rows => if rows.all fun row => options.contains row.1 then some rows else none
  | list items => some (options.zip items)
  | _ => none

end Value

namespace Library

variable (lib : Library)

/-- A value as a log level: a number of one byte that is one. -/
def level? (v : Value) : Option LogLevel :=
  (lib.byte? v).bind LogLevel.ofNat?

/-- A value as a path, which is given as a text. -/
def path? (v : Value) : Option FilePath :=
  (lib.text? v).map FilePath.ofText

/-- A value as rows of texts. -/
def texts? : Value → Option (Table String)
  | .table rows =>
      (rows.mapM fun row => (lib.text? row.2).map fun s => (row.1, s)).map Table.ofList
  | _ => none

end Library

/-- What a value under a name is read as, or a standard value without one. -/
def given? {α : Type} (rows : Rows Value) (name : String) (standard : α)
    (read : Value → Option α) : Option α :=
  match Rows.find? rows name with
  | none => some standard
  | some v => read v

/-- The rows of a section. -/
def section? (rows : Rows Value) (name : String) (options : List String) : Option (Rows Value) :=
  given? rows name [] (Value.asSection? options)

/-- The options of the section `global` in their order. -/
def globalOptions : List String := ["output_log_level", "file_log_level", "log_file"]

/-- The options of the section `simulator` in their order. -/
def simulatorOptions : List String :=
  ["initial_branch", "seed_hash", "seed_message", "seed_author", "git_version", "workspace",
   "seed"]

/-- The options of the section `user` in their order. -/
def userOptions : List String := ["name", "email"]

/-- The options of the section `terminal` in their order. -/
def terminalOptions : List String := ["prompt_user", "prompt_host", "prompt_path", "color"]

/-- The sections. -/
def sections : List String := ["global", "simulator", "user", "remotes", "terminal"]

variable (lib : Library)

/-- What is logged, from the rows of its section. -/
def loggingOf? (rows : Rows Value) : Option Logging := do
  let l := standard.logging
  let console ← given? rows "output_log_level" l.console lib.level?
  let file ← given? rows "file_log_level" l.file lib.level?
  let path ← given? rows "log_file" l.path (Value.optionally? lib.path?)
  return ⟨console, file, path⟩

/-- The name and address for commits, from the rows of their section. -/
def userOf? (rows : Rows Value) : Option Identity := do
  let u := standard.settings.user
  let name ← given? rows "name" u.name lib.text?
  let email ← given? rows "email" u.email lib.text?
  return ⟨name, email⟩

/-- The settings of a session, from the rows of its section, the identity and
the remotes. -/
def settingsOf? (rows : Rows Value) (user : Identity) (remotes : Table String) :
    Option Settings := do
  let s := standard.settings
  let initialBranch ← given? rows "initial_branch" s.initialBranch lib.text?
  let seedHash ← given? rows "seed_hash" s.seedHash lib.text?
  let seedMessage ← given? rows "seed_message" s.seedMessage lib.text?
  let seedAuthor ← given? rows "seed_author" s.seedAuthor lib.text?
  let gitVersion ← given? rows "git_version" s.gitVersion lib.text?
  let workspace ← given? rows "workspace" s.workspace lib.text?
  return {
    initialBranch, seedHash, seedMessage, seedAuthor, gitVersion, workspace, user, remotes }

/-- The seed of sessions, from the rows of its section. -/
def seedOf? (rows : Rows Value) : Option (Option Nat) :=
  given? rows "seed" standard.seed (Value.optionally? lib.count?)

/-- The terminal, from the rows of its section. -/
def terminalOf? (rows : Rows Value) : Option TerminalSettings := do
  let t := standard.terminal
  let user ← given? rows "prompt_user" t.user lib.text?
  let host ← given? rows "prompt_host" t.host lib.text?
  let path ← given? rows "prompt_path" t.path lib.text?
  let color ← given? rows "color" t.color lib.truth?
  return ⟨user, host, path, color⟩

/-- The configuration that rows at the top describe. -/
def ofRows? (top : Rows Value) : Option Config := do
  let rows ← Value.asSection? sections (.table top)
  let globalRows ← section? rows "global" globalOptions
  let logging ← loggingOf? lib globalRows
  let simulatorRows ← section? rows "simulator" simulatorOptions
  let userRows ← section? rows "user" userOptions
  let user ← userOf? lib userRows
  let remotes ← given? rows "remotes" standard.settings.remotes lib.texts?
  let settings ← settingsOf? lib simulatorRows user remotes
  let seed ← seedOf? lib simulatorRows
  let terminalRows ← section? rows "terminal" terminalOptions
  let terminal ← terminalOf? lib terminalRows
  return ⟨logging, settings, seed, terminal⟩

end GitTutor.Config
