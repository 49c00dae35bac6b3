import GitTutor.Config

/-!
# The listing of options

Every option that is set is listed as one line: its key, padded to a common
width, and its value. The lines are in the order of their keys. A width that is
only known when the program runs must fit into 16 bits; there is no listing
where it does not.
-/

namespace GitTutor.Config

/-- The options that concern logging. -/
def loggingRows (l : Logging) : Rows String :=
  [("global.output_log_level", Nat.repr l.console.toNat),
   ("global.file_log_level", Nat.repr l.file.toNat)] ++
  (l.path.map fun path => ("global.log_file", path.display)).toList

/-- The options that concern the start of a session. -/
def simulatorRows (s : Settings) (seed : Option Nat) : Rows String :=
  [("simulator.initial_branch", s.initialBranch),
   ("simulator.seed_hash", s.seedHash),
   ("simulator.seed_message", s.seedMessage),
   ("simulator.seed_author", s.seedAuthor),
   ("simulator.git_version", s.gitVersion),
   ("simulator.workspace", s.workspace)] ++
  (seed.map fun n => ("simulator.seed", Nat.repr n)).toList

/-- The name and address for commits, if they are not empty. -/
def userRows (user : Identity) : Rows String :=
  [("user.name", user.name), ("user.email", user.email)].filter fun row => row.2 != ""

/-- The remotes. -/
def remoteRows (remotes : Table String) : Rows String :=
  remotes.rows.map fun row => ("remotes." ++ row.1, row.2)

/-- The options that concern the terminal. -/
def terminalRows (t : TerminalSettings) : Rows String :=
  [("terminal.prompt_user", t.user),
   ("terminal.prompt_host", t.host),
   ("terminal.prompt_path", t.path),
   ("terminal.color", if t.color then "true" else "false")]

/-- Every option that is set, with its value. -/
def options (c : Config) : Table String :=
  Table.ofList (loggingRows c.logging ++ simulatorRows c.settings c.seed ++
    userRows c.settings.user ++ remoteRows c.settings.remotes ++ terminalRows c.terminal)

/-- The width of the keys: the greatest number of bytes that one of them takes. -/
def keyWidth (rows : Rows String) : Nat :=
  rows.foldl (fun width row => max width row.1.utf8ByteSize) 0

/-- Widths lie below this bound. -/
def widthBound : Nat := 65536

/-- A key with spaces after it up to a number of characters. The program breaks off over a
number that is no width. -/
def padded? (width : Nat) (key : String) : Option String :=
  if width < widthBound then
    some (key ++ String.ofList (List.replicate (width - key.length) ' '))
  else none

/-- One line of the listing. -/
def listingLine? (width : Nat) (row : String × String) : Option String :=
  (padded? width row.1).map (· ++ " = " ++ row.2)

/-- The listing, unless the program breaks off over it. -/
def listing? (c : Config) : Option (List String) :=
  let rows := c.options.rows
  rows.mapM (listingLine? (keyWidth rows))

end GitTutor.Config
