import GitTutor.Proofs.LawfulLibrary

/-!
# Options with one value

Every option of the sections `global`, `simulator`, `user` and `terminal` has
one value. A `Leaf` is such an option together with the two facts that make its
value known: it only depends on the top of what the option is given as, and in a
configuration that rows describe it is what the rows of its section say.
-/

namespace GitTutor.Config

open Text Value

/-- An option with one value: where it stands, how a library reads its values and
what it is in a configuration. -/
structure Leaf (lib : Library) (α : Type) where
  place : String
  key : String
  read : Value → Option α
  get : Config → α
  read_plain : ∀ v : Value, read v.plain = read v
  given : ∀ {top : Rows Value} {c : Config}, ofRows? lib top = some c →
    (look top place).isList = false →
      given? (look top place).rows key (get standard) read = some (get c)

/-- A section that is no list has its own rows. -/
theorem rows_of_section? {top rows : Rows Value} {place : String} {options : List String}
    (unlisted : (look top place).isList = false) (read : section? top place options = some rows) :
    rows = (look top place).rows := by
  rw [section?, given?] at read
  split at read
  · rename_i missing
    rw [look, missing]
    exact (Option.some.inj read).symm
  · rename_i v found
    rw [look, found] at unlisted ⊢
    cases v with
    | table own =>
        rw [asSection?] at read
        split at read
        · exact (Option.some.inj read).symm
        · cases read
    | list items => cases unlisted
    | _ => cases read

/-- A part of a configuration that is read from a section is read from its own
rows. -/
theorem read_of_section? {top : Rows Value} {place : String} {options : List String} {β : Type}
    {f : Rows Value → Option β} {part : β} (unlisted : (look top place).isList = false)
    (read : (section? top place options).bind f = some part) :
    f (look top place).rows = some part := by
  obtain ⟨rows, found, read⟩ := Option.bind_eq_some_iff.mp read
  rw [← rows_of_section? unlisted found]
  exact read

section Parts

variable {lib : Library}

/-- The parts of a configuration that rows at the top describe. -/
structure Described (lib : Library) (top : Rows Value) (c : Config) : Prop where
  logging : (section? top "global" globalOptions).bind (loggingOf? lib) = some c.logging
  settings : (section? top "simulator" simulatorOptions).bind
    (settingsOf? lib · c.settings.user c.settings.remotes) = some c.settings
  seed : (section? top "simulator" simulatorOptions).bind (seedOf? lib) = some c.seed
  user : (section? top "user" userOptions).bind (userOf? lib) = some c.settings.user
  remotes : given? top "remotes" standard.settings.remotes lib.texts? = some c.settings.remotes
  terminal : (section? top "terminal" terminalOptions).bind (terminalOf? lib) = some c.terminal

theorem parts_of_settingsOf? {rows : Rows Value} {user : Identity} {remotes : Table String}
    {s : Settings} (read : settingsOf? lib rows user remotes = some s) :
    s.user = user ∧ s.remotes = remotes := by
  simp only [settingsOf?, Option.bind_eq_bind, Option.bind_eq_some_iff, Option.pure_def,
    Option.some.injEq] at read
  obtain ⟨_, -, _, -, _, -, _, -, _, -, _, -, rfl⟩ := read
  exact ⟨rfl, rfl⟩

theorem described {top : Rows Value} {c : Config} (read : ofRows? lib top = some c) :
    Described lib top c := by
  simp only [ofRows?, Option.bind_eq_bind, Option.bind_eq_some_iff, Option.pure_def,
    Option.some.injEq] at read
  obtain ⟨rows, whole, globalRows, global, logging, readLogging, simulatorRows, simulator,
    userRows, userSection, user, readUser, remotes, readRemotes, settings, readSettings, seed,
    readSeed, terminalRows, terminalSection, terminal, readTerminal, rfl⟩ := read
  obtain rfl : top = rows := by
    rw [asSection?] at whole
    split at whole
    · exact Option.some.inj whole
    · cases whole
  obtain ⟨rfl, rfl⟩ := parts_of_settingsOf? readSettings
  exact {
    logging := Option.bind_eq_some_iff.mpr ⟨_, global, readLogging⟩
    settings := Option.bind_eq_some_iff.mpr ⟨_, simulator, readSettings⟩
    seed := Option.bind_eq_some_iff.mpr ⟨_, simulator, readSeed⟩
    user := Option.bind_eq_some_iff.mpr ⟨_, userSection, readUser⟩
    remotes := readRemotes
    terminal := Option.bind_eq_some_iff.mpr ⟨_, terminalSection, readTerminal⟩ }

/-- Rows with known names at the top describe a configuration only if they are read
as it. -/
theorem Described.read {top : Rows Value} {c : Config}
    (known : (top.all fun row => sections.contains row.1) = true) (parts : Described lib top c) :
    ofRows? lib top = some c := by
  obtain ⟨globalRows, global, logging⟩ := Option.bind_eq_some_iff.mp parts.logging
  obtain ⟨simulatorRows, simulator, settings⟩ := Option.bind_eq_some_iff.mp parts.settings
  obtain ⟨userRows, userSection, user⟩ := Option.bind_eq_some_iff.mp parts.user
  obtain ⟨terminalRows, terminalSection, terminal⟩ := Option.bind_eq_some_iff.mp parts.terminal
  have seed := parts.seed
  rw [simulator, Option.bind_some] at seed
  simp only [ofRows?, asSection?, known, if_true, Option.bind_eq_bind, Option.bind_some, global,
    logging, simulator, userSection, user, parts.remotes, settings, seed, terminalSection, terminal,
    Option.pure_def]

theorem given_of_loggingOf? {rows : Rows Value} {l : Logging} (read : loggingOf? lib rows = some l) :
    given? rows "output_log_level" standard.logging.console lib.level? = some l.console ∧
      given? rows "file_log_level" standard.logging.file lib.level? = some l.file ∧
        given? rows "log_file" standard.logging.path (optionally? lib.path?) = some l.path := by
  simp only [loggingOf?, Option.bind_eq_bind, Option.bind_eq_some_iff, Option.pure_def,
    Option.some.injEq] at read
  obtain ⟨_, console, _, file, _, path, rfl⟩ := read
  exact ⟨console, file, path⟩

theorem given_of_userOf? {rows : Rows Value} {u : Identity} (read : userOf? lib rows = some u) :
    given? rows "name" standard.settings.user.name lib.text? = some u.name ∧
      given? rows "email" standard.settings.user.email lib.text? = some u.email := by
  simp only [userOf?, Option.bind_eq_bind, Option.bind_eq_some_iff, Option.pure_def,
    Option.some.injEq] at read
  obtain ⟨_, name, _, email, rfl⟩ := read
  exact ⟨name, email⟩

theorem given_of_terminalOf? {rows : Rows Value} {t : TerminalSettings}
    (read : terminalOf? lib rows = some t) :
    given? rows "prompt_user" standard.terminal.user lib.text? = some t.user ∧
      given? rows "prompt_host" standard.terminal.host lib.text? = some t.host ∧
        given? rows "prompt_path" standard.terminal.path lib.text? = some t.path ∧
          given? rows "color" standard.terminal.color lib.truth? = some t.color := by
  simp only [terminalOf?, Option.bind_eq_bind, Option.bind_eq_some_iff, Option.pure_def,
    Option.some.injEq] at read
  obtain ⟨_, user, _, host, _, path, _, color, rfl⟩ := read
  exact ⟨user, host, path, color⟩

theorem given_of_settingsOf? {rows : Rows Value} {user : Identity} {remotes : Table String}
    {s : Settings} (read : settingsOf? lib rows user remotes = some s) :
    given? rows "initial_branch" standard.settings.initialBranch lib.text? = some s.initialBranch ∧
      given? rows "seed_hash" standard.settings.seedHash lib.text? = some s.seedHash ∧
        given? rows "seed_message" standard.settings.seedMessage lib.text? = some s.seedMessage ∧
          given? rows "seed_author" standard.settings.seedAuthor lib.text? = some s.seedAuthor ∧
            given? rows "git_version" standard.settings.gitVersion lib.text? = some s.gitVersion ∧
              given? rows "workspace" standard.settings.workspace lib.text? = some s.workspace := by
  simp only [settingsOf?, Option.bind_eq_bind, Option.bind_eq_some_iff, Option.pure_def,
    Option.some.injEq] at read
  obtain ⟨_, branch, _, hash, _, message, _, author, _, version, _, workspace, rfl⟩ := read
  exact ⟨branch, hash, message, author, version, workspace⟩

end Parts

/-- The options whose values are texts. -/
inductive TextOption
  | initialBranch
  | seedHash
  | seedMessage
  | seedAuthor
  | gitVersion
  | workspace
  | userName
  | userEmail
  | promptUser
  | promptHost
  | promptPath
  deriving DecidableEq, Repr

namespace TextOption

/-- The section of an option. -/
def place : TextOption → String
  | userName | userEmail => "user"
  | promptUser | promptHost | promptPath => "terminal"
  | _ => "simulator"

/-- The name of an option in its section. -/
def key : TextOption → String
  | initialBranch => "initial_branch"
  | seedHash => "seed_hash"
  | seedMessage => "seed_message"
  | seedAuthor => "seed_author"
  | gitVersion => "git_version"
  | workspace => "workspace"
  | userName => "name"
  | userEmail => "email"
  | promptUser => "prompt_user"
  | promptHost => "prompt_host"
  | promptPath => "prompt_path"

/-- The value of an option. -/
def get (c : Config) : TextOption → String
  | initialBranch => c.settings.initialBranch
  | seedHash => c.settings.seedHash
  | seedMessage => c.settings.seedMessage
  | seedAuthor => c.settings.seedAuthor
  | gitVersion => c.settings.gitVersion
  | workspace => c.settings.workspace
  | userName => c.settings.user.name
  | userEmail => c.settings.user.email
  | promptUser => c.terminal.user
  | promptHost => c.terminal.host
  | promptPath => c.terminal.path

theorem given (o : TextOption) {lib : Library} {top : Rows Value} {c : Config} (read : ofRows? lib top = some c)
    (unlisted : (look top o.place).isList = false) :
    given? (look top o.place).rows o.key (o.get standard) lib.text? = some (o.get c) := by
  have parts := described read
  have settings := fun h => given_of_settingsOf? (read_of_section? h parts.settings)
  have user := fun h => given_of_userOf? (read_of_section? h parts.user)
  have terminal := fun h => given_of_terminalOf? (read_of_section? h parts.terminal)
  cases o with
  | initialBranch => exact (settings unlisted).1
  | seedHash => exact (settings unlisted).2.1
  | seedMessage => exact (settings unlisted).2.2.1
  | seedAuthor => exact (settings unlisted).2.2.2.1
  | gitVersion => exact (settings unlisted).2.2.2.2.1
  | workspace => exact (settings unlisted).2.2.2.2.2
  | userName => exact (user unlisted).1
  | userEmail => exact (user unlisted).2
  | promptUser => exact (terminal unlisted).1
  | promptHost => exact (terminal unlisted).2.1
  | promptPath => exact (terminal unlisted).2.2.1

/-- An option whose value is a text, as an option with one value. -/
def leaf {lib : Library} (lawful : lib.Lawful) (o : TextOption) : Leaf lib String where
  place := o.place
  key := o.key
  read := lib.text?
  get := fun c => o.get c
  read_plain := lawful.text?_plain
  given := o.given

end TextOption

namespace Leaf

variable {lib : Library} (lawful : lib.Lawful)

/-- The level of the log on the console. -/
def console : Leaf lib LogLevel where
  place := "global"
  key := "output_log_level"
  read := lib.level?
  get := fun c => c.logging.console
  read_plain := lawful.level?_plain
  given := fun read unlisted =>
    (given_of_loggingOf? (read_of_section? unlisted (described read).logging)).1

/-- The level of the log in a file. -/
def file : Leaf lib LogLevel where
  place := "global"
  key := "file_log_level"
  read := lib.level?
  get := fun c => c.logging.file
  read_plain := lawful.level?_plain
  given := fun read unlisted =>
    (given_of_loggingOf? (read_of_section? unlisted (described read).logging)).2.1

/-- The path of the log file. -/
def path : Leaf lib (Option FilePath) where
  place := "global"
  key := "log_file"
  read := optionally? lib.path?
  get := fun c => c.logging.path
  read_plain := lawful.optionalPath_plain
  given := fun read unlisted =>
    (given_of_loggingOf? (read_of_section? unlisted (described read).logging)).2.2

/-- The seed of sessions. -/
def seed : Leaf lib (Option Nat) where
  place := "simulator"
  key := "seed"
  read := optionally? lib.count?
  get := fun c => c.seed
  read_plain := lawful.optionalCount_plain
  given := fun read unlisted => read_of_section? unlisted (described read).seed

/-- Whether the terminal is in colour. -/
def color : Leaf lib Bool where
  place := "terminal"
  key := "color"
  read := lib.truth?
  get := fun c => c.terminal.color
  read_plain := lawful.truth?_plain
  given := fun read unlisted =>
    (given_of_terminalOf? (read_of_section? unlisted (described read).terminal)).2.2.2

end Leaf

end GitTutor.Config
