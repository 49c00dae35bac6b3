import GitTutor.FilePath
import GitTutor.LogLevel
import GitTutor.Settings
import GitTutor.Terminal

/-!
# The configuration

A configuration says how a session starts, how its terminal looks and what is
logged where. Not every configuration makes sense: `Config.validate` names the
first value that does not.
-/

namespace GitTutor

open Text

/-- What is logged on the console and to a file, and to which file if any. -/
structure Logging where
  console : LogLevel
  file : LogLevel
  path : Option FilePath
  deriving DecidableEq, Repr

/-- A whole configuration. With a seed, sessions repeat their hashes. -/
structure Config where
  logging : Logging
  settings : Settings
  seed : Option Nat
  terminal : TerminalSettings
  deriving DecidableEq, Repr

namespace Config

/-- The configuration that holds where nothing else is said. -/
def standard : Config where
  logging := ⟨.warning, .trace, none⟩
  settings := Settings.standard
  seed := none
  terminal := ⟨"user", "simulator", "~/workspace", true⟩

/-- A value that makes no sense: the place where it stands and why. -/
structure InvalidValue where
  place : String
  key : String
  reason : String
  deriving DecidableEq, Repr

/-- The text that reports an invalid value. -/
def InvalidValue.message (e : InvalidValue) : String :=
  "invalid value for '" ++ e.key ++ "' in section '[" ++ e.place ++ "]': " ++ e.reason

/-- The level with a given number, or why there is none. -/
def levelOf (n : Nat) : Except InvalidValue LogLevel :=
  match LogLevel.ofNat? n with
  | some level => .ok level
  | none => .error ⟨"global", "log_level", "log level must be 0-6, got " ++ Nat.repr n⟩

/-- Whether a text can name a branch: it is not empty and has no blanks. -/
def isBranchName (name : String) : Bool :=
  name != "" && !name.toList.any isBlank

/-- The first remote, in the order of their names, whose address is blank. -/
def blankRemote? (remotes : Table String) : Option String :=
  (List.find? (fun row => isAllBlank row.2) remotes.rows).map Prod.fst

theorem blankRemote?_eq_none_iff (remotes : Table String) :
    blankRemote? remotes = none ↔ ∀ row ∈ remotes.rows, isAllBlank row.2 = false := by
  simp [blankRemote?, List.find?_eq_none]

/-- Check the settings and then the remotes. -/
def validate (c : Config) : Except InvalidValue Unit :=
  let s := c.settings
  if isBranchName s.initialBranch then
    if ShortHash.isShortHash s.seedHash then
      match blankRemote? s.remotes with
      | none => .ok ()
      | some name => .error ⟨"remotes", name, "remote URL must not be empty"⟩
    else
      .error ⟨"simulator", "seed_hash",
        "expected 7 characters of [0-9a-z], got '" ++ s.seedHash ++ "'"⟩
  else
    .error ⟨"simulator", "initial_branch",
      "'" ++ s.initialBranch ++ "' is not a valid branch name"⟩

/-- A configuration passes iff its branch name, its hash and all addresses are
well-formed. -/
theorem validate_eq_ok_iff (c : Config) :
    c.validate = .ok () ↔
      isBranchName c.settings.initialBranch = true ∧
        ShortHash.isShortHash c.settings.seedHash = true ∧
          ∀ row ∈ c.settings.remotes.rows, isAllBlank row.2 = false := by
  rw [← blankRemote?_eq_none_iff, validate]
  cases isBranchName c.settings.initialBranch <;>
    cases ShortHash.isShortHash c.settings.seedHash <;>
      cases blankRemote? c.settings.remotes <;> simp

end Config

end GitTutor
