import GitTutor.Repository

/-!
# Settings of a session

The settings fix how a practice repository starts and the texts that no command
can change.
-/

namespace GitTutor

/-- How a session starts. -/
structure Settings where
  initialBranch : String
  seedHash : String
  seedMessage : String
  seedAuthor : String
  gitVersion : String
  workspace : String
  user : Identity
  remotes : Table String
  deriving DecidableEq, Repr

namespace Settings

/-- The remotes that exist unless others are configured. -/
def standardRemotes : Table String :=
  Table.empty.insert "origin" "https://github.com/user/repo.git"

/-- The settings of an unconfigured session. -/
def standard : Settings where
  initialBranch := "main"
  seedHash := "a1b2c3d"
  seedMessage := "Initial commit"
  seedAuthor := "System"
  gitVersion := "2.43.0"
  workspace := "/workspace"
  user := ⟨"", ""⟩
  remotes := standardRemotes

/-- The commit that every log starts with. -/
def seedCommit (s : Settings) : Commit :=
  ⟨s.seedHash, s.seedMessage, s.seedAuthor, []⟩

end Settings

/-- A fresh repository: one branch that holds the seed commit. -/
def Repository.fresh (s : Settings) : Repository where
  current := s.initialBranch
  branches := [s.initialBranch]
  logs := Table.empty.insert s.initialBranch [s.seedCommit]
  staged := []
  modified := []
  stash := []
  remotes := s.remotes
  user := s.user

theorem Repository.log_fresh (s : Settings) (name : String) :
    (Repository.fresh s).log name = if name = s.initialBranch then [s.seedCommit] else [] := by
  by_cases h : name = s.initialBranch <;> simp [Repository.fresh, Repository.log, h]

end GitTutor
