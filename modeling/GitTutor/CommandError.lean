import GitTutor.Text.Blank

/-!
# Causes of a refused command line

Every command line that cannot be carried out is refused for one of the causes
below. A cause has a kind and one fixed wording.
-/

namespace GitTutor

/-- The broad classes of causes. -/
inductive ErrorKind
  /-- The first word is not `git`. -/
  | unrecognizedCommand
  /-- The second word is missing or names no subcommand. -/
  | unrecognizedSubcommand
  /-- An argument is missing or malformed. -/
  | invalidArgument
  /-- A named branch, path or stash entry does not exist. -/
  | referential
  /-- The request contradicts the state of the repository. -/
  | conflict
  deriving DecidableEq, Repr

/-- The words that may follow `git`, in the order in which they are listed to the user. -/
def subcommands : List String :=
  ["config", "init", "status", "branch", "checkout", "add", "commit", "log", "merge",
   "pull", "push", "clone", "stash", "rebase", "cherry-pick"]

/-- Why a command line was refused. -/
inductive CommandError
  | commandNotFound (command : String)
  | missingSubcommand
  | unknownSubcommand (name : String)
  | unknownOption (option : String)
  | unsupportedConfigKey (key : String)
  | missingConfigKey
  | missingCommitMessage
  | emptyCommitMessage
  | missingBranchName
  | missingUrl
  | missingCommitHash
  | nothingSpecified
  | invalidLogLimit (value : String)
  | invalidPathspec (pattern : String)
  | unknownStashCommand (name : String)
  | branchNotFound (name : String)
  | pathspecNotFound (name : String)
  | pathspecNoMatch (pattern : String)
  | noStashEntries
  | branchExists (name : String)
  | cannotDeleteCurrent (name : String)
  deriving DecidableEq, Repr

namespace CommandError

/-- The class of a cause. -/
def kind : CommandError → ErrorKind
  | commandNotFound _ => .unrecognizedCommand
  | missingSubcommand => .unrecognizedSubcommand
  | unknownSubcommand _ => .unrecognizedSubcommand
  | unknownOption _ => .invalidArgument
  | unsupportedConfigKey _ => .invalidArgument
  | missingConfigKey => .invalidArgument
  | missingCommitMessage => .invalidArgument
  | emptyCommitMessage => .invalidArgument
  | missingBranchName => .invalidArgument
  | missingUrl => .invalidArgument
  | missingCommitHash => .invalidArgument
  | nothingSpecified => .invalidArgument
  | invalidLogLimit _ => .invalidArgument
  | invalidPathspec _ => .invalidArgument
  | unknownStashCommand _ => .invalidArgument
  | branchNotFound _ => .referential
  | pathspecNotFound _ => .referential
  | pathspecNoMatch _ => .referential
  | noStashEntries => .referential
  | branchExists _ => .conflict
  | cannotDeleteCurrent _ => .conflict

/-- The text that reports a cause to the user. -/
def message : CommandError → String
  | commandNotFound command =>
      "Command not found: " ++ command ++
        ". This is a Git simulator - only git commands are supported."
  | missingSubcommand =>
      "usage: git <command> [<args>]\n\nsupported commands: " ++ Text.joinWith ", " subcommands
  | unknownSubcommand name =>
      "git: '" ++ name ++ "' is not a git command. Try: status, branch, checkout, add, " ++
        "commit, log, merge, pull, push, stash, rebase, cherry-pick"
  | unknownOption option => "error: unknown option `" ++ option ++ "'"
  | unsupportedConfigKey key =>
      "error: unsupported config key '" ++ key ++ "' (supported: user.name, user.email)"
  | missingConfigKey => "error: missing config key"
  | missingCommitMessage => "error: Please use -m to specify a commit message"
  | emptyCommitMessage => "error: switch `m' requires a value"
  | missingBranchName => "error: branch name required"
  | missingUrl => "error: repository URL required"
  | missingCommitHash => "error: commit hash required"
  | nothingSpecified => "Nothing specified, nothing added."
  | invalidLogLimit value => "fatal: '" ++ value ++ "': not a valid commit limit"
  | invalidPathspec pattern => "fatal: invalid pathspec '" ++ pattern ++ "'"
  | unknownStashCommand name =>
      "error: unknown subcommand: " ++ name ++
        "\nusage: git stash [push|save|list|apply|pop|drop|clear]"
  | branchNotFound name => "error: branch '" ++ name ++ "' not found"
  | pathspecNotFound name =>
      "error: pathspec '" ++ name ++ "' did not match any file(s) known to git"
  | pathspecNoMatch pattern => "fatal: pathspec '" ++ pattern ++ "' did not match any files"
  | noStashEntries => "No stash entries found."
  | branchExists name => "fatal: A branch named '" ++ name ++ "' already exists."
  | cannotDeleteCurrent name => "error: Cannot delete branch '" ++ name ++ "' checked out"

end CommandError

end GitTutor
