import GitTutor.Command
import GitTutor.CommandError
import GitTutor.Entropy
import GitTutor.Settings
import GitTutor.Text.Blank
import GitTutor.Text.Count

/-!
# Reports on the repository

A report prints what a command shows and changes nothing. `pull`, `push`,
`clone` and `rebase` are reports: they only print what the real command would
have printed.
-/

namespace GitTutor

open Text

namespace Settings

/-- The report of `git --version`. -/
def versionReport (s : Settings) : String :=
  "git version " ++ s.gitVersion

/-- The report of `git init`. -/
def initReport (s : Settings) : String :=
  "Initialized empty Git repository in " ++
    String.ofList (dropTrailing (· == '/') s.workspace.toList) ++ "/.git/"

end Settings

/-- The value that an identity gives to a key. -/
def Identity.get (user : Identity) : IdentityKey → String
  | .name => user.name
  | .email => user.email

namespace Repository

/-- The line that shows one key of the identity with a value. -/
def identityLine (key : IdentityKey) (value : String) : String :=
  key.text ++ "=" ++ value

/-- A value, or the placeholder for an empty one. -/
def orUnset (value : String) : String :=
  if value = "" then "(not set)" else value

/-- The lines of `git config`: the keys that have a value. -/
def configSummary (r : Repository) : List String :=
  ([IdentityKey.name, IdentityKey.email].filter fun key => r.user.get key != "").map
    fun key => identityLine key (r.user.get key)

/-- The lines of `git config --list`. -/
def configListing (r : Repository) : List String :=
  [identityLine .name (orUnset r.user.name), identityLine .email (orUnset r.user.email)] ++
    r.remotes.rows.map fun row => "remote." ++ row.1 ++ ".url=" ++ row.2

/-- The report of `git config`. A request to set a key shows its current value. -/
def configReport (r : Repository) : ConfigRequest → String
  | .summary =>
      if r.configSummary.isEmpty then "No configuration set" else joinWith "\n" r.configSummary
  | .listing => joinWith "\n" r.configListing
  | .get key => r.user.get key
  | .set key _ => r.user.get key

/-- A section of `git status`: a heading and one line per file, or nothing. -/
def statusSection (heading : String) (files : List String) : String :=
  if files.isEmpty then ""
  else "\n" ++ heading ++ "\n" ++
    String.join (files.map fun file => "  modified:   " ++ file ++ "\n")

/-- The report of `git status`. -/
def statusReport (r : Repository) : String :=
  let head := "On branch " ++ r.current ++ "\n"
  if r.isClean then head ++ "nothing to commit, working tree clean"
  else trimmedEnd (head ++ statusSection "Changes to be committed:" r.staged ++
    statusSection "Changes not staged for commit:" r.modified)

/-- The line of `git branch` for one branch. -/
def branchLine (r : Repository) (name : String) : String :=
  if name = r.current then "* " ++ name else "  " ++ name

/-- The report of `git branch`: every branch in the order of creation. -/
def branchReport (r : Repository) : String :=
  joinWith "\n" (r.branches.map r.branchLine)

/-- The last `limit` commits of a log, newest first. -/
def newest (limit : Nat) (commits : List Commit) : List Commit :=
  commits.reverse.take limit

/-- The layouts of `git log`. -/
inductive LogLayout
  | oneline
  | graph
  | full
  deriving DecidableEq, Repr

/-- The layout that a request asks for; one-line wins over graph. -/
def LogLayout.of (request : LogRequest) : LogLayout :=
  if request.oneline then .oneline else if request.graph then .graph else .full

/-- How many commits a layout shows without a limit. The one-line layout has the greatest limit
there is, which no log exceeds. -/
def LogLayout.defaultLimit : LogLayout → Nat
  | .oneline => Text.wordBound - 1
  | .graph => 5
  | .full => 3

/-- One commit in a layout. -/
def LogLayout.item : LogLayout → Commit → String
  | .oneline, c => c.hash ++ " " ++ c.message
  | .graph, c => "* " ++ c.hash ++ " " ++ c.message
  | .full, c => "commit " ++ c.hash ++ "\nAuthor: " ++ c.author ++ "\n\n    " ++ c.message ++ "\n"

/-- Some commits in a layout. -/
def LogLayout.page (layout : LogLayout) (commits : List Commit) : String :=
  let text := joinWith "\n" (commits.map layout.item)
  match layout with
  | .full => trimmedEnd text
  | _ => text

/-- The report of `git log`. A branch must exist even when all are shown. -/
def logReport (r : Repository) (request : LogRequest) : Except CommandError String :=
  let branch := request.branch.getD r.current
  if r.hasBranch branch then
    let commits := if request.all then r.allCommits else r.log branch
    let layout := LogLayout.of request
    .ok (layout.page (newest (request.limit.getD layout.defaultLimit) commits))
  else .error (.branchNotFound branch)

/-- The address of the remote that a request names. -/
def remoteUrl (r : Repository) (request : RemoteRequest) : String :=
  (r.remotes.get? (request.remote.getD "origin")).getD "unknown"

/-- The report of `git pull`. -/
def pullReport (r : Repository) (request : RemoteRequest) : String :=
  "Already up to date.\nFrom " ++ r.remoteUrl request ++ "\n * branch            " ++
    request.branch.getD r.current ++ " -> FETCH_HEAD"

/-- The report of `git push`, which quotes two hashes. -/
def pushReport (r : Repository) (request : RemoteRequest) (old new : String) : String :=
  let branch := request.branch.getD r.current
  "To " ++ r.remoteUrl request ++ "\n   " ++ old ++ ".." ++ new ++ "  " ++ branch ++ " -> " ++
    branch

/-- A text without `.git` at its end. -/
def withoutGitSuffix (cs : List Char) : List Char :=
  match cs.reverse with
  | 't' :: 'i' :: 'g' :: '.' :: rest => rest.reverse
  | _ => cs

/-- The directory that cloning an address creates: its last piece between
slashes and colons, trailing slashes aside, without `.git` at the end. -/
def directoryName (url : List Char) : List Char :=
  let shortened := dropTrailing (· == '/') url
  withoutGitSuffix (((pieces (fun c => c == '/' || c == ':') shortened).getLast?).getD [])

/-- The directory name of an address. -/
def repositoryName (url : String) : String :=
  String.ofList (directoryName url.toList)

/-- The report of `git clone`. -/
def cloneReport (url : String) : String :=
  "Cloning into '" ++ repositoryName url ++ "'...\n" ++
    "remote: Counting objects: 100, done.\n" ++
    "remote: Compressing objects: 100% (80/80), done.\n" ++
    "Receiving objects: 100% (100/100), done."

/-- The lines of `git stash list` from a given index on. -/
def stashLines (index : Nat) : List StashEntry → List String
  | [] => []
  | entry :: rest =>
      ("stash@\x7b" ++ Nat.repr index ++ "\x7d: On " ++ entry.branch ++ ": " ++ entry.message) ::
        stashLines (index + 1) rest

/-- The report of `git stash list`, newest entry first. -/
def stashReport (r : Repository) : String :=
  if r.stash.isEmpty then "No stash entries" else joinWith "\n" (stashLines 0 r.stash)

/-- The report of `git rebase`. -/
def rebaseReport (r : Repository) (branch : String) : Except CommandError String :=
  if r.hasBranch branch then
    if branch = r.current then .ok ("Current branch " ++ branch ++ " is up to date.")
    else .ok ("Successfully rebased and updated refs/heads/" ++ r.current ++ ".")
  else .error (.branchNotFound branch)

end Repository

end GitTutor
