import GitTutor.Command
import GitTutor.CommandError
import GitTutor.Entropy
import GitTutor.Pathspec
import GitTutor.Repository

/-!
# Operations that change the repository

Each operation gives the repository after it and the text that it prints, or
the cause why it was refused. A refusal carries no repository: nothing has
changed then.
-/

namespace GitTutor

/-- The identity in which a key has a given value. -/
def Identity.set (user : Identity) : IdentityKey → String → Identity
  | .name, value => { user with name := value }
  | .email, value => { user with email := value }

namespace Repository

/-- The repository after an operation, and what the operation prints. -/
abbrev Answer := Repository × String

/-- Set one part of the identity. -/
def setIdentity (r : Repository) (key : IdentityKey) (value : String) : Answer :=
  ({ r with user := r.user.set key value }, "")

/-- Create a branch with a copy of the current log. -/
def createBranch (r : Repository) (name : String) : Except CommandError Answer :=
  if r.hasBranch name then .error (.branchExists name) else .ok (r.fork name, "")

/-- Forget a branch; its log is kept. -/
def deleteBranch (r : Repository) (name : String) : Except CommandError Answer :=
  if name = r.current then .error (.cannotDeleteCurrent name)
  else if r.hasBranch name then
    .ok ({ r with branches := r.branches.erase name }, "Deleted branch " ++ name)
  else .error (.branchNotFound name)

/-- Create a branch and switch to it. -/
def checkoutNew (r : Repository) (name : String) : Except CommandError Answer :=
  if r.hasBranch name then .error (.branchExists name)
  else .ok ({ r.fork name with current := name }, "Switched to a new branch '" ++ name ++ "'")

/-- Switch to a branch. -/
def checkout (r : Repository) (name : String) : Except CommandError Answer :=
  if r.hasBranch name then
    if name = r.current then .ok (r, "Already on '" ++ name ++ "'")
    else .ok ({ r with current := name }, "Switched to branch '" ++ name ++ "'")
  else .error (.pathspecNotFound name)

/-- A way to turn pathspec patterns into tests on file names; `none` marks a
malformed pattern. -/
abbrev PatternCompiler := String → Option (String → Bool)

/-- The files that one pathspec stands for: a plain path stands for itself, and
a pattern for the modified files it matches, of which there must be one. -/
def resolve (compile : PatternCompiler) (modified : List String) (path : String) :
    Except CommandError (List String) :=
  if Pathspec.isPattern path then
    match compile path with
    | none => .error (.invalidPathspec path)
    | some test =>
        if (modified.filter test).isEmpty then .error (.pathspecNoMatch path)
        else .ok (modified.filter test)
  else .ok [path]

/-- The files that a list of pathspecs stands for, path by path. The first
pathspec that cannot be resolved decides the refusal. -/
def resolveAll (compile : PatternCompiler) (modified : List String) :
    List String → Except CommandError (List String)
  | [] => .ok []
  | path :: rest =>
      match resolve compile modified path with
      | .error cause => .error cause
      | .ok files =>
          match resolveAll compile modified rest with
          | .error cause => .error cause
          | .ok more => .ok (files ++ more)

/-- Move one file from the modified to the staged files. -/
def stageFile (r : Repository) (file : String) : Repository :=
  { r with
    staged := addUnique r.staged file
    modified := r.modified.filter fun f => f != file }

/-- Staging files one after the other puts the new ones at the end of the staged files and
takes all of them out of the modified ones. -/
theorem foldl_stageFile (files : List String) (r : Repository) :
    files.foldl stageFile r =
      { r with
        staged := addAllUnique r.staged files
        modified := r.modified.filter fun f => decide (f ∉ files) } := by
  induction files generalizing r with
  | nil =>
      have all : r.modified.filter (fun f => decide (f ∉ ([] : List String))) = r.modified :=
        List.filter_eq_self.mpr (by simp)
      rw [all]
      rfl
  | cons file rest ih =>
      rw [List.foldl_cons, ih]
      have both : (r.modified.filter fun f => f != file).filter (fun f => decide (f ∉ rest)) =
          r.modified.filter fun f => decide (f ∉ file :: rest) := by
        rw [List.filter_filter]
        refine List.filter_congr fun f _ => ?_
        by_cases hf : f = file <;> simp [hf]
      simp only [stageFile, both]
      rfl

/-- Stage every modified file in place of what was staged before. -/
def addEverything (r : Repository) : Answer :=
  ({ r with staged := r.modified, modified := [] }, "")

/-- Stage the files that pathspecs stand for; all are resolved before any is staged. -/
def addPaths (compile : PatternCompiler) (r : Repository) (paths : List String) :
    Except CommandError Answer :=
  match resolveAll compile r.modified paths with
  | .error cause => .error cause
  | .ok files => .ok (files.foldl stageFile r, "")

/-- Carry out a request of `git add`. -/
def add (compile : PatternCompiler) (r : Repository) :
    AddRequest → Except CommandError Answer
  | .all => .ok r.addEverything
  | .paths pathspecs => r.addPaths compile pathspecs

/-- The files of the next commit: the staged ones, and with `all` also the
modified ones. -/
def filesToCommit (r : Repository) (all : Bool) : List String :=
  if all then addAllUnique r.staged r.modified else r.staged

theorem nodup_filesToCommit {r : Repository} (distinct : r.staged.Nodup) (all : Bool) :
    (r.filesToCommit all).Nodup := by
  cases all with
  | false => exact distinct
  | true => exact nodup_addAllUnique distinct r.modified

/-- Whether there is nothing to commit: nothing is staged and, unless the modified files are
asked for and there are some, nothing is going to be. -/
def nothingToCommit (r : Repository) (all : Bool) : Bool :=
  r.staged.isEmpty && !(all && !r.modified.isEmpty)

/-- There is nothing to commit exactly if nothing is staged and, where everything is to be
committed, nothing is modified. -/
theorem filesToCommit_eq_nil_iff {r : Repository} {all : Bool} :
    r.filesToCommit all = [] ↔ r.staged = [] ∧ ¬ (all = true ∧ r.modified ≠ []) := by
  cases all with
  | false => simp [filesToCommit]
  | true => simp [filesToCommit, addAllUnique_eq_nil_iff]

/-- What is checked before a commit is whether it would have no files. -/
@[simp] theorem nothingToCommit_eq (r : Repository) (all : Bool) :
    r.nothingToCommit all = (r.filesToCommit all).isEmpty := by
  rw [Bool.eq_iff_iff, List.isEmpty_iff, filesToCommit_eq_nil_iff, nothingToCommit]
  cases all <;> simp

/-- Record the next commit under a given hash. -/
def record (r : Repository) (request : CommitRequest) (hash : String) : Answer :=
  let files := r.filesToCommit request.all
  let recorded := r.append [⟨hash, request.message, r.author, files⟩]
  ({ recorded with staged := [], modified := if request.all then [] else r.modified },
   "[" ++ r.current ++ " " ++ hash ++ "] " ++ request.message ++ "\n " ++
     Nat.repr files.length ++ " file(s) changed")

/-- Commit under a fresh hash; without files nothing happens and no hash is drawn. -/
def commit {σ : Type} [Entropy σ] (r : Repository) (request : CommitRequest) (e : σ) :
    Answer × σ :=
  if r.nothingToCommit request.all then
    ((r, "nothing to commit, working tree clean"), e)
  else
    let drawn := Entropy.hash e
    (r.record request drawn.1, drawn.2)

/-- The commits that a merge takes over: those of the other log beyond the
length of the current one. -/
def incoming (r : Repository) (branch : String) : List Commit :=
  (r.log branch).drop r.currentLog.length

/-- Merge a branch by position: the logs are compared by length only. -/
def merge (r : Repository) (branch : String) : Except CommandError Answer :=
  if r.hasBranch branch then
    if branch = r.current ∨ r.incoming branch = [] then .ok (r, "Already up to date.")
    else .ok (r.append (r.incoming branch),
      "Merge made by the 'recursive' strategy.\n " ++ Nat.repr (r.incoming branch).length ++
        " commit(s) merged")
  else .error (.branchNotFound branch)

/-- Shelve the changes: the modified files, then the staged ones. -/
def stashPush (r : Repository) (message : Option String) : Answer :=
  if r.isClean then (r, "No local changes to save")
  else
    let text := message.getD "WIP"
    ({ r with
       staged := []
       modified := []
       stash := ⟨text, addAllUnique r.modified r.staged, r.current⟩ :: r.stash },
     "Saved working directory and index state On " ++ r.current ++ ": " ++ text)

/-- What restoring an entry prints. -/
def restoreText (r : Repository) (entry : StashEntry) : String :=
  "On branch " ++ r.current ++ "\nChanges not staged for commit:\n  " ++
    Text.joinWith "\n  " entry.files

/-- What dropping the newest entry prints. -/
def dropText : String := "Dropped stash@\x7b0\x7d"

/-- Bring the newest entry back into the working tree and keep it. -/
def stashApply (r : Repository) : Except CommandError Answer :=
  match r.stash with
  | [] => .error .noStashEntries
  | entry :: _ =>
      .ok ({ r with modified := addAllUnique r.modified entry.files }, r.restoreText entry)

/-- Bring the newest entry back into the working tree and drop it. -/
def stashPop (r : Repository) : Except CommandError Answer :=
  match r.stash with
  | [] => .error .noStashEntries
  | entry :: rest =>
      .ok ({ r with modified := addAllUnique r.modified entry.files, stash := rest },
        r.restoreText entry ++ "\n" ++ dropText)

/-- Drop the newest entry. -/
def stashDrop (r : Repository) : Except CommandError Answer :=
  match r.stash with
  | [] => .error .noStashEntries
  | _ :: rest => .ok ({ r with stash := rest }, dropText)

/-- Drop every entry. -/
def stashClear (r : Repository) : Answer :=
  ({ r with stash := [] }, "")

/-- Append a commit that refers to a given hash, which is not looked up. -/
def cherryPick {σ : Type} [Entropy σ] (r : Repository) (source : String) (e : σ) :
    Answer × σ :=
  let drawn := Entropy.hash e
  let message := "Cherry-picked commit " ++ source
  ((r.append [⟨drawn.1, message, r.author, []⟩],
    "[" ++ r.current ++ " " ++ drawn.1 ++ "] " ++ message), drawn.2)

/-- Put a file into the working tree as a modified file. -/
def touch (r : Repository) (file : String) : Answer :=
  ({ r with modified := addUnique r.modified file },
   "Created " ++ file ++ " (use 'git status' to see it)")

end Repository

end GitTutor
