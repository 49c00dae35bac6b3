import GitTutor.InPlace
import GitTutor.Repository.Update

/-!
# Handlers

A handler carries out an operation on the repository in place, one write after
the other. The `_run` statements compare every handler that can be refused with
the update of the same name: it ends as the update says, and when the update
refuses, the repository is as it was.
-/

namespace GitTutor

/-- A program on the repository in place. -/
abbrev Handler := InPlace Repository

namespace Handler

open Repository

/-- The ending that an update describes: a refusal leaves the repository as it was. -/
def ending (r : Repository) :
    Except CommandError Answer → EStateM.Result CommandError Repository String
  | .error cause => .error cause r
  | .ok answer => .ok answer.2 answer.1

/-- Carry out an update that cannot be refused. -/
def update (f : Repository → Answer) : Handler String :=
  modifyGet fun r => ((f r).2, (f r).1)

theorem update_run (f : Repository → Answer) (r : Repository) :
    (update f).run r = ending r (.ok (f r)) := rfl

/-- Refuse a name that a branch has. -/
def requireNew (name : String) : Handler Unit := do
  if (← get).hasBranch name then throw (.branchExists name)

theorem requireNew_run (name : String) (r : Repository) :
    (requireNew name).run r =
      if r.hasBranch name then .error (.branchExists name) r else .ok () r := by
  by_cases h : r.hasBranch name <;> simp [requireNew, h]

/-- Create a branch with a copy of the current log. -/
def createBranch (name : String) : Handler String := do
  requireNew name
  modify fun r => r.fork name
  return ""

theorem createBranch_run (name : String) (r : Repository) :
    (createBranch name).run r = ending r (r.createBranch name) := by
  by_cases h : r.hasBranch name <;>
    simp [createBranch, Repository.createBranch, requireNew_run, ending, h]

/-- Forget a branch; its log is kept. -/
def deleteBranch (name : String) : Handler String := do
  if name = (← get).current then throw (.cannotDeleteCurrent name)
  if !(← get).hasBranch name then throw (.branchNotFound name)
  modify fun r => { r with branches := r.branches.erase name }
  return "Deleted branch " ++ name

theorem deleteBranch_run (name : String) (r : Repository) :
    (deleteBranch name).run r = ending r (r.deleteBranch name) := by
  by_cases hc : name = r.current
  · simp [deleteBranch, Repository.deleteBranch, ending, hc]
  · by_cases h : r.hasBranch name <;>
      simp [deleteBranch, Repository.deleteBranch, ending, hc, h]

/-- Create a branch and switch to it. -/
def checkoutNew (name : String) : Handler String := do
  requireNew name
  modify fun r => r.fork name
  modify fun r => { r with current := name }
  return "Switched to a new branch '" ++ name ++ "'"

theorem checkoutNew_run (name : String) (r : Repository) :
    (checkoutNew name).run r = ending r (r.checkoutNew name) := by
  by_cases h : r.hasBranch name <;>
    simp [checkoutNew, Repository.checkoutNew, requireNew_run, ending, h]

/-- Switch to a branch. -/
def checkout (name : String) : Handler String := do
  if !(← get).hasBranch name then throw (.pathspecNotFound name)
  if name = (← get).current then return "Already on '" ++ name ++ "'"
  modify fun r => { r with current := name }
  return "Switched to branch '" ++ name ++ "'"

theorem checkout_run (name : String) (r : Repository) :
    (checkout name).run r = ending r (r.checkout name) := by
  by_cases h : r.hasBranch name
  · by_cases hc : name = r.current
    · subst hc
      simp [checkout, Repository.checkout, ending, h]
    · simp [checkout, Repository.checkout, ending, h, hc]
  · simp [checkout, Repository.checkout, ending, h]

/-- The files that one pathspec stands for. -/
def resolve (compile : PatternCompiler) (path : String) : Handler (List String) := do
  match Repository.resolve compile (← get).modified path with
  | .ok files => return files
  | .error cause => throw cause

theorem resolve_run (compile : PatternCompiler) (path : String) (r : Repository) :
    (resolve compile path).run r =
      match Repository.resolve compile r.modified path with
      | .ok files => .ok files r
      | .error cause => .error cause r := by
  cases h : Repository.resolve compile r.modified path <;> simp [resolve, h]

/-- The files that a list of pathspecs stands for, one pathspec after the other. -/
def resolveAll (compile : PatternCompiler) : List String → Handler (List String)
  | [] => return []
  | path :: rest => do
      let files ← resolve compile path
      let more ← resolveAll compile rest
      return files ++ more

theorem resolveAll_run (compile : PatternCompiler) (paths : List String) (r : Repository) :
    (resolveAll compile paths).run r =
      match Repository.resolveAll compile r.modified paths with
      | .ok files => .ok files r
      | .error cause => .error cause r := by
  induction paths with
  | nil => simp [resolveAll, Repository.resolveAll]
  | cons path rest ih =>
      cases h : Repository.resolve compile r.modified path with
      | error cause => simp [resolveAll, Repository.resolveAll, resolve_run, h]
      | ok files =>
          cases hr : Repository.resolveAll compile r.modified rest <;>
            simp [resolveAll, Repository.resolveAll, resolve_run, ih, h, hr]

/-- Stage files, one after the other. -/
def stageFiles : List String → Handler Unit
  | [] => return ()
  | file :: rest => do
      modify fun r => { r with modified := r.modified.filter fun f => f != file }
      modify fun r => { r with staged := addUnique r.staged file }
      stageFiles rest

theorem stageFiles_run (files : List String) (r : Repository) :
    (stageFiles files).run r = .ok () (files.foldl stageFile r) := by
  induction files generalizing r with
  | nil => simp [stageFiles]
  | cons file rest ih => simp [stageFiles, ih, stageFile]

/-- Carry out a request of `git add`. -/
def add (compile : PatternCompiler) : AddRequest → Handler String
  | .all => do
      let files := (← get).modified
      modify fun r => { r with modified := [] }
      modify fun r => { r with staged := files }
      return ""
  | .paths paths => do
      stageFiles (← resolveAll compile paths)
      return ""

theorem add_run (compile : PatternCompiler) (request : AddRequest) (r : Repository) :
    (add compile request).run r = ending r (r.add compile request) := by
  cases request with
  | all => simp [add, Repository.add, addEverything, ending]
  | paths paths =>
      cases h : Repository.resolveAll compile r.modified paths <;>
        simp [add, Repository.add, addPaths, resolveAll_run, stageFiles_run, ending, h]

/-- Merge a branch by position. -/
def merge (branch : String) : Handler String := do
  if !(← get).hasBranch branch then throw (.branchNotFound branch)
  if branch = (← get).current then return "Already up to date."
  let incoming := (← get).incoming branch
  if incoming = [] then return "Already up to date."
  modify fun r => r.append incoming
  return "Merge made by the 'recursive' strategy.\n " ++ Nat.repr incoming.length ++
    " commit(s) merged"

theorem merge_run (branch : String) (r : Repository) :
    (merge branch).run r = ending r (r.merge branch) := by
  by_cases h : r.hasBranch branch
  · by_cases hc : branch = r.current
    · subst hc
      simp [merge, Repository.merge, ending, h]
    · by_cases hi : r.incoming branch = [] <;> simp [merge, Repository.merge, ending, h, hc, hi]
  · simp [merge, Repository.merge, ending, h]

/-- Bring files back into the working tree, one after the other. -/
def restoreFiles : List String → Handler Unit
  | [] => return ()
  | file :: rest => do
      modify fun r => { r with modified := addUnique r.modified file }
      restoreFiles rest

theorem restoreFiles_run (files : List String) (r : Repository) :
    (restoreFiles files).run r =
      .ok () { r with modified := addAllUnique r.modified files } := by
  induction files generalizing r with
  | nil => simp [restoreFiles, addAllUnique]
  | cons file rest ih => simp [restoreFiles, ih, addAllUnique]

/-- Bring the newest entry back into the working tree, and drop it if asked to. -/
def restore (pop : Bool) : Handler String := do
  match (← get).stash with
  | [] => throw .noStashEntries
  | entry :: _ =>
      restoreFiles entry.files
      let text := (← get).restoreText entry
      if pop then
        modify fun r => { r with stash := r.stash.tail }
        return text ++ "\n" ++ dropText
      else return text

theorem restore_run (pop : Bool) (r : Repository) :
    (restore pop).run r = ending r (if pop then r.stashPop else r.stashApply) := by
  cases hs : r.stash with
  | nil => cases pop <;> simp [restore, stashPop, stashApply, ending, hs]
  | cons entry rest =>
      cases pop <;> simp [restore, stashPop, stashApply, restoreFiles_run, restoreText, ending, hs]

/-- Drop the newest entry. The entry is taken off before it is looked at. -/
def stashDrop : Handler String := do
  let newest := (← get).stash.head?
  modify fun r => { r with stash := r.stash.tail }
  if newest.isNone then throw .noStashEntries
  return dropText

theorem stashDrop_run (r : Repository) : (stashDrop).run r = ending r r.stashDrop := by
  cases hs : r.stash with
  | nil =>
      have unchanged : { r with stash := [] } = r := by rw [← hs]
      simp [stashDrop, Repository.stashDrop, ending, hs, unchanged]
  | cons entry rest => simp [stashDrop, Repository.stashDrop, ending, hs]

end Handler

end GitTutor
