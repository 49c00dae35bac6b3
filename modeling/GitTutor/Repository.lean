import GitTutor.Table

/-!
# The practice repository

A repository keeps one log of commits per branch, the files staged for the next
commit, the files changed in the working tree, and a stack of shelved changes.
Logs list the oldest commit first. A branch that is created starts with a copy
of the log of the current branch; logs are never shared.
-/

namespace GitTutor

/-- A recorded commit. -/
structure Commit where
  hash : String
  message : String
  author : String
  files : List String
  deriving DecidableEq, Repr

/-- A shelved set of changes and the branch on which it was shelved. -/
structure StashEntry where
  message : String
  files : List String
  branch : String
  deriving DecidableEq, Repr

/-- The name and address that commits are made under. -/
structure Identity where
  name : String
  email : String
  deriving DecidableEq, Repr

/-- The whole practice repository. -/
structure Repository where
  /-- The branch that is checked out. -/
  current : String
  /-- The branches in the order of their creation. -/
  branches : List String
  /-- The log of every branch that exists or once existed, oldest commit first. -/
  logs : Table (List Commit)
  /-- The files of the next commit. -/
  staged : List String
  /-- The files changed in the working tree. -/
  modified : List String
  /-- The shelved changes, newest first. -/
  stash : List StashEntry
  remotes : Table String
  user : Identity
  deriving DecidableEq, Repr

/-- Put an item at the end of a list unless the list already holds it. -/
def addUnique (files : List String) (file : String) : List String :=
  if file ∈ files then files else files ++ [file]

/-- Put the items of a second list at the end of the first, skipping those that
are already there. -/
def addAllUnique (files : List String) (more : List String) : List String :=
  more.foldl addUnique files

theorem mem_addUnique {files : List String} {file x : String} :
    x ∈ addUnique files file ↔ x ∈ files ∨ x = file := by
  unfold addUnique
  split
  · constructor
    · exact Or.inl
    · rintro (h | rfl)
      · exact h
      · assumption
  · simp

theorem nodup_addUnique {files : List String} (h : files.Nodup) (file : String) :
    (addUnique files file).Nodup := by
  unfold addUnique
  split
  · exact h
  · rename_i new
    rw [List.nodup_append]
    refine ⟨h, by simp, ?_⟩
    rintro x hx y hy rfl
    exact new (List.mem_singleton.mp hy ▸ hx)

theorem mem_addAllUnique {files more : List String} {x : String} :
    x ∈ addAllUnique files more ↔ x ∈ files ∨ x ∈ more := by
  induction more generalizing files with
  | nil => simp [addAllUnique]
  | cons file rest ih =>
      change x ∈ addAllUnique (addUnique files file) rest ↔ _
      rw [ih, mem_addUnique, List.mem_cons, or_assoc]

theorem addAllUnique_eq_nil_iff {files more : List String} :
    addAllUnique files more = [] ↔ files = [] ∧ more = [] := by
  simp only [List.eq_nil_iff_forall_not_mem, mem_addAllUnique, not_or, forall_and]

theorem nodup_addAllUnique {files : List String} (h : files.Nodup) (more : List String) :
    (addAllUnique files more).Nodup := by
  induction more generalizing files with
  | nil => exact h
  | cons file rest ih => exact ih (nodup_addUnique h file)

namespace Repository

/-- Whether a branch of this name exists. -/
def hasBranch (r : Repository) (name : String) : Bool :=
  r.branches.contains name

/-- The log kept under a name, empty for unknown names. -/
def log (r : Repository) (name : String) : List Commit :=
  (r.logs.get? name).getD []

/-- The log of the branch that is checked out. -/
def currentLog (r : Repository) : List Commit :=
  r.log r.current

/-- Keep the first commit with each hash that is not in `seen`. -/
def firstWithHash (seen : List String) : List Commit → List Commit
  | [] => []
  | c :: cs =>
      if c.hash ∈ seen then firstWithHash seen cs
      else c :: firstWithHash (c.hash :: seen) cs

/-- Every commit of every branch, each hash once: branches in the order of
their creation, each log oldest first. -/
def allCommits (r : Repository) : List Commit :=
  firstWithHash [] (r.branches.flatMap r.log)

/-- The author recorded on new commits. -/
def author (r : Repository) : String :=
  if r.user.name = "" then "Unknown" else r.user.name

/-- Whether nothing is staged and nothing is modified. -/
def isClean (r : Repository) : Bool :=
  r.staged.isEmpty && r.modified.isEmpty

/-- Add a branch that starts with a copy of the current log. -/
def fork (r : Repository) (name : String) : Repository :=
  { r with branches := r.branches ++ [name], logs := r.logs.insert name r.currentLog }

/-- Put commits at the end of the current log. -/
def append (r : Repository) (commits : List Commit) : Repository :=
  { r with logs := r.logs.insert r.current (r.currentLog ++ commits) }

/-- A new branch starts with the current log and every other log stays. -/
theorem log_fork (r : Repository) (name other : String) :
    (r.fork name).log other = if other = name then r.currentLog else r.log other := by
  by_cases h : other = name <;> simp [fork, log, h]

/-- Only the current log grows. -/
theorem log_append (r : Repository) (commits : List Commit) (other : String) :
    (r.append commits).log other =
      if other = r.current then r.currentLog ++ commits else r.log other := by
  by_cases h : other = r.current <;> simp [append, log, h]

end Repository

end GitTutor
