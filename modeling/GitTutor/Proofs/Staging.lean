import GitTutor.Proofs.Atomicity

/-!
# Staging

What a list of pathspecs stages is described without going through it step by step: it
depends on the modified files from before the call only, so neither the order of the
pathspecs nor repeated ones matter. A commit of everything comes to the same as staging
the modified files first and committing what is staged then.
-/

namespace GitTutor

open Repository

section UniqueLists

variable {files more : List String}

/-- A list without repetitions keeps all its items when repeated ones are dropped. -/
theorem eraseDups_of_nodup (distinct : files.Nodup) : files.eraseDups = files := by
  induction files with
  | nil => rfl
  | cons file rest ih =>
      obtain ⟨new, distinct⟩ := List.nodup_cons.mp distinct
      have kept : rest.filter (fun f => !f == file) = rest := by
        apply List.filter_eq_self.mpr
        rintro f h
        have other : f ≠ file := fun same => new (same ▸ h)
        simpa using other
      rw [List.eraseDups_cons, kept, ih distinct]

/-- The new ones among the added items come at the end, each once, in the order in which they
first occur. -/
theorem addAllUnique_eq (files more : List String) :
    addAllUnique files more = files ++ (more.filter fun f => f ∉ files).eraseDups := by
  induction more generalizing files with
  | nil => exact (List.append_nil files).symm
  | cons file rest ih =>
      have once : addAllUnique files (file :: rest) = addAllUnique (addUnique files file) rest :=
        rfl
      rw [once, ih, addUnique]
      by_cases old : file ∈ files
      · rw [if_pos old, List.filter_cons_of_neg (by simpa using old)]
      · have both : (rest.filter fun f => f ∉ files).filter (fun f => !f == file) =
            rest.filter fun f => f ∉ files ++ [file] := by
          rw [List.filter_filter]
          refine List.filter_congr fun f _ => ?_
          by_cases same : f = file <;> simp [same]
        rw [if_neg old, List.filter_cons_of_pos (by simpa using old), List.eraseDups_cons, both,
          List.append_assoc, List.singleton_append]

theorem addAllUnique_of_nodup (distinct : more.Nodup) :
    addAllUnique files more = files ++ more.filter fun f => f ∉ files := by
  rw [addAllUnique_eq, eraseDups_of_nodup (distinct.filter _)]

/-- Files that are there already are not added again. -/
theorem addAllUnique_of_subset (h : more ⊆ files) :
    addAllUnique files more = files := by
  have none : more.filter (fun f => decide (f ∉ files)) = [] := by
    apply List.filter_eq_nil_iff.mpr
    intro file within
    simpa using h within
  rw [addAllUnique_eq, none, List.eraseDups_nil, List.append_nil]

theorem addAllUnique_twice (files more : List String) :
    addAllUnique (addAllUnique files more) more = addAllUnique files more := by
  apply addAllUnique_of_subset
  intro file within
  exact mem_addAllUnique.mpr (Or.inr within)

theorem nil_addAllUnique (distinct : files.Nodup) :
    addAllUnique [] files = files := by
  simp [addAllUnique_of_nodup distinct]

end UniqueLists

namespace Repository

section Pathspecs

variable {compile : PatternCompiler} {modified : List String}

/-- A pathspec can be staged: it is a plain path, or a well-formed pattern that matches a
modified file. -/
def Stageable (compile : PatternCompiler) (modified : List String) (path : String) : Prop :=
  Pathspec.isPattern path = true →
    ∃ test, compile path = some test ∧ ∃ file ∈ modified, test file = true

/-- A pathspec can be staged exactly if it stands for some file. -/
theorem stageable_iff {path : String} :
    Stageable compile modified path ↔ ¬ Unresolvable compile modified path := by
  simp [Stageable, Unresolvable]

/-- The files that a pathspec names: a plain path names itself, and a pattern the modified
files that it matches, in their order. -/
def named (compile : PatternCompiler) (modified : List String) (path : String) : List String :=
  if Pathspec.isPattern path then modified.filter ((compile path).getD fun _ => false)
  else [path]

theorem resolve_eq_ok_iff {path : String} {files : List String} :
    resolve compile modified path = .ok files ↔
      Stageable compile modified path ∧ named compile modified path = files := by
  unfold resolve Stageable named
  by_cases pattern : Pathspec.isPattern path = true
  · cases compiled : compile path with
    | none => simp [pattern]
    | some test =>
        by_cases hit : ∃ file ∈ modified, test file = true
        · have some : (modified.filter test).isEmpty = false := by
            simpa [List.filter_eq_nil_iff] using hit
          simp [pattern, some, hit]
        · have none : (modified.filter test).isEmpty = true := by
            simpa [List.filter_eq_nil_iff] using hit
          simp [pattern, none, hit]
  · simp [pattern]

/-- Pathspecs stand for files exactly if each of them can be staged, and then for the files that
they name, one pathspec after the other. -/
theorem resolveAll_eq_ok_iff {paths files : List String} :
    resolveAll compile modified paths = .ok files ↔
      (∀ path ∈ paths, Stageable compile modified path) ∧
        paths.flatMap (named compile modified) = files := by
  induction paths generalizing files with
  | nil => simp [resolveAll]
  | cons path rest ih =>
      rw [List.forall_mem_cons, List.flatMap_cons, resolveAll]
      constructor
      · intro resolved
        split at resolved
        · cases resolved
        · rename_i here first
          split at resolved
          · cases resolved
          · rename_i more later
            cases resolved
            obtain ⟨now, rfl⟩ := resolve_eq_ok_iff.mp first
            obtain ⟨all, rfl⟩ := ih.mp later
            exact ⟨⟨now, all⟩, rfl⟩
      · rintro ⟨⟨now, all⟩, rfl⟩
        rw [resolve_eq_ok_iff.mpr ⟨now, rfl⟩, ih.mpr ⟨all, rfl⟩]

/-- The repository after some files are staged: the new ones stand behind the staged files, each
once and in the order in which they first occur, and none of the files is modified any more. -/
def staging (r : Repository) (files : List String) : Repository :=
  { r with
    staged := r.staged ++ (files.filter fun f => f ∉ r.staged).eraseDups
    modified := r.modified.filter fun f => f ∉ files }

theorem foldl_stageFile_eq_staging (files : List String) (r : Repository) :
    files.foldl stageFile r = r.staging files := by
  rw [foldl_stageFile, addAllUnique_eq, staging]

theorem mem_staged_staging {r : Repository} {files : List String} {file : String} :
    file ∈ (r.staging files).staged ↔ file ∈ r.staged ∨ file ∈ files := by
  rw [staging, ← addAllUnique_eq, mem_addAllUnique]

theorem nodup_staged_staging {r : Repository} (distinct : r.staged.Nodup) (files : List String) :
    (r.staging files).staged.Nodup := by
  rw [staging, ← addAllUnique_eq]
  exact nodup_addAllUnique distinct files

end Pathspecs

end Repository

namespace Handler

variable {compile : PatternCompiler} {r : Repository} {paths : List String}

/-- Staging pathspecs succeeds exactly if each of them can be staged. -/
theorem add_paths_ok_iff {text : String} {after : Repository} :
    (add compile (.paths paths)).run r = .ok text after ↔
      (∀ path ∈ paths, Stageable compile r.modified path) ∧ text = "" ∧
        after = r.staging (paths.flatMap (named compile r.modified)) := by
  rw [add_run, Repository.add, addPaths]
  cases resolved : Repository.resolveAll compile r.modified paths with
  | error cause =>
      have refused : ¬ ∀ path ∈ paths, Stageable compile r.modified path := by
        intro all
        rw [resolveAll_eq_ok_iff.mpr ⟨all, rfl⟩] at resolved
        cases resolved
      simp [ending, refused]
  | ok files =>
      obtain ⟨all, rfl⟩ := resolveAll_eq_ok_iff.mp resolved
      simp only [ending, foldl_stageFile_eq_staging, EStateM.Result.ok.injEq]
      constructor
      · rintro ⟨rfl, rfl⟩
        exact ⟨all, rfl, rfl⟩
      · rintro ⟨_, rfl, rfl⟩
        exact ⟨rfl, rfl⟩

/-- Staging pathspecs is refused, without any change, if one of them cannot be staged. -/
theorem add_paths_refused (bad : ∃ path ∈ paths, ¬ Stageable compile r.modified path) :
    ∃ cause, (add compile (.paths paths)).run r = .error cause r := by
  obtain ⟨path, within, refused⟩ := bad
  rw [stageable_iff, Classical.not_not] at refused
  exact add_refused_iff.mpr ⟨path, within, refused⟩

theorem add_paths_ok_iff_all :
    (∃ text after, (add compile (.paths paths)).run r = .ok text after) ↔
      ∀ path ∈ paths, Stageable compile r.modified path := by
  constructor
  · rintro ⟨text, after, done⟩
    exact (add_paths_ok_iff.mp done).1
  · intro all
    exact ⟨"", _, add_paths_ok_iff.mpr ⟨all, rfl, rfl⟩⟩

/-- What staging pathspecs does, however patterns are read. It succeeds exactly if every pattern
is well-formed and matches a modified file, and then it stages the files that the pathspecs
name; otherwise it changes nothing. The same pathspecs in another order or repeated succeed
alike and leave the same modified files and the same set of staged ones. -/
theorem add_paths_stages (compile : PatternCompiler) (r : Repository) (paths : List String) :
    (∀ text after, (add compile (.paths paths)).run r = .ok text after ↔
      (∀ path ∈ paths, Stageable compile r.modified path) ∧ text = "" ∧
        after = r.staging (paths.flatMap (named compile r.modified))) ∧
    ((∃ path ∈ paths, ¬ Stageable compile r.modified path) →
      ∃ cause, (add compile (.paths paths)).run r = .error cause r) ∧
    (r.staged.Nodup →
      (r.staging (paths.flatMap (named compile r.modified))).staged.Nodup) ∧
    ∀ others, (∀ path, path ∈ others ↔ path ∈ paths) →
      ((∃ text after, (add compile (.paths others)).run r = .ok text after) ↔
        ∃ text after, (add compile (.paths paths)).run r = .ok text after) ∧
      ∀ text after text' after', (add compile (.paths paths)).run r = .ok text after →
        (add compile (.paths others)).run r = .ok text' after' →
          after'.modified = after.modified ∧
            ∀ file, file ∈ after'.staged ↔ file ∈ after.staged := by
  refine ⟨fun text after => add_paths_ok_iff, add_paths_refused, ?_, ?_⟩
  · intro distinct
    exact nodup_staged_staging distinct _
  · intro others same
    have named_iff : ∀ file, file ∈ others.flatMap (named compile r.modified) ↔
        file ∈ paths.flatMap (named compile r.modified) := by
      intro file
      simp only [List.mem_flatMap, same]
    constructor
    · simp only [add_paths_ok_iff_all, same]
    · intro text after text' after' done done'
      obtain ⟨_, _, rfl⟩ := add_paths_ok_iff.mp done
      obtain ⟨_, _, rfl⟩ := add_paths_ok_iff.mp done'
      constructor
      · refine List.filter_congr fun file _ => ?_
        rw [decide_eq_decide, named_iff]
      · intro file
        rw [mem_staged_staging, mem_staged_staging, named_iff]

/-- A pattern and a plain path overlap with each other and with what is staged: the new files
come in the order in which they are named first, and in reverse order the pathspecs stage the
same files. -/
theorem add_paths_stages_overlap :
    let compile : PatternCompiler := fun path =>
      if path = "[abd]" then some fun file => ["a", "b", "d"].contains file else none
    let r := { Repository.fresh Settings.standard with
      staged := ["b"], modified := ["a", "b", "c", "d"] }
    let paths := ["d", "[abd]", "e"]
    let staged := { r with staged := ["b", "d", "a", "e"], modified := ["c"] }
    (add compile (.paths paths)).run r = .ok "" staged ∧
      ∃ text after, (add compile (.paths paths.reverse)).run r = .ok text after ∧
        after.modified = staged.modified ∧
        ∀ file, file ∈ after.staged ↔ file ∈ staged.staged := by
  intro compile r paths staged
  obtain ⟨done, _, _, reordered⟩ := add_paths_stages compile r paths
  have all : ∀ path ∈ paths, Stageable compile r.modified path := by
    intro path within pattern
    have only : path = "[abd]" := by
      simp only [paths, List.mem_cons, List.not_mem_nil, or_false] at within
      rcases within with rfl | rfl | rfl
      · cases pattern
      · rfl
      · cases pattern
    subst only
    exact ⟨_, rfl, "a", by decide, by decide⟩
  have first : (add compile (.paths paths)).run r = .ok "" staged :=
    (done "" staged).mpr ⟨all, rfl, by decide⟩
  obtain ⟨alike, equal⟩ := reordered paths.reverse fun path => List.mem_reverse
  obtain ⟨text, after, second⟩ := alike.mpr ⟨"", staged, first⟩
  exact ⟨first, text, after, second, equal "" staged text after first second⟩

end Handler

namespace Repository

section Committing

variable {r : Repository}

/-- The requests that stage the modified files besides what is staged already: each by its
name, which then must not be a pattern, or all of them in place of nothing. -/
inductive StagesModified (r : Repository) : AddRequest → Prop
  | byName (plain : ∀ file ∈ r.modified, Pathspec.isPattern file = false) :
      StagesModified r (.paths r.modified)
  | everything (empty : r.staged = []) : StagesModified r .all

/-- The repository after all files that are to be committed are staged. -/
def stagingModified (r : Repository) : Repository :=
  { r with staged := r.filesToCommit true, modified := [] }

/-- Plain paths stand for themselves. -/
theorem resolveAll_of_plain {compile : PatternCompiler} {modified paths : List String}
    (plain : ∀ path ∈ paths, Pathspec.isPattern path = false) :
    resolveAll compile modified paths = .ok paths := by
  induction paths with
  | nil => rfl
  | cons path rest ih =>
      have itself : resolve compile modified path = .ok [path] := by
        rw [resolve, if_neg (Bool.eq_false_iff.mp (plain path List.mem_cons_self))]
      rw [resolveAll, itself, ih fun other h => plain other (List.mem_cons_of_mem path h)]
      rfl

theorem StagesModified.add_eq {request : AddRequest} (h : r.StagesModified request)
    (distinct : r.modified.Nodup) (compile : PatternCompiler) :
    r.add compile request = .ok (r.stagingModified, "") := by
  cases h with
  | byName plain =>
      have none : r.modified.filter (fun f => decide (f ∉ r.modified)) = [] := by
        simp [List.filter_eq_nil_iff]
      simp only [Repository.add, addPaths, resolveAll_of_plain plain, foldl_stageFile, none]
      rfl
  | everything empty =>
      have same : r.filesToCommit true = r.modified := by
        rw [filesToCommit, if_pos rfl, empty, nil_addAllUnique distinct]
      simp only [Repository.add, addEverything, stagingModified, same]

variable {σ : Type} [Entropy σ] {request : CommitRequest} {e : σ}

/-- The commit that a request is to record under a hash. -/
def nextCommit (r : Repository) (request : CommitRequest) (hash : String) : Commit :=
  ⟨hash, request.message, r.author, r.filesToCommit request.all⟩

/-- What recording a commit prints. -/
def commitText (r : Repository) (c : Commit) : String :=
  "[" ++ r.current ++ " " ++ c.hash ++ "] " ++ c.message ++ "\n " ++ Nat.repr c.files.length ++
    " file(s) changed"

theorem commit_of_nothing (none : r.filesToCommit request.all = []) :
    r.commit request e = ((r, "nothing to commit, working tree clean"), e) := by
  rw [commit, nothingToCommit_eq, none]
  rfl

theorem commit_of_files (some : r.filesToCommit request.all ≠ []) :
    r.commit request e =
      (({ r.append [r.nextCommit request (Entropy.hash e).1] with
          staged := []
          modified := if request.all then [] else r.modified },
        r.commitText (r.nextCommit request (Entropy.hash e).1)), (Entropy.hash e).2) := by
  rw [commit, nothingToCommit_eq, if_neg (mt List.isEmpty_iff.mp some)]
  rfl

/-- What a commit comes to records a commit: the current log is continued by it. -/
def Records (r : Repository) (outcome : Answer × σ) (c : Commit) : Prop :=
  outcome.1.1.currentLog = r.currentLog ++ [c]

/-- Only a request with files to commit records a commit, and it is the one that is due. -/
theorem records_iff {c : Commit} :
    r.Records (r.commit request e) c ↔
      r.filesToCommit request.all ≠ [] ∧ r.nextCommit request (Entropy.hash e).1 = c := by
  unfold Records
  by_cases none : r.filesToCommit request.all = []
  · rw [commit_of_nothing none]
    simp [none]
  · have grown : ∀ c, (r.append [c]).currentLog = r.currentLog ++ [c] := by
      intro c
      exact (log_append r [c] r.current).trans (if_pos rfl)
    rw [commit_of_files none]
    change (r.append _).currentLog = _ ↔ _
    rw [grown]
    simp [none]

/-- Committing everything is committing what is staged after the modified files are. -/
theorem commit_all_eq (message : String) :
    r.commit ⟨message, true⟩ e = r.stagingModified.commit ⟨message, false⟩ e := by
  by_cases none : r.filesToCommit true = []
  · obtain ⟨staged, modified⟩ := addAllUnique_eq_nil_iff.mp none
    have same : r.stagingModified = r := by
      rw [stagingModified, none]
      cases r
      cases staged
      cases modified
      rfl
    have nothing : r.filesToCommit false = [] := staged
    rw [same, commit_of_nothing none, commit_of_nothing nothing]
  · have again : r.stagingModified.filesToCommit false ≠ [] := none
    rw [commit_of_files none, commit_of_files again]
    rfl

theorem staged_commit (r : Repository) (request : CommitRequest) (e : σ) :
    (r.commit request e).1.1.staged = [] := by
  by_cases none : r.filesToCommit request.all = []
  · rw [commit_of_nothing none]
    exact (filesToCommit_eq_nil_iff.mp none).1
  · rw [commit_of_files none]

theorem modified_commit_all (r : Repository) (message : String) (e : σ) :
    (r.commit ⟨message, true⟩ e).1.1.modified = [] := by
  by_cases none : r.filesToCommit true = []
  · rw [commit_of_nothing none]
    exact (addAllUnique_eq_nil_iff.mp none).2
  · rw [commit_of_files none]
    rfl

/-- Committing everything is staging first. If all names are distinct, it comes to the same
text, repository and source as staging the modified files, by their names or all at once where
nothing is staged, and committing without them, and it records a commit exactly if something
is staged in between. With or without the modified files, a commit is recorded exactly if
there is a file for it, and nothing changes otherwise; its files are distinct, not none, and
counted in the text; nothing is staged in the end, and after a commit of everything nothing is
modified either. -/
theorem commit_all_stages_first (compile : PatternCompiler) (r : Repository)
    (staged : r.staged.Nodup) (modified : r.modified.Nodup) (message : String) (e : σ) :
    (∀ request, r.StagesModified request → ∃ between,
      (Handler.add compile request).run r = .ok "" between ∧
      r.commit ⟨message, true⟩ e = between.commit ⟨message, false⟩ e ∧
      ((∃ c, r.Records (r.commit ⟨message, true⟩ e) c) ↔ between.staged ≠ [])) ∧
    ∀ all, let outcome := r.commit ⟨message, all⟩ e
      ((∃ c, r.Records outcome c) ↔ r.staged ≠ [] ∨ all = true ∧ r.modified ≠ []) ∧
      ((∃ c, r.Records outcome c) ∨ outcome.1.1 = r ∧ outcome.2 = e) ∧
      (∀ c, r.Records outcome c →
        c.files ≠ [] ∧ c.files.Nodup ∧ outcome.1.2 = r.commitText c) ∧
      outcome.1.1.staged = [] ∧ (all = true → outcome.1.1.isClean = true) := by
  have recorded : ∀ all, (∃ c, r.Records (r.commit ⟨message, all⟩ e) c) ↔
      r.filesToCommit all ≠ [] := by
    intro all
    constructor
    · rintro ⟨c, h⟩
      exact (records_iff.mp h).1
    · intro some
      exact ⟨_, records_iff.mpr ⟨some, rfl⟩⟩
  constructor
  · intro request h
    refine ⟨r.stagingModified, ?_, commit_all_eq message, recorded true⟩
    rw [Handler.add_run, h.add_eq modified]
    rfl
  · intro all outcome
    refine ⟨?_, ?_, ?_, staged_commit r _ e, ?_⟩
    · rw [recorded, ne_eq, filesToCommit_eq_nil_iff, Classical.not_and_iff_not_or_not,
        Classical.not_not]
    · by_cases none : r.filesToCommit all = []
      · have same : outcome = ((r, _), e) := commit_of_nothing none
        exact Or.inr ⟨by rw [same], by rw [same]⟩
      · exact Or.inl ((recorded all).mpr none)
    · intro c h
      obtain ⟨some, rfl⟩ := records_iff.mp h
      refine ⟨some, nodup_filesToCommit staged all, ?_⟩
      have done : outcome = _ := commit_of_files some
      rw [done]
    · rintro rfl
      rw [isClean, staged_commit, modified_commit_all]
      rfl

/-- A file that is staged and modified is committed once, in its place among the staged ones. -/
theorem commit_all_stages_first_overlap :
    let r := { Repository.fresh Settings.standard with
      staged := ["b", "a"], modified := ["a", "c"] }
    let outcome := r.commit ⟨"done", true⟩ Counter.zero
    (∃ between, (Handler.add (fun _ => none) (.paths ["a", "c"])).run r = .ok "" between ∧
      outcome = between.commit ⟨"done", false⟩ Counter.zero) ∧
    (∃ c, r.Records outcome c ∧ c.files.Nodup ∧ outcome.1.2 = r.commitText c) ∧
    outcome.1.2 = "[main 0000001] done\n 3 file(s) changed" := by
  intro r outcome
  obtain ⟨first, records⟩ := commit_all_stages_first (fun _ => none) r (by decide) (by decide)
    "done" Counter.zero
  obtain ⟨between, done, same, _⟩ := first (.paths ["a", "c"]) (.byName (by decide))
  obtain ⟨due, _, counted, _⟩ := records true
  obtain ⟨c, recorded⟩ := due.mpr (Or.inl (by decide))
  obtain ⟨_, distinct, text⟩ := counted c recorded
  exact ⟨⟨between, done, same⟩, ⟨c, recorded, distinct, text⟩, by decide +kernel⟩

end Committing

end Repository

end GitTutor
