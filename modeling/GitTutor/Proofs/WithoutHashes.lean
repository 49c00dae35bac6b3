import GitTutor.Entropy.Seeded
import GitTutor.Proofs.Effect

/-!
# Hashes aside

A repository without its hashes has the commits of the original, each with an
empty hash. What a command does to it and whether it is refused can be found in
that repository alone, so two sessions that agree without their hashes still agree
after any step, wherever their hashes come from.
-/

namespace GitTutor

open Repository Text

/-- A commit without its hash. -/
def Commit.withoutHash (c : Commit) : Commit :=
  { c with hash := "" }

namespace Repository

/-- A repository without the hashes of its commits. -/
def withoutHashes (r : Repository) : Repository :=
  { r with logs := r.logs.map (List.map Commit.withoutHash) }

section Parts

variable (r : Repository)

@[simp] theorem current_withoutHashes : r.withoutHashes.current = r.current := rfl

@[simp] theorem modified_withoutHashes : r.withoutHashes.modified = r.modified := rfl

@[simp] theorem stash_withoutHashes : r.withoutHashes.stash = r.stash := rfl

@[simp] theorem isClean_withoutHashes : r.withoutHashes.isClean = r.isClean := rfl

@[simp] theorem hasBranch_withoutHashes (name : String) :
    r.withoutHashes.hasBranch name = r.hasBranch name := rfl

@[simp] theorem filesToCommit_withoutHashes (all : Bool) :
    r.withoutHashes.filesToCommit all = r.filesToCommit all := rfl

theorem log_withoutHashes (name : String) :
    r.withoutHashes.log name = (r.log name).map Commit.withoutHash := by
  unfold log withoutHashes
  rw [Table.get?_map]
  cases r.logs.get? name <;> rfl

theorem currentLog_withoutHashes :
    r.withoutHashes.currentLog = r.currentLog.map Commit.withoutHash :=
  r.log_withoutHashes r.current

theorem incoming_withoutHashes (name : String) :
    r.withoutHashes.incoming name = (r.incoming name).map Commit.withoutHash := by
  rw [incoming, incoming, log_withoutHashes, currentLog_withoutHashes, List.length_map,
    List.map_drop]

theorem fork_withoutHashes (name : String) :
    (r.fork name).withoutHashes = r.withoutHashes.fork name := by
  rw [fork, fork, currentLog_withoutHashes]
  simp only [withoutHashes, Table.map_insert]

theorem append_withoutHashes (commits : List Commit) :
    (r.append commits).withoutHashes =
      r.withoutHashes.append (commits.map Commit.withoutHash) := by
  rw [append, append, currentLog_withoutHashes, ← List.map_append]
  simp only [withoutHashes, Table.map_insert]

theorem record_withoutHashes (request : CommitRequest) (hash : String) :
    (r.record request hash).1.withoutHashes = (r.withoutHashes.record request "").1 := by
  have appended := r.append_withoutHashes
    [⟨hash, request.message, r.author, r.filesToCommit request.all⟩]
  exact congrArg (fun recorded => { recorded with
    staged := []
    modified := if request.all then [] else r.modified }) appended

/-- What committing leaves behind, hashes aside, whatever is drawn. -/
theorem commit_withoutHashes {σ : Type} [Entropy σ] (request : CommitRequest) (e : σ) :
    (r.commit request e).1.1.withoutHashes =
      if r.withoutHashes.filesToCommit request.all = [] then r.withoutHashes
      else (r.withoutHashes.record request "").1 := by
  by_cases none : r.filesToCommit request.all = []
  · simp [commit, none]
  · simp [commit, none, record_withoutHashes]

/-- What a cherry-pick leaves behind, hashes aside, whatever is drawn. -/
theorem cherryPick_withoutHashes {σ : Type} [Entropy σ] (source : String) (e : σ) :
    (r.cherryPick source e).1.1.withoutHashes =
      r.withoutHashes.append
        [⟨"", "Cherry-picked commit " ++ source, r.withoutHashes.author, []⟩] :=
  r.append_withoutHashes _

end Parts

/-- What an update comes to, hashes aside, can be found without any hash. -/
def HashBlind (f : Repository → Except CommandError Answer) : Prop :=
  ∀ r, (f r).map (fun answer => answer.1.withoutHashes) = (f r.withoutHashes).map Prod.fst

theorem hashBlind_createBranch (name : String) : HashBlind fun r => r.createBranch name := by
  intro r
  by_cases old : r.hasBranch name
  · simp [createBranch, old, Except.map]
  · simp [createBranch, old, Except.map, fork_withoutHashes]

theorem hashBlind_deleteBranch (name : String) : HashBlind fun r => r.deleteBranch name := by
  intro r
  by_cases here : name = r.current
  · simp [deleteBranch, here, Except.map]
  · by_cases old : r.hasBranch name
    · simp only [deleteBranch, current_withoutHashes, hasBranch_withoutHashes, here, old, if_false,
        if_true]
      rfl
    · simp [deleteBranch, here, old, Except.map]

theorem hashBlind_checkoutNew (name : String) : HashBlind fun r => r.checkoutNew name := by
  intro r
  by_cases old : r.hasBranch name
  · simp [checkoutNew, old, Except.map]
  · simp only [checkoutNew, hasBranch_withoutHashes, old, ← fork_withoutHashes]
    rfl

theorem hashBlind_checkout (name : String) : HashBlind fun r => r.checkout name := by
  intro r
  by_cases old : r.hasBranch name
  · by_cases here : name = r.current
    · subst here
      simp [checkout, old, Except.map]
    · simp only [checkout, hasBranch_withoutHashes, current_withoutHashes, old, here]
      rfl
  · simp [checkout, old, Except.map]

theorem hashBlind_add (compile : PatternCompiler) (request : AddRequest) :
    HashBlind fun r => r.add compile request := by
  intro r
  cases request with
  | all => rfl
  | paths paths =>
      cases resolved : resolveAll compile r.modified paths with
      | error cause => simp [Repository.add, addPaths, resolved, Except.map]
      | ok files =>
          simp only [Repository.add, addPaths, modified_withoutHashes, resolved, foldl_stageFile]
          rfl

theorem hashBlind_merge (name : String) : HashBlind fun r => r.merge name := by
  intro r
  by_cases old : r.hasBranch name
  · have nothing : r.withoutHashes.incoming name = [] ↔ r.incoming name = [] := by
      rw [incoming_withoutHashes, List.map_eq_nil_iff]
    by_cases stays : name = r.current ∨ r.incoming name = []
    · simp [merge, old, nothing, stays, Except.map]
    · simp only [merge, hasBranch_withoutHashes, current_withoutHashes, old, nothing, stays,
        if_true, if_false, Except.map]
      rw [append_withoutHashes, incoming_withoutHashes]
  · simp [merge, old, Except.map]

theorem hashBlind_stashPush (message : Option String) :
    HashBlind fun r => .ok (r.stashPush message) := by
  intro r
  by_cases clean : r.isClean = true
  · simp [stashPush, clean, Except.map]
  · simp only [stashPush, isClean_withoutHashes, clean]
    rfl

theorem hashBlind_stashApply : HashBlind stashApply := by
  intro r
  cases newest : r.stash with
  | nil => simp [stashApply, newest, Except.map]
  | cons entry rest =>
      simp only [stashApply, stash_withoutHashes, newest]
      rfl

theorem hashBlind_stashPop : HashBlind stashPop := by
  intro r
  cases newest : r.stash with
  | nil => simp [stashPop, newest, Except.map]
  | cons entry rest =>
      simp only [stashPop, stash_withoutHashes, newest]
      rfl

theorem hashBlind_stashDrop : HashBlind stashDrop := by
  intro r
  cases newest : r.stash with
  | nil => simp [stashDrop, newest, Except.map]
  | cons entry rest =>
      simp only [stashDrop, stash_withoutHashes, newest]
      rfl

/-- Whether a report of the log is refused can be found without any hash. -/
theorem logReport_withoutHashes (r : Repository) (request : LogRequest) :
    (r.logReport request).map (fun _ => ()) =
      (r.withoutHashes.logReport request).map fun _ => () := by
  by_cases old : r.hasBranch (request.branch.getD r.current)
  · simp [logReport, old, Except.map]
  · simp [logReport, old, Except.map]

theorem rebaseReport_withoutHashes (r : Repository) (branch : String) :
    (r.rebaseReport branch).map (fun _ => ()) =
      (r.withoutHashes.rebaseReport branch).map fun _ => () := by
  by_cases old : r.hasBranch branch
  · by_cases here : branch = r.current
    · subst here
      simp [rebaseReport, old, Except.map]
    · simp [rebaseReport, old, here, Except.map]
  · simp [rebaseReport, old, Except.map]

end Repository

/-- What an entry says beside its output: the line, and whether it failed. -/
def Entry.verdict (entry : Entry) : String × Bool :=
  (entry.command, entry.isError)

namespace Session

variable {σ τ : Type} [Entropy σ] [Entropy τ]

/-- What a command comes to, hashes aside: the repository after it or the cause of a refusal. -/
def outcome (s : Session σ) (command : Command) : Except CommandError Repository :=
  (s.perform command).map fun effect => effect.1.1.withoutHashes

/-- Two sessions, each with hashes of its own, that read patterns alike, whose repositories are
the same without hashes and whose transcripts tell the same lines and failures. -/
structure SameButHashes (s : Session σ) (s' : Session τ) : Prop where
  compile : s.compile = s'.compile
  repository : s.repository.withoutHashes = s'.repository.withoutHashes
  transcript : s.transcript.map Entry.verdict = s'.transcript.map Entry.verdict

section Outcomes

variable {s : Session σ} {s' : Session τ}

omit [Entropy σ] in
/-- The outcome of an update that looks at no hash is found in the repository without hashes. -/
theorem outcome_becomes {f : Repository → Except CommandError Answer} (blind : HashBlind f)
    (s : Session σ) :
    ((f s.repository).map s.becomes).map (fun effect => effect.1.1.withoutHashes) =
      (f s.repository.withoutHashes).map Prod.fst := by
  rw [← blind s.repository]
  cases f s.repository <;> rfl

omit [Entropy σ] [Entropy τ] in
theorem outcome_becomes_eq {f : Repository → Except CommandError Answer} (blind : HashBlind f)
    (same : s.repository.withoutHashes = s'.repository.withoutHashes) :
    ((f s.repository).map s.becomes).map (fun effect => effect.1.1.withoutHashes) =
      ((f s'.repository).map s'.becomes).map fun effect => effect.1.1.withoutHashes := by
  rw [outcome_becomes blind s, outcome_becomes blind s', same]

omit [Entropy σ] [Entropy τ] in
/-- Reports leave alike repositories alike when the same ones of them are refused. -/
theorem outcome_shows_eq {report report' : Except CommandError String}
    (refused : report.map (fun _ => ()) = report'.map fun _ => ())
    (same : s.repository.withoutHashes = s'.repository.withoutHashes) :
    (report.map s.shows).map (fun effect => effect.1.1.withoutHashes) =
      (report'.map s'.shows).map fun effect => effect.1.1.withoutHashes := by
  cases report with
  | error cause =>
      cases report' with
      | error cause' =>
          cases refused
          rfl
      | ok text' => cases refused
  | ok text =>
      cases report' with
      | error cause' => cases refused
      | ok text' => exact congrArg Except.ok same

/-- Sessions whose repositories are the same without hashes take every command to the same
outcome: no command looks at a hash before it decides. -/
theorem outcome_eq (compile : s.compile = s'.compile)
    (same : s.repository.withoutHashes = s'.repository.withoutHashes) (command : Command) :
    s.outcome command = s'.outcome command := by
  have shown : (Except.ok s.repository.withoutHashes : Except CommandError Repository) =
      .ok s'.repository.withoutHashes := congrArg Except.ok same
  cases command with
  | version => exact shown
  | config request =>
      cases request with
      | set key value =>
          exact outcome_becomes_eq (f := fun r => .ok (r.setIdentity key value)) (fun _ => rfl) same
      | _ => exact shown
  | init => exact shown
  | status => exact shown
  | branch request =>
      cases request with
      | list => exact shown
      | create name => exact outcome_becomes_eq (hashBlind_createBranch name) same
      | delete name => exact outcome_becomes_eq (hashBlind_deleteBranch name) same
  | checkout request =>
      cases request with
      | create name => exact outcome_becomes_eq (hashBlind_checkoutNew name) same
      | switch name => exact outcome_becomes_eq (hashBlind_checkout name) same
  | add request =>
      have added := outcome_becomes_eq (hashBlind_add s.compile request) same
      rw [outcome, outcome, perform, perform, added, compile]
  | commit request =>
      have left := s.repository.commit_withoutHashes request s.entropy
      rw [same, ← s'.repository.commit_withoutHashes request s'.entropy] at left
      exact congrArg Except.ok left
  | log request =>
      refine outcome_shows_eq ?_ same
      rw [logReport_withoutHashes, same, ← logReport_withoutHashes]
  | merge branch => exact outcome_becomes_eq (hashBlind_merge branch) same
  | pull request => exact shown
  | push request => exact shown
  | clone url => exact shown
  | stash request =>
      cases request with
      | push message => exact outcome_becomes_eq (hashBlind_stashPush message) same
      | list => exact shown
      | apply => exact outcome_becomes_eq hashBlind_stashApply same
      | pop => exact outcome_becomes_eq hashBlind_stashPop same
      | drop => exact outcome_becomes_eq hashBlind_stashDrop same
      | clear => exact outcome_becomes_eq (f := fun r => .ok r.stashClear) (fun _ => rfl) same
  | rebase branch =>
      refine outcome_shows_eq ?_ same
      rw [rebaseReport_withoutHashes, same, ← rebaseReport_withoutHashes]
  | cherryPick hash =>
      have left := s.repository.cherryPick_withoutHashes hash s.entropy
      rw [same, ← s'.repository.cherryPick_withoutHashes hash s'.entropy] at left
      exact congrArg Except.ok left

end Outcomes

namespace SameButHashes

variable {s : Session σ} {s' : Session τ}

/-- A line fails in both sessions or in neither, and leaves both repositories with the same
commits, hashes aside. -/
theorem execute (h : s.SameButHashes s') (line : String) :
    (s.execute line).SameButHashes (s'.execute line) := by
  rw [execute_eq, execute_eq, answer, answer]
  cases Command.ofLine (trimmed line) with
  | error cause =>
      refine ⟨h.compile, h.repository, ?_⟩
      simp only [note, List.map_append, h.transcript]
  | ok command =>
      have outcomes := outcome_eq h.compile h.repository command
      unfold outcome at outcomes
      simp only
      cases done : s.perform command with
      | error cause =>
          cases done' : s'.perform command with
          | error cause' =>
              refine ⟨h.compile, h.repository, ?_⟩
              simp only [note, List.map_append, h.transcript]
              rfl
          | ok effect' =>
              rw [done, done'] at outcomes
              cases outcomes
      | ok effect =>
          cases done' : s'.perform command with
          | error cause' =>
              rw [done, done'] at outcomes
              cases outcomes
          | ok effect' =>
              rw [done, done'] at outcomes
              refine ⟨h.compile, Except.ok.inj outcomes, ?_⟩
              simp only [note, settle, List.map_append, h.transcript]
              rfl

theorem touch (h : s.SameButHashes s') (file : String) :
    (s.touch (some file)).SameButHashes (s'.touch (some file)) := by
  refine ⟨h.compile, ?_, ?_⟩
  · exact congrArg (fun r => (r.touch file).1) h.repository
  · simp only [Session.touch, note, List.map_append, h.transcript]
    rfl

theorem step (h : s.SameButHashes s') {step : Step} (named : step ≠ .touch none) :
    (s.step step).SameButHashes (s'.step step) := by
  cases step with
  | execute line => exact h.execute line
  | touch name =>
      cases name with
      | none => exact absurd rfl named
      | some file => exact h.touch file
  | clear => exact ⟨h.compile, h.repository, rfl⟩

theorem run (h : s.SameButHashes s') {steps : List Step} (named : .touch none ∉ steps) :
    (s.run steps).SameButHashes (s'.run steps) := by
  induction steps generalizing s s' with
  | nil => exact h
  | cons first rest ih =>
      rw [List.mem_cons, not_or] at named
      exact ih (h.step (Ne.symm named.1)) named.2

omit [Entropy σ] [Entropy τ] in
/-- Sessions that start with the same settings but for the hash of the first commit. -/
theorem start (compile : PatternCompiler) (settings : Settings) (hash : String) (e : σ) (e' : τ) :
    (startWith compile settings e).SameButHashes
      (startWith compile { settings with seedHash := hash } e') :=
  ⟨rfl, rfl, rfl⟩

end SameButHashes

/-- Hashes never influence behaviour. Two sessions whose settings differ at most in the hash of
the first commit, and which draw from any two sources, end the same steps with the same
repository, hashes aside, and with the same lines and failures in their transcripts, as long
as every file that is put into the tree is named. -/
theorem hashes_never_influence (compile : PatternCompiler) (settings : Settings) (hash : String)
    (e : σ) (e' : τ) (steps : List Step) (named : .touch none ∉ steps) :
    let s := (startWith compile settings e).run steps
    let s' := (startWith compile { settings with seedHash := hash } e').run steps
    s.repository.withoutHashes = s'.repository.withoutHashes ∧
      s.transcript.map Entry.verdict = s'.transcript.map Entry.verdict := by
  intro s s'
  have same := (SameButHashes.start compile settings hash e e').run named
  exact ⟨same.repository, same.transcript⟩

/-- With a counter on one side and a generator on the other, a commit and a merge that is refused
leave repositories that differ in their hashes and in nothing else. -/
theorem hashes_never_influence_commit :
    let steps := [.touch (some "a.txt"), .execute "git commit -am one", .execute "git merge dev"]
    let s := (startWith (fun _ => none) Settings.standard Counter.zero).run steps
    let s' := (startWith (fun _ => none) { Settings.standard with seedHash := "0000001" }
      (Seeded.ofSeed 7)).run steps
    .touch none ∉ steps ∧ s.repository ≠ s'.repository ∧
      s.repository.withoutHashes = s'.repository.withoutHashes ∧
      s.transcript.map Entry.verdict = s'.transcript.map Entry.verdict := by
  intro steps s s'
  have named : .touch none ∉ steps := by decide
  refine ⟨named, by decide +kernel, ?_⟩
  exact hashes_never_influence (fun _ => none) Settings.standard "0000001" Counter.zero
    (Seeded.ofSeed 7) steps named

end Session

end GitTutor
