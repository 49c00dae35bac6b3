import GitTutor.Proofs.WellFormed

/-!
# Files are kept

A file has four places: it is staged, modified, shelved, or recorded by a commit
of a branch. Apart from the few commands that discard, every command leaves each
file in one of the four, wherever it was, so no file is lost along a run.
-/

namespace GitTutor

open Repository Text

/-- Whether a command may take a file out of a repository for good: it deletes a branch, drops
shelved changes, or stages everything in place of a staged file that is not modified. -/
def Command.discards (r : Repository) : Command → Bool
  | .branch (.delete _) => true
  | .stash .drop => true
  | .stash .clear => true
  | .add .all => r.staged.any fun file => file ∉ r.modified
  | _ => false

theorem Command.discards_addAll {r : Repository} (h : (Command.add .all).discards r = false)
    {file : String} (staged : file ∈ r.staged) : file ∈ r.modified := by
  have all := List.any_eq_false.mp h file staged
  simpa using all

namespace Repository

/-- The places in which a repository holds a file. -/
inductive Holds (r : Repository) (file : String) : Prop
  | staged (h : file ∈ r.staged)
  | modified (h : file ∈ r.modified)
  | shelved (entry : StashEntry) (kept : entry ∈ r.stash) (h : file ∈ entry.files)
  | recorded (branch : String) (live : branch ∈ r.branches) (c : Commit)
      (logged : c ∈ r.log branch) (h : file ∈ c.files)

variable {r : Repository} {file : String}

/-- A commit takes up the staged files, and with `all` the modified ones. -/
theorem mem_filesToCommit {all : Bool} :
    file ∈ r.filesToCommit all ↔ file ∈ r.staged ∨ all = true ∧ file ∈ r.modified := by
  cases all <;> simp [filesToCommit, mem_addAllUnique]

/-- A file is held after a change that keeps branches and what their logs hold, if it is held
wherever the change puts the files that are not recorded. -/
theorem Holds.move {r' : Repository} (h : r.Holds file)
    (history : ∀ branch ∈ r.branches, branch ∈ r'.branches ∧ r.log branch ⊆ r'.log branch)
    (staged : file ∈ r.staged → r'.Holds file) (modified : file ∈ r.modified → r'.Holds file)
    (shelved : ∀ entry ∈ r.stash, file ∈ entry.files → r'.Holds file) : r'.Holds file := by
  cases h with
  | staged h => exact staged h
  | modified h => exact modified h
  | shelved entry kept h => exact shelved entry kept h
  | recorded branch live c logged h =>
      obtain ⟨live', grown⟩ := history branch live
      exact .recorded branch live' c (grown logged) h

/-- A change that keeps the files that are not recorded leaves every file where it is. -/
theorem Holds.stay {r' : Repository} (h : r.Holds file)
    (history : ∀ branch ∈ r.branches, branch ∈ r'.branches ∧ r.log branch ⊆ r'.log branch)
    (staged : r'.staged = r.staged) (modified : r'.modified = r.modified)
    (stash : r'.stash = r.stash) : r'.Holds file := by
  refine h.move history (fun h => .staged ?_) (fun h => .modified ?_)
    (fun entry kept h => .shelved entry ?_ h)
  · rw [staged]
    exact h
  · rw [modified]
    exact h
  · rw [stash]
    exact kept

/-- Branches and logs that are left alone. -/
theorem history_refl (branch : String) (live : branch ∈ r.branches) :
    branch ∈ r.branches ∧ r.log branch ⊆ r.log branch :=
  ⟨live, List.Subset.refl _⟩

theorem history_fork {name : String} (new : name ∉ r.branches) (branch : String)
    (live : branch ∈ r.branches) :
    branch ∈ (r.fork name).branches ∧ r.log branch ⊆ (r.fork name).log branch := by
  have other : branch ≠ name := by
    rintro rfl
    exact new live
  refine ⟨List.mem_append_left [name] live, ?_⟩
  rw [log_fork, if_neg other]
  exact List.Subset.refl _

theorem history_append (commits : List Commit) (branch : String) (live : branch ∈ r.branches) :
    branch ∈ (r.append commits).branches ∧ r.log branch ⊆ (r.append commits).log branch := by
  refine ⟨live, ?_⟩
  rw [log_append]
  split
  · rename_i here
    rw [here]
    exact List.subset_append_left _ commits
  · exact List.Subset.refl _

/-- A commit holds the files that it takes up, and every other file stays where it is. -/
theorem Holds.commit (known : r.current ∈ r.branches) {all : Bool} {c : Commit}
    (taken : c.files = r.filesToCommit all) (h : r.Holds file) :
    { r.append [c] with
      staged := []
      modified := if all then [] else r.modified }.Holds file := by
  have inLog : c ∈ (r.append [c]).log r.current := by
    rw [log_append, if_pos rfl]
    exact List.mem_append_right _ (List.mem_singleton.mpr rfl)
  by_cases up : file ∈ r.filesToCommit all
  · exact .recorded r.current known c inLog (taken ▸ up)
  · rw [mem_filesToCommit, not_or] at up
    refine h.move (history_append [c]) (fun h => absurd h up.1) (fun h => .modified ?_)
      fun entry kept h => .shelved entry kept h
    rw [if_neg fun asked => up.2 ⟨asked, h⟩]
    exact h

/-- Every transition of a command that does not discard leaves a held file in some place. -/
theorem Holds.transition {σ : Type} [Entropy σ] {compile : PatternCompiler} {r' : Repository}
    {e e' : σ} {command : Command} (known : r.current ∈ r.branches)
    (careful : command.discards r = false) (h : r.Holds file)
    (t : Transition compile r e command r' e') : r'.Holds file := by
  cases t with
  | report => exact h
  | push => exact h
  | identify => exact h.stay history_refl rfl rfl rfl
  | create name new => exact h.stay (history_fork new) rfl rfl rfl
  | delete => cases careful
  | branchOff name new => exact h.stay (history_fork new) rfl rfl rfl
  | switch => exact h.stay history_refl rfl rfl rfl
  | stageAll =>
      refine h.move history_refl (fun h => .staged ?_) (fun h => .staged h)
        fun entry kept h => .shelved entry kept h
      exact Command.discards_addAll careful h
  | stage paths files =>
      refine h.move history_refl (fun h => .staged ?_) (fun h => ?_)
        fun entry kept h => .shelved entry kept h
      · exact mem_addAllUnique.mpr (Or.inl h)
      · by_cases named : file ∈ files
        · exact .staged (mem_addAllUnique.mpr (Or.inr named))
        · exact .modified (List.mem_filter.mpr ⟨h, decide_eq_true named⟩)
  | commit => exact h.commit known rfl
  | commitNothing => exact h
  | merge branch => exact h.stay (history_append _) rfl rfl rfl
  | mergeNothing => exact h
  | shelve =>
      refine h.move history_refl (fun h => ?_) (fun h => ?_) fun entry kept h => ?_
      · exact .shelved _ List.mem_cons_self (mem_addAllUnique.mpr (Or.inr h))
      · exact .shelved _ List.mem_cons_self (mem_addAllUnique.mpr (Or.inl h))
      · exact .shelved entry (List.mem_cons_of_mem _ kept) h
  | shelveNothing => exact h
  | restore entry =>
      refine h.move history_refl (fun h => .staged h) (fun h => .modified ?_)
        fun other kept h => .shelved other kept h
      exact mem_addAllUnique.mpr (Or.inl h)
  | pop entry rest newest =>
      refine h.move history_refl (fun h => .staged h) (fun h => .modified ?_)
        fun older kept h => ?_
      · exact mem_addAllUnique.mpr (Or.inl h)
      · rw [newest] at kept
        rcases List.mem_cons.mp kept with rfl | kept
        · exact .modified (mem_addAllUnique.mpr (Or.inr h))
        · exact .shelved older kept h
  | drop => cases careful
  | dropAll => cases careful
  | cherryPick => exact h.stay (history_append _) rfl rfl rfl

end Repository

namespace Session

variable {σ : Type} [Entropy σ]

/-- No command that a step carries out discards anything. -/
def Careful (s : Session σ) (step : Step) : Prop :=
  ∀ command, s.CarriesOut step command → command.discards s.repository = false

/-- How a file comes into a repository: it is put into the working tree, or a list of
pathspecs that is staged stands for it. -/
inductive Brings (s : Session σ) : Step → String → Prop
  | touched (name : Option String) : Brings s (.touch name) (chooseFile s.entropy name).1
  | staged {step : Step} {paths files : List String} {file : String}
      (done : s.CarriesOut step (.add (.paths paths)))
      (resolved : Repository.resolveAll s.compile s.repository.modified paths = .ok files)
      (named : file ∈ files) : Brings s step file

variable {s : Session σ} {step : Step} {file : String}

/-- Only lines that are read as a command need a look at what it discards. -/
theorem careful_of_read {line : String} {command : Command}
    (read : Command.ofLine (trimmed line) = .ok command)
    (careful : command.discards s.repository = false) : s.Careful (.execute line) := by
  intro other done
  rw [done.command_eq read]
  exact careful

theorem careful_touch (name : Option String) : s.Careful (.touch name) := by
  rintro command ⟨_, _, same, _⟩
  cases same

/-- A file that a step brings is held after it. -/
theorem Brings.holds (h : s.Brings step file) : (s.step step).repository.Holds file := by
  cases h with
  | touched name => exact .modified (mem_addUnique.mpr (Or.inr rfl))
  | @staged _ paths files _ done resolved named =>
      obtain ⟨line, _, rfl, read, _⟩ := done
      have performed : s.perform (.add (.paths paths)) =
          .ok (s.becomes (files.foldl stageFile s.repository, "")) := by
        simp only [perform, Repository.add, addPaths, resolved, Except.map]
      rw [Session.step, execute_of_perform read performed]
      refine .staged ?_
      change file ∈ (files.foldl stageFile s.repository).staged
      rw [foldl_stageFile]
      exact mem_addAllUnique.mpr (Or.inr named)

/-- A careful step leaves a held file in some place. -/
theorem holds_step (known : s.repository.current ∈ s.repository.branches)
    (careful : s.Careful step) (h : s.repository.Holds file) :
    (s.step step).repository.Holds file := by
  have moves := step_moves s step
  generalize (s.step step).repository = r' at moves ⊢
  generalize (s.step step).entropy = e' at moves
  cases moves with
  | refused => exact h
  | command done change => exact h.transition known (careful _ done) change
  | touch =>
      refine h.move history_refl (fun h => .staged h) (fun h => .modified ?_)
        fun entry kept h => .shelved entry kept h
      exact mem_addUnique.mpr (Or.inl h)
  | clear => exact h

theorem holds_run {seed : Commit} {steps : List Step} (w : s.repository.WellFormed seed)
    (careful : s.EveryStep steps Careful) (h : s.repository.Holds file) :
    (s.run steps).repository.Holds file := by
  induction steps generalizing s with
  | nil => exact h
  | cons first rest ih =>
      obtain ⟨now, later⟩ := everyStep_cons.mp careful
      exact ih (wellFormed_step s first w) later (holds_step w.current_mem now h)

/-- No file is lost: along a run in which no command discards, every file that was put into
the working tree or staged by its path is staged, modified, shelved or recorded by a commit
of a branch in the end. -/
theorem no_file_lost (compile : PatternCompiler) (settings : Settings) (entropy : σ)
    (steps : List Step)
    (careful : (startWith compile settings entropy).EveryStep steps Careful) :
    let s := startWith compile settings entropy
    ∀ earlier step file, earlier ++ [step] <+: steps → (s.run earlier).Brings step file →
      (s.run steps).repository.Holds file := by
  rintro s earlier step file ⟨later, rfl⟩ brought
  rw [run_append]
  refine holds_run (wellFormed_run compile settings entropy _) careful.later ?_
  rw [run_append]
  exact brought.holds

/-- A file that is touched, staged, shelved, brought back and committed with everything else
is recorded in the end. -/
theorem no_file_lost_shelved :
    let s := startWith (fun _ => none) Settings.standard Counter.zero
    let steps := [.touch (some "a.txt"), .execute "git add a.txt", .execute "git stash",
      .execute "git checkout -b dev", .execute "git stash pop", .touch none,
      .execute "git add .", .execute "git commit -m done"]
    s.EveryStep steps Careful ∧ (s.run steps).repository.Holds "a.txt" := by
  intro s steps
  have careful : s.EveryStep steps Careful := by
    refine everyStep_cons.mpr ⟨careful_touch _, ?_⟩
    refine everyStep_cons.mpr ⟨careful_of_read rfl rfl, ?_⟩
    refine everyStep_cons.mpr ⟨careful_of_read rfl rfl, ?_⟩
    refine everyStep_cons.mpr ⟨careful_of_read rfl rfl, ?_⟩
    refine everyStep_cons.mpr ⟨careful_of_read rfl rfl, ?_⟩
    refine everyStep_cons.mpr ⟨careful_touch _, ?_⟩
    refine everyStep_cons.mpr ⟨careful_of_read rfl (by decide +kernel), ?_⟩
    exact everyStep_cons.mpr ⟨careful_of_read rfl rfl, everyStep_nil⟩
  refine ⟨careful, ?_⟩
  exact no_file_lost (fun _ => none) Settings.standard Counter.zero steps careful []
    (.touch (some "a.txt")) "a.txt" ⟨_, rfl⟩ (.touched (some "a.txt"))

end Session

end GitTutor
