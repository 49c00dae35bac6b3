import GitTutor.Proofs.Logs
import GitTutor.Shell

/-!
# Well-formed repositories

The conditions that link the parts of a repository: the branch that is checked
out exists, every branch has a log, every log starts with the seed commit, and no
list of files holds a file twice. Every transition keeps them, so they hold in
every state of every session, and the reports that need no argument never fail.
-/

namespace GitTutor

open Repository Text

/-- The conditions that every repository of a session meets whose seed commit is `seed`. -/
structure Repository.WellFormed (seed : Commit) (r : Repository) : Prop where
  branches_nodup : r.branches.Nodup
  current_mem : r.current ∈ r.branches
  logged : ∀ name ∈ r.branches, name ∈ r.logs.names
  seeded : ∀ name log, r.logs.get? name = some log → log.head? = some seed
  staged_nodup : r.staged.Nodup
  modified_nodup : r.modified.Nodup
  stash_files : ∀ entry ∈ r.stash, entry.files ≠ [] ∧ entry.files.Nodup
  commit_files : ∀ name log, r.logs.get? name = some log → ∀ c ∈ log, c.files.Nodup

namespace Repository.WellFormed

variable {seed : Commit} {r : Repository}

/-- The log of a branch is the one that is kept under its name. -/
theorem get?_log (w : r.WellFormed seed) {name : String} (h : name ∈ r.branches) :
    r.logs.get? name = some (r.log name) := by
  have kept := (Table.mem_names_iff r.logs name).mp (w.logged name h)
  obtain ⟨log, found⟩ := Option.isSome_iff_exists.mp kept
  rw [Repository.log, found, Option.getD_some]

/-- Every log that is kept starts with the seed commit. -/
theorem head?_log (w : r.WellFormed seed) {name : String} (h : name ∈ r.logs.names) :
    (r.log name).head? = some seed := by
  obtain ⟨log, found⟩ := Option.isSome_iff_exists.mp ((Table.mem_names_iff r.logs name).mp h)
  rw [Repository.log, found, Option.getD_some]
  exact w.seeded name log found

theorem currentLog_ne_nil (w : r.WellFormed seed) : r.currentLog ≠ [] := by
  have start : r.currentLog.head? = some seed := w.head?_log (w.logged _ w.current_mem)
  intro empty
  rw [empty] at start
  cases start

/-- The files of a commit in any log are distinct. -/
theorem files_nodup (w : r.WellFormed seed) {name : String} {c : Commit}
    (h : c ∈ r.log name) : c.files.Nodup := by
  unfold Repository.log at h
  cases found : r.logs.get? name with
  | none => simp [found] at h
  | some log =>
      rw [found, Option.getD_some] at h
      exact w.commit_files name log found c h

theorem fresh (settings : Settings) :
    (Repository.fresh settings).WellFormed settings.seedCommit where
  branches_nodup := by simp [Repository.fresh]
  current_mem := by simp [Repository.fresh]
  logged := by simp [Repository.fresh]
  seeded := by
    intro name log h
    simp only [Repository.fresh, Table.get?_insert, Table.get?_empty] at h
    split at h
    · cases h
      rfl
    · cases h
  staged_nodup := List.nodup_nil
  modified_nodup := List.nodup_nil
  stash_files := by simp [Repository.fresh]
  commit_files := by
    intro name log h c hc
    simp only [Repository.fresh, Table.get?_insert, Table.get?_empty] at h
    split at h
    · cases h
      rw [List.mem_singleton.mp hc]
      exact List.nodup_nil
    · cases h

/-- Replacing one log by a sound one keeps all logs sound. -/
theorem insert_log (w : r.WellFormed seed) (name : String) {log : List Commit}
    (start : log.head? = some seed) (files : ∀ c ∈ log, c.files.Nodup) :
    { r with logs := r.logs.insert name log }.WellFormed seed := by
  refine { w with logged := ?_, seeded := ?_, commit_files := ?_ }
  · intro other h
    exact (Table.mem_names_insert r.logs name other log).mpr (Or.inr (w.logged other h))
  · intro other found h
    simp only [Table.get?_insert] at h
    split at h
    · cases h
      exact start
    · exact w.seeded other found h
  · intro other found h
    simp only [Table.get?_insert] at h
    split at h
    · cases h
      exact files
    · exact w.commit_files other found h

theorem fork (w : r.WellFormed seed) {name : String} (new : name ∉ r.branches) :
    (r.fork name).WellFormed seed := by
  have kept := w.get?_log w.current_mem
  have w' := w.insert_log name (w.seeded _ _ kept) (w.commit_files _ _ kept)
  refine { w' with branches_nodup := ?_, current_mem := ?_, logged := ?_ }
  · rw [Repository.fork, List.nodup_append]
    refine ⟨w.branches_nodup, by simp, ?_⟩
    rintro x hx y hy rfl
    exact new (List.mem_singleton.mp hy ▸ hx)
  · exact List.mem_append_left [name] w.current_mem
  · intro other h
    rcases List.mem_append.mp h with h | h
    · exact w'.logged other h
    · exact (Table.mem_names_insert _ _ _ _).mpr (Or.inl (List.mem_singleton.mp h))

theorem append (w : r.WellFormed seed) {commits : List Commit}
    (files : ∀ c ∈ commits, c.files.Nodup) : (r.append commits).WellFormed seed := by
  have kept := w.get?_log w.current_mem
  have start : r.currentLog.head? = some seed := w.seeded _ _ kept
  refine w.insert_log r.current ?_ ?_
  · rw [List.head?_append, start, Option.some_or]
  · intro c h
    rcases List.mem_append.mp h with h | h
    · exact w.files_nodup h
    · exact files c h

theorem appendOne (w : r.WellFormed seed) {c : Commit} (files : c.files.Nodup) :
    (r.append [c]).WellFormed seed := by
  refine w.append fun c' h => ?_
  rw [List.mem_singleton.mp h]
  exact files

theorem switch (w : r.WellFormed seed) {name : String} (h : name ∈ r.branches) :
    { r with current := name }.WellFormed seed :=
  { w with current_mem := h }

theorem forget (w : r.WellFormed seed) {name : String} (other : name ≠ r.current) :
    { r with branches := r.branches.erase name }.WellFormed seed :=
  { w with
    branches_nodup := w.branches_nodup.erase name
    current_mem := (List.mem_erase_of_ne other.symm).mpr w.current_mem
    logged := fun kept h => w.logged kept (List.mem_of_mem_erase h) }

theorem withFiles (w : r.WellFormed seed) {staged modified : List String}
    (hs : staged.Nodup) (hm : modified.Nodup) :
    { r with staged := staged, modified := modified }.WellFormed seed :=
  { w with staged_nodup := hs, modified_nodup := hm }

theorem withStash (w : r.WellFormed seed) {stash : List StashEntry}
    (h : ∀ entry ∈ stash, entry.files ≠ [] ∧ entry.files.Nodup) :
    { r with stash := stash }.WellFormed seed :=
  { w with stash_files := h }

/-- Unclean changes are at least one file. -/
theorem changes_ne_nil (unclean : r.isClean = false) :
    addAllUnique r.modified r.staged ≠ [] := by
  intro empty
  have none : ∀ x, x ∉ r.modified ∧ x ∉ r.staged := by
    intro x
    rw [← not_or, ← mem_addAllUnique, empty]
    exact List.not_mem_nil
  have clean : r.isClean = true := by
    simp [isClean, List.eq_nil_iff_forall_not_mem, none]
  rw [clean] at unclean
  cases unclean

/-- Every transition keeps the conditions. -/
theorem transition {σ : Type} [Entropy σ] {compile : PatternCompiler} {e e' : σ}
    {command : Command} {r' : Repository} (w : r.WellFormed seed)
    (t : Transition compile r e command r' e') : r'.WellFormed seed := by
  cases t with
  | report => exact w
  | push => exact w
  | identify => exact { w with }
  | create name new => exact w.fork new
  | delete name other => exact w.forget other
  | branchOff name new =>
      refine (w.fork new).switch ?_
      exact List.mem_append_right r.branches (List.mem_singleton.mpr rfl)
  | switch name old => exact w.switch old
  | stageAll => exact w.withFiles w.modified_nodup List.nodup_nil
  | stage paths files =>
      exact w.withFiles (nodup_addAllUnique w.staged_nodup files) (w.modified_nodup.filter _)
  | commit request =>
      refine (w.appendOne ?_).withFiles List.nodup_nil ?_
      · exact nodup_filesToCommit w.staged_nodup request.all
      · split
        · exact List.nodup_nil
        · exact w.modified_nodup
  | commitNothing => exact w
  | merge branch => exact w.append fun c h => w.files_nodup (List.mem_of_mem_drop h)
  | mergeNothing => exact w
  | shelve message unclean =>
      refine (w.withFiles List.nodup_nil List.nodup_nil).withStash fun entry h => ?_
      rcases List.mem_cons.mp h with rfl | h
      · exact ⟨changes_ne_nil unclean, nodup_addAllUnique w.modified_nodup r.staged⟩
      · exact w.stash_files entry h
  | shelveNothing => exact w
  | restore entry =>
      exact w.withFiles w.staged_nodup (nodup_addAllUnique w.modified_nodup entry.files)
  | pop entry rest newest =>
      refine (w.withFiles w.staged_nodup
        (nodup_addAllUnique w.modified_nodup entry.files)).withStash ?_
      exact fun older h => w.stash_files older (newest ▸ List.mem_cons_of_mem entry h)
  | drop entry rest newest =>
      exact w.withStash fun older h => w.stash_files older (newest ▸ List.mem_cons_of_mem entry h)
  | dropAll => exact w.withStash (by simp)
  | cherryPick source =>
      refine w.appendOne ?_
      exact List.nodup_nil

end Repository.WellFormed

namespace Session

variable {σ : Type} [Entropy σ]

/-- Every step keeps the conditions. -/
theorem wellFormed_step {seed : Commit} (s : Session σ) (step : Step)
    (w : s.repository.WellFormed seed) : (s.step step).repository.WellFormed seed := by
  have moves := step_moves s step
  generalize (s.step step).repository = r' at moves ⊢
  generalize (s.step step).entropy = e' at moves
  cases moves with
  | refused => exact w
  | command _ change => exact w.transition change
  | touch => exact w.withFiles w.staged_nodup (nodup_addUnique w.modified_nodup _)
  | clear => exact w

/-- The conditions hold in every state of a session. -/
theorem wellFormed_run (compile : PatternCompiler) (settings : Settings) (entropy : σ)
    (steps : List Step) :
    ((startWith compile settings entropy).run steps).repository.WellFormed
      settings.seedCommit := by
  have fresh : (startWith compile settings entropy).repository.WellFormed
      settings.seedCommit := WellFormed.fresh settings
  exact run_invariant (P := fun s => s.repository.WellFormed settings.seedCommit)
    wellFormed_step fresh steps

/-- After a step, the names with a log are those from before and the branches. -/
theorem mem_names_step_iff {seed : Commit} {s : Session σ} {step : Step} {name : String}
    (w : s.repository.WellFormed seed) :
    name ∈ (s.step step).repository.logs.names ↔
      name ∈ s.repository.logs.names ∨ name ∈ (s.step step).repository.branches := by
  constructor
  · intro h
    rcases mem_names_step h with old | branch | rfl
    · exact Or.inl old
    · exact Or.inr branch
    · exact Or.inl (w.logged _ w.current_mem)
  · rintro (old | branch)
    · exact names_kept old
    · exact (wellFormed_step s step w).logged name branch

/-- After a run, the names with a log are those from before and those of every branch that
existed in some state of the run. -/
theorem mem_names_run_iff {seed : Commit} {s : Session σ} (steps : List Step) {name : String}
    (w : s.repository.WellFormed seed) :
    name ∈ (s.run steps).repository.logs.names ↔
      name ∈ s.repository.logs.names ∨
        ∃ earlier, earlier <+: steps ∧ name ∈ (s.run earlier).repository.branches := by
  induction steps generalizing s with
  | nil =>
      constructor
      · exact Or.inl
      · rintro (h | ⟨earlier, before, h⟩)
        · exact h
        · rw [List.prefix_nil.mp before] at h
          exact w.logged name h
  | cons first rest ih =>
      rw [run_cons, ih (wellFormed_step s first w), mem_names_step_iff w]
      constructor
      · rintro ((old | branch) | ⟨earlier, before, h⟩)
        · exact Or.inl old
        · refine Or.inr ⟨[first], ?_, branch⟩
          exact List.cons_prefix_cons.mpr ⟨rfl, List.nil_prefix⟩
        · exact Or.inr ⟨first :: earlier, List.cons_prefix_cons.mpr ⟨rfl, before⟩, h⟩
      · rintro (old | ⟨earlier, before, h⟩)
        · exact Or.inl (Or.inl old)
        · rcases List.prefix_cons_iff.mp before with rfl | ⟨shorter, rfl, inner⟩
          · exact Or.inl (Or.inl (w.logged name h))
          · exact Or.inr ⟨shorter, inner, h⟩

/-- A line that asks for a report adds the report to the transcript and changes nothing else. -/
theorem execute_report {s : Session σ} {line text : String} {command : Command}
    (plain : trimmed line = line) (read : Command.ofLine line = .ok command)
    (report : s.perform command = .ok (s.shows text)) :
    s.execute line = s.note ⟨line, text, false⟩ := by
  have read' : Command.ofLine (trimmed line) = .ok command := by
    rw [plain]
    exact read
  rw [execute_of_perform read' report, plain]
  rfl

/-- A log report without a branch succeeds when the current branch exists. -/
theorem perform_log {s : Session σ} {request : LogRequest} (current : request.branch = none)
    (known : s.repository.current ∈ s.repository.branches) :
    ∃ text, s.perform (.log request) = .ok (s.shows text) := by
  have found := Repository.hasBranch_iff.mpr known
  simp only [perform, logReport, current, Option.getD_none, found, if_true, Except.map]
  exact ⟨_, rfl⟩

/-- The shortcuts and the plain reports of the log and the status never fail. -/
theorem execute_reports {seed : Commit} {s : Session σ} (w : s.repository.WellFormed seed)
    {line : String} (h : line ∈ quickCommands ++ ["git log", "git status"]) :
    ∃ text, s.execute line = s.note ⟨line, text, false⟩ := by
  have status : s.execute "git status" =
      s.note ⟨"git status", s.repository.statusReport, false⟩ := execute_report rfl rfl rfl
  have five : ∃ text, s.perform (.log ⟨true, false, false, some 5, none⟩) = .ok (s.shows text) :=
    perform_log rfl w.current_mem
  have plain : ∃ text, s.perform (.log .plain) = .ok (s.shows text) :=
    perform_log rfl w.current_mem
  simp only [quickCommands, List.cons_append, List.nil_append, List.mem_cons, List.not_mem_nil,
    or_false] at h
  rcases h with rfl | rfl | rfl | rfl | rfl | rfl
  · exact ⟨_, status⟩
  · exact ⟨_, execute_report rfl rfl rfl⟩
  · obtain ⟨text, performed⟩ := five
    exact ⟨text, execute_report rfl rfl performed⟩
  · exact ⟨_, execute_report rfl rfl rfl⟩
  · obtain ⟨text, performed⟩ := plain
    exact ⟨text, execute_report rfl rfl performed⟩
  · exact ⟨_, status⟩

/-- In every state of every session: branches exist and the repository is well-formed, the
names with a log are exactly those that are or once were branches, and the plain reports
succeed and change nothing but the transcript. -/
theorem representation_invariant (compile : PatternCompiler) (settings : Settings) (entropy : σ)
    (steps : List Step) :
    let s := (startWith compile settings entropy).run steps
    s.repository.branches ≠ [] ∧
    s.repository.WellFormed settings.seedCommit ∧
    (∀ name, name ∈ s.repository.logs.names ↔ ∃ earlier, earlier <+: steps ∧
      name ∈ ((startWith compile settings entropy).run earlier).repository.branches) ∧
    ∀ line ∈ quickCommands ++ ["git log", "git status"],
      ∃ text, s.execute line = s.note ⟨line, text, false⟩ := by
  have fresh : (startWith compile settings entropy).repository.WellFormed
      settings.seedCommit := WellFormed.fresh settings
  have w := wellFormed_run compile settings entropy steps
  refine ⟨List.ne_nil_of_mem w.current_mem, w, fun name => ?_, fun line => execute_reports w⟩
  rw [mem_names_run_iff steps fresh]
  constructor
  · rintro (h | h)
    · -- At the start, the only name with a log is that of the first branch.
      refine ⟨[], List.nil_prefix, ?_⟩
      simpa [startWith, Repository.fresh, Table.names, Table.insert, Table.place,
        Table.empty] using h
    · exact h
  · exact Or.inr

/-- A branch that was deleted keeps its log, and the log report of the others succeeds. -/
theorem representation_invariant_deleted :
    let steps := [.execute "git branch dev", .execute "git branch -d dev"]
    let s := (startWith (fun _ => none) Settings.standard Counter.zero).run steps
    "dev" ∉ s.repository.branches ∧ "dev" ∈ s.repository.logs.names ∧
      ∃ text, s.execute "git log" = s.note ⟨"git log", text, false⟩ := by
  intro steps s
  obtain ⟨_, _, names, reports⟩ := representation_invariant (fun _ => none) Settings.standard
    Counter.zero steps
  refine ⟨by decide +kernel, (names "dev").mpr ?_, reports "git log" (by decide)⟩
  refine ⟨[.execute "git branch dev"], ⟨[.execute "git branch -d dev"], rfl⟩, ?_⟩
  decide +kernel

end Session

end GitTutor
