import GitTutor.Proofs.Transition

/-!
# Logs along a session

A log is written in three ways only: a created branch gets a copy of the current
log, the current branch gets one new commit, or it gets the end of a merged log.
`LogChange` says this for one command. Every other log stays as it is, so the log
of a branch that is kept is only ever continued.
-/

namespace GitTutor

open Repository

/-- What a command that is not refused does to the logs of `r`, with the source before and
after it. -/
inductive LogChange {σ : Type} [Entropy σ] (r : Repository) (e : σ) (command : Command)
    (r' : Repository) (e' : σ) : Prop
  | keep (same : r'.logs = r.logs)
  | fork (name : String)
      (asked : command = .branch (.create name) ∨ command = .checkout (.create name))
      (fresh : name ∉ r.branches) (named : name ∈ r'.branches)
      (copied : r'.logs = (r.fork name).logs)
  | record (c : Commit)
      (asked : (∃ request, command = .commit request) ∨ ∃ source, command = .cherryPick source)
      (drawn : c.hash = (Entropy.hash e).1) (after : e' = (Entropy.hash e).2)
      (grown : r'.logs = (r.append [c]).logs)
  | merge (branch : String) (asked : command = .merge branch)
      (more : r.incoming branch ≠ [])
      (grown : r'.logs = (r.append (r.incoming branch)).logs)

/-- Every transition writes at most one log, in one of the listed ways. -/
theorem Transition.logChange {σ : Type} [Entropy σ] {compile : PatternCompiler}
    {r r' : Repository} {e e' : σ} {command : Command}
    (t : Transition compile r e command r' e') : LogChange r e command r' e' := by
  cases t with
  | create name fresh =>
      refine .fork name (Or.inl rfl) fresh ?_ rfl
      exact List.mem_append_right r.branches (List.mem_singleton.mpr rfl)
  | branchOff name fresh =>
      refine .fork name (Or.inr rfl) fresh ?_ rfl
      exact List.mem_append_right r.branches (List.mem_singleton.mpr rfl)
  | commit request => exact .record _ (Or.inl ⟨request, rfl⟩) rfl rfl rfl
  | cherryPick source => exact .record _ (Or.inr ⟨source, rfl⟩) rfl rfl rfl
  | merge branch _ more => exact .merge branch rfl more rfl
  | _ => exact .keep rfl

namespace Repository

/-- Equal tables of logs hold equal logs. -/
theorem log_congr {r r' : Repository} (same : r'.logs = r.logs) (name : String) :
    r'.log name = r.log name := by
  rw [log, log, same]

/-- What a merge takes over is the end of the merged log. -/
theorem incoming_suffix (r : Repository) (branch : String) :
    r.incoming branch <:+ r.log branch :=
  List.drop_suffix r.currentLog.length (r.log branch)

end Repository

namespace Session

variable {σ : Type} [Entropy σ]

/-- A step keeps the logs, or it carries out a command that writes one of them. -/
theorem step_logs (s : Session σ) (step : Step) :
    (s.step step).repository.logs = s.repository.logs ∨
      ∃ command, s.CarriesOut step command ∧
        LogChange s.repository s.entropy command (s.step step).repository
          (s.step step).entropy := by
  have moves := step_moves s step
  generalize (s.step step).repository = r' at moves ⊢
  generalize (s.step step).entropy = e' at moves ⊢
  cases moves with
  | refused => exact Or.inl rfl
  | command done change => exact Or.inr ⟨_, done, change.logChange⟩
  | touch => exact Or.inl rfl
  | clear => exact Or.inl rfl

/-- How a step treats the log under a name. -/
inductive LogStep (s : Session σ) (step : Step) (name : String) : Prop
  | unchanged (same : (s.step step).repository.log name = s.repository.log name)
  | continued (here : name = s.repository.current) (new : List Commit) (more : new ≠ [])
      (grown : (s.step step).repository.log name = s.repository.log name ++ new)
      (origin :
        ((∃ request, s.CarriesOut step (.commit request)) ∨
            ∃ source, s.CarriesOut step (.cherryPick source)) ∧ new.length = 1 ∨
          ∃ branch, s.CarriesOut step (.merge branch) ∧ new <:+ s.repository.log branch)
  | copied (fresh : name ∉ s.repository.branches)
      (asked : s.CarriesOut step (.branch (.create name)) ∨
        s.CarriesOut step (.checkout (.create name)))
      (copy : (s.step step).repository.log name = s.repository.currentLog)

/-- Every step treats every log in one of these ways. -/
theorem step_logStep (s : Session σ) (step : Step) (name : String) : s.LogStep step name := by
  rcases step_logs s step with same | ⟨command, done, change⟩
  · exact .unchanged (log_congr same name)
  cases change with
  | keep same => exact .unchanged (log_congr same name)
  | fork created asked fresh _ copied =>
      have after := (log_congr copied name).trans (log_fork s.repository created name)
      by_cases h : name = created
      · subst h
        rw [if_pos rfl] at after
        refine .copied fresh ?_ after
        rcases asked with rfl | rfl
        · exact Or.inl done
        · exact Or.inr done
      · exact .unchanged (by rw [after, if_neg h])
  | record c asked _ _ grown =>
      have after := (log_congr grown name).trans (log_append s.repository [c] name)
      by_cases h : name = s.repository.current
      · subst h
        rw [if_pos rfl] at after
        refine .continued rfl [c] (List.cons_ne_nil c []) after (Or.inl ⟨?_, rfl⟩)
        rcases asked with ⟨request, rfl⟩ | ⟨source, rfl⟩
        · exact Or.inl ⟨request, done⟩
        · exact Or.inr ⟨source, done⟩
      · exact .unchanged (by rw [after, if_neg h])
  | merge branch asked more grown =>
      have after := (log_congr grown name).trans (log_append s.repository _ name)
      by_cases h : name = s.repository.current
      · subst h asked
        rw [if_pos rfl] at after
        refine .continued rfl _ more after (Or.inr ⟨branch, done, ?_⟩)
        exact incoming_suffix s.repository branch
      · exact .unchanged (by rw [after, if_neg h])

/-- A step keeps the logs, or it writes the one of a branch that exists after it or of the
branch that is checked out. -/
theorem step_writes (s : Session σ) (step : Step) :
    (s.step step).repository.logs = s.repository.logs ∨
      ∃ written log, (s.step step).repository.logs = s.repository.logs.insert written log ∧
        (written ∈ (s.step step).repository.branches ∨ written = s.repository.current) := by
  rcases step_logs s step with same | ⟨command, _, change⟩
  · exact Or.inl same
  cases change with
  | keep same => exact Or.inl same
  | fork name _ _ named copied => exact Or.inr ⟨name, _, copied, Or.inl named⟩
  | record c _ _ _ grown => exact Or.inr ⟨_, _, grown, Or.inr rfl⟩
  | merge branch _ _ grown => exact Or.inr ⟨_, _, grown, Or.inr rfl⟩

/-- A step writes at most one log. -/
theorem step_writes_one (s : Session σ) (step : Step) :
    ∃ written, ∀ name, name ≠ written →
      (s.step step).repository.logs.get? name = s.repository.logs.get? name := by
  rcases step_writes s step with same | ⟨written, log, change, _⟩
  · exact ⟨"", fun name _ => by rw [same]⟩
  · exact ⟨written, fun name h => by rw [change, Table.get?_insert, if_neg h]⟩

/-- No step removes a log. -/
theorem names_kept {s : Session σ} {step : Step} {name : String}
    (h : name ∈ s.repository.logs.names) : name ∈ (s.step step).repository.logs.names := by
  rcases step_writes s step with same | ⟨written, log, change, _⟩
  · rwa [same]
  · rw [change, Table.mem_names_insert]
    exact Or.inr h

/-- A name with a log after a step had one before, or is that of a branch that exists after
it, or that of the branch that is checked out. -/
theorem mem_names_step {s : Session σ} {step : Step} {name : String}
    (h : name ∈ (s.step step).repository.logs.names) :
    name ∈ s.repository.logs.names ∨ name ∈ (s.step step).repository.branches ∨
      name = s.repository.current := by
  rcases step_writes s step with same | ⟨written, log, change, owner⟩
  · rw [same] at h
    exact Or.inl h
  · rw [change, Table.mem_names_insert] at h
    rcases h with rfl | h
    · exact Or.inr owner
    · exact Or.inl h

/-- A condition holds in all states of a run. -/
def Throughout (s : Session σ) (steps : List Step) (P : Session σ → Prop) : Prop :=
  ∀ earlier, earlier <+: steps → P (s.run earlier)

theorem throughout_nil {s : Session σ} {P : Session σ → Prop} :
    s.Throughout [] P ↔ P s := by
  simp [Throughout]

theorem throughout_cons {s : Session σ} {first : Step} {rest : List Step}
    {P : Session σ → Prop} :
    s.Throughout (first :: rest) P ↔ P s ∧ (s.step first).Throughout rest P := by
  constructor
  · intro h
    refine ⟨h [] List.nil_prefix, fun earlier before => ?_⟩
    exact h (first :: earlier) (List.cons_prefix_cons.mpr ⟨rfl, before⟩)
  · rintro ⟨now, later⟩ earlier before
    rcases List.prefix_cons_iff.mp before with rfl | ⟨shorter, rfl, inner⟩
    · exact now
    · exact later shorter inner

/-- A step continues the log of every branch. -/
theorem log_prefix_step {s : Session σ} {step : Step} {name : String}
    (h : name ∈ s.repository.branches) :
    s.repository.log name <+: (s.step step).repository.log name := by
  cases step_logStep s step name with
  | unchanged same => exact ⟨[], by rw [same, List.append_nil]⟩
  | continued here new more grown origin =>
      rw [grown]
      exact List.prefix_append _ new
  | copied fresh => exact absurd h fresh

/-- A step keeps the log of every branch that is not checked out. -/
theorem log_kept_step {s : Session σ} {step : Step} {name : String}
    (h : name ∈ s.repository.branches) (away : name ≠ s.repository.current) :
    (s.step step).repository.log name = s.repository.log name := by
  cases step_logStep s step name with
  | unchanged same => exact same
  | continued here => exact absurd here away
  | copied fresh => exact absurd h fresh

theorem log_prefix_run {s : Session σ} {steps : List Step} {name : String}
    (h : s.Throughout steps fun s => name ∈ s.repository.branches) :
    s.repository.log name <+: (s.run steps).repository.log name := by
  induction steps generalizing s with
  | nil => exact List.prefix_rfl
  | cons first rest ih =>
      obtain ⟨now, later⟩ := throughout_cons.mp h
      exact (log_prefix_step now).trans (ih later)

theorem log_kept_run {s : Session σ} {steps : List Step} {name : String}
    (h : s.Throughout steps fun s =>
      name ∈ s.repository.branches ∧ name ≠ s.repository.current) :
    (s.run steps).repository.log name = s.repository.log name := by
  induction steps generalizing s with
  | nil => rfl
  | cons first rest ih =>
      obtain ⟨⟨now, away⟩, later⟩ := throughout_cons.mp h
      exact (ih later).trans (log_kept_step now away)

/-- Logs are private and append-only: a step writes at most one of them, as `LogStep` lists,
and removes none. Along a run the log of a branch that is kept is continued, and it stays as
it is while the branch is not checked out. -/
theorem logs_append_only (s : Session σ) :
    (∀ step,
      (∀ name, s.LogStep step name) ∧
      (∃ written, ∀ name, name ≠ written →
        (s.step step).repository.logs.get? name = s.repository.logs.get? name) ∧
      ∀ name ∈ s.repository.logs.names, name ∈ (s.step step).repository.logs.names) ∧
    ∀ steps name,
      (s.Throughout steps fun s => name ∈ s.repository.branches) →
      s.repository.log name <+: (s.run steps).repository.log name ∧
      ((s.Throughout steps fun s => name ≠ s.repository.current) →
        (s.run steps).repository.log name = s.repository.log name) := by
  constructor
  · intro step
    exact ⟨step_logStep s step, step_writes_one s step, fun name => names_kept⟩
  · intro steps name kept
    refine ⟨log_prefix_run kept, fun away => log_kept_run fun earlier before => ?_⟩
    exact ⟨kept earlier before, away earlier before⟩

/-- The log of `dev` stays while `main` is checked out and gets a commit. -/
theorem logs_append_only_dev :
    let s := (start Settings.standard Counter.zero).step (.execute "git branch dev")
    (s.run [.execute "git cherry-pick f00d"]).repository.log "dev" = s.repository.log "dev" := by
  intro s
  have kept : s.Throughout [.execute "git cherry-pick f00d"]
      fun s => "dev" ∈ s.repository.branches := by
    rw [throughout_cons, throughout_nil]
    exact ⟨by decide +kernel, by decide +kernel⟩
  have away : s.Throughout [.execute "git cherry-pick f00d"]
      fun s => "dev" ≠ s.repository.current := by
    rw [throughout_cons, throughout_nil]
    exact ⟨by decide +kernel, by decide +kernel⟩
  exact ((logs_append_only s).2 _ "dev" kept).2 away

end Session

end GitTutor
