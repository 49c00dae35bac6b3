import GitTutor.Proofs.WellFormed
import Mathlib.Data.List.Basic

/-!
# Lost commits

A commit enters the current log when it is made, and logs are only continued, also
the log that a deleted branch leaves behind. There is one exception: a branch that is
created under the name of a deleted one gets a copy of the current log in place of the
log that was kept under that name, and what only that log held is gone.
-/

namespace GitTutor

open Repository Text

/-- The commit that a command makes under a drawn hash, if it makes one. -/
def Command.commit? (r : Repository) (hash : String) : Command → Option Commit
  | .commit request =>
      if r.filesToCommit request.all = [] then none
      else some ⟨hash, request.message, r.author, r.filesToCommit request.all⟩
  | .cherryPick source => some ⟨hash, "Cherry-picked commit " ++ source, r.author, []⟩
  | _ => none

namespace Repository

variable {r : Repository} {c : Commit} {name : String}

/-- Some log holds a commit, be it the log of a branch or of a deleted one. -/
def Logged (r : Repository) (c : Commit) : Prop :=
  ∃ name, c ∈ r.log name

/-- Only names that have a log have commits. -/
theorem mem_names_of_mem_log (held : c ∈ r.log name) : name ∈ r.logs.names := by
  rw [Table.mem_names_iff]
  unfold log at held
  cases found : r.logs.get? name with
  | none =>
      rw [found, Option.getD_none] at held
      cases held
  | some log => rfl

end Repository

section Writing

variable {σ : Type} [Entropy σ] {compile : PatternCompiler} {r r' : Repository} {e e' : σ}
  {command : Command} {c : Commit} {name : String}

/-- A commit that a command makes is put at the end of the current log. -/
theorem Transition.made (t : Transition compile r e command r' e')
    (made : command.commit? r (Entropy.hash e).1 = some c) :
    r'.branches = r.branches ∧ r'.logs = (r.append [c]).logs := by
  cases t with
  | commit request files =>
      rw [Command.commit?, if_neg files, Option.some.injEq] at made
      rw [← made]
      exact ⟨rfl, rfl⟩
  | commitNothing request none =>
      rw [Command.commit?, if_pos none] at made
      cases made
  | cherryPick source =>
      rw [Command.commit?, Option.some.injEq] at made
      rw [← made]
      exact ⟨rfl, rfl⟩
  | report quiet =>
      cases command with
      | commit => cases quiet
      | cherryPick => cases quiet
      | _ => cases made
  | _ => cases made

/-- A commit that a command makes ends the current log after it. -/
theorem Transition.log_current (t : Transition compile r e command r' e')
    (made : command.commit? r (Entropy.hash e).1 = some c) :
    r'.log r.current = r.log r.current ++ [c] := by
  rw [log_congr (t.made made).2, log_append, if_pos rfl]
  rfl

/-- A created branch is the last one and gets a copy of the current log. -/
theorem Transition.forked (t : Transition compile r e command r' e')
    (creates : command = .branch (.create name) ∨ command = .checkout (.create name)) :
    name ∉ r.branches ∧ r'.branches = (r.fork name).branches ∧
      r'.logs = (r.fork name).logs := by
  rcases creates with rfl | rfl
  · cases t with
    | report quiet => cases quiet
    | create _ fresh => exact ⟨fresh, rfl, rfl⟩
  · cases t with
    | report quiet => cases quiet
    | branchOff _ fresh => exact ⟨fresh, rfl, rfl⟩

/-- A created branch has the current log, and every other name keeps its own. -/
theorem Transition.log_created (t : Transition compile r e command r' e')
    (creates : command = .branch (.create name) ∨ command = .checkout (.create name)) :
    name ∉ r.branches ∧
      ∀ other, r'.log other = if other = name then r.currentLog else r.log other := by
  obtain ⟨fresh, _, logs⟩ := t.forked creates
  exact ⟨fresh, fun other => by rw [log_congr logs, log_fork]⟩

end Writing

namespace Session

variable {σ : Type} [Entropy σ] {s : Session σ} {step : Step} {c : Commit} {name : String}

/-- A step makes a commit by carrying out a command. -/
def Makes (s : Session σ) (step : Step) (command : Command) (c : Commit) : Prop :=
  s.CarriesOut step command ∧
    command.commit? s.repository (Entropy.hash s.entropy).1 = some c

/-- A step creates a branch under a name that has a log. -/
def Reuses (s : Session σ) (step : Step) (name : String) : Prop :=
  (∃ command, s.CarriesOut step command ∧
      (command = .branch (.create name) ∨ command = .checkout (.create name))) ∧
    name ∈ s.repository.logs.names

/-- A step continues a log, or it reuses its name. -/
theorem log_prefix_or_reuses (s : Session σ) (step : Step) (name : String) :
    s.repository.log name <+: (s.step step).repository.log name ∨ s.Reuses step name := by
  cases step_logStep s step name with
  | unchanged same => exact Or.inl ⟨[], by rw [same, List.append_nil]⟩
  | continued here new more grown =>
      rw [grown]
      exact Or.inl (List.prefix_append _ new)
  | copied fresh asked =>
      by_cases known : name ∈ s.repository.logs.names
      · refine Or.inr ⟨?_, known⟩
        rcases asked with done | done
        · exact ⟨_, done, Or.inl rfl⟩
        · exact ⟨_, done, Or.inr rfl⟩
      · have empty : s.repository.log name = [] :=
          List.eq_nil_iff_forall_not_mem.mpr fun c held => known (mem_names_of_mem_log held)
        rw [empty]
        exact Or.inl List.nil_prefix

/-- A step reuses at most one name. -/
theorem Reuses.unique {other : String} (h : s.Reuses step name) (h' : s.Reuses step other) :
    other = name := by
  obtain ⟨⟨_, done, shape⟩, _⟩ := h
  obtain ⟨⟨_, done', shape'⟩, _⟩ := h'
  obtain rfl := done.unique done'
  rcases shape with rfl | rfl
  · rcases shape' with same | same <;> cases same
    rfl
  · rcases shape' with same | same <;> cases same
    rfl

/-- A step loses a commit exactly if it reuses the one name whose log holds it. -/
theorem lost_iff_reused {seed : Commit} (w : s.repository.WellFormed seed)
    (logged : s.repository.Logged c) :
    ¬ (s.step step).repository.Logged c ↔
      ∃ name, s.Reuses step name ∧ ∀ other, c ∈ s.repository.log other → other = name := by
  constructor
  · intro lost
    have reused : ∀ other, c ∈ s.repository.log other → s.Reuses step other := by
      intro other held
      rcases log_prefix_or_reuses s step other with kept | reused
      · exact absurd ⟨other, kept.subset held⟩ lost
      · exact reused
    obtain ⟨name, held⟩ := logged
    exact ⟨name, reused name held, fun other h => (reused name held).unique (reused other h)⟩
  · rintro ⟨name, ⟨⟨command, done, creates⟩, _⟩, only⟩ ⟨other, held⟩
    obtain ⟨fresh, logs⟩ := done.transition.log_created creates
    rw [logs] at held
    split at held
    · -- The copied log is the current one, and the current branch exists.
      exact fresh (only s.repository.current held ▸ w.current_mem)
    · rename_i apart
      exact apart (only other held)

/-- Along a run that reuses no name every log is continued. -/
theorem log_prefix_of_no_reuse {steps : List Step}
    (h : s.EveryStep steps fun s step => ∀ name, ¬ s.Reuses step name) :
    s.repository.log name <+: (s.run steps).repository.log name := by
  induction steps generalizing s with
  | nil => exact List.prefix_rfl
  | cons first rest ih =>
      obtain ⟨now, later⟩ := everyStep_cons.mp h
      exact ((log_prefix_or_reuses s first name).resolve_right (now name)).trans (ih later)

/-- Commits are kept unless a name is reused. In every state of a session, a commit that a step
makes is in the current log after it. A step takes a commit out of all logs exactly if it
creates a branch under the name of a deleted one whose log alone holds the commit; and along
steps that create no branch under such a name, every log is only continued. -/
theorem commit_lost_iff_reused (compile : PatternCompiler) (settings : Settings) (entropy : σ)
    (earlier : List Step) :
    let s := (startWith compile settings entropy).run earlier
    (∀ step command c, s.Makes step command c →
      (s.step step).repository.log s.repository.current =
        s.repository.log s.repository.current ++ [c]) ∧
    (∀ step c, s.repository.Logged c →
      (¬ (s.step step).repository.Logged c ↔
        ∃ name, s.Reuses step name ∧ ∀ other, c ∈ s.repository.log other → other = name)) ∧
    ∀ later, (s.EveryStep later fun s step => ∀ name, ¬ s.Reuses step name) →
      ∀ name, s.repository.log name <+: (s.run later).repository.log name := by
  intro s
  have w := wellFormed_run compile settings entropy earlier
  refine ⟨?_, fun step c logged => lost_iff_reused w logged, ?_⟩
  · rintro step command c ⟨done, made⟩
    exact done.transition.log_current made
  · exact fun later none name => log_prefix_of_no_reuse none

/-- A cherry-pick on a branch that is deleted stays in the log that is kept, until the name of
that branch is reused. -/
theorem commit_lost_iff_reused_dev :
    let s := (startWith (fun _ => none) Settings.standard Counter.zero).run
      [.execute "git checkout -b dev", .execute "git cherry-pick f00d",
        .execute "git checkout main", .execute "git branch -d dev"]
    let c : Commit := ⟨"0000001", "Cherry-picked commit f00d", "Unknown", []⟩
    s.repository.Logged c ∧ "dev" ∉ s.repository.branches ∧
      ¬ (s.step (.execute "git branch dev")).repository.Logged c := by
  intro s c
  obtain ⟨_, lost, _⟩ := commit_lost_iff_reused (fun _ => none) Settings.standard Counter.zero
    [.execute "git checkout -b dev", .execute "git cherry-pick f00d",
      .execute "git checkout main", .execute "git branch -d dev"]
  have facts : c ∈ s.repository.log "dev" ∧ c ∉ s.repository.log "main" ∧
      s.repository.logs.names = ["dev", "main"] ∧ "dev" ∉ s.repository.branches := by
    decide +kernel
  obtain ⟨held, absent, names, deleted⟩ := facts
  have logged : s.repository.Logged c := ⟨"dev", held⟩
  have only : ∀ other, c ∈ s.repository.log other → other = "dev" := by
    intro other h
    have known := mem_names_of_mem_log h
    rw [names] at known
    rcases List.mem_pair.mp known with rfl | rfl
    · rfl
    · exact absurd h absent
  have reused : s.Reuses (.execute "git branch dev") "dev" := by
    refine ⟨⟨.branch (.create "dev"), ⟨"git branch dev", "", rfl, ?_, ?_⟩, Or.inl rfl⟩, ?_⟩
    · rfl
    · decide +kernel
    · exact mem_names_of_mem_log held
  exact ⟨logged, deleted, (lost _ c logged).mpr ⟨"dev", reused, only⟩⟩

/-- A commit that a cherry-pick made is in no log after its branch was deleted and a branch of
that name was created again. -/
theorem commit_overwritten :
    let s := startWith (fun _ => none) Settings.standard Counter.zero
    let c : Commit := ⟨"0000001", "Cherry-picked commit f00d", "Unknown", []⟩
    (s.step (.execute "git checkout -b dev")).Makes (.execute "git cherry-pick f00d")
        (.cherryPick "f00d") c ∧
      ¬ (s.run [.execute "git checkout -b dev", .execute "git cherry-pick f00d",
        .execute "git checkout main", .execute "git branch -d dev",
        .execute "git branch dev"]).repository.Logged c := by
  intro s c
  have made : (s.step (.execute "git checkout -b dev")).Makes (.execute "git cherry-pick f00d")
      (.cherryPick "f00d") c :=
    ⟨⟨"git cherry-pick f00d", "[dev 0000001] Cherry-picked commit f00d", rfl, rfl,
      by decide +kernel⟩, by decide +kernel⟩
  refine ⟨made, ?_⟩
  rintro ⟨name, held⟩
  have known := mem_names_of_mem_log held
  generalize after : (s.run _).repository = r at held known
  have facts : r.logs.names = ["dev", "main"] ∧ c ∉ r.log "dev" ∧ c ∉ r.log "main" := by
    rw [← after]
    decide +kernel
  obtain ⟨names, noDev, noMain⟩ := facts
  rw [names] at known
  rcases List.mem_pair.mp known with rfl | rfl
  · exact noDev held
  · exact noMain held

end Session

end GitTutor
