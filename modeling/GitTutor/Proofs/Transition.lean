import GitTutor.Proofs.Effect

/-!
# Transitions

`Transition` lists what a command that is not refused can do to a repository and
to the source, with the checks that it has passed, and `Session.Moves` lists what
one step can do to a session. Everything that holds in all states of a session
is proved by cases on these lists, with `step_moves`, and carried over a whole
run by `run_invariant`.
-/

namespace GitTutor

open Repository Text

/-- Whether a command prints a report and neither changes the repository nor draws. -/
def Command.isReport : Command → Bool
  | .version => true
  | .config (.set _ _) => false
  | .config _ => true
  | .init => true
  | .status => true
  | .branch .list => true
  | .log _ => true
  | .pull _ => true
  | .clone _ => true
  | .stash .list => true
  | .rebase _ => true
  | _ => false

/-- What a command does to the repository `r` and the source `e`: the command, the
repository after it and the source after it. -/
inductive Transition {σ : Type} [Entropy σ] (compile : PatternCompiler) (r : Repository)
    (e : σ) : Command → Repository → σ → Prop
  | report {command : Command} (quiet : command.isReport = true) :
      Transition compile r e command r e
  | push (request : RemoteRequest) :
      Transition compile r e (.push request) r (Entropy.hash (Entropy.hash e).2).2
  | identify (key : IdentityKey) (value : String) :
      Transition compile r e (.config (.set key value))
        { r with user := r.user.set key value } e
  | create (name : String) (fresh : name ∉ r.branches) :
      Transition compile r e (.branch (.create name)) (r.fork name) e
  | delete (name : String) (other : name ≠ r.current) (old : name ∈ r.branches) :
      Transition compile r e (.branch (.delete name))
        { r with branches := r.branches.erase name } e
  | branchOff (name : String) (fresh : name ∉ r.branches) :
      Transition compile r e (.checkout (.create name)) { r.fork name with current := name } e
  | switch (name : String) (old : name ∈ r.branches) :
      Transition compile r e (.checkout (.switch name)) { r with current := name } e
  | stageAll :
      Transition compile r e (.add .all) { r with staged := r.modified, modified := [] } e
  | stage (paths files : List String)
      (resolved : Repository.resolveAll compile r.modified paths = .ok files) :
      Transition compile r e (.add (.paths paths))
        { r with
          staged := addAllUnique r.staged files
          modified := r.modified.filter fun f => decide (f ∉ files) } e
  | commit (request : CommitRequest) (files : r.filesToCommit request.all ≠ []) :
      Transition compile r e (.commit request)
        { r.append [⟨(Entropy.hash e).1, request.message, r.author,
            r.filesToCommit request.all⟩] with
          staged := []
          modified := if request.all then [] else r.modified } (Entropy.hash e).2
  | commitNothing (request : CommitRequest) (none : r.filesToCommit request.all = []) :
      Transition compile r e (.commit request) r e
  | merge (branch : String) (old : branch ∈ r.branches) (more : r.incoming branch ≠ []) :
      Transition compile r e (.merge branch) (r.append (r.incoming branch)) e
  | mergeNothing (branch : String) (old : branch ∈ r.branches) (none : r.incoming branch = []) :
      Transition compile r e (.merge branch) r e
  | shelve (message : Option String) (unclean : r.isClean = false) :
      Transition compile r e (.stash (.push message))
        { r with
          staged := []
          modified := []
          stash := ⟨message.getD "WIP", addAllUnique r.modified r.staged, r.current⟩ :: r.stash } e
  | shelveNothing (message : Option String) (clean : r.isClean = true) :
      Transition compile r e (.stash (.push message)) r e
  | restore (entry : StashEntry) (rest : List StashEntry) (newest : r.stash = entry :: rest) :
      Transition compile r e (.stash .apply)
        { r with modified := addAllUnique r.modified entry.files } e
  | pop (entry : StashEntry) (rest : List StashEntry) (newest : r.stash = entry :: rest) :
      Transition compile r e (.stash .pop)
        { r with modified := addAllUnique r.modified entry.files, stash := rest } e
  | drop (entry : StashEntry) (rest : List StashEntry) (newest : r.stash = entry :: rest) :
      Transition compile r e (.stash .drop) { r with stash := rest } e
  | dropAll : Transition compile r e (.stash .clear) { r with stash := [] } e
  | cherryPick (source : String) :
      Transition compile r e (.cherryPick source)
        (r.append [⟨(Entropy.hash e).1, "Cherry-picked commit " ++ source, r.author, []⟩])
        (Entropy.hash e).2

/-- A branch has no commits beyond the length of its own log. -/
@[simp] theorem Repository.incoming_current (r : Repository) : r.incoming r.current = [] := by
  simp [incoming, currentLog]

theorem Repository.hasBranch_iff {r : Repository} {name : String} :
    r.hasBranch name = true ↔ name ∈ r.branches := by
  simp [hasBranch]

namespace Session

variable {σ : Type} [Entropy σ]

section Outcomes

variable {s : Session σ} {name : String} {effect : Effect σ}

theorem transition_createBranch
    (h : (s.repository.createBranch name).map s.becomes = .ok effect) :
    Transition s.compile s.repository s.entropy (.branch (.create name)) effect.1.1 effect.2 := by
  by_cases old : s.repository.hasBranch name
  · simp [createBranch, old, Except.map] at h
  · simp only [createBranch, if_neg old, Except.map, Except.ok.injEq] at h
    subst h
    exact .create name (mt hasBranch_iff.mpr old)

theorem transition_deleteBranch
    (h : (s.repository.deleteBranch name).map s.becomes = .ok effect) :
    Transition s.compile s.repository s.entropy (.branch (.delete name)) effect.1.1 effect.2 := by
  by_cases other : name = s.repository.current
  · simp [deleteBranch, other, Except.map] at h
  · by_cases old : s.repository.hasBranch name
    · simp only [deleteBranch, if_neg other, if_pos old, Except.map, Except.ok.injEq] at h
      subst h
      exact .delete name other (hasBranch_iff.mp old)
    · simp [deleteBranch, other, old, Except.map] at h

theorem transition_checkoutNew
    (h : (s.repository.checkoutNew name).map s.becomes = .ok effect) :
    Transition s.compile s.repository s.entropy (.checkout (.create name))
      effect.1.1 effect.2 := by
  by_cases old : s.repository.hasBranch name
  · simp [checkoutNew, old, Except.map] at h
  · simp only [checkoutNew, if_neg old, Except.map, Except.ok.injEq] at h
    subst h
    exact .branchOff name (mt hasBranch_iff.mpr old)

theorem transition_checkout
    (h : (s.repository.checkout name).map s.becomes = .ok effect) :
    Transition s.compile s.repository s.entropy (.checkout (.switch name))
      effect.1.1 effect.2 := by
  by_cases old : s.repository.hasBranch name
  · by_cases here : name = s.repository.current
    · simp only [checkout, if_pos old, if_pos here, Except.map, Except.ok.injEq] at h
      subst h here
      exact .switch _ (hasBranch_iff.mp old)
    · simp only [checkout, if_pos old, if_neg here, Except.map, Except.ok.injEq] at h
      subst h
      exact .switch name (hasBranch_iff.mp old)
  · simp [checkout, old, Except.map] at h

theorem transition_add {request : AddRequest}
    (h : (s.repository.add s.compile request).map s.becomes = .ok effect) :
    Transition s.compile s.repository s.entropy (.add request) effect.1.1 effect.2 := by
  cases request with
  | all =>
      cases h
      exact .stageAll
  | paths paths =>
      cases resolved : Repository.resolveAll s.compile s.repository.modified paths with
      | error cause => simp [Repository.add, addPaths, resolved, Except.map] at h
      | ok files =>
          simp only [Repository.add, addPaths, resolved, foldl_stageFile, Except.map,
            Except.ok.injEq] at h
          subst h
          exact .stage paths files resolved

theorem transition_commit (s : Session σ) (request : CommitRequest) :
    Transition s.compile s.repository s.entropy (.commit request)
      (s.repository.commit request s.entropy).1.1 (s.repository.commit request s.entropy).2 := by
  by_cases none : s.repository.filesToCommit request.all = []
  · simpa [Repository.commit, none] using .commitNothing request none
  · simpa [Repository.commit, none] using .commit request none

theorem transition_merge
    (h : (s.repository.merge name).map s.becomes = .ok effect) :
    Transition s.compile s.repository s.entropy (.merge name) effect.1.1 effect.2 := by
  by_cases old : s.repository.hasBranch name
  · by_cases none : s.repository.incoming name = []
    · simp only [Repository.merge, if_pos old, none, or_true, if_true, Except.map,
        Except.ok.injEq] at h
      subst h
      exact .mergeNothing name (hasBranch_iff.mp old) none
    · have other : name ≠ s.repository.current := by
        rintro rfl
        exact none (incoming_current s.repository)
      simp only [Repository.merge, if_pos old, none, other, or_self, if_false, Except.map,
        Except.ok.injEq] at h
      subst h
      exact .merge name (hasBranch_iff.mp old) none
  · simp [Repository.merge, old, Except.map] at h

theorem transition_stashPush (s : Session σ) (message : Option String) :
    Transition s.compile s.repository s.entropy (.stash (.push message))
      (s.repository.stashPush message).1 s.entropy := by
  by_cases clean : s.repository.isClean = true
  · rw [stashPush, if_pos clean]
    exact .shelveNothing message clean
  · rw [stashPush, if_neg clean]
    exact .shelve message (Bool.eq_false_iff.mpr clean)

theorem transition_stashApply (h : s.repository.stashApply.map s.becomes = .ok effect) :
    Transition s.compile s.repository s.entropy (.stash .apply) effect.1.1 effect.2 := by
  unfold stashApply at h
  split at h
  · cases h
  · rename_i entry rest newest
    cases h
    exact .restore entry rest newest

theorem transition_stashPop (h : s.repository.stashPop.map s.becomes = .ok effect) :
    Transition s.compile s.repository s.entropy (.stash .pop) effect.1.1 effect.2 := by
  unfold stashPop at h
  split at h
  · cases h
  · rename_i entry rest newest
    cases h
    exact .pop entry rest newest

theorem transition_stashDrop (h : s.repository.stashDrop.map s.becomes = .ok effect) :
    Transition s.compile s.repository s.entropy (.stash .drop) effect.1.1 effect.2 := by
  unfold stashDrop at h
  split at h
  · cases h
  · rename_i entry rest newest
    cases h
    exact .drop entry rest newest

/-- A report that may be refused changes nothing. -/
theorem transition_report {report : Except CommandError String} {command : Command}
    (quiet : command.isReport = true) (h : report.map s.shows = .ok effect) :
    Transition s.compile s.repository s.entropy command effect.1.1 effect.2 := by
  cases report with
  | error cause => cases h
  | ok text =>
      cases h
      exact .report quiet

end Outcomes

/-- The effect of a command is one of the listed transitions. -/
theorem transition_perform {s : Session σ} {command : Command} {effect : Effect σ}
    (h : s.perform command = .ok effect) :
    Transition s.compile s.repository s.entropy command effect.1.1 effect.2 := by
  cases command with
  | version =>
      cases h
      exact .report rfl
  | config request =>
      cases request with
      | set key value =>
          cases h
          exact .identify key value
      | _ =>
          cases h
          exact .report rfl
  | init =>
      cases h
      exact .report rfl
  | status =>
      cases h
      exact .report rfl
  | branch request =>
      cases request with
      | list =>
          cases h
          exact .report rfl
      | create name => exact transition_createBranch h
      | delete name => exact transition_deleteBranch h
  | checkout request =>
      cases request with
      | create name => exact transition_checkoutNew h
      | switch name => exact transition_checkout h
  | add request => exact transition_add h
  | commit request =>
      cases h
      exact transition_commit s request
  | log request => exact transition_report rfl h
  | merge branch => exact transition_merge h
  | pull request =>
      cases h
      exact .report rfl
  | push request =>
      cases h
      exact .push request
  | clone url =>
      cases h
      exact .report rfl
  | stash request =>
      cases request with
      | push message =>
          cases h
          exact transition_stashPush s message
      | list =>
          cases h
          exact .report rfl
      | apply => exact transition_stashApply h
      | pop => exact transition_stashPop h
      | drop => exact transition_stashDrop h
      | clear =>
          cases h
          exact .dropAll
  | rebase branch => exact transition_report rfl h
  | cherryPick hash =>
      cases h
      exact .cherryPick hash

/-- The line of a step is read as a command that is not refused. -/
def CarriesOut (s : Session σ) (step : Step) (command : Command) : Prop :=
  ∃ line text, step = .execute line ∧ Command.ofLine (trimmed line) = .ok command ∧
    (s.step step).transcript = s.transcript ++ [⟨trimmed line, text, false⟩]

theorem CarriesOut.command_eq {s : Session σ} {line : String} {command other : Command}
    (done : s.CarriesOut (.execute line) other)
    (read : Command.ofLine (trimmed line) = .ok command) : other = command := by
  obtain ⟨_, _, same, read', _⟩ := done
  obtain rfl := Step.execute.inj same
  rw [read, Except.ok.injEq] at read'
  exact read'.symm

/-- What a step does to a session: the step, the repository after it and the source after
it. -/
inductive Moves (s : Session σ) : Step → Repository → σ → Prop
  | refused (line : String) (cause : CommandError)
      (refusal : s.answer (trimmed line) = .error cause) :
      Moves s (.execute line) s.repository s.entropy
  | command {step : Step} {command : Command} {r : Repository} {e : σ}
      (done : s.CarriesOut step command)
      (change : Transition s.compile s.repository s.entropy command r e) : Moves s step r e
  | touch (name : Option String) :
      Moves s (.touch name) (s.repository.touch (chooseFile s.entropy name).1).1
        (chooseFile s.entropy name).2
  | clear : Moves s .clear s.repository s.entropy

/-- A line whose command is not refused takes its effect and adds an entry without error. -/
theorem execute_of_perform {s : Session σ} {line : String} {command : Command}
    {effect : Effect σ} (read : Command.ofLine (trimmed line) = .ok command)
    (performed : s.perform command = .ok effect) :
    s.execute line = (s.settle effect).note ⟨trimmed line, effect.1.2, false⟩ := by
  rw [execute_eq, answer, read]
  simp only [performed]

/-- A line that is not refused is read as a command with that effect. -/
theorem command_of_answer {s : Session σ} {line : String} {effect : Effect σ}
    (h : s.answer line = .ok effect) :
    ∃ command, Command.ofLine line = .ok command ∧ s.perform command = .ok effect := by
  unfold answer at h
  split at h
  · cases h
  · rename_i command read
    exact ⟨command, read, h⟩

/-- A step carries out at most one command. -/
theorem CarriesOut.unique {s : Session σ} {step : Step} {command other : Command}
    (done : s.CarriesOut step command) (done' : s.CarriesOut step other) : command = other := by
  obtain ⟨_, _, rfl, read, _⟩ := done
  exact (done'.command_eq read).symm

/-- What a step does that carries out a command is a transition of that command. -/
theorem CarriesOut.transition {s : Session σ} {step : Step} {command : Command}
    (done : s.CarriesOut step command) :
    Transition s.compile s.repository s.entropy command (s.step step).repository
      (s.step step).entropy := by
  obtain ⟨line, text, rfl, read, added⟩ := done
  cases h : s.answer (trimmed line) with
  | error cause =>
      simp [Session.step, execute_eq, h, note] at added
  | ok effect =>
      obtain ⟨other, read', performed⟩ := command_of_answer h
      obtain rfl := Except.ok.inj (read.symm.trans read')
      simp only [Session.step, execute_of_perform read performed]
      exact transition_perform performed

/-- Every step is one of the listed moves. -/
theorem step_moves (s : Session σ) (step : Step) :
    s.Moves step (s.step step).repository (s.step step).entropy := by
  cases step with
  | execute line =>
      cases h : s.answer (trimmed line) with
      | error cause =>
          simp only [Session.step, execute_eq, h]
          exact .refused line cause h
      | ok effect =>
          obtain ⟨command, read, performed⟩ := command_of_answer h
          have result := execute_of_perform read performed
          refine .command ⟨line, effect.1.2, rfl, read, ?_⟩ ?_
          · simp only [Session.step, result]
            rfl
          · simp only [Session.step, result]
            exact transition_perform performed
  | touch name => exact .touch name
  | clear => exact .clear

/-- What every step keeps, every run keeps. -/
theorem run_invariant {P : Session σ → Prop} (stable : ∀ s step, P s → P (s.step step))
    {s : Session σ} (h : P s) (steps : List Step) : P (s.run steps) := by
  induction steps generalizing s with
  | nil => exact h
  | cons first rest ih => exact ih (stable s first h)

theorem run_append (s : Session σ) (front back : List Step) :
    s.run (front ++ back) = (s.run front).run back :=
  List.foldl_append

/-- A condition holds of every step of a run, in the state in which the step is taken. -/
def EveryStep (s : Session σ) (steps : List Step) (P : Session σ → Step → Prop) : Prop :=
  ∀ earlier step, earlier ++ [step] <+: steps → P (s.run earlier) step

theorem everyStep_nil {s : Session σ} {P : Session σ → Step → Prop} : s.EveryStep [] P := by
  intro earlier step before
  have empty := List.prefix_nil.mp before
  exact absurd empty (List.append_ne_nil_of_right_ne_nil earlier (List.cons_ne_nil step []))

theorem everyStep_cons {s : Session σ} {first : Step} {rest : List Step}
    {P : Session σ → Step → Prop} :
    s.EveryStep (first :: rest) P ↔ P s first ∧ (s.step first).EveryStep rest P := by
  constructor
  · intro h
    refine ⟨h [] first ⟨rest, rfl⟩, fun earlier step before => ?_⟩
    exact h (first :: earlier) step (List.cons_prefix_cons.mpr ⟨rfl, before⟩)
  · rintro ⟨now, later⟩ earlier step before
    cases earlier with
    | nil =>
        obtain ⟨rfl, _⟩ := List.cons_prefix_cons.mp before
        exact now
    | cons second earlier =>
        obtain ⟨rfl, inner⟩ := List.cons_prefix_cons.mp before
        exact later earlier step inner

/-- What holds of every step of a run holds of every step of its end. -/
theorem EveryStep.later {s : Session σ} {front back : List Step}
    {P : Session σ → Step → Prop} (h : s.EveryStep (front ++ back) P) :
    (s.run front).EveryStep back P := by
  intro earlier step before
  rw [← run_append]
  refine h (front ++ earlier) step ?_
  rw [List.append_assoc]
  exact (List.prefix_append_right_inj front).mpr before

end Session

end GitTutor
