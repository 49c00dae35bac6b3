import GitTutor.Proofs.Draws

/-!
# What a line may change

`Command.writes` lists for every command the parts of a repository that it may
change. Every other part is the same after the command, and after a line that is
refused all of them are. The source moves on by as many hashes as the line draws.
-/

namespace GitTutor

open Repository Text

/-- The parts of a repository. -/
inductive Repository.Part
  | current
  | branches
  | logs
  | staged
  | modified
  | stash
  | remotes
  | user
  deriving DecidableEq, Repr

/-- The parts that a command may change. -/
def Command.writes : Command → List Repository.Part
  | .config (.set _ _) => [.user]
  | .branch (.create _) => [.branches, .logs]
  | .branch (.delete _) => [.branches]
  | .checkout (.create _) => [.current, .branches, .logs]
  | .checkout (.switch _) => [.current]
  | .add _ => [.staged, .modified]
  | .commit ⟨_, true⟩ => [.logs, .staged, .modified]
  | .commit ⟨_, false⟩ => [.logs, .staged]
  | .merge _ => [.logs]
  | .stash (.push _) => [.staged, .modified, .stash]
  | .stash .apply => [.modified]
  | .stash .pop => [.modified, .stash]
  | .stash .drop => [.stash]
  | .stash .clear => [.stash]
  | .cherryPick _ => [.logs]
  | _ => []

/-- No command changes the remotes. -/
theorem Command.remotes_notMem_writes (command : Command) : .remotes ∉ command.writes := by
  unfold writes
  split <;> simp

/-- Setting a key gives it the value and leaves the other key alone. -/
theorem Identity.get_set (user : Identity) (key : IdentityKey) (value : String)
    (other : IdentityKey) :
    (user.set key value).get other = if other = key then value else user.get other := by
  cases key with
  | name => cases other <;> rfl
  | email => cases other <;> rfl

namespace Repository

/-- A repository has the same content in a part as another one. -/
def Agrees (r r' : Repository) : Part → Prop
  | .current => r'.current = r.current
  | .branches => r'.branches = r.branches
  | .logs => r'.logs = r.logs
  | .staged => r'.staged = r.staged
  | .modified => r'.modified = r.modified
  | .stash => r'.stash = r.stash
  | .remotes => r'.remotes = r.remotes
  | .user => r'.user = r.user

theorem Agrees.refl (r : Repository) (part : Part) : r.Agrees r part := by
  cases part <;> rfl

/-- Repositories that agree on every part are equal. -/
theorem eq_of_agrees {r r' : Repository} (h : ∀ part, r.Agrees r' part) : r' = r := by
  obtain ⟨current, branches, logs, staged, modified, stash, remotes, user⟩ := r
  obtain rfl : r'.current = current := h .current
  obtain rfl : r'.branches = branches := h .branches
  obtain rfl : r'.logs = logs := h .logs
  obtain rfl : r'.staged = staged := h .staged
  obtain rfl : r'.modified = modified := h .modified
  obtain rfl : r'.stash = stash := h .stash
  obtain rfl : r'.remotes = remotes := h .remotes
  obtain rfl : r'.user = user := h .user
  rfl

end Repository

section Transitions

variable {σ : Type} [Entropy σ] {compile : PatternCompiler} {r r' : Repository} {e e' : σ}
  {command : Command}

/-- A transition changes only parts that its command may change. -/
theorem Transition.frame (t : Transition compile r e command r' e') {part : Part}
    (other : part ∉ command.writes) : r.Agrees r' part := by
  cases t with
  | report | push | commitNothing | mergeNothing | shelveNothing => exact Agrees.refl r part
  | identify =>
      cases part with
      | user => exact absurd (List.mem_singleton.mpr rfl) other
      | _ => rfl
  | create =>
      cases part with
      | branches | logs => simp [Command.writes] at other
      | _ => rfl
  | delete =>
      cases part with
      | branches => simp [Command.writes] at other
      | _ => rfl
  | branchOff =>
      cases part with
      | current | branches | logs => simp [Command.writes] at other
      | _ => rfl
  | switch =>
      cases part with
      | current => simp [Command.writes] at other
      | _ => rfl
  | stageAll | stage =>
      cases part with
      | staged | modified => simp [Command.writes] at other
      | _ => rfl
  | commit request =>
      obtain ⟨message, all⟩ := request
      cases part with
      | logs | staged => cases all <;> simp [Command.writes] at other
      | modified =>
          -- Only a commit of everything takes up the modified files.
          cases all with
          | true => simp [Command.writes] at other
          | false => rfl
      | _ => rfl
  | merge | cherryPick =>
      cases part with
      | logs => simp [Command.writes] at other
      | _ => rfl
  | shelve =>
      cases part with
      | staged | modified | stash => simp [Command.writes] at other
      | _ => rfl
  | restore =>
      cases part with
      | modified => simp [Command.writes] at other
      | _ => rfl
  | pop =>
      cases part with
      | modified | stash => simp [Command.writes] at other
      | _ => rfl
  | drop | dropAll =>
      cases part with
      | stash => simp [Command.writes] at other
      | _ => rfl

/-- A command that sets a key sets nothing else in the identity. -/
theorem Transition.user_set {key : IdentityKey} {value : String}
    (t : Transition compile r e (.config (.set key value)) r' e') (other : IdentityKey) :
    r'.user.get other = if other = key then value else r.user.get other := by
  cases t with
  | report quiet => cases quiet
  | identify => exact Identity.get_set r.user key value other

/-- A commit continues the current log by as many commits as it draws hashes. -/
theorem Transition.committed {request : CommitRequest}
    (t : Transition compile r e (.commit request) r' e') :
    ∃ new : List Commit, new.length = (Command.commit request).draws r ∧
      r'.currentLog = r.currentLog ++ new := by
  cases t with
  | report quiet => cases quiet
  | commit _ files =>
      refine ⟨_, ?_, (log_append r _ r.current).trans (if_pos rfl)⟩
      rw [Command.draws, if_neg files]
      rfl
  | commitNothing _ none =>
      refine ⟨[], ?_, (List.append_nil _).symm⟩
      rw [Command.draws, if_pos none]
      rfl

end Transitions

namespace Session

variable {σ : Type} [Entropy σ]

/-- What a line does that carries out a command is a transition of that command. -/
theorem CarriesOut.transition_of_line {s : Session σ} {line : String} {command : Command}
    (done : s.CarriesOut (.execute line) command) :
    Transition s.compile s.repository s.entropy command (s.execute line).repository
      (s.execute line).entropy := by
  have change := done.transition
  rwa [Session.step] at change

/-- A line leaves a part alone that no command which it carries out may change. -/
theorem agrees_execute {s : Session σ} {line : String} {part : Part}
    (quiet : ∀ command, s.CarriesOut (.execute line) command → part ∉ command.writes) :
    s.repository.Agrees (s.execute line).repository part := by
  have moves := step_moves s (.execute line)
  rw [Session.step] at moves
  generalize (s.execute line).repository = r' at moves ⊢
  generalize (s.execute line).entropy = e' at moves
  cases moves with
  | refused => exact Agrees.refl s.repository part
  | command done change => exact change.frame (quiet _ done)

/-- A line moves the source on by the hashes that it draws. -/
theorem entropy_execute (s : Session σ) (line : String) :
    (s.execute line).entropy = Entropy.afterHashes (s.draws (.execute line)) s.entropy := by
  have moves := step_moves s (.execute line)
  rw [Session.step] at moves
  generalize (s.execute line).repository = r' at moves
  generalize (s.execute line).entropy = e' at moves ⊢
  cases moves with
  | refused _ cause refusal =>
      rw [draws_of_refusal refusal]
      rfl
  | command done change => rw [change.source, done.draws_eq]

/-- What a line may change. A part is the same after the line unless the line carries out a
command that may change it, so the remotes always are, and after a line that is refused or
only shows something the whole repository is. Setting a key sets that key and not the other
one. The source moves on by the hashes that the line draws, which for a commit are as many as
the commits that it adds to the current log. -/
theorem changed_by_line (s : Session σ) (line : String) :
    (∀ part, (∀ command, s.CarriesOut (.execute line) command → part ∉ command.writes) →
      s.repository.Agrees (s.execute line).repository part) ∧
    (s.execute line).repository.remotes = s.repository.remotes ∧
    ((∀ command, s.CarriesOut (.execute line) command → command.writes = []) →
      (s.execute line).repository = s.repository) ∧
    (∀ key value, s.CarriesOut (.execute line) (.config (.set key value)) → ∀ other,
      (s.execute line).repository.user.get other =
        if other = key then value else s.repository.user.get other) ∧
    (s.execute line).entropy = Entropy.afterHashes (s.draws (.execute line)) s.entropy ∧
    ∀ request, s.CarriesOut (.execute line) (.commit request) →
      ∃ new : List Commit, new.length = s.draws (.execute line) ∧
        (s.execute line).repository.currentLog = s.repository.currentLog ++ new := by
  refine ⟨fun part => agrees_execute, ?_, ?_, ?_, entropy_execute s line, ?_⟩
  · have same : s.repository.Agrees (s.execute line).repository .remotes :=
      agrees_execute fun command _ => command.remotes_notMem_writes
    exact same
  · intro quiet
    apply eq_of_agrees
    intro part
    apply agrees_execute
    intro command done
    rw [quiet command done]
    exact List.not_mem_nil
  · intro key value done
    exact done.transition_of_line.user_set
  · intro request done
    rw [done.draws_eq]
    exact done.transition_of_line.committed

/-- A commit of the staged file leaves the other one modified and draws one hash. -/
theorem changed_by_line_commit :
    let s := (start Settings.standard Counter.zero).run
      [.touch (some "a.txt"), .execute "git add a.txt", .touch (some "b.txt")]
    (s.execute "git commit -m done").repository.modified = ["b.txt"] ∧
      (s.execute "git commit -m done").entropy = (Entropy.hash s.entropy).2 := by
  intro s
  have read : Command.ofLine (trimmed "git commit -m done") = .ok (.commit ⟨"done", false⟩) := rfl
  have drawn : s.draws (.execute "git commit -m done") = 1 := by decide +kernel
  obtain ⟨parts, _, _, _, source, _⟩ := changed_by_line s "git commit -m done"
  constructor
  · have same : s.repository.Agrees (s.execute "git commit -m done").repository .modified := by
      apply parts
      intro command done
      rw [done.command_eq read]
      decide
    exact same.trans (by decide +kernel)
  · rw [source, drawn]
    rfl

end Session

end GitTutor
