import GitTutor.Session

/-!
# Effects of command lines

What a command comes to, as one value: the repository and the text after it and
the source after it, or the cause of a refusal. `dispatch_run` says that working
in place comes to exactly that, and that a refusal leaves the session as it was.
-/

namespace GitTutor.Session

open Text

variable {σ : Type}

/-- The repository and the text after a command, and the source after it. -/
abbrev Effect (σ : Type) := Repository.Answer × σ

/-- An effect that only prints. -/
def shows (s : Session σ) (text : String) : Effect σ :=
  ((s.repository, text), s.entropy)

/-- An effect that draws nothing. -/
def becomes (s : Session σ) (answer : Repository.Answer) : Effect σ :=
  (answer, s.entropy)

/-- The session after an effect. -/
def settle (s : Session σ) (effect : Effect σ) : Session σ :=
  { s with repository := effect.1.1, entropy := effect.2 }

/-- The ending that an effect describes: a refusal leaves the session as it was. -/
def ending (s : Session σ) :
    Except CommandError (Effect σ) → EStateM.Result CommandError (Session σ) String
  | .error cause => .error cause s
  | .ok effect => .ok effect.1.2 (s.settle effect)

theorem reporting_run (report : Session σ → String) (s : Session σ) :
    (reporting report).run s = ending s (.ok (s.shows (report s))) := by
  simp [reporting, ending, shows, settle]

theorem tryReporting_run (report : Session σ → Except CommandError String) (s : Session σ) :
    (tryReporting report).run s = ending s ((report s).map s.shows) := by
  cases h : report s <;> simp [tryReporting, ending, shows, settle, Except.map, h]

theorem drawing_run (f : Repository → σ → Repository.Answer × σ) (s : Session σ) :
    (drawing f).run s = ending s (.ok (f s.repository s.entropy)) := by
  simp [drawing, ending, settle]

/-- A handler that ends as an update says has the effect of that update. -/
theorem handling_run {h : Handler String} {s : Session σ}
    {outcome : Except CommandError Repository.Answer}
    (run : h.run s.repository = Handler.ending s.repository outcome) :
    (handling h).run s = ending s (outcome.map s.becomes) := by
  change s.afterHandler (h.run s.repository) = _
  rw [run]
  cases outcome <;> rfl

variable [Entropy σ]

/-- What a command comes to. -/
def perform (s : Session σ) : Command → Except CommandError (Effect σ)
  | .version => .ok (s.shows s.settings.versionReport)
  | .config (.set key value) => .ok (s.becomes (s.repository.setIdentity key value))
  | .config request => .ok (s.shows (s.repository.configReport request))
  | .init => .ok (s.shows s.settings.initReport)
  | .status => .ok (s.shows s.repository.statusReport)
  | .branch .list => .ok (s.shows s.repository.branchReport)
  | .branch (.create name) => (s.repository.createBranch name).map s.becomes
  | .branch (.delete name) => (s.repository.deleteBranch name).map s.becomes
  | .checkout (.create name) => (s.repository.checkoutNew name).map s.becomes
  | .checkout (.switch name) => (s.repository.checkout name).map s.becomes
  | .add request => (s.repository.add s.compile request).map s.becomes
  | .commit request => .ok (s.repository.commit request s.entropy)
  | .log request => (s.repository.logReport request).map s.shows
  | .merge branch => (s.repository.merge branch).map s.becomes
  | .pull request => .ok (s.shows (s.repository.pullReport request))
  | .push request =>
      let first := Entropy.hash s.entropy
      let second := Entropy.hash first.2
      .ok ((s.repository, s.repository.pushReport request first.1 second.1), second.2)
  | .clone url => .ok (s.shows (Repository.cloneReport url))
  | .stash (.push message) => .ok (s.becomes (s.repository.stashPush message))
  | .stash .list => .ok (s.shows s.repository.stashReport)
  | .stash .apply => s.repository.stashApply.map s.becomes
  | .stash .pop => s.repository.stashPop.map s.becomes
  | .stash .drop => s.repository.stashDrop.map s.becomes
  | .stash .clear => .ok (s.becomes s.repository.stashClear)
  | .rebase branch => (s.repository.rebaseReport branch).map s.shows
  | .cherryPick hash => .ok (s.repository.cherryPick hash s.entropy)

/-- Working in place comes to the effect of the command, and a refusal leaves the session
as it was. -/
theorem dispatch_run (s : Session σ) (command : Command) :
    (dispatch command).run s = ending s (s.perform command) := by
  cases command with
  | version => exact reporting_run _ s
  | config request =>
      cases request with
      | set key value =>
          exact handling_run (Handler.update_run (fun r => r.setIdentity key value) s.repository)
      | _ => exact reporting_run _ s
  | init => exact reporting_run _ s
  | status => exact reporting_run _ s
  | branch request =>
      cases request with
      | list => exact reporting_run _ s
      | create name => exact handling_run (Handler.createBranch_run name s.repository)
      | delete name => exact handling_run (Handler.deleteBranch_run name s.repository)
  | checkout request =>
      cases request with
      | create name => exact handling_run (Handler.checkoutNew_run name s.repository)
      | switch name => exact handling_run (Handler.checkout_run name s.repository)
  | add request => exact handling_run (Handler.add_run s.compile request s.repository)
  | commit request => exact drawing_run (fun r e => r.commit request e) s
  | log request => exact tryReporting_run _ s
  | merge branch => exact handling_run (Handler.merge_run branch s.repository)
  | pull request => exact reporting_run _ s
  | push request => rfl
  | clone url => exact reporting_run _ s
  | stash request =>
      cases request with
      | push message =>
          exact handling_run (Handler.update_run (fun r => r.stashPush message) s.repository)
      | list => exact reporting_run _ s
      | apply => exact handling_run (Handler.restore_run false s.repository)
      | pop => exact handling_run (Handler.restore_run true s.repository)
      | drop => exact handling_run (Handler.stashDrop_run s.repository)
      | clear => exact handling_run (Handler.update_run Repository.stashClear s.repository)
  | rebase branch => exact tryReporting_run _ s
  | cherryPick hash => exact drawing_run (fun r e => r.cherryPick hash e) s

/-- What a line comes to. -/
def answer (s : Session σ) (line : String) : Except CommandError (Effect σ) :=
  match Command.ofLine line with
  | .error cause => .error cause
  | .ok command => s.perform command

theorem respond_run (s : Session σ) (line : String) :
    (respond line).run s = ending s (s.answer line) := by
  unfold respond answer
  cases Command.ofLine line with
  | error cause => rfl
  | ok command => exact dispatch_run s command

/-- A refused line only adds its entry, and any other line takes effect and adds its entry. -/
theorem execute_eq (s : Session σ) (line : String) :
    s.execute line =
      match s.answer (trimmed line) with
      | .error cause => s.note ⟨trimmed line, cause.message, true⟩
      | .ok effect => (s.settle effect).note ⟨trimmed line, effect.1.2, false⟩ := by
  simp only [execute, respond_run]
  cases s.answer (trimmed line) <;> rfl

end GitTutor.Session
