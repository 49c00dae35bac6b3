import GitTutor.Config
import GitTutor.Proofs.Transition
import GitTutor.Proofs.Words

/-!
# Names of branches

Every branch has the name of the first branch or a name that a line asked for, so
it is a word. A word that is no option is read as a target by every subcommand
that takes one, and then it leads to its branch. A word that is an option is never
read as a target, but `git checkout -b` takes any word as the name of a new branch,
and a branch that is named like an option cannot be checked out again.
-/

namespace GitTutor

open Repository Text

theorem Config.isBranchName_iff {name : String} :
    Config.isBranchName name = true ↔ IsWord name.toList := by
  simp [Config.isBranchName, IsWord]

/-- The name of the branch that a command creates. -/
def Command.creates : Command → Option String
  | .branch (.create name) => some name
  | .checkout (.create name) => some name
  | _ => none

section Reading

variable {words : List String} {name : String}

theorem map_eq_ok_iff {α β : Type} {f : α → β} {read : Except CommandError α} {b : β} :
    f <$> read = .ok b ↔ ∃ a, read = .ok a ∧ f a = b := by
  cases read <;> simp

/-- A name that `git branch` creates is a word of its line, and no option. -/
theorem BranchRequest.create_of_words (h : ofWords words = .ok (.create name)) :
    name ∈ words ∧ isFlag name = false := by
  unfold ofWords at h
  split at h
  · cases h
  · rename_i word rest
    split at h
    · cases h
    · split at h
      · split at h <;> cases h
      · split at h
        · cases h
        · rename_i plain
          cases h
          exact ⟨List.mem_cons_self, Bool.eq_false_iff.mpr plain⟩

/-- A name that `git checkout -b` creates is a word of its line. -/
theorem CheckoutRequest.create_of_words (h : ofWords words = .ok (.create name)) :
    name ∈ words := by
  unfold ofWords at h
  split at h
  · cases h
  · rename_i word rest
    split at h
    · split at h
      · cases h
      · cases h
        exact List.mem_cons_of_mem word List.mem_cons_self
    · split at h <;> cases h

/-- A command carries what the reader of its subcommand takes from some words. -/
def Command.ReadFrom (words : List String) : Command → Prop
  | .config request => ConfigRequest.ofWords words = .ok request
  | .branch request => BranchRequest.ofWords words = .ok request
  | .checkout request => CheckoutRequest.ofWords words = .ok request
  | .add request => AddRequest.ofWords words = .ok request
  | .commit request => CommitRequest.ofWords words = .ok request
  | .log request => LogRequest.ofWords words = .ok request
  | .merge target => readTarget .missingBranchName words = .ok target
  | .pull request => RemoteRequest.ofWords words = request
  | .push request => RemoteRequest.ofWords words = request
  | .clone url => readUrl words = .ok url
  | .stash request => StashRequest.ofWords words = .ok request
  | .rebase target => readTarget .missingBranchName words = .ok target
  | .cherryPick target => readTarget .missingCommitHash words = .ok target
  | .version => True
  | .init => True
  | .status => True

/-- Every subcommand has its words read by its own reader. -/
theorem Command.readFrom_of_subcommand {subcommand : String} {command : Command}
    (read : ofSubcommand subcommand words = .ok command) : command.ReadFrom words := by
  unfold ofSubcommand at read
  split at read
  all_goals
    first
    | obtain ⟨_, inner, rfl⟩ := map_eq_ok_iff.mp read
      exact inner
    | cases read <;> trivial

/-- A command is read from words of its line. -/
theorem Command.readFrom_of_line {line : String} {command : Command}
    (read : ofLine line = .ok command) :
    ∃ arguments, arguments ⊆ wordsOf line ∧ command.ReadFrom arguments := by
  unfold ofLine at read
  generalize wordsOf line = words at read ⊢
  unfold ofWords at read
  split at read
  · cases read
  · rename_i word rest
    split at read
    · split at read
      · cases read
      · rename_i subcommand arguments
        refine ⟨arguments, fun argument h => ?_, readFrom_of_subcommand read⟩
        exact List.mem_cons_of_mem word (List.mem_cons_of_mem subcommand h)
    · cases read

/-- A name that a line creates is one of its words, and an option only after
`git checkout -b`. -/
theorem Command.creates_of_line {line : String} {command : Command}
    (read : ofLine line = .ok command) (created : command.creates = some name) :
    name ∈ wordsOf line ∧ (isFlag name = true → command = .checkout (.create name)) := by
  obtain ⟨arguments, within, taken⟩ := readFrom_of_line read
  unfold creates at created
  split at created
  · cases created
    obtain ⟨found, plain⟩ := BranchRequest.create_of_words taken
    refine ⟨within found, fun flag => ?_⟩
    rw [plain] at flag
    cases flag
  · cases created
    exact ⟨within (CheckoutRequest.create_of_words taken), fun _ => rfl⟩
  · cases created

theorem ne_of_plain {word option : String} (plain : isFlag word = false)
    (flag : isFlag option = true) : word ≠ option := by
  rintro rfl
  rw [plain] at flag
  cases flag

/-- A word that is no option carries no limit. -/
theorem LogRequest.limitIn?_of_plain {word : String} (plain : isFlag word = false) :
    limitIn? word = none := by
  unfold isFlag at plain
  unfold limitIn?
  generalize word.toList = cs at plain ⊢
  cases cs with
  | nil => rfl
  | cons c rest =>
      by_cases dash : c = '-'
      · subst dash
        cases rest with
        | nil => rfl
        | cons d rest => cases plain
      · simp [dropLead?, dash, Ne.symm dash]

/-- A word that is no option is read as the branch whose log is shown. -/
theorem LogRequest.ofWords_of_plain {word : String} (plain : isFlag word = false) :
    ofWords [word] = .ok { LogRequest.plain with branch := some word } := by
  have limit : word ≠ "-n" := ne_of_plain plain (by decide)
  have oneline : word ≠ "--oneline" := ne_of_plain plain (by decide)
  have graph : word ≠ "--graph" := ne_of_plain plain (by decide)
  have all : word ≠ "--all" := ne_of_plain plain (by decide)
  simp [ofWords, addWords, addWord, limit, oneline, graph, all, limitIn?_of_plain plain, plain]

theorem CheckoutRequest.ofWords_of_plain {word : String} (plain : isFlag word = false) :
    ofWords [word] = .ok (.switch word) := by
  have create : word ≠ "-b" := ne_of_plain plain (by decide)
  simp [ofWords, create, plain]

/-- A word that is an option is never read as the branch to switch to. -/
theorem CheckoutRequest.ofWords_of_flag {word : String} (flag : isFlag word = true) :
    ∃ cause, ofWords [word] = .error cause := by
  by_cases create : word = "-b"
  · exact ⟨.missingBranchName, by simp [ofWords, create]⟩
  · exact ⟨.unknownOption word, by simp [ofWords, create, flag]⟩

theorem readTarget_of_plain {word : String} (plain : isFlag word = false)
    (missing : CommandError) : readTarget missing [word] = .ok word := by
  simp [readTarget, plain]

theorem readTarget_of_flag {word : String} (flag : isFlag word = true) (missing : CommandError) :
    readTarget missing [word] = .error (.unknownOption word) := by
  simp [readTarget, flag]

/-- The line that asks a subcommand for one target. -/
def targetLine (subcommand target : String) : String :=
  joinWith " " ["git", subcommand, target]

theorem Command.ofLine_target {subcommand target : String} (verb : IsWord subcommand.toList)
    (word : IsWord target.toList) :
    ofLine (trimmed (targetLine subcommand target)) = ofSubcommand subcommand [target] := by
  have git : IsWord "git".toList := by decide
  have all : ∀ w ∈ ["git", subcommand, target], IsWord w.toList := by
    simp only [List.mem_cons, List.not_mem_nil, or_false]
    rintro w (rfl | rfl | rfl)
    · exact git
    · exact verb
    · exact word
  rw [ofLine, wordsOf_trimmed, targetLine, wordsOf_joinWith all]
  rfl

end Reading

namespace Session

variable {σ : Type} [Entropy σ]

/-- Every branch after a step was one before it or is created by the command of the step. -/
theorem branches_step {P : String → Prop} {s : Session σ} {step : Step}
    (old : ∀ b ∈ s.repository.branches, P b)
    (new : ∀ line command name, step = .execute line →
      Command.ofLine (trimmed line) = .ok command → command.creates = some name → P name) :
    ∀ b ∈ (s.step step).repository.branches, P b := by
  have moves := step_moves s step
  generalize (s.step step).repository = r' at moves ⊢
  generalize (s.step step).entropy = e' at moves
  cases moves with
  | refused => exact old
  | touch => exact old
  | clear => exact old
  | command done change =>
      obtain ⟨line, _, taken, read, _⟩ := done
      have forked : ∀ name, (∀ b ∈ s.repository.branches, P b) → P name →
          ∀ b ∈ (s.repository.fork name).branches, P b := by
        intro name old made b h
        rcases List.mem_append.mp h with h | h
        · exact old b h
        · exact List.mem_singleton.mp h ▸ made
      cases change with
      | create name => exact forked name old (new line _ name taken read rfl)
      | branchOff name => exact forked name old (new line _ name taken read rfl)
      | delete name => exact fun b h => old b (List.mem_of_mem_erase h)
      | _ => exact old

/-- What holds of the names of all branches and of every name that a line of a run creates
holds of the names of all branches after the run. -/
theorem branches_run {P : String → Prop} {s : Session σ} {steps : List Step}
    (old : ∀ b ∈ s.repository.branches, P b)
    (new : ∀ line command name, .execute line ∈ steps →
      Command.ofLine (trimmed line) = .ok command → command.creates = some name → P name) :
    ∀ b ∈ (s.run steps).repository.branches, P b := by
  induction steps generalizing s with
  | nil => exact old
  | cons first rest ih =>
      refine ih (branches_step old fun line command name taken => ?_) fun line command name h => ?_
      · exact new line command name (taken ▸ List.mem_cons_self)
      · exact new line command name (List.mem_cons_of_mem first h)

/-- A line adds one entry to the transcript, which tells whether it failed. -/
def Reports (s : Session σ) (line : String) (failed : Bool) : Prop :=
  ∃ text, (s.execute line).transcript = s.transcript ++ [⟨trimmed line, text, failed⟩]

section Targets

variable {s : Session σ}

theorem reports_of_perform {line : String} {command : Command} {effect : Effect σ}
    (read : Command.ofLine (trimmed line) = .ok command)
    (performed : s.perform command = .ok effect) : s.Reports line false := by
  refine ⟨effect.1.2, ?_⟩
  rw [execute_of_perform read performed]
  rfl

theorem reports_of_unread {line : String} {cause : CommandError}
    (unread : Command.ofLine (trimmed line) = .error cause) : s.Reports line true := by
  refine ⟨cause.message, ?_⟩
  rw [execute_eq, answer, unread]
  rfl

variable {b : String} (word : IsWord b.toList)
include word

/-- A word that is no option is read as the branch to check out. -/
theorem read_checkout (plain : isFlag b = false) :
    Command.ofLine (trimmed (targetLine "checkout" b)) = .ok (.checkout (.switch b)) := by
  rw [Command.ofLine_target (by decide) word]
  exact congrArg (Command.checkout <$> ·) (CheckoutRequest.ofWords_of_plain plain)

/-- A word that is no option is read as the branch to merge. -/
theorem read_merge (plain : isFlag b = false) :
    Command.ofLine (trimmed (targetLine "merge" b)) = .ok (.merge b) := by
  rw [Command.ofLine_target (by decide) word]
  exact congrArg (Command.merge <$> ·) (readTarget_of_plain plain _)

/-- Checking out a branch whose name is no option only makes it the current one. -/
theorem execute_checkout (plain : isFlag b = false) (live : b ∈ s.repository.branches) :
    s.Reports (targetLine "checkout" b) false ∧
      (s.execute (targetLine "checkout" b)).repository =
        { s.repository with current := b } := by
  obtain ⟨answer, done, after⟩ : ∃ answer, s.repository.checkout b = .ok answer ∧
      answer.1 = { s.repository with current := b } := by
    rw [checkout, if_pos (hasBranch_iff.mpr live)]
    split
    · rename_i here
      exact ⟨_, rfl, by rw [here]⟩
    · exact ⟨_, rfl, rfl⟩
  have performed : s.perform (.checkout (.switch b)) = .ok (s.becomes answer) := by
    rw [perform, done]
    rfl
  have read := read_checkout word plain
  refine ⟨reports_of_perform read performed, ?_⟩
  rw [execute_of_perform read performed]
  exact after

/-- A branch whose name is no option can be checked out. -/
theorem checkout_plain (plain : isFlag b = false) (live : b ∈ s.repository.branches) :
    s.Reports (targetLine "checkout" b) false ∧
      (s.execute (targetLine "checkout" b)).repository.current = b := by
  obtain ⟨done, after⟩ := execute_checkout word plain live
  rw [after]
  exact ⟨done, rfl⟩

theorem log_plain (plain : isFlag b = false) (live : b ∈ s.repository.branches) :
    s.Reports (targetLine "log" b) false := by
  have read : Command.ofLine (trimmed (targetLine "log" b)) =
      .ok (.log { LogRequest.plain with branch := some b }) := by
    rw [Command.ofLine_target (by decide) word]
    exact congrArg (Command.log <$> ·) (LogRequest.ofWords_of_plain plain)
  obtain ⟨text, shown⟩ : ∃ text,
      s.repository.logReport { LogRequest.plain with branch := some b } = .ok text := by
    simp only [logReport, Option.getD_some, hasBranch_iff.mpr live, if_true]
    exact ⟨_, rfl⟩
  have performed : s.perform (.log { LogRequest.plain with branch := some b }) = .ok (s.shows text) := by
    rw [perform, shown]
    rfl
  exact reports_of_perform read performed

theorem merge_plain (plain : isFlag b = false) (live : b ∈ s.repository.branches) :
    s.Reports (targetLine "merge" b) false := by
  obtain ⟨answer, merged⟩ : ∃ answer, s.repository.merge b = .ok answer := by
    rw [Repository.merge, if_pos (hasBranch_iff.mpr live)]
    split <;> exact ⟨_, rfl⟩
  have performed : s.perform (.merge b) = .ok (s.becomes answer) := by
    rw [perform, merged]
    rfl
  exact reports_of_perform (read_merge word plain) performed

theorem rebase_plain (plain : isFlag b = false) (live : b ∈ s.repository.branches) :
    s.Reports (targetLine "rebase" b) false := by
  have read : Command.ofLine (trimmed (targetLine "rebase" b)) = .ok (.rebase b) := by
    rw [Command.ofLine_target (by decide) word]
    exact congrArg (Command.rebase <$> ·) (readTarget_of_plain plain _)
  obtain ⟨text, shown⟩ : ∃ text, s.repository.rebaseReport b = .ok text := by
    rw [rebaseReport, if_pos (hasBranch_iff.mpr live)]
    split <;> exact ⟨_, rfl⟩
  have performed : s.perform (.rebase b) = .ok (s.shows text) := by
    rw [perform, shown]
    rfl
  exact reports_of_perform read performed

/-- A name that is an option is refused wherever a branch is asked for. -/
theorem targets_flag (flag : isFlag b = true) :
    s.Reports (targetLine "checkout" b) true ∧ s.Reports (targetLine "merge" b) true ∧
      s.Reports (targetLine "rebase" b) true := by
  obtain ⟨cause, unread⟩ := CheckoutRequest.ofWords_of_flag flag
  have target := readTarget_of_flag flag .missingBranchName
  have checkout : Command.ofLine (trimmed (targetLine "checkout" b)) = .error cause := by
    rw [Command.ofLine_target (by decide) word]
    exact congrArg (Command.checkout <$> ·) unread
  have merge : Command.ofLine (trimmed (targetLine "merge" b)) = .error (.unknownOption b) := by
    rw [Command.ofLine_target (by decide) word]
    exact congrArg (Command.merge <$> ·) target
  have rebase : Command.ofLine (trimmed (targetLine "rebase" b)) = .error (.unknownOption b) := by
    rw [Command.ofLine_target (by decide) word]
    exact congrArg (Command.rebase <$> ·) target
  exact ⟨reports_of_unread checkout, reports_of_unread merge, reports_of_unread rebase⟩

end Targets

/-- If the first branch has a word as its name, every branch of the session has. -/
theorem isWord_branches_of_first (compile : PatternCompiler) {settings : Settings}
    (first : IsWord settings.initialBranch.toList) (e : σ) (steps : List Step) :
    ∀ b ∈ ((startWith compile settings e).run steps).repository.branches, IsWord b.toList := by
  refine branches_run ?_ fun line command name _ read created => ?_
  · intro b h
    obtain rfl := List.mem_singleton.mp h
    exact first
  · exact isWord_of_mem_wordsOf (Command.creates_of_line read created).1

/-- Every branch of a session under a valid configuration has a word as its name. -/
theorem isWord_branches (compile : PatternCompiler) {c : Config} (valid : c.validate = .ok ())
    (e : σ) (steps : List Step) :
    ∀ b ∈ ((startWith compile c.settings e).run steps).repository.branches, IsWord b.toList :=
  isWord_branches_of_first compile
    (Config.isBranchName_iff.mp ((Config.validate_eq_ok_iff c).mp valid).1) e steps

/-- In every state of a session under a valid configuration, a branch whose name is no option can
be checked out, and its log can be shown, and it can be merged and rebased onto. A branch whose
name is an option can be neither checked out nor merged nor rebased onto, and there is one only if
the configuration names the first branch so or `git checkout -b` was run with an option as the
name. -/
theorem branch_named_iff_plain (compile : PatternCompiler) {c : Config}
    (valid : c.validate = .ok ()) (e : σ) (steps : List Step) :
    let s := (startWith compile c.settings e).run steps
    (∀ b ∈ s.repository.branches, isFlag b = false →
      (s.Reports (targetLine "checkout" b) false ∧
        (s.execute (targetLine "checkout" b)).repository.current = b) ∧
      s.Reports (targetLine "log" b) false ∧ s.Reports (targetLine "merge" b) false ∧
      s.Reports (targetLine "rebase" b) false) ∧
    (∀ b ∈ s.repository.branches, isFlag b = true →
      s.Reports (targetLine "checkout" b) true ∧ s.Reports (targetLine "merge" b) true ∧
      s.Reports (targetLine "rebase" b) true) ∧
    (isFlag c.settings.initialBranch = false →
      (∀ line name, .execute line ∈ steps →
        Command.ofLine (trimmed line) = .ok (.checkout (.create name)) → isFlag name = false) →
      ∀ b ∈ s.repository.branches, isFlag b = false) := by
  intro s
  have word := isWord_branches compile valid e steps
  refine ⟨fun b live plain => ?_, fun b live flag => targets_flag (word b live) flag, ?_⟩
  · exact ⟨checkout_plain (word b live) plain live, log_plain (word b live) plain live,
      merge_plain (word b live) plain live, rebase_plain (word b live) plain live⟩
  · intro first careful
    refine branches_run ?_ fun line command name taken read created => ?_
    · intro b h
      obtain rfl := List.mem_singleton.mp h
      exact first
    · -- Only `git checkout -b` could create a branch that is named like an option.
      refine Bool.eq_false_iff.mpr fun flag => ?_
      have only := (Command.creates_of_line read created).2 flag
      rw [careful line name taken (only ▸ read)] at flag
      cases flag

/-- A branch with a name in other letters, and the first one, can be named. -/
theorem branch_named_iff_plain_dash :
    let c := { Config.standard with
      settings := { Settings.standard with initialBranch := "-" } }
    let s := (startWith (fun _ => none) c.settings Counter.zero).run
      [.execute "git checkout -b päron", .touch none]
    c.validate = .ok () ∧
      (s.execute (targetLine "checkout" "-")).repository.current = "-" ∧
      s.Reports (targetLine "merge" "päron") false := by
  intro c s
  have valid : c.validate = .ok () := by decide +kernel
  obtain ⟨plain, _, _⟩ := branch_named_iff_plain (fun _ => none) valid Counter.zero
    [.execute "git checkout -b päron", .touch none]
  have first := plain "-" (by decide +kernel) (by decide)
  have second := plain "päron" (by decide +kernel) (by decide)
  exact ⟨valid, first.1.2, second.2.2.1⟩

/-- A branch that was created under the name of an option cannot be checked out again, and
neither can the first branch of a valid configuration that is named so. -/
theorem flag_branch_lost :
    let s := (startWith (fun _ => none) Settings.standard Counter.zero).run
      [.execute "git checkout -b -x", .execute "git checkout main"]
    let c := { Config.standard with
      settings := { Settings.standard with initialBranch := "-x" } }
    let s' := startWith (fun _ => none) c.settings Counter.zero
    Config.standard.validate = .ok () ∧ "-x" ∈ s.repository.branches ∧
      s.Reports "git checkout -x" true ∧ c.validate = .ok () ∧
      "-x" ∈ s'.repository.branches ∧ s'.Reports "git checkout -x" true := by
  intro s c s'
  have unread : Command.ofLine (trimmed "git checkout -x") = .error (.unknownOption "-x") := by
    decide +kernel
  exact ⟨by decide +kernel, by decide +kernel, reports_of_unread unread, by decide +kernel,
    by decide +kernel, reports_of_unread unread⟩

end Session

end GitTutor
