import GitTutor.Proofs.FrameTable
import GitTutor.Proofs.TidyText

/-!
# Writes to the identity

Only lines that set a key change the identity, and the last line of a run that sets a key
decides its value at the end. New commits record the name, so between two lines that set the
name every new commit has the same author, and the commits that logs hold already are never
changed.
-/

namespace GitTutor

open Repository Text

/-- The value that a command gives to a key, if it sets that key. -/
def Command.value? (key : IdentityKey) : Command → Option String
  | .config (.set other value) => if other = key then some value else none
  | _ => none

namespace ConfigRequest

/-- The words that a key takes its value from: all of them for the name, and the first one for
the address. -/
def takes (words : List String) : IdentityKey → List String
  | .name => words
  | .email => words.take 1

variable {key : IdentityKey} {scope words : List String} {line : String}

/-- A key with words behind it is set to them, whatever the scope. -/
theorem read_set (place : scope ∈ [[], ["--global"], ["--local"]]) (some : words ≠ [])
    (typed : wordsOf line = "git" :: "config" :: (scope ++ key.text :: words)) :
    Command.ofLine (trimmed line) = .ok (.config (.set key (freeText (takes words key)))) := by
  obtain ⟨word, rest, rfl⟩ := List.exists_cons_of_ne_nil some
  rw [Command.ofLine, wordsOf_trimmed, typed]
  simp only [List.mem_cons, List.not_mem_nil, or_false] at place
  rcases place with rfl | rfl | rfl <;> cases key <;> rfl

theorem allWords_takes
    (typed : wordsOf line = "git" :: "config" :: (scope ++ key.text :: words)) :
    AllWords (takes words key) := by
  have all : AllWords words := by
    intro word within
    have typedWord : word ∈ wordsOf line := by
      rw [typed]
      simp [within]
    exact isWord_of_mem_wordsOf typedWord
  cases key with
  | name => exact all
  | email => exact all.subset (List.take_subset 1 words)

/-- A key without words behind it is asked for. -/
theorem read_get (typed : wordsOf line = ["git", "config", key.text]) :
    Command.ofLine (trimmed line) = .ok (.config (.get key)) := by
  rw [Command.ofLine, wordsOf_trimmed, typed]
  cases key <;> rfl

theorem read_summary (typed : wordsOf line = ["git", "config"]) :
    Command.ofLine (trimmed line) = .ok (.config .summary) := by
  rw [Command.ofLine, wordsOf_trimmed, typed]
  rfl

end ConfigRequest

section Transitions

variable {σ : Type} [Entropy σ] {compile : PatternCompiler} {r r' : Repository} {e e' : σ}
  {command : Command} {c : Commit}

theorem Command.value?_of_isReport (quiet : command.isReport = true) (key : IdentityKey) :
    command.value? key = none := by
  cases command with
  | config request =>
      cases request with
      | set => cases quiet
      | _ => rfl
  | _ => rfl

/-- A key has the value after a command that the command gives it, or else keeps its own. -/
theorem Transition.user_get (t : Transition compile r e command r' e') (key : IdentityKey) :
    r'.user.get key = (command.value? key).getD (r.user.get key) := by
  cases t with
  | report quiet =>
      rw [Command.value?_of_isReport quiet]
      rfl
  | identify other value =>
      rw [Command.value?, Identity.get_set]
      by_cases same : key = other
      · rw [if_pos same, if_pos same.symm]
        rfl
      · rw [if_neg same, if_neg (Ne.symm same)]
        rfl
  | _ => rfl

/-- A commit that a command makes has the author of the repository. -/
theorem Command.author_of_commit? {hash : String} (made : command.commit? r hash = some c) :
    c.author = r.author := by
  unfold commit? at made
  split at made
  · split at made
    · cases made
    · cases made
      rfl
  · cases made
    rfl
  · cases made

/-- A commit in a log after a command was in a log before it, or it is new and has the author of
the repository: a copied log and the end of a merged one hold no other commits than before. -/
theorem Transition.logged (t : Transition compile r e command r' e') (held : r'.Logged c) :
    r.Logged c ∨ c.author = r.author := by
  obtain ⟨name, held⟩ := held
  have forked : ∀ branch, c ∈ (r.fork branch).log name → r.Logged c := by
    intro branch within
    rw [log_fork] at within
    split at within
    · exact ⟨_, within⟩
    · exact ⟨_, within⟩
  have appended : ∀ new, c ∈ (r.append new).log name → r.Logged c ∨ c ∈ new := by
    intro new within
    rw [log_append] at within
    split at within
    · rcases List.mem_append.mp within with old | fresh
      · exact Or.inl ⟨_, old⟩
      · exact Or.inr fresh
    · exact Or.inl ⟨_, within⟩
  cases t with
  | create branch => exact Or.inl (forked branch held)
  | branchOff branch => exact Or.inl (forked branch held)
  | commit request files =>
      refine (appended _ held).imp_right fun fresh => ?_
      rw [List.mem_singleton.mp fresh]
  | cherryPick source =>
      refine (appended _ held).imp_right fun fresh => ?_
      rw [List.mem_singleton.mp fresh]
  | merge branch =>
      refine Or.inl ((appended _ held).elim id fun fresh => ?_)
      exact ⟨branch, (incoming_suffix r branch).subset fresh⟩
  | _ => exact Or.inl ⟨name, held⟩

end Transitions

namespace Repository

variable {r : Repository} {key : IdentityKey}

theorem author_eq (r : Repository) :
    r.author = if r.user.get .name = "" then "Unknown" else r.user.get .name := rfl

/-- The report of `git config` has a line for each key that has a value. -/
theorem configReport_summary (r : Repository) :
    r.configReport .summary =
      if r.configSummary = [] then "No configuration set"
      else "\n".intercalate r.configSummary := by
  simp only [configReport, List.isEmpty_iff, joinWith_eq_intercalate]

theorem configSummary_eq (r : Repository) :
    let shown := fun key : IdentityKey =>
      if r.user.get key = "" then [] else [key.text ++ "=" ++ r.user.get key]
    r.configSummary = shown .name ++ shown .email := by
  by_cases name : r.user.get .name = "" <;> by_cases email : r.user.get .email = "" <;>
    simp [configSummary, identityLine, name, email]

theorem mem_configSummary {row : String} :
    row ∈ r.configSummary ↔
      ∃ key, r.user.get key ≠ "" ∧ row = identityLine key (r.user.get key) := by
  have all : ∀ key, key ∈ [IdentityKey.name, IdentityKey.email] := by
    intro key
    cases key <;> decide
  simp only [configSummary, List.mem_map, List.mem_filter, all, true_and, bne_iff_ne]
  exact exists_congr fun key => and_congr_right fun _ => eq_comm

/-- The line of a key begins with that key and no other. -/
theorem lead_identityLine_iff {other : IdentityKey} {value : String} :
    (key.text ++ "=").toList <+: (identityLine other value).toList ↔ other = key := by
  cases key <;> cases other <;> simp [identityLine, IdentityKey.text, String.toList_append]

/-- The lines that `git config` prints when no value has a line break. -/
theorem lines_configSummary (whole : ∀ key, '\n' ∉ (r.user.get key).toList)
    (lines : r.configSummary ≠ []) :
    pieces (· == '\n') (r.configReport .summary).toList = r.configSummary.map String.toList := by
  rw [configReport_summary, if_neg lines, ← joinWith_eq_intercalate]
  refine lines_joinWith lines fun row within => ?_
  obtain ⟨key, _, rfl⟩ := mem_configSummary.mp within
  rw [identityLine, String.toList_append, String.toList_append, List.append_assoc]
  simp only [List.mem_append, not_or]
  refine ⟨?_, by decide, whole key⟩
  cases key <;> decide

/-- When no value has a line break, `git config` prints a line for exactly those keys that have
a value. -/
theorem shows_line_iff (whole : ∀ key, '\n' ∉ (r.user.get key).toList) :
    (∃ shown ∈ pieces (· == '\n') (r.configReport .summary).toList,
      (key.text ++ "=").toList <+: shown) ↔ r.user.get key ≠ "" := by
  by_cases lines : r.configSummary = []
  · have unset : r.user.get key = "" := by
      by_contra set
      have within := mem_configSummary.mpr ⟨key, set, rfl⟩
      rw [lines] at within
      cases within
    rw [configReport_summary, if_pos lines]
    simp only [unset, ne_eq, not_true_eq_false, iff_false]
    cases key <;> decide
  · rw [lines_configSummary whole lines]
    simp only [List.mem_map, exists_exists_and_eq_and, mem_configSummary]
    constructor
    · rintro ⟨row, ⟨other, set, rfl⟩, lead⟩
      obtain rfl := lead_identityLine_iff.mp lead
      exact set
    · intro set
      exact ⟨_, ⟨key, set, rfl⟩, lead_identityLine_iff.mpr rfl⟩

end Repository

namespace Session

variable {σ : Type} [Entropy σ]

/-- The value that a step gives to a key, if its line sets that key. -/
def Step.value? (key : IdentityKey) : Step → Option String
  | .execute line =>
      match Command.ofLine (trimmed line) with
      | .ok command => command.value? key
      | .error _ => none
  | _ => none

section Values

variable {s : Session σ} {key : IdentityKey}

/-- A line that is refused sets no key. -/
theorem value?_of_refusal {line : String} {cause : CommandError}
    (refusal : s.answer (trimmed line) = .error cause) :
    Step.value? key (.execute line) = none := by
  unfold answer at refusal
  cases read : Command.ofLine (trimmed line) with
  | error => simp only [Step.value?, read]
  | ok command =>
      simp only [Step.value?, read]
      rw [read] at refusal
      cases command with
      | config request =>
          cases request with
          | set => cases refusal
          | _ => rfl
      | _ => rfl

/-- A key has the value after a step that the step gives it, or else keeps its own. -/
theorem user_step (s : Session σ) (step : Step) (key : IdentityKey) :
    (s.step step).repository.user.get key =
      (step.value? key).getD (s.repository.user.get key) := by
  have moves := step_moves s step
  generalize (s.step step).repository = r' at moves ⊢
  generalize (s.step step).entropy = e' at moves
  cases moves with
  | refused line cause refusal =>
      rw [value?_of_refusal refusal]
      rfl
  | command done change =>
      obtain ⟨line, text, rfl, read, _⟩ := done
      simp only [change.user_get, Step.value?, read]
  | touch => rfl
  | clear => rfl

/-- The last value that some steps give to a key is the value of the key after them. -/
theorem user_run (s : Session σ) (steps : List Step) (key : IdentityKey) :
    (s.run steps).repository.user.get key =
      (steps.filterMap (Step.value? key)).getLast?.getD (s.repository.user.get key) := by
  induction steps generalizing s with
  | nil => rfl
  | cons first rest ih =>
      rw [run_cons, ih, user_step]
      cases given : first.value? key with
      | none => rw [List.filterMap_cons_none given, Option.getD_none]
      | some value =>
          rw [List.filterMap_cons_some given, List.getLast?_cons, Option.getD_some,
            Option.getD_some]

/-- A key that no step sets keeps its value. -/
theorem user_run_of_unset {steps : List Step} (unset : ∀ step ∈ steps, step.value? key = none) :
    (s.run steps).repository.user.get key = s.repository.user.get key := by
  rw [user_run, List.filterMap_eq_nil_iff.mpr unset]
  rfl

theorem author_run_of_unset {steps : List Step}
    (unset : ∀ step ∈ steps, step.value? .name = none) :
    (s.run steps).repository.author = s.repository.author := by
  rw [author_eq, author_eq, user_run_of_unset unset]

/-- A commit in a log after a step was in a log before it, or it is new and has the author of the
repository. -/
theorem logged_step {step : Step} {c : Commit} (held : (s.step step).repository.Logged c) :
    s.repository.Logged c ∨ c.author = s.repository.author := by
  have moves := step_moves s step
  generalize (s.step step).repository = r' at moves held
  generalize (s.step step).entropy = e' at moves
  cases moves with
  | refused => exact Or.inl held
  | command done change => exact change.logged held
  | touch => exact Or.inl held
  | clear => exact Or.inl held

/-- While no step sets the name, new commits have one author. -/
theorem logged_run {steps : List Step} (unset : ∀ step ∈ steps, step.value? .name = none)
    {c : Commit} (held : (s.run steps).repository.Logged c) :
    s.repository.Logged c ∨ c.author = s.repository.author := by
  induction steps generalizing s with
  | nil => exact Or.inl held
  | cons first rest ih =>
      have same : (s.step first).repository.author = s.repository.author := by
        rw [author_eq, author_eq, user_step, unset first List.mem_cons_self]
        rfl
      -- A commit that the rest of the run finds in a log may be one that the first step made.
      rcases ih (fun step h => unset step (List.mem_cons_of_mem first h)) held with old | new
      · exact logged_step old
      · exact Or.inr (new.trans same)

/-- A commit that a step makes while no step sets the name has the same author as before. -/
theorem makes_of_unset {steps : List Step} (unset : ∀ step ∈ steps, step.value? .name = none) :
    s.EveryStep steps fun t step => ∀ command c, t.Makes step command c →
      c.author = s.repository.author ∧
      (t.step step).repository.log t.repository.current =
        t.repository.log t.repository.current ++ [c] := by
  rintro earlier step before command c ⟨done, made⟩
  have quiet : ∀ step ∈ earlier, step.value? .name = none := by
    intro step within
    exact unset step (before.subset (List.mem_append_left _ within))
  rw [← author_run_of_unset quiet]
  exact ⟨Command.author_of_commit? made, done.transition.log_current made⟩

end Values

section Lines

variable {s : Session σ} {key : IdentityKey} {line : String}

/-- A line that sets a key changes the identity in that key, and nothing else. -/
theorem execute_set {value : String}
    (read : Command.ofLine (trimmed line) = .ok (.config (.set key value))) :
    s.execute line =
      ({ s with
          repository :=
            { s.repository with user := s.repository.user.set key value } }).note
        ⟨trimmed line, "", false⟩ :=
  execute_of_perform read rfl

theorem execute_get (read : Command.ofLine (trimmed line) = .ok (.config (.get key))) :
    s.execute line = s.note ⟨trimmed line, s.repository.user.get key, false⟩ :=
  execute_of_perform read rfl

theorem execute_summary (read : Command.ofLine (trimmed line) = .ok (.config .summary)) :
    s.execute line = s.note ⟨trimmed line, s.repository.configReport .summary, false⟩ :=
  execute_of_perform read rfl

end Lines

/-- Free text made of words has no line break. -/
theorem notMem_freeText {words : List String} (all : AllWords words) :
    '\n' ∉ (freeText words).toList := by
  intro within
  rw [freeText, String.toList_ofList] at within
  rcases mem_joinWith (List.mem_of_mem_filter within) with space | ⟨word, one, within⟩
  · exact absurd (List.mem_singleton.mp space) (by decide)
  · exact notMem_of_isWord (all word one) within

/-- Configuration commands read their own writes. A line that sets a key to some words changes
the identity in that key and nothing else; the name takes all the words and the address the
first one. Until the key is set again, asking for it prints that text, and the summary has a
line for it exactly if the text is not empty. Until the name is set again, all new commits have
the same author, which is the text if the name was set and was not empty, and `Unknown` if it
was. No other commits enter a log, and the logs of branches that are kept are only continued.
Setting the address never has an influence on an author. -/
theorem config_reads_own_writes (s : Session σ) (key : IdentityKey) (scope words : List String)
    (line : String) (place : scope ∈ [[], ["--global"], ["--local"]]) (some : words ≠ [])
    (typed : wordsOf line = "git" :: "config" :: (scope ++ key.text :: words)) :
    let taken := ConfigRequest.takes words key
    let text := String.ofList ((" ".intercalate taken).toList.filter (· ≠ '"'))
    let author := match key with
      | .name => if text = "" then "Unknown" else text
      | .email => s.repository.author
    let after := s.execute line
    (after.repository = { s.repository with user := s.repository.user.set key text } ∧
      after.entropy = s.entropy) ∧
    (∀ steps, (∀ step ∈ steps, step.value? key = none) →
      let now := after.run steps
      let shown := fun key : IdentityKey =>
        if now.repository.user.get key = "" then []
        else [key.text ++ "=" ++ now.repository.user.get key]
      let report := if shown .name ++ shown .email = [] then "No configuration set"
        else "\n".intercalate (shown .name ++ shown .email)
      now.repository.user.get key = text ∧
      (∀ query, wordsOf query = ["git", "config", key.text] →
        now.execute query = now.note ⟨trimmed query, text, false⟩) ∧
      (∀ query, wordsOf query = ["git", "config"] →
        now.execute query = now.note ⟨trimmed query, report, false⟩) ∧
      ((∀ other, other ≠ key → '\n' ∉ (now.repository.user.get other).toList) →
        ((∃ row ∈ pieces (· == '\n') report.toList, (key.text ++ "=").toList <+: row) ↔
          text ≠ ""))) ∧
    (∀ steps, (∀ step ∈ steps, step.value? .name = none) →
      (after.EveryStep steps fun t step => ∀ command c, t.Makes step command c →
        c.author = author ∧
        (t.step step).repository.log t.repository.current =
          t.repository.log t.repository.current ++ [c]) ∧
      (∀ c, (after.run steps).repository.Logged c →
        s.repository.Logged c ∨ c.author = author) ∧
      ∀ name, (after.Throughout steps fun t => name ∈ t.repository.branches) →
        s.repository.log name <+: (after.run steps).repository.log name) ∧
    (key = .email → ∀ steps,
      (after.run steps).repository.author = (s.run steps).repository.author) := by
  intro taken text author after
  have free : text = freeText taken := (freeText_eq taken).symm
  have read : Command.ofLine (trimmed line) = .ok (.config (.set key text)) := by
    rw [ConfigRequest.read_set place some typed, free]
  have written : after = _ := execute_set read
  have repository : after.repository =
      { s.repository with user := s.repository.user.set key text } := by
    rw [written]
    rfl
  have value : after.repository.user.get key = text := by
    rw [repository, Identity.get_set, if_pos rfl]
  have signed : after.repository.author = author := by
    rw [repository]
    cases key <;> rfl
  have held : ∀ c, after.repository.Logged c ↔ s.repository.Logged c := by
    intro c
    rw [repository]
    rfl
  refine ⟨⟨repository, by rw [written]; rfl⟩, ?_, ?_, ?_⟩
  · intro steps unset now shown report
    have kept : now.repository.user.get key = text := (user_run_of_unset unset).trans value
    have printed : now.repository.configReport .summary = report := by
      rw [configReport_summary, configSummary_eq]
    refine ⟨kept, ?_, ?_, ?_⟩
    · intro query asked
      rw [execute_get (ConfigRequest.read_get asked), kept]
    · intro query asked
      rw [execute_summary (ConfigRequest.read_summary asked), printed]
    · intro others
      rw [← printed, ← kept]
      refine shows_line_iff fun other => ?_
      by_cases same : other = key
      · rw [same, kept, free]
        exact notMem_freeText (ConfigRequest.allWords_takes typed)
      · exact others other same
  · intro steps unset
    refine ⟨?_, fun c within => ?_, fun name live => ?_⟩
    · rw [← signed]
      exact makes_of_unset unset
    · rw [← held, ← signed]
      exact logged_run unset within
    · have kept := log_prefix_run live
      have same : after.repository.log name = s.repository.log name := by
        rw [repository]
        rfl
      rwa [same] at kept
  · intro address steps
    have same : after.repository.user.get .name = s.repository.user.get .name := by
      rw [repository, address]
      rfl
    rw [author_eq, author_eq, user_run, user_run, same]

/-- A name in quotes is printed and recorded without them, and after a name of quotes alone
commits have no known author. -/
theorem config_reads_own_writes_quoted :
    let s := start Settings.standard Counter.zero
    let steps := [.touch (some "a.txt"), .execute "git commit -am one"]
    let named := (s.execute "git config --global user.name \"Ada  Lovelace\"").run steps
    let unnamed := (s.execute "git config user.name \"\"").run steps
    (∀ query, wordsOf query = ["git", "config", "user.name"] →
      named.execute query = named.note ⟨trimmed query, "Ada Lovelace", false⟩) ∧
    (∀ c, named.repository.Logged c → s.repository.Logged c ∨ c.author = "Ada Lovelace") ∧
    ∀ c, unnamed.repository.Logged c → s.repository.Logged c ∨ c.author = "Unknown" := by
  intro s steps named unnamed
  have unset : ∀ step ∈ steps, step.value? .name = none := by decide
  have text : String.ofList ((" ".intercalate ["\"Ada", "Lovelace\""]).toList.filter (· ≠ '"')) =
      "Ada Lovelace" := by decide
  obtain ⟨_, reads, signs, _⟩ := config_reads_own_writes s .name ["--global"]
    ["\"Ada", "Lovelace\""] "git config --global user.name \"Ada  Lovelace\"" (by decide)
    (by decide) (by decide)
  obtain ⟨_, _, signs', _⟩ := config_reads_own_writes s .name [] ["\"\""]
    "git config user.name \"\"" (by decide) (by decide) (by decide)
  refine ⟨?_, ?_, (signs' steps unset).2.1⟩
  · have printed := (reads steps unset).2.1
    rwa [ConfigRequest.takes, text] at printed
  · have logged := (signs steps unset).2.1
    rwa [ConfigRequest.takes, text] at logged

end Session

end GitTutor
