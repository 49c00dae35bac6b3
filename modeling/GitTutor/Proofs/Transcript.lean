import GitTutor.Program
import GitTutor.Proofs.Transition
import Mathlib.Data.List.Induction

/-!
# The transcript

Every step but a clear adds one entry to the transcript, which tells what the
step came to, and a clear only forgets entries. So the transcript of a run lists
its steps since the last clear, the number of errors in it is the number of lines
that failed, and clears have no influence on anything that comes later.
-/

namespace GitTutor

open Text

namespace Session

variable {σ : Type} [Entropy σ]

/-- What the entry of a step says: for a line, the line without the blanks around it, and the
cause why it cannot be read, the cause why it is refused or the text that it prints; for a
file that is put into the tree, what that prints. -/
inductive Records (s : Session σ) : Step → Entry → Prop
  | unread {line : String} {cause : CommandError}
      (unread : Command.ofLine (trimmed line) = .error cause) :
      Records s (.execute line) ⟨trimmed line, cause.message, true⟩
  | refused {line : String} {command : Command} {cause : CommandError} {after : Session σ}
      (read : Command.ofLine (trimmed line) = .ok command)
      (refusal : (dispatch command).run s = .error cause after) :
      Records s (.execute line) ⟨trimmed line, cause.message, true⟩
  | done {line : String} {command : Command} {text : String} {after : Session σ}
      (read : Command.ofLine (trimmed line) = .ok command)
      (done : (dispatch command).run s = .ok text after) :
      Records s (.execute line) ⟨trimmed line, text, false⟩
  | touched (name : Option String) :
      Records s (.touch name)
        ⟨touchCommand, (s.repository.touch (chooseFile s.entropy name).1).2, false⟩

/-- One entry for each of some steps, in order, each recorded in the state in which its step is
taken. -/
inductive Lists : Session σ → List Step → List Entry → Prop
  | nil {s : Session σ} : Lists s [] []
  | cons {s : Session σ} {step : Step} {entry : Entry} {rest : List Step} {entries : List Entry}
      (first : s.Records step entry) (later : Lists (s.step step) rest entries) :
      Lists s (step :: rest) (entry :: entries)

/-- Every step but a clear adds its entry at the end of the transcript. -/
theorem step_records (s : Session σ) {step : Step} (kept : step ≠ .clear) :
    ∃ entry, s.Records step entry ∧ (s.step step).transcript = s.transcript ++ [entry] := by
  cases step with
  | execute line =>
      rw [Session.step, execute_eq, answer]
      cases read : Command.ofLine (trimmed line) with
      | error cause => exact ⟨_, .unread read, rfl⟩
      | ok command =>
          have run := dispatch_run s command
          cases performed : s.perform command with
          | error cause =>
              rw [performed] at run
              simp only [performed]
              exact ⟨_, .refused read run, rfl⟩
          | ok effect =>
              rw [performed] at run
              simp only [performed]
              exact ⟨_, .done read run, rfl⟩
  | touch name => exact ⟨_, .touched name, rfl⟩
  | clear => exact absurd rfl kept

/-- A run without clears adds one entry for each of its steps. -/
theorem run_lists (s : Session σ) {steps : List Step} (kept : .clear ∉ steps) :
    ∃ entries, s.Lists steps entries ∧
      (s.run steps).transcript = s.transcript ++ entries := by
  induction steps generalizing s with
  | nil => exact ⟨[], .nil, (List.append_nil _).symm⟩
  | cons first rest ih =>
      rw [List.mem_cons, not_or] at kept
      obtain ⟨entry, records, added⟩ := step_records s (Ne.symm kept.1)
      obtain ⟨entries, lists, later⟩ := ih (s.step first) kept.2
      refine ⟨entry :: entries, .cons records lists, ?_⟩
      rw [run_cons, later, added, List.append_assoc]
      rfl

/-- Some steps can be cut right after the last clear, or have none. -/
theorem exists_lastClear (steps : List Step) :
    ∃ earlier later, steps = earlier ++ later ∧
      (earlier = [] ∨ earlier.getLast? = some .clear) ∧ .clear ∉ later := by
  induction steps using List.reverseRecOn with
  | nil => exact ⟨[], [], rfl, Or.inl rfl, List.not_mem_nil⟩
  | append_singleton steps step ih =>
      by_cases kept : step = .clear
      · subst kept
        refine ⟨steps ++ [.clear], [], (List.append_nil _).symm, Or.inr ?_, List.not_mem_nil⟩
        exact List.getLast?_concat
      · obtain ⟨earlier, later, rfl, since, none⟩ := ih
        refine ⟨earlier, later ++ [step], List.append_assoc .., since, ?_⟩
        rw [List.mem_append, List.mem_singleton, not_or]
        exact ⟨none, Ne.symm kept⟩

/-- The transcript of a run lists its steps since the last clear. -/
theorem transcript_lists {s : Session σ} (empty : s.transcript = []) (steps : List Step) :
    ∃ earlier later, steps = earlier ++ later ∧
      (earlier = [] ∨ earlier.getLast? = some .clear) ∧ .clear ∉ later ∧
      (s.run earlier).Lists later (s.run steps).transcript := by
  obtain ⟨earlier, later, rfl, since, none⟩ := exists_lastClear steps
  have forgotten : (s.run earlier).transcript = [] := by
    rcases since with rfl | last
    · exact empty
    · obtain ⟨front, rfl⟩ := List.getLast?_eq_some_iff.mp last
      rw [run_append]
      rfl
  obtain ⟨entries, lists, added⟩ := run_lists (s.run earlier) none
  refine ⟨earlier, later, rfl, since, none, ?_⟩
  rw [run_append, added, forgotten]
  exact lists

section Clears

/-- The session with another transcript. -/
def withTranscript (s : Session σ) (transcript : List Entry) : Session σ :=
  { s with transcript := transcript }

theorem answer_withTranscript (s : Session σ) (transcript : List Entry) (line : String) :
    (s.withTranscript transcript).answer line = s.answer line := by
  unfold answer
  cases Command.ofLine line with
  | error => rfl
  | ok command =>
      cases command with
      | config request => cases request <;> rfl
      | branch request => cases request <;> rfl
      | checkout request => cases request <;> rfl
      | stash request => cases request <;> rfl
      | _ => rfl

/-- What a step does and which entry it adds do not depend on the transcript before it. -/
theorem step_withTranscript (s : Session σ) (transcript : List Entry) {step : Step}
    (kept : step ≠ .clear) :
    ∃ entry, (s.step step).transcript = s.transcript ++ [entry] ∧
      (s.withTranscript transcript).step step =
        (s.step step).withTranscript (transcript ++ [entry]) := by
  cases step with
  | execute line =>
      simp only [Session.step, execute_eq, answer_withTranscript]
      cases s.answer (trimmed line) with
      | error => exact ⟨_, rfl, rfl⟩
      | ok => exact ⟨_, rfl, rfl⟩
  | touch => exact ⟨_, rfl, rfl⟩
  | clear => exact absurd rfl kept

/-- The steps of a run without its clears. -/
def withoutClears (steps : List Step) : List Step :=
  steps.filter (· ≠ .clear)

/-- Without its clears a run ends in the same session, up to the transcript, which only has
more entries at its start. -/
theorem run_withoutClears (s : Session σ) (front : List Entry) (steps : List Step) :
    ∃ more, (s.withTranscript (front ++ s.transcript)).run (withoutClears steps) =
      (s.run steps).withTranscript (more ++ (s.run steps).transcript) := by
  induction steps generalizing s front with
  | nil => exact ⟨front, rfl⟩
  | cons first rest ih =>
      by_cases kept : first = .clear
      · subst kept
        obtain ⟨more, ended⟩ := ih s.clear (front ++ s.transcript)
        refine ⟨more, ?_⟩
        rw [clear, List.append_nil] at ended
        exact ended
      · have skip : withoutClears (first :: rest) = first :: withoutClears rest := by
          rw [withoutClears, List.filter_cons_of_pos (by simpa using kept)]
          rfl
        obtain ⟨entry, added, same⟩ := step_withTranscript s (front ++ s.transcript) kept
        obtain ⟨more, ended⟩ := ih (s.step first) front
        rw [skip, run_cons, run_cons, same, List.append_assoc, ← added]
        exact ⟨more, ended⟩

end Clears

/-- Whether a line cannot be read or is refused. -/
def fails (s : Session σ) (line : String) : Bool :=
  match (respond (trimmed line)).run s with
  | .error _ _ => true
  | .ok _ _ => false

/-- How many of some lines fail when they are executed one after the other. -/
def failures (s : Session σ) : List String → Nat
  | [] => 0
  | line :: rest => (if s.fails line then 1 else 0) + failures (s.execute line) rest

theorem errorCount_append (front back : List Entry) :
    errorCount (front ++ back) = errorCount front + errorCount back := by
  rw [errorCount, List.filter_append, List.length_append]
  rfl

/-- A line adds an error to the transcript exactly if it fails. -/
theorem errorCount_execute (s : Session σ) (line : String) :
    errorCount (s.execute line).transcript =
      errorCount s.transcript + if s.fails line then 1 else 0 := by
  rw [execute_eq, fails, respond_run]
  cases s.answer (trimmed line) <;> exact errorCount_append _ _

end Session

namespace Script

variable {σ : Type} [Entropy σ]

/-- A script is a run that only executes lines. -/
theorem execute_eq_run (s : Session σ) (lines : List String) :
    execute s lines = s.run (lines.map .execute) := by
  rw [execute, Session.run, List.foldl_map]
  rfl

theorem errorCount_execute (s : Session σ) (lines : List String) :
    errorCount (execute s lines).transcript =
      errorCount s.transcript + s.failures lines := by
  induction lines generalizing s with
  | nil => rfl
  | cons line rest ih =>
      rw [execute_cons, ih, Session.errorCount_execute, Session.failures, Nat.add_assoc]

/-- The transcript of a script lists its lines. -/
theorem transcript_lists {s : Session σ} (empty : s.transcript = []) (lines : List String) :
    s.Lists (lines.map .execute) (execute s lines).transcript := by
  have kept : Session.Step.clear ∉ lines.map Session.Step.execute := by
    intro h
    obtain ⟨_, _, same⟩ := List.mem_map.mp h
    cases same
  obtain ⟨entries, lists, added⟩ := s.run_lists kept
  rw [execute_eq_run, added, empty]
  exact lists

end Script

/-- A run of lines ends in a failure exactly if that was asked for and a line failed. -/
theorem Program.exit_runScript {around : Surroundings} {files : Files} {c : Config}
    {request : RunRequest} {lines : List String}
    (loaded : linesOf files request = .ok lines) :
    (runScript around files c request).exit ≠ 0 ↔
      request.failOnError = true ∧ 0 < (session around c).failures lines := by
  have count : errorCount (Script.execute (session around c) lines).transcript =
      (session around c).failures lines := by
    rw [Script.errorCount_execute]
    exact Nat.zero_add _
  simp only [runScript, loaded, conclude, count]
  by_cases asked : request.failOnError = true ∧ 0 < (session around c).failures lines
  · simp [asked]
  · simp [asked]

namespace Session

variable {σ : Type} [Entropy σ]

/-- The transcript of a session lists, in order, one entry for each step since the last clear,
and clears influence nothing that comes later. So a script leaves one entry for each of its
lines and as many errors as lines fail when they are executed in sequence, and a run that is
asked to fails exactly if there are any. -/
theorem transcript_law (compile : Repository.PatternCompiler) (settings : Settings)
    (entropy : σ) :
    let s := startWith compile settings entropy
    (∀ steps, ∃ earlier later, steps = earlier ++ later ∧
      (earlier = [] ∨ earlier.getLast? = some .clear) ∧ .clear ∉ later ∧
      (s.run earlier).Lists later (s.run steps).transcript) ∧
    (∀ steps, (s.run (withoutClears steps)).repository = (s.run steps).repository ∧
      (s.run (withoutClears steps)).entropy = (s.run steps).entropy ∧
      (s.run steps).transcript <:+ (s.run (withoutClears steps)).transcript) ∧
    (∀ lines, s.Lists (lines.map .execute) (Script.execute s lines).transcript ∧
      errorCount (Script.execute s lines).transcript = s.failures lines) ∧
    ∀ around files c request lines, Program.linesOf files request = .ok lines →
      ((Program.runScript around files c request).exit ≠ 0 ↔
        request.failOnError = true ∧ 0 < (Program.session around c).failures lines) := by
  intro s
  have empty : s.transcript = [] := rfl
  refine ⟨transcript_lists empty, fun steps => ?_, fun lines => ?_, ?_⟩
  · obtain ⟨more, ended⟩ := run_withoutClears s [] steps
    have same : s.run (withoutClears steps) =
        (s.run steps).withTranscript (more ++ (s.run steps).transcript) := ended
    rw [same]
    exact ⟨rfl, rfl, List.suffix_append more _⟩
  · refine ⟨Script.transcript_lists empty lines, ?_⟩
    rw [Script.errorCount_execute, empty]
    exact Nat.zero_add _
  · intro around files c request lines loaded
    exact Program.exit_runScript loaded

/-- Of two lines the second is no command, so a run that is asked to fails. -/
theorem transcript_law_failed :
    let files := Files.ofList []
    let around : Surroundings := ⟨[], files, .standard, .standard, fun _ => .ok files, "", 0, false⟩
    let lines := ["git status", "git frobnicate"]
    let request : RunRequest := ⟨lines, none, false, true⟩
    Program.linesOf files request = .ok lines ∧
      (Program.session around Config.standard).failures lines = 1 ∧
      (Program.runScript around files Config.standard request).exit ≠ 0 := by
  intro files around lines request
  have count : (Program.session around Config.standard).failures lines = 1 := by decide +kernel
  obtain ⟨_, _, _, exits⟩ := transcript_law (fun _ => none) Settings.standard Counter.zero
  refine ⟨rfl, count, (exits around files Config.standard request lines rfl).mpr ⟨rfl, ?_⟩⟩
  rw [count]
  exact Nat.one_pos

end Session

end GitTutor
