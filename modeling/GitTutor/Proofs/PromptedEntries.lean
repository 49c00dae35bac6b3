import GitTutor.Proofs.ScriptShell
import GitTutor.Proofs.Transcript
import GitTutor.Proofs.Words
import Mathlib.Data.List.Forall2

/-!
# Prompts in a transcript

A terminal tells from the first character of a command whether to show a prompt in front of
it. The entry of a file that is put into the tree begins with `#` and is shown without one.
So is the entry of an executed line that begins with `#`, which is always refused, because
its first word is not `git`. A script has no such line.
-/

namespace GitTutor

open Text

/-- An entry as text without colour, behind a lead: its command, then its output on the next
line, if there is any. -/
def Entry.behind (entry : Entry) (lead : String) : String :=
  lead ++ entry.command ++ if entry.output = "" then "" else "\n" ++ entry.output

namespace Terminal

variable {t : Terminal}

theorem paint_plain (plain : t.color = false) (tone : Tone) (text : String) :
    t.paint tone text = text := by
  rw [paint, plain]
  rfl

theorem prompt_plain (plain : t.color = false) : t.prompt = t.plainPrompt := by
  rw [prompt, TerminalSettings.plainPrompt, paint_plain plain, paint_plain plain]

/-- Without colour, an entry stands behind the prompt unless its command begins with `#`. -/
theorem entry_plain (plain : t.color = false) (entry : Entry) :
    t.entry entry =
      if isComment entry.command = true then entry.behind "" else entry.behind t.plainPrompt := by
  have output : t.output? entry = if entry.output = "" then none else some entry.output := by
    rw [output?, paint_plain plain, ite_self]
  rw [Terminal.entry, output, commandLine, paint_plain plain, prompt_plain plain, Entry.behind,
    Entry.behind]
  by_cases silent : entry.output = "" <;> by_cases comment : isComment entry.command = true <;>
    simp [silent, comment, String.append_assoc]

/-- An entry does not look the same with the prompt and without it. -/
theorem behind_prompt_ne (t : Terminal) (entry : Entry) :
    entry.behind t.plainPrompt ≠ entry.behind "" := by
  intro same
  have lengths := congrArg String.length same
  simp only [Entry.behind, TerminalSettings.plainPrompt, String.length_append] at lengths
  have sign : "$ ".length = 2 := rfl
  have none : "".length = 0 := rfl
  omega

theorem entry_prompted_iff (plain : t.color = false) (entry : Entry) :
    t.entry entry = entry.behind t.plainPrompt ↔ isComment entry.command = false := by
  rw [entry_plain plain]
  by_cases comment : isComment entry.command = true
  · simp [comment, (behind_prompt_ne t entry).symm]
  · simp [comment]

theorem entry_bare_iff (plain : t.color = false) (entry : Entry) :
    t.entry entry = entry.behind "" ↔ isComment entry.command = true := by
  rw [entry_plain plain]
  by_cases comment : isComment entry.command = true
  · simp [comment]
  · simp [comment, behind_prompt_ne t entry]

theorem isComment_iff {command : String} :
    isComment command = true ↔ ∃ rest, command.toList = '#' :: rest := by
  rw [isComment, beq_iff_eq, List.head?_eq_some_iff]

theorem isComment_touchCommand : isComment Session.touchCommand = true := by decide

end Terminal

/-- A line that begins with `#` is no command. -/
theorem Command.ofLine_comment {line : String} (comment : Terminal.isComment line = true) :
    ∃ word, ofLine line = .error (.commandNotFound word) := by
  obtain ⟨rest, shape⟩ := Terminal.isComment_iff.mp comment
  obtain ⟨w, ws, read⟩ := words_solid (c := '#') (by decide) rest
  have other : String.ofList ('#' :: w) ≠ "git" := by
    intro same
    have letters := congrArg String.toList same
    rw [String.toList_ofList] at letters
    cases letters
  refine ⟨String.ofList ('#' :: w), ?_⟩
  rw [ofLine, wordsOf, shape, read, List.map_cons]
  exact if_neg other

namespace Session

variable {σ : Type} [Entropy σ] {s : Session σ}

/-- An executed line that begins with `#` is refused. -/
theorem execute_comment (s : Session σ) {line : String}
    (comment : Terminal.isComment (trimmed line) = true) :
    ∃ word, s.execute line =
      s.note ⟨trimmed line, (CommandError.commandNotFound word).message, true⟩ := by
  obtain ⟨word, unread⟩ := Command.ofLine_comment comment
  refine ⟨word, ?_⟩
  rw [execute_eq, answer, unread]

/-- Every listed entry is that of one of the steps. -/
theorem Lists.exists_of_mem {steps : List Step} {entries : List Entry} (h : s.Lists steps entries)
    {entry : Entry} (within : entry ∈ entries) :
    ∃ before : Session σ, ∃ step ∈ steps, before.Records step entry := by
  induction h with
  | nil => cases within
  | @cons before step _ rest _ first _ ih =>
      rcases List.mem_cons.mp within with rfl | within
      · exact ⟨before, step, List.mem_cons_self, first⟩
      · obtain ⟨later, other, taken, records⟩ := ih within
        exact ⟨later, other, List.mem_cons_of_mem step taken, records⟩

/-- How a terminal without colour shows the entry of a step: behind the prompt exactly if the step
executes a line that does not begin with `#`, and bare exactly if it puts a file into the tree
or executes a line that does. -/
structure ShownOn (t : Terminal) (step : Step) (entry : Entry) : Prop where
  command : ∀ line, step = .execute line → entry.command = trimmed line
  prompted : t.entry entry = entry.behind t.plainPrompt ↔
    ∃ line, step = .execute line ∧ Terminal.isComment (trimmed line) = false
  bare : t.entry entry = entry.behind "" ↔
    (∃ name, step = .touch name) ∨
      ∃ line, step = .execute line ∧ Terminal.isComment (trimmed line) = true

section Shown

variable {t : Terminal} (plain : t.color = false)
include plain

theorem shownOn_execute {line : String} {entry : Entry} (typed : entry.command = trimmed line) :
    ShownOn t (.execute line) entry := by
  refine ⟨fun other same => ?_, ?_, ?_⟩
  · rw [typed, Step.execute.inj same]
  · rw [Terminal.entry_prompted_iff plain, typed]
    simp
  · rw [Terminal.entry_bare_iff plain, typed]
    simp

theorem shownOn_touch {name : Option String} {entry : Entry}
    (system : entry.command = touchCommand) : ShownOn t (.touch name) entry := by
  refine ⟨?_, ?_, ?_⟩
  · rintro line ⟨⟩
  · rw [Terminal.entry_prompted_iff plain, system, Terminal.isComment_touchCommand]
    simp
  · rw [Terminal.entry_bare_iff plain, system, Terminal.isComment_touchCommand]
    simp

/-- Every entry is shown as its step says. -/
theorem Records.shownOn {step : Step} {entry : Entry} (h : s.Records step entry) :
    ShownOn t step entry := by
  cases h with
  | unread => exact shownOn_execute plain rfl
  | refused => exact shownOn_execute plain rfl
  | done => exact shownOn_execute plain rfl
  | touched => exact shownOn_touch plain rfl

theorem Lists.shownOn {steps : List Step} {entries : List Entry} (h : s.Lists steps entries) :
    List.Forall₂ (ShownOn t) steps entries := by
  induction h with
  | nil => exact .nil
  | cons first _ ih => exact .cons (first.shownOn plain) ih

end Shown

end Session

/-- No line of a script begins with `#`. -/
theorem Script.noComment {text line : String} (within : line ∈ lines text) :
    Terminal.isComment (trimmed line) = false := by
  obtain ⟨cs, found, rfl⟩ := List.mem_map.mp within
  obtain ⟨trims, kept⟩ := List.mem_filter.mp found
  obtain ⟨raw, _, rfl⟩ := List.mem_map.mp trims
  rw [trimmed_ofList, trim_trim, Bool.eq_false_iff, ne_eq, Terminal.isComment_iff]
  rintro ⟨rest, shape⟩
  rw [String.toList_ofList] at shape
  rw [shape] at kept
  cases kept

namespace Session

variable {σ : Type} [Entropy σ]

/-- Which entries a terminal without colour shows behind a prompt. The transcript of a session
has one entry for each step since the last clear. The entry of a file that is put into the tree
is shown bare. The entry of an executed line is shown behind the prompt, with the line as it
was typed but for the blanks around it, unless the line begins with `#`; then it is shown bare
too. Such a line is refused because its first word is no command, so no line that takes effect
is shown bare, and no line of a script is. -/
theorem prompt_shown_iff (compile : Repository.PatternCompiler) (settings : Settings)
    (entropy : σ) (t : Terminal) (plain : t.color = false) :
    let s := startWith compile settings entropy
    (∀ steps, ∃ earlier later, steps = earlier ++ later ∧
      (earlier = [] ∨ earlier.getLast? = some .clear) ∧ .clear ∉ later ∧
      List.Forall₂ (ShownOn t) later (s.run steps).transcript) ∧
    (∀ earlier line, Terminal.isComment (trimmed line) = true →
      ∃ word, (s.run earlier).execute line = (s.run earlier).note
        ⟨trimmed line, (CommandError.commandNotFound word).message, true⟩) ∧
    ∀ text, ∀ entry ∈ (Script.execute s (Script.lines text)).transcript,
      t.entry entry = entry.behind t.plainPrompt := by
  intro s
  have empty : s.transcript = [] := rfl
  refine ⟨fun steps => ?_, fun earlier line => execute_comment _, fun text entry within => ?_⟩
  · obtain ⟨earlier, later, cut, since, kept, lists⟩ := transcript_lists empty steps
    exact ⟨earlier, later, cut, since, kept, lists.shownOn plain⟩
  · have lists := Script.transcript_lists empty (Script.lines text)
    obtain ⟨_, step, taken, records⟩ := lists.exists_of_mem within
    obtain ⟨line, command, rfl⟩ := List.mem_map.mp taken
    exact (records.shownOn plain).prompted.mpr ⟨line, rfl, Script.noComment command⟩

/-- A file that is put into the tree, and a line that is executed. -/
theorem prompt_shown_iff_branch :
    let t : Terminal := ⟨⟨"user", "simulator", "~/workspace", false⟩, .standard⟩
    let s := startWith (fun _ => none) Settings.standard Counter.zero
    ∃ touched executed, (s.run [.touch (some "a.txt"), .execute " git branch"]).transcript =
        [touched, executed] ∧
      t.entry touched = touched.behind "" ∧
      t.entry executed = executed.behind "user@simulator:~/workspace$ " := by
  intro t s
  obtain ⟨shown, _, _⟩ := prompt_shown_iff (fun _ => none) Settings.standard Counter.zero t rfl
  obtain ⟨earlier, later, cut, since, _, entries⟩ :=
    shown [.touch (some "a.txt"), .execute " git branch"]
  have whole : earlier = [] := by
    refine since.resolve_right fun last => ?_
    have cleared : Step.clear ∈ [.touch (some "a.txt"), .execute " git branch"] :=
      cut ▸ List.mem_append_left later (List.mem_of_getLast? last)
    exact absurd cleared (by decide)
  rw [whole, List.nil_append] at cut
  rw [← cut] at entries
  obtain ⟨touched, _, first, tail, same⟩ := List.forall₂_cons_left_iff.mp entries
  obtain ⟨executed, _, second, none, rfl⟩ := List.forall₂_cons_left_iff.mp tail
  obtain rfl := List.forall₂_nil_left_iff.mp none
  exact ⟨touched, executed, same, first.bare.mpr (Or.inl ⟨_, rfl⟩),
    second.prompted.mpr ⟨_, rfl, by decide⟩⟩

/-- The line is recorded as it was typed, and shown without the prompt in front of it. -/
theorem comment_shown_bare :
    let t : Terminal := ⟨⟨"user", "simulator", "~/workspace", false⟩, .standard⟩
    let s := startWith (fun _ => none) Settings.standard Counter.zero
    ∃ entry, (s.run [.execute "# hello"]).transcript = [entry] ∧ entry.command = "# hello" ∧
      t.entry entry ≠ entry.behind t.plainPrompt ∧ t.entry entry = entry.behind "" := by
  refine ⟨⟨"# hello", (CommandError.commandNotFound "#").message, true⟩, ?_⟩
  decide +kernel

end Session

end GitTutor
