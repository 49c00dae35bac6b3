import GitTutor.Proofs.EncodedLines
import GitTutor.Proofs.Trimming
import GitTutor.Script
import GitTutor.Shell

/-!
# Scripts and the shell

A script cuts its text into lines, drops their ends and the blanks around them,
and leaves out blank lines. The shell reads the same bytes line by line, with
their ends, and looks at each line before it passes it on. When no line means
something else to one of the two, both take the session through the same lines.
-/

namespace GitTutor

open Text

/-- A trimmed line that is no comment of a script and does not address the shell. -/
structure PlainLine (line : List Char) : Prop where
  noComment : line.head? ≠ some '#'
  noRequest : line.head? ≠ some ':'
  noExit : line ≠ "exit".toList
  noQuit : line ≠ "quit".toList

instance (line : List Char) : Decidable (PlainLine line) :=
  decidable_of_iff
    (line.head? ≠ some '#' ∧ line.head? ≠ some ':' ∧ line ≠ "exit".toList ∧ line ≠ "quit".toList)
    ⟨fun ⟨noComment, noRequest, noExit, noQuit⟩ => ⟨noComment, noRequest, noExit, noQuit⟩,
      fun plain => ⟨plain.noComment, plain.noRequest, plain.noExit, plain.noQuit⟩⟩

namespace Script

/-- A plain line is a command line unless it is blank. -/
theorem isCommandLine_of_plain {line : List Char} (plain : PlainLine line) :
    isCommandLine line = true ↔ line ≠ [] := by
  cases line with
  | nil => simp [isCommandLine]
  | cons c rest =>
      have other : c ≠ '#' := by
        rintro rfl
        exact plain.noComment rfl
      simp [isCommandLine, other]

/-- The ends of lines do not matter to a script. -/
theorem commandLines_eq (text : List Char) :
    commandLines text = ((segments (· == '\n') text).map trim).filter isCommandLine := by
  have ends : trim ∘ withoutLineEnd = trim := funext trim_withoutLineEnd
  rw [commandLines, textLines, List.map_map, ends]

/-- A script is run when one of its lines is a command line. -/
theorem load_eq_ok {files : Files} {path : FilePath} {bytes : List UInt8} {text : String}
    (found : files path = .ok bytes) (readable : decode? bytes = some text)
    {line : List Char} (command : line ∈ commandLines text.toList) :
    load files path = .ok (lines text) := by
  have some : lines text ≠ [] := by
    rw [lines, ne_eq, List.map_eq_nil_iff]
    exact List.ne_nil_of_mem command
  rw [load, found]
  dsimp only
  rw [readable]
  dsimp only
  split
  · contradiction
  · rfl

end Script

namespace Shell

variable {σ : Type} [Entropy σ]

/-- The shell passes a plain line on. -/
theorem reading_of_plain {line : List Char} (plain : PlainLine (trim line)) :
    Reading.ofLine (String.ofList (trim line)) = .command := by
  have text : trimmed (String.ofList (trim line)) = String.ofList (trim line) := by
    rw [trimmed_ofList, trim_trim]
  have stays : ¬(String.ofList (trim line) = "exit" ∨ String.ofList (trim line) = "quit") := by
    rintro (same | same)
    · exact plain.noExit (by rw [← same, String.toList_ofList])
    · exact plain.noQuit (by rw [← same, String.toList_ofList])
  rw [Reading.ofLine, text, if_neg stays, String.toList_ofList]
  split
  · rename_i rest colon
    exact absurd (by rw [colon]; rfl) plain.noRequest
  · rfl

theorem execute_session (t : Terminal) (s : Session σ) (line : String) :
    (execute t s line).session = s.execute line := by
  rw [execute]

/-- A blank line leaves the session as it is. -/
theorem handle_blank (t : Terminal) (s : Session σ) {line : List Char} (blank : trim line = []) :
    handle t s (String.ofList line) = ⟨s, "", false⟩ := by
  rw [handle, trimmed_ofList, blank]
  rfl

/-- A plain line that is not blank is executed. -/
theorem handle_plain (t : Terminal) (s : Session σ) {line : List Char}
    (plain : PlainLine (trim line)) (some : trim line ≠ []) :
    handle t s (String.ofList line) = execute t s (String.ofList (trim line)) := by
  have text : String.ofList (trim line) ≠ "" := fun empty =>
    some (String.ofList_eq_empty_iff.mp empty)
  rw [handle, trimmed_ofList, if_neg text, reading_of_plain plain]

/-- Over plain lines the shell takes a session through the command lines of a script. -/
theorem runLines_plain (t : Terminal) (s : Session σ) {lines : List (List Char)}
    (plain : ∀ line ∈ lines, PlainLine (trim line)) :
    (runLines t s (lines.map encode)).readable = true ∧
      (runLines t s (lines.map encode)).session =
        Script.execute s (((lines.map trim).filter Script.isCommandLine).map String.ofList) := by
  induction lines generalizing s with
  | nil => exact ⟨rfl, rfl⟩
  | cons line rest ih =>
      have here := plain line List.mem_cons_self
      have later : ∀ other ∈ rest, PlainLine (trim other) := fun other h =>
        plain other (List.mem_cons_of_mem line h)
      rw [List.map_cons, runLines, decode?_encode, List.map_cons]
      dsimp only
      by_cases blank : trim line = []
      · have skipped : ¬Script.isCommandLine (trim line) = true := by
          rw [blank]
          exact Bool.false_ne_true
        rw [handle_blank t s blank, List.filter_cons_of_neg skipped]
        exact ih s later
      · have kept : Script.isCommandLine (trim line) = true :=
          (Script.isCommandLine_of_plain here).mpr blank
        have goesOn : ¬(execute t s (String.ofList (trim line))).quit = true :=
          Bool.false_ne_true
        rw [handle_plain t s here blank, if_neg goesOn, List.filter_cons_of_pos kept,
          List.map_cons, Script.execute_cons, ← execute_session t]
        exact ih (execute t s (String.ofList (trim line))).session later

/-- Scripts and the shell agree on a text that has a line to execute and no line that means
something else to one of the two: the script is run, the shell reads it to its end, and both
take a session to the same one, with its repository, its randomness and its transcript. -/
theorem run_eq_script (t : Terminal) (s : Session σ) {files : Files} {path : FilePath}
    {bytes : List UInt8} {text : String} (found : files path = .ok bytes)
    (readable : decode? bytes = some text)
    (plain : ∀ line ∈ textLines text.toList, PlainLine (trim line))
    (some : ∃ line ∈ textLines text.toList, trim line ≠ []) :
    Script.load files path = .ok (Script.lines text) ∧
      (run t s bytes).readable = true ∧
      (run t s bytes).session = Script.execute s (Script.lines text) := by
  obtain ⟨line, within, solid⟩ := some
  have command : trim line ∈ Script.commandLines text.toList := by
    refine List.mem_filter.mpr ⟨List.mem_map_of_mem within, ?_⟩
    exact (Script.isCommandLine_of_plain (plain line within)).mpr solid
  have segment : ∀ part ∈ segments (· == '\n') text.toList, PlainLine (trim part) := by
    intro part h
    rw [← trim_withoutLineEnd]
    exact plain _ (List.mem_map_of_mem h)
  refine ⟨Script.load_eq_ok found readable command, ?_⟩
  rw [run, eq_encode_of_decode? readable, streamLines_encode, Script.lines, Script.commandLines_eq]
  exact runLines_plain t s segment

/-- Both kinds of line ends, a blank line, and a last line with no end. -/
theorem run_eq_script_crlf :
    let text := "git status\r\n\n\t git branch dev"
    let path := FilePath.ofText "session"
    let files := Files.ofList [(path, .ok (encode text.toList))]
    let t : Terminal := ⟨⟨"user", "host", "~", false⟩, .standard⟩
    let s := Session.start Settings.standard Counter.zero
    files path = .ok (encode text.toList) ∧ decode? (encode text.toList) = some text ∧
      (∀ line ∈ textLines text.toList, PlainLine (trim line)) ∧
      (∃ line ∈ textLines text.toList, trim line ≠ []) ∧
      Script.load files path = .ok ["git status", "git branch dev"] ∧
      (run t s (encode text.toList)).readable = true ∧
      (run t s (encode text.toList)).session =
        Script.execute s ["git status", "git branch dev"] := by
  intro text path files t s
  have found : files path = .ok (encode text.toList) := rfl
  have readable : decode? (encode text.toList) = some text := by
    rw [decode?_encode, String.ofList_toList]
  have plain : ∀ line ∈ textLines text.toList, PlainLine (trim line) := by decide +kernel
  have some : ∃ line ∈ textLines text.toList, trim line ≠ [] := by decide +kernel
  have lines : Script.lines text = ["git status", "git branch dev"] := by decide +kernel
  refine ⟨found, readable, plain, some, ?_⟩
  rw [← lines]
  exact run_eq_script t s found readable plain some

end Shell

end GitTutor
