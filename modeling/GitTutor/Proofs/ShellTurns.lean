import GitTutor.Proofs.ScriptShell
import GitTutor.Proofs.Transition

/-!
# Turns of the shell

The shell cuts its input after every line feed and handles the pieces in order, until
the input ends, a line asks to quit or a piece is no text. `Ends` says what has happened
then, and nothing behind the piece that stopped the shell plays a part in it. What a line
means is settled by its words alone: it asks to quit, it leaves the session as it is, or
it takes one step of the session.
-/

namespace GitTutor

open Text

namespace Text

/-- The pieces of a stream: each but the last ends with its only line feed, and the last one may
lack it. -/
inductive Cut : List UInt8 → List (List UInt8) → Prop
  | nil : Cut [] []
  | last {piece : List UInt8} (some : piece ≠ []) (free : 10 ∉ piece) : Cut piece [piece]
  | line {front rest : List UInt8} {pieces : List (List UInt8)} (free : 10 ∉ front)
      (later : Cut rest pieces) : Cut (front ++ 10 :: rest) ((front ++ [10]) :: pieces)

theorem streamLines_line {front : List UInt8} (free : 10 ∉ front) (rest : List UInt8) :
    streamLines (front ++ 10 :: rest) = (front ++ [10]) :: streamLines rest :=
  segments_append_cons (passes_of_free free) (by decide) rest

theorem streamLines_last {piece : List UInt8} (some : piece ≠ []) (free : 10 ∉ piece) :
    streamLines piece = [piece] :=
  segments_of_pass some (passes_of_free free)

theorem cut_streamLines (bytes : List UInt8) : Cut bytes (streamLines bytes) := by
  by_cases feed : 10 ∈ bytes
  · -- The first line feed ends a piece, and what follows it is cut in the same way.
    obtain ⟨front, rest, whole, free⟩ := List.eq_append_cons_of_mem feed
    have shorter : rest.length < bytes.length := by
      rw [whole, List.length_append, List.length_cons]
      omega
    rw [whole, streamLines_line free]
    exact .line free (cut_streamLines rest)
  · by_cases none : bytes = []
    · rw [none]
      exact .nil
    · rw [streamLines_last none feed]
      exact .last none feed
termination_by bytes.length

/-- A stream is cut in one way. -/
theorem cut_iff {bytes : List UInt8} {pieces : List (List UInt8)} :
    Cut bytes pieces ↔ pieces = streamLines bytes := by
  constructor
  · intro cut
    induction cut with
    | nil => rfl
    | last some free => rw [streamLines_last some free]
    | line free later ih => rw [streamLines_line free, ih]
  · rintro rfl
    exact cut_streamLines bytes

/-- A line feed at the end of a stream keeps its pieces apart from those of what follows. -/
theorem streamLines_append {front : List UInt8} (ends : front.getLast? = some 10)
    (more : List UInt8) :
    streamLines (front ++ more) = streamLines front ++ streamLines more := by
  have cut := cut_streamLines front
  generalize streamLines front = pieces at cut ⊢
  induction cut with
  | nil => cases ends
  | last some free => exact absurd (List.mem_of_getLast? ends) free
  | @line front rest pieces free later ih =>
      rw [List.append_assoc, List.cons_append, streamLines_line free, List.cons_append]
      congr 1
      by_cases empty : rest = []
      · subst empty
        rw [cut_iff.mp later]
        rfl
      · refine ih ?_
        rwa [List.getLast?_append_cons, List.getLast?_cons_of_ne_nil empty] at ends

end Text

namespace Shell

/-- What a line comes to: it leaves the session as it is, it is the last one, or it takes a step
of the session. -/
inductive Meaning
  | nothing
  | quit
  | take (step : Session.Step)
  deriving DecidableEq, Repr

namespace Meaning

/-- The steps of the session that a line takes. -/
def steps : Meaning → List Session.Step
  | .take step => [step]
  | _ => []

/-- What a request to the shell comes to. -/
def ofRequest : MetaCommand → Meaning
  | .touch name => .take (.touch name)
  | .clear => .take .clear
  | .quick (some n) => .take (.execute (quickCommands.getD (n - 1) ""))
  | .quit => .quit
  | .quick none | .history | .help => .nothing

/-- What a line comes to by the way in which the shell takes it. -/
def ofReading (line : String) : Reading → Meaning
  | .command => .take (.execute line)
  | .own request => ofRequest request
  | .malformed _ => .nothing

end Meaning

/-- The number of a shortcut. -/
def IsShortcut (word : String) (n : Nat) : Prop :=
  readCount? wordBound word.toList = some n ∧ 1 ≤ n ∧ n ≤ quickCommands.length

/-- What the words after a colon come to. -/
inductive Asks : List String → Meaning → Prop
  | touch (more : List String) : Asks ("touch" :: more) (.take (.touch more.head?))
  | clear (more : List String) : Asks ("clear" :: more) (.take .clear)
  | shortcut {word : String} {n : Nat} (more : List String) (number : IsShortcut word n) :
      Asks ("quick" :: word :: more) (.take (.execute (quickCommands.getD (n - 1) "")))
  | noShortcut {word : String} (more : List String) (other : ∀ n, ¬IsShortcut word n) :
      Asks ("quick" :: word :: more) .nothing
  | shortcuts : Asks ["quick"] .nothing
  | shows {name : String} (more : List String) (known : name ∈ ["history", "help", "h", "?"]) :
      Asks (name :: more) .nothing
  | quit {name : String} (more : List String) (known : name ∈ ["quit", "q", "exit"]) :
      Asks (name :: more) .quit
  | nameless : Asks [] .nothing
  | unknown {name : String} (more : List String)
      (other : name ∉
        ["touch", "clear", "history", "quick", "help", "h", "?", "quit", "q", "exit"]) :
      Asks (name :: more) .nothing

/-- What a line comes to, told by its text without the blanks around it. -/
inductive Means (line : String) : Meaning → Prop
  | blank (empty : trimmed line = "") : Means line .nothing
  | quit (bare : trimmed line = "exit" ∨ trimmed line = "quit") : Means line .quit
  | execute (solid : trimmed line ≠ "") (noColon : (trimmed line).toList.head? ≠ some ':')
      (noQuit : ¬(trimmed line = "exit" ∨ trimmed line = "quit")) :
      Means line (.take (.execute (trimmed line)))
  | own {rest : List Char} {meaning : Meaning} (colon : (trimmed line).toList = ':' :: rest)
      (asked : Asks (wordsOf (String.ofList rest)) meaning) : Means line meaning

theorem ofQuickNumber_shortcut {word : String} {n : Nat} (number : IsShortcut word n) :
    Reading.ofQuickNumber word = .own (.quick (some n)) := by
  rw [Reading.ofQuickNumber, number.1]
  exact if_pos number.2

theorem ofQuickNumber_other {word : String} (other : ∀ n, ¬IsShortcut word n) :
    ∃ message, Reading.ofQuickNumber word = .malformed message := by
  rw [Reading.ofQuickNumber]
  split
  · rename_i n read
    exact ⟨_, if_neg fun range => other n ⟨read, range⟩⟩
  · exact ⟨_, rfl⟩

/-- The words after a colon are read as what they ask for. -/
theorem Asks.reading {words : List String} {meaning : Meaning} (asked : Asks words meaning)
    (line : String) : Meaning.ofReading line (Reading.ofMetaWords words) = meaning := by
  cases asked with
  | touch more => cases more <;> rfl
  | clear | shortcuts | nameless => rfl
  | @shortcut word n more number =>
      have read : Reading.ofMetaWords ("quick" :: word :: more) = Reading.ofQuickNumber word := rfl
      rw [read, ofQuickNumber_shortcut number]
      rfl
  | @noShortcut word more other =>
      have read : Reading.ofMetaWords ("quick" :: word :: more) = Reading.ofQuickNumber word := rfl
      obtain ⟨message, unread⟩ := ofQuickNumber_other other
      rw [read, unread]
      rfl
  | shows more known | quit more known =>
      simp only [List.mem_cons, List.not_mem_nil, or_false] at known
      rcases known with rfl | rfl | rfl | rfl <;> rfl
  | unknown more other =>
      simp only [List.mem_cons, List.not_mem_nil, or_false, not_or] at other
      simp [Reading.ofMetaWords, other, Meaning.ofReading]

theorem exists_asks (words : List String) : ∃ meaning, Asks words meaning := by
  cases words with
  | nil => exact ⟨_, .nameless⟩
  | cons name more =>
      by_cases known : name ∈
          ["touch", "clear", "history", "quick", "help", "h", "?", "quit", "q", "exit"]
      · simp only [List.mem_cons, List.not_mem_nil, or_false] at known
        rcases known with rfl | rfl | rfl | rfl | rfl | rfl | rfl | rfl | rfl | rfl
        -- Only `touch`, `clear` and `quick` have a meaning of their own.
        case inl => exact ⟨_, .touch more⟩
        case inr.inl => exact ⟨_, .clear more⟩
        case inr.inr.inr.inl =>
          cases more with
          | nil => exact ⟨_, .shortcuts⟩
          | cons word more =>
              by_cases number : ∃ n, IsShortcut word n
              · obtain ⟨n, number⟩ := number
                exact ⟨_, .shortcut more number⟩
              · exact ⟨_, .noShortcut more (not_exists.mp number)⟩
        all_goals first
          | exact ⟨_, .shows more (by decide)⟩
          | exact ⟨_, .quit more (by decide)⟩
      · exact ⟨_, .unknown more known⟩

theorem trimmed_trimmed (line : String) : trimmed (trimmed line) = trimmed line := by
  rw [trimmed, trimmed, String.toList_ofList, trim_trim]

/-- A line that is not blank is taken as what it means. -/
theorem Means.reading {line : String} {meaning : Meaning} (means : Means line meaning)
    (solid : trimmed line ≠ "") :
    Meaning.ofReading (trimmed line) (Reading.ofLine (trimmed line)) = meaning := by
  have text := trimmed_trimmed line
  cases means with
  | blank empty => exact absurd empty solid
  | quit bare =>
      rw [Reading.ofLine, text, if_pos bare]
      rfl
  | execute _ noColon noQuit =>
      rw [Reading.ofLine, text, if_neg noQuit]
      split
      · rename_i rest colon
        exact absurd (by rw [colon]; rfl) noColon
      · rfl
  | @own rest _ colon asked =>
      have noQuit : ¬(trimmed line = "exit" ∨ trimmed line = "quit") := by
        rintro (bare | bare) <;> rw [bare] at colon <;> cases colon
      rw [Reading.ofLine, text, if_neg noQuit, colon]
      exact asked.reading (trimmed line)

theorem Means.of_blank {line : String} {meaning : Meaning} (means : Means line meaning)
    (blank : trimmed line = "") : meaning = .nothing := by
  cases means with
  | blank => rfl
  | quit bare =>
      rw [blank] at bare
      exact absurd bare (by decide)
  | execute solid => exact absurd blank solid
  | own colon =>
      rw [blank] at colon
      cases colon

theorem exists_means (line : String) : ∃ meaning, Means line meaning := by
  by_cases blank : trimmed line = ""
  · exact ⟨_, .blank blank⟩
  · by_cases bare : trimmed line = "exit" ∨ trimmed line = "quit"
    · exact ⟨_, .quit bare⟩
    · by_cases colon : (trimmed line).toList.head? = some ':'
      · obtain ⟨rest, text⟩ := List.head?_eq_some_iff.mp colon
        obtain ⟨meaning, asked⟩ := exists_asks (wordsOf (String.ofList rest))
        exact ⟨meaning, .own text asked⟩
      · exact ⟨_, .execute blank colon bare⟩

/-- A line means one thing. -/
theorem Means.unique {line : String} {meaning other : Meaning} (means : Means line meaning)
    (means' : Means line other) : other = meaning := by
  by_cases blank : trimmed line = ""
  · rw [means.of_blank blank, means'.of_blank blank]
  · rw [← means.reading blank, ← means'.reading blank]

variable {σ : Type} [Entropy σ] {t : Terminal}

/-- A turn after which a session has taken the steps of a line. -/
def Turn.Follows (turn : Turn σ) (s : Session σ) (meaning : Meaning) : Prop :=
  turn.session = s.run meaning.steps ∧ (turn.quit = true ↔ meaning = .quit)

theorem follows_nothing (s : Session σ) (out : String) :
    (Turn.mk s out false).Follows s .nothing :=
  ⟨rfl, iff_of_false Bool.false_ne_true Meaning.noConfusion⟩

theorem follows_take (s : Session σ) (step : Session.Step) (out : String) :
    (Turn.mk (s.step step) out false).Follows s (.take step) :=
  ⟨rfl, iff_of_false Bool.false_ne_true Meaning.noConfusion⟩

theorem execute_follows (s : Session σ) (line : String) :
    (execute t s line).Follows s (.take (.execute line)) :=
  follows_take s (.execute line) _

/-- What a turn prints does not matter for the session. -/
theorem Turn.Follows.withOut {turn : Turn σ} {s : Session σ} {meaning : Meaning}
    (h : turn.Follows s meaning) (out : String) :
    { turn with out := out }.Follows s meaning :=
  h

theorem answer_follows (s : Session σ) (request : MetaCommand) :
    (answer t s request).Follows s (Meaning.ofRequest request) := by
  cases request with
  | touch name => exact follows_take s (.touch name) _
  | clear => exact follows_take s .clear _
  | quick number =>
      cases number with
      | none => exact follows_nothing s _
      | some n => exact (execute_follows s (quickCommands.getD (n - 1) "")).withOut _
  | history | help => exact follows_nothing s _
  | quit => exact ⟨rfl, iff_of_true rfl rfl⟩

/-- A line is handled as what it means. -/
theorem handle_follows (s : Session σ) {line : String} {meaning : Meaning}
    (means : Means line meaning) : (handle t s line).Follows s meaning := by
  by_cases blank : trimmed line = ""
  · rw [handle, if_pos blank, means.of_blank blank]
    exact follows_nothing s ""
  · rw [handle, if_neg blank, ← means.reading blank]
    cases Reading.ofLine (trimmed line) with
    | command => exact execute_follows s (trimmed line)
    | own request => exact answer_follows s request
    | malformed message => exact follows_nothing s _

/-- The session after some lines. -/
def after (t : Terminal) (s : Session σ) (lines : List String) : Session σ :=
  lines.foldl (fun s line => (handle t s line).session) s

theorem mem_steps {meaning : Meaning} {step : Session.Step} (h : step ∈ meaning.steps) :
    meaning = .take step := by
  cases meaning with
  | take only => rw [List.mem_singleton.mp h]
  | nothing | quit => cases h

/-- Handling some lines takes a session through steps that these lines mean. -/
theorem after_eq_run (t : Terminal) (s : Session σ) (lines : List String) :
    ∃ steps, after t s lines = s.run steps ∧
      ∀ step ∈ steps, ∃ line ∈ lines, Means line (.take step) := by
  induction lines generalizing s with
  | nil => exact ⟨[], rfl, fun _ h => absurd h List.not_mem_nil⟩
  | cons line rest ih =>
      obtain ⟨meaning, means⟩ := exists_means line
      obtain ⟨steps, later, meant⟩ := ih (s.run meaning.steps)
      refine ⟨meaning.steps ++ steps, ?_, fun step h => ?_⟩
      · rw [Session.run_append, ← later, after, List.foldl_cons, (handle_follows s means).1]
        rfl
      · rcases List.mem_append.mp h with h | h
        · exact ⟨line, List.mem_cons_self, mem_steps h ▸ means⟩
        · obtain ⟨other, within, means⟩ := meant step h
          exact ⟨other, List.mem_cons_of_mem line within, means⟩

/-- What the shell prints for some lines, each with the prompt in front. -/
def printed (t : Terminal) (s : Session σ) : List String → String
  | [] => ""
  | line :: rest =>
      t.prompt ++ (handle t s line).out ++ printed t (handle t s line).session rest

/-- Some lines of which none asks to quit. -/
def GoOn (lines : List String) : Prop :=
  ∀ line ∈ lines, ¬Means line .quit

theorem goOn_nil : GoOn [] :=
  fun _ h => absurd h List.not_mem_nil

theorem goOn_cons {line : String} {lines : List String} :
    GoOn (line :: lines) ↔ ¬Means line .quit ∧ GoOn lines :=
  List.forall_mem_cons

theorem quit_iff (t : Terminal) (s : Session σ) (line : String) :
    (handle t s line).quit = true ↔ Means line .quit := by
  obtain ⟨meaning, means⟩ := exists_means line
  rw [(handle_follows s means).2]
  constructor
  · rintro rfl
    exact means
  · intro quits
    exact quits.unique means

/-- What has happened to a session when the shell is done with the pieces of its input. -/
inductive Ends (t : Terminal) (s : Session σ) (pieces : List (List UInt8)) : Result σ → Prop
  /-- A line asked to quit, and nothing behind it was handled. -/
  | quit {lines : List String} {last : String} {later : List (Option String)}
      (read : pieces.map decode? = lines.map some ++ some last :: later) (goOn : GoOn lines)
      (quits : Means last .quit) :
      Ends t s pieces ⟨after t s (lines ++ [last]), printed t s (lines ++ [last]), true⟩
  /-- The input ended. -/
  | ended {lines : List String} (read : pieces.map decode? = lines.map some)
      (goOn : GoOn lines) :
      Ends t s pieces ⟨after t s lines, printed t s lines ++ (t.prompt ++ "\n"), true⟩
  /-- A piece was no text, and nothing behind it was handled. -/
  | malformed {lines : List String} {later : List (Option String)}
      (read : pieces.map decode? = lines.map some ++ none :: later) (goOn : GoOn lines) :
      Ends t s pieces ⟨after t s lines, printed t s lines ++ t.prompt, false⟩

/-- A line that does not ask to quit is handled before those that follow. -/
theorem Ends.cons {s : Session σ} {piece : List UInt8} {line : String}
    {rest : List (List UInt8)} {result : Result σ} (read : decode? piece = some line)
    (here : ¬Means line .quit) (later : Ends t (handle t s line).session rest result) :
    Ends t s (piece :: rest)
      { result with out := t.prompt ++ (handle t s line).out ++ result.out } := by
  cases later with
  | @quit lines last later rest goOn quits =>
      exact .quit (by rw [List.map_cons, read, rest]; rfl) (goOn_cons.mpr ⟨here, goOn⟩) quits
  | @ended lines rest goOn =>
      have ended : Ends t s (_ :: _) ⟨after t s (line :: lines), _, true⟩ :=
        .ended (by rw [List.map_cons, read, rest]; rfl) (goOn_cons.mpr ⟨here, goOn⟩)
      rwa [printed, String.append_assoc] at ended
  | @malformed lines later rest goOn =>
      have malformed : Ends t s (_ :: _) ⟨after t s (line :: lines), _, false⟩ :=
        .malformed (by rw [List.map_cons, read, rest]; rfl) (goOn_cons.mpr ⟨here, goOn⟩)
      rwa [printed, String.append_assoc] at malformed

/-- The shell handles the lines up to the piece that stops it. -/
theorem ends_runLines (t : Terminal) (s : Session σ) (pieces : List (List UInt8)) :
    Ends t s pieces (runLines t s pieces) := by
  induction pieces generalizing s with
  | nil =>
      have ended : Ends t s [] _ := .ended rfl goOn_nil
      rwa [printed, String.empty_append] at ended
  | cons piece rest ih =>
      rw [runLines]
      split
      · rename_i unread
        have ended : Ends t s (piece :: rest) _ :=
          .malformed (by rw [List.map_cons, unread]; rfl) goOn_nil
        rwa [printed, String.empty_append] at ended
      · rename_i line read
        dsimp only
        split
        · rename_i quits
          have ended : Ends t s (piece :: rest) _ :=
            .quit (by rw [List.map_cons, read]; rfl) goOn_nil ((quit_iff t s line).mp quits)
          rwa [List.nil_append, printed, printed, String.append_empty] at ended
        · rename_i goesOn
          exact .cons read (fun quits => goesOn ((quit_iff t s line).mpr quits)) (ih _)

/-- Some pieces that stop the shell before its input ends: one is no text or asks to quit. -/
def Stops (pieces : List (List UInt8)) : Prop :=
  ∃ piece ∈ pieces, ∀ line, decode? piece = some line → Means line .quit

/-- What follows the piece that stopped the shell does not matter. -/
theorem runLines_append (t : Terminal) (s : Session σ) {front : List (List UInt8)}
    (stops : Stops front) (more : List (List UInt8)) :
    runLines t s (front ++ more) = runLines t s front := by
  induction front generalizing s with
  | nil =>
      obtain ⟨piece, within, -⟩ := stops
      cases within
  | cons piece rest ih =>
      rw [List.cons_append, runLines, runLines]
      split
      · rfl
      · rename_i line read
        dsimp only
        split
        · rfl
        · rename_i goesOn
          obtain ⟨stop, within, stopping⟩ := stops
          rcases List.mem_cons.mp within with rfl | within
          · exact absurd ((quit_iff t s line).mpr (stopping line read)) goesOn
          · rw [ih _ ⟨stop, within, stopping⟩]

/-- The shell cuts its input after every line feed and handles the pieces in order, up to the
first that is no text or asks to quit, and what follows that piece does not matter. A line means
one thing, told by its words alone, and it is handled by the one step it means, if any. -/
theorem run_in_turns (t : Terminal) (s : Session σ) (input : List UInt8) :
    (∃ pieces, (∀ other, Cut input other ↔ other = pieces) ∧ Ends t s pieces (run t s input) ∧
      (input.getLast? = some 10 → Stops pieces → ∀ more, run t s (input ++ more) = run t s input)) ∧
    ∀ line, ∃ meaning, (∀ other, Means line other ↔ other = meaning) ∧
      ∀ now : Session σ, (handle t now line).session = now.run meaning.steps ∧
        ((handle t now line).quit = true ↔ meaning = .quit) := by
  constructor
  · refine ⟨streamLines input, fun other => cut_iff, ends_runLines t s _, ?_⟩
    intro ended stops more
    rw [run, streamLines_append ended, runLines_append t s stops, run]
  · intro line
    obtain ⟨meaning, means⟩ := exists_means line
    refine ⟨meaning, fun other => ⟨means.unique, ?_⟩, fun now => handle_follows now means⟩
    rintro rfl
    exact means

/-- A line, a request to quit, and behind it two bytes that are no text. -/
theorem run_in_turns_quit :
    let t : Terminal := ⟨⟨"user", "host", "~", false⟩, .standard⟩
    let s := Session.start Settings.standard Counter.zero
    let input := encode "git branch dev\n:q\n".toList
    let pieces := [encode "git branch dev\n".toList, encode ":q\n".toList]
    input.getLast? = some 10 ∧ Cut input pieces ∧ Stops pieces ∧
      run t s (input ++ [255, 10]) = run t s input ∧ Ends t s pieces (run t s input) := by
  intro t s input pieces
  have ended : input.getLast? = some 10 := by decide +kernel
  have cut : streamLines input = pieces := by
    have segment : segments (· == '\n') "git branch dev\n:q\n".toList =
        ["git branch dev\n".toList, ":q\n".toList] := by decide +kernel
    rw [streamLines_encode, segment]
    rfl
  have quits : Means ":q\n" .quit := by
    refine .own (show (trimmed ":q\n").toList = ':' :: ['q'] by decide +kernel) ?_
    have word : wordsOf (String.ofList ['q']) = ["q"] := by decide +kernel
    rw [word]
    exact .quit [] (by decide)
  have stops : Stops pieces := by
    refine ⟨encode ":q\n".toList, by simp [pieces], fun line read => ?_⟩
    rw [decode?_encode, String.ofList_toList, Option.some.injEq] at read
    rwa [← read]
  obtain ⟨⟨others, only, ends, free⟩, -⟩ := run_in_turns t s input
  obtain rfl : pieces = others := (only pieces).mp (cut_iff.mpr cut.symm)
  exact ⟨ended, cut_iff.mpr cut.symm, stops, free ended stops [255, 10], ends⟩

end Shell

end GitTutor
