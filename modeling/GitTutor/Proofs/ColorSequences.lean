import GitTutor.Proofs.PromptedEntries

/-!
# Colour sequences

A colour sequence is an escape character, an opening bracket, some codes and the letter `m`. A
text on a terminal is read from its start as characters that are shown and colour sequences. When
the texts that a terminal is given hold no escape character, what it prints in colour shows
exactly what it prints without colour, and every sequence that opens a tone is followed by the
one that resets it before another tone is opened. All that this needs to know of a painter is that
it puts a text between two such sequences.
-/

namespace GitTutor

open Text

/-- A text without escape characters. -/
def Text.EscapeFree (text : String) : Prop :=
  '\x1b' ∉ text.toList

instance (text : String) : Decidable (EscapeFree text) :=
  inferInstanceAs (Decidable ('\x1b' ∉ text.toList))

/-- The texts of an entry hold no escape character. -/
structure Entry.IsEscapeFree (entry : Entry) : Prop where
  command : EscapeFree entry.command
  output : EscapeFree entry.output

namespace Terminal

/-- The texts of a terminal hold no escape character. -/
structure IsEscapeFree (t : Terminal) : Prop where
  user : EscapeFree t.user
  host : EscapeFree t.host
  path : EscapeFree t.path

/-- Whether a character can be one of the codes of a colour sequence. -/
def isCode (c : Char) : Bool :=
  c.isDigit || c == ';'

/-- The codes of the colour sequence at the start of a text, and what is behind it. -/
def leadingCodes? : List Char → Option (List Char × List Char)
  | '\x1b' :: '[' :: cs =>
      match cs.dropWhile isCode with
      | 'm' :: rest => some (cs.takeWhile isCode, rest)
      | _ => none
  | _ => none

theorem length_of_leadingCodes? {cs codes rest : List Char}
    (h : leadingCodes? cs = some (codes, rest)) : rest.length < cs.length := by
  unfold leadingCodes? at h
  split at h
  · rename_i tail
    split at h
    · rename_i behind shape
      obtain ⟨-, rfl⟩ := Prod.mk.inj (Option.some.inj h)
      have bound := List.length_dropWhile_le isCode tail
      rw [shape, List.length_cons] at bound
      simp only [List.length_cons]
      omega
    · cases h
  · cases h

/-- A part of a text on a terminal: a character that is shown, or a colour sequence with its
codes. -/
inductive Part
  | shown (c : Char)
  | sequence (codes : List Char)
  deriving DecidableEq, Repr

/-- The character that a part shows. -/
def Part.char? : Part → Option Char
  | .shown c => some c
  | .sequence _ => none

/-- The codes of a part that is a colour sequence. -/
def Part.codes? : Part → Option (List Char)
  | .shown _ => none
  | .sequence codes => some codes

/-- The parts of a text. -/
def parts (cs : List Char) : List Part :=
  match _found : leadingCodes? cs with
  | some (codes, rest) => .sequence codes :: parts rest
  | none =>
      match cs with
      | [] => []
      | c :: rest => .shown c :: parts rest
termination_by cs.length
decreasing_by
  · exact length_of_leadingCodes? ‹_›
  · exact Nat.lt_succ_self _

/-- A text without its colour sequences. -/
def withoutSequences (text : String) : String :=
  String.ofList ((parts text.toList).filterMap Part.char?)

/-- The codes of the colour sequences of a text. -/
def sequences (text : String) : List (List Char) :=
  (parts text.toList).filterMap Part.codes?

/-- The codes of the sequence that resets every tone. -/
def resetCodes : List Char := ['0']

/-- Sequences of which every one that opens a tone is followed by one that resets it. -/
inductive Paired : List (List Char) → Prop
  | nil : Paired []
  | cons {opening : List Char} {rest : List (List Char)} (opens : opening ≠ resetCodes)
      (later : Paired rest) : Paired (opening :: resetCodes :: rest)

/-- A text in colour that shows a plain text and resets every tone that it opens. -/
structure IsColoringOf (colored plain : String) : Prop where
  shows : withoutSequences colored = plain
  balanced : (sequences colored).countP (· = resetCodes) =
    (sequences colored).countP (· ≠ resetCodes)
  paired : Paired (sequences colored)

/-- The colour sequence with some codes. -/
def colorSequence (codes : List Char) : List Char :=
  '\x1b' :: '[' :: (codes ++ ['m'])

end Terminal

namespace Painter

/-- What is assumed of a painter: each tone has codes, and a text without escape characters, also
an empty one, stands between the sequence with them and the one that resets every tone. -/
structure Lawful (painter : Painter) : Prop where
  painted : ∀ tone, ∃ codes, (∀ c ∈ codes, Terminal.isCode c = true) ∧
    codes ≠ Terminal.resetCodes ∧ ∀ text, EscapeFree text →
      (painter.inTone tone text).toList =
        Terminal.colorSequence codes ++ text.toList ++ Terminal.colorSequence Terminal.resetCodes

theorem reopen_free (start : List Char) {text : List Char} (free : '\x1b' ∉ text) :
    reopen start text = text := by
  induction text with
  | nil => rfl
  | cons c text ih =>
      have plain : c ≠ '\x1b' := fun same => free (same ▸ List.mem_cons_self)
      unfold reopen
      split
      · rename_i shape
        exact absurd (List.cons.inj shape).1 plain
      · rename_i shape
        obtain ⟨rfl, rfl⟩ := List.cons.inj shape
        rw [ih fun h => free (List.mem_cons_of_mem _ h)]
      · rename_i shape
        cases shape

/-- The painter that is used keeps to what is assumed. -/
theorem lawful_standard : standard.Lawful where
  painted tone := by
    refine ⟨tone.codes.toList, List.all_eq_true.mp (by cases tone <;> decide),
      by cases tone <;> decide, fun text free => ?_⟩
    have start : (opening tone).toList = Terminal.colorSequence tone.codes.toList := by
      simp [opening, Terminal.colorSequence]
    have stop : reset.toList = Terminal.colorSequence Terminal.resetCodes := by decide
    rw [standard, String.toList_append, String.toList_append, String.toList_ofList,
      reopen_free _ free, start, stop]

end Painter

namespace Terminal

/-- A terminal with the same prompt, in colour or not. -/
def withColor (t : Terminal) (color : Bool) : Terminal :=
  { t with color }

theorem parts_nil : parts [] = [] := by
  rw [parts]
  rfl

theorem parts_shown {c : Char} (plain : c ≠ '\x1b') (rest : List Char) :
    parts (c :: rest) = .shown c :: parts rest := by
  have none : leadingCodes? (c :: rest) = none := by
    unfold leadingCodes?
    split
    · rename_i shape
      exact absurd (List.cons.inj shape).1 plain
    · rfl
  rw [parts]
  split
  · rename_i found
    rw [none] at found
    cases found
  · rfl

theorem parts_sequence {codes : List Char} (all : ∀ c ∈ codes, isCode c = true)
    (rest : List Char) :
    parts ('\x1b' :: '[' :: (codes ++ 'm' :: rest)) = .sequence codes :: parts rest := by
  have found : leadingCodes? ('\x1b' :: '[' :: (codes ++ 'm' :: rest)) = some (codes, rest) := by
    have behind : ('m' :: rest).dropWhile isCode = 'm' :: rest := rfl
    have front : ('m' :: rest).takeWhile isCode = [] := rfl
    rw [leadingCodes?, List.dropWhile_append_of_pos all, List.takeWhile_append_of_pos all, behind,
      front, List.append_nil]
    rfl
  rw [parts]
  split
  · rename_i same
    rw [found] at same
    obtain ⟨rfl, rfl⟩ := Prod.mk.inj (Option.some.inj same)
    rfl
  · rename_i same
    rw [found] at same
    cases same

/-- A text whose parts are the same whatever follows it. -/
def Reads (front : List Char) (read : List Part) : Prop :=
  ∀ rest, parts (front ++ rest) = read ++ parts rest

theorem Reads.append {front back : List Char} {read more : List Part} (h : Reads front read)
    (h' : Reads back more) : Reads (front ++ back) (read ++ more) := by
  intro rest
  rw [List.append_assoc, h, h', List.append_assoc]

theorem Reads.parts_eq {text : List Char} {read : List Part} (h : Reads text read) :
    parts text = read := by
  have whole := h []
  rwa [List.append_nil, parts_nil, List.append_nil] at whole

theorem reads_free {text : List Char} (free : '\x1b' ∉ text) : Reads text (text.map .shown) := by
  intro rest
  induction text with
  | nil => rfl
  | cons c text ih =>
      have plain : c ≠ '\x1b' := fun same => free (same ▸ List.mem_cons_self)
      rw [List.cons_append, parts_shown plain, ih fun h => free (List.mem_cons_of_mem c h)]
      rfl

theorem reads_colorSequence {codes : List Char} (all : ∀ c ∈ codes, isCode c = true) :
    Reads (colorSequence codes) [.sequence codes] := by
  intro rest
  have shape : colorSequence codes ++ rest = '\x1b' :: '[' :: (codes ++ 'm' :: rest) := by
    simp [colorSequence]
  rw [shape, parts_sequence all]
  rfl

theorem reads_reset : Reads (colorSequence resetCodes) [.sequence resetCodes] :=
  reads_colorSequence (List.all_eq_true.mp (by decide))

theorem Paired.append {front back : List (List Char)} (h : Paired front) (h' : Paired back) :
    Paired (front ++ back) := by
  induction h with
  | nil => exact h'
  | cons opens _ ih => exact .cons opens ih

/-- Paired sequences open as many tones as they reset. -/
theorem Paired.balanced {read : List (List Char)} (h : Paired read) :
    read.countP (· = resetCodes) = read.countP (· ≠ resetCodes) := by
  induction h with
  | nil => rfl
  | cons opens _ ih => simp [opens, ih]

/-- A text in colour beside the text that it shows, whatever is printed behind the two. -/
def Colors (colored plain : String) : Prop :=
  ∃ read, Reads colored.toList read ∧ read.filterMap Part.char? = plain.toList ∧
    Paired (read.filterMap Part.codes?)

theorem Colors.isColoringOf {colored plain : String} (h : Colors colored plain) :
    IsColoringOf colored plain := by
  obtain ⟨read, reads, shown, paired⟩ := h
  have codes : sequences colored = read.filterMap Part.codes? := by
    rw [sequences, reads.parts_eq]
  constructor
  · rw [withoutSequences, reads.parts_eq, shown, String.ofList_toList]
  · rw [codes]
    exact paired.balanced
  · rw [codes]
    exact paired

theorem rel_isColoringOf {colored plain : Option String} (h : Option.Rel Colors colored plain) :
    Option.Rel IsColoringOf colored plain := by
  cases h with
  | none => exact .none
  | some h => exact .some h.isColoringOf

theorem Colors.append {colored plain colored' plain' : String} (h : Colors colored plain)
    (h' : Colors colored' plain') : Colors (colored ++ colored') (plain ++ plain') := by
  obtain ⟨read, reads, shown, paired⟩ := h
  obtain ⟨read', reads', shown', paired'⟩ := h'
  refine ⟨read ++ read', ?_, ?_, ?_⟩
  · rw [String.toList_append]
    exact reads.append reads'
  · rw [List.filterMap_append, shown, shown', String.toList_append]
  · rw [List.filterMap_append]
    exact paired.append paired'

theorem char?_shown (text : List Char) : (text.map Part.shown).filterMap Part.char? = text := by
  rw [List.filterMap_map]
  exact List.filterMap_some

theorem codes?_shown (text : List Char) : (text.map Part.shown).filterMap Part.codes? = [] := by
  simp [List.filterMap_map, Part.codes?]

/-- A text without escape characters shows itself. -/
theorem colors_free {text : String} (free : EscapeFree text) : Colors text text := by
  refine ⟨_, reads_free free, char?_shown _, ?_⟩
  rw [codes?_shown]
  exact .nil

section Painted

variable (t : Terminal) (tone : Tone) {text : String} (free : EscapeFree text)

theorem paint_withColor_false : (t.withColor false).paint tone text = text :=
  paint_plain rfl tone text

variable {t} (lawful : t.painter.Lawful)

include lawful free

/-- A painted text shows the text. -/
theorem colors_paint : Colors ((t.withColor true).paint tone text) text := by
  obtain ⟨codes, all, opens, painted⟩ := lawful.painted tone
  refine ⟨[.sequence codes] ++ text.toList.map .shown ++ [.sequence resetCodes], ?_, ?_, ?_⟩
  · rw [paint, withColor, if_pos rfl, painted text free]
    exact ((reads_colorSequence all).append (reads_free free)).append reads_reset
  · rw [List.filterMap_append, List.filterMap_append, char?_shown]
    exact List.append_nil _
  · rw [List.filterMap_append, List.filterMap_append, codes?_shown]
    exact .cons opens .nil

/-- A text that is painted if the terminal is in colour shows itself either way. -/
theorem colors_paint_paint :
    Colors ((t.withColor true).paint tone text) ((t.withColor false).paint tone text) := by
  rw [paint_withColor_false]
  exact colors_paint tone free lawful

end Painted

theorem escapeFree_append {front back : String} (h : EscapeFree front) (h' : EscapeFree back) :
    EscapeFree (front ++ back) := by
  rw [EscapeFree, String.toList_append, List.mem_append, not_or]
  exact ⟨h, h'⟩

theorem colors_joinWith {between : String} (free : EscapeFree between) {colored plain : List String}
    (h : List.Forall₂ Colors colored plain) :
    Colors (joinWith between colored) (joinWith between plain) := by
  induction h with
  | nil => exact colors_free List.not_mem_nil
  | @cons text text' rest rest' first later ih =>
      cases later with
      | nil => exact first
      | cons => exact (first.append (colors_free free)).append ih

theorem escapeFree_repr (n : Nat) : EscapeFree (Nat.repr n) := by
  intro within
  rw [Nat.toList_repr] at within
  have digit := Nat.isDigit_of_mem_toDigits (by decide) (by decide) within
  exact absurd digit (by decide)

theorem escapeFree_padLeft (width : Nat) {text : String} (free : EscapeFree text) :
    EscapeFree (padLeft width text) := by
  refine escapeFree_append (fun within => ?_) free
  rw [String.toList_ofList] at within
  exact absurd (List.eq_of_mem_replicate within) (by decide)

section Renderers

variable {t : Terminal} (lawful : t.painter.Lawful)

include lawful

theorem colors_prompt (clean : t.IsEscapeFree) :
    Colors (t.withColor true).prompt (t.withColor false).prompt := by
  have name : EscapeFree (t.user ++ "@" ++ t.host) :=
    escapeFree_append (escapeFree_append clean.user (by decide)) clean.host
  have colon : EscapeFree ":" := by decide
  have dollar : EscapeFree "$ " := by decide
  exact (((colors_paint_paint .host name lawful).append (colors_free colon)).append
    (colors_paint_paint .path clean.path lawful)).append (colors_free dollar)

theorem colors_output {entry : Entry} (free : entry.IsEscapeFree) :
    Option.Rel Colors ((t.withColor true).output? entry) ((t.withColor false).output? entry) := by
  unfold output?
  split
  · exact .none
  · apply Option.Rel.some
    split
    · exact colors_paint_paint .error free.output lawful
    · exact colors_free free.output

theorem colors_commandLine (clean : t.IsEscapeFree) {command : String} (free : EscapeFree command) :
    Colors ((t.withColor true).commandLine command) ((t.withColor false).commandLine command) := by
  unfold commandLine
  split
  · exact colors_paint_paint .muted free lawful
  · exact (colors_prompt lawful clean).append (colors_free free)

theorem colors_entry (clean : t.IsEscapeFree) {entry : Entry} (free : entry.IsEscapeFree) :
    Colors ((t.withColor true).entry entry) ((t.withColor false).entry entry) := by
  have line := colors_commandLine lawful clean free.command
  have feed : EscapeFree "\n" := by decide
  have output : Option.Rel Colors ((t.withColor true).output? entry)
    ((t.withColor false).output? entry) := colors_output lawful free
  rw [Terminal.entry, Terminal.entry]
  revert output
  generalize (t.withColor true).output? entry = colored
  generalize (t.withColor false).output? entry = plain
  rintro (text | _)
  · exact (line.append (colors_free feed)).append text
  · exact line

theorem colors_transcript (clean : t.IsEscapeFree) {entries : List Entry}
    (free : ∀ entry ∈ entries, entry.IsEscapeFree) :
    Colors ((t.withColor true).transcript entries) ((t.withColor false).transcript entries) := by
  apply colors_joinWith (by decide)
  rw [List.forall₂_map_left_iff, List.forall₂_map_right_iff]
  exact List.forall₂_same.mpr fun entry within => colors_entry lawful clean (free entry within)

theorem colors_historyLines {entries : List Entry} (free : ∀ entry ∈ entries, entry.IsEscapeFree)
    (number : Nat) : List.Forall₂ Colors ((t.withColor true).historyLines number entries)
      ((t.withColor false).historyLines number entries) := by
  induction entries generalizing number with
  | nil => exact .nil
  | cons entry entries ih =>
      obtain ⟨first, later⟩ := List.forall_mem_cons.mp free
      have count : EscapeFree (padLeft 4 (Nat.repr number)) :=
        escapeFree_padLeft 4 (escapeFree_repr number)
      have space : EscapeFree " " := by decide
      have marker : Colors (if entry.isError then (t.withColor true).paint .error "!" else " ")
          (if entry.isError then (t.withColor false).paint .error "!" else " ") := by
        split
        · exact colors_paint_paint .error (by decide) lawful
        · exact colors_free space
      exact .cons ((((colors_free count).append marker).append (colors_free space)).append
        (colors_free first.command)) (ih later (number + 1))

theorem colors_history {entries : List Entry} (free : ∀ entry ∈ entries, entry.IsEscapeFree) :
    Colors ((t.withColor true).history entries) ((t.withColor false).history entries) := by
  unfold history
  split
  · exact colors_free (by decide)
  · exact colors_joinWith (by decide) (colors_historyLines lawful free 1)

theorem colors_choiceLines {commands : List String}
    (free : ∀ command ∈ commands, EscapeFree command) (number : Nat) :
    List.Forall₂ Colors ((t.withColor true).choiceLines number commands)
      ((t.withColor false).choiceLines number commands) := by
  induction commands generalizing number with
  | nil => exact .nil
  | cons command commands ih =>
      obtain ⟨first, later⟩ := List.forall_mem_cons.mp free
      have count : EscapeFree ("[" ++ Nat.repr number ++ "]") :=
        escapeFree_append (escapeFree_append (by decide) (escapeFree_repr number)) (by decide)
      have indent : EscapeFree "  " := by decide
      have space : EscapeFree " " := by decide
      exact .cons ((((colors_free indent).append (colors_paint_paint .accent count lawful)).append
        (colors_free space)).append (colors_free first)) (ih later (number + 1))

end Renderers

/-- Colour never changes what a terminal shows, whatever painter it has. With texts that hold no escape character, the
prompt, the output of an entry, a whole entry, a transcript, its history, a list of commands and a
note show in colour, without the colour sequences, exactly what they show without colour; each has
as many sequences that reset a tone as sequences that open one, and every tone is reset before
another one is opened. -/
theorem color_never_changes_text (t : Terminal) (lawful : t.painter.Lawful)
    (clean : t.IsEscapeFree) :
    IsColoringOf (t.withColor true).prompt (t.withColor false).prompt ∧
    (∀ entry : Entry, entry.IsEscapeFree →
      Option.Rel IsColoringOf ((t.withColor true).output? entry)
        ((t.withColor false).output? entry) ∧
      IsColoringOf ((t.withColor true).entry entry) ((t.withColor false).entry entry)) ∧
    (∀ entries : List Entry, (∀ entry ∈ entries, entry.IsEscapeFree) →
      IsColoringOf ((t.withColor true).transcript entries)
        ((t.withColor false).transcript entries) ∧
      IsColoringOf ((t.withColor true).history entries) ((t.withColor false).history entries)) ∧
    (∀ commands : List String, (∀ command ∈ commands, EscapeFree command) →
      IsColoringOf ((t.withColor true).choices commands) ((t.withColor false).choices commands)) ∧
    ∀ text : String, EscapeFree text →
      IsColoringOf ((t.withColor true).note text) ((t.withColor false).note text) := by
  refine ⟨(colors_prompt lawful clean).isColoringOf, fun entry free => ⟨?_, ?_⟩,
    fun entries free => ⟨?_, ?_⟩, fun commands free => ?_, fun text free => ?_⟩
  · exact rel_isColoringOf (colors_output lawful free)
  · exact (colors_entry lawful clean free).isColoringOf
  · exact (colors_transcript lawful clean free).isColoringOf
  · exact (colors_history lawful free).isColoringOf
  · exact (colors_joinWith (by decide) (colors_choiceLines lawful free 1)).isColoringOf
  · exact (colors_paint_paint .muted free lawful).isColoringOf

/-- Texts with brackets and codes of their own, an entry without output, and empty texts. -/
theorem color_never_changes_text_brackets :
    let t : Terminal := ⟨⟨"ada", "lab", "[31m", true⟩, .standard⟩
    let entries : List Entry := [⟨"# [0m", "", false⟩, ⟨"git 1;32m", "[0m[", true⟩]
    IsColoringOf ((t.withColor true).transcript entries)
        "# [0m\nada@lab:[31m$ git 1;32m\n[0m[" ∧
      IsColoringOf ((t.withColor true).history entries) "   1  # [0m\n   2! git 1;32m" ∧
      IsColoringOf ((t.withColor true).choices ["[m", ""]) "  [1] [m\n  [2] " ∧
      IsColoringOf ((t.withColor true).note "") "" := by
  intro t entries
  have clean : t.IsEscapeFree := ⟨by decide, by decide, by decide⟩
  have free : ∀ entry ∈ entries, entry.IsEscapeFree :=
    List.forall_mem_cons.mpr ⟨⟨by decide, by decide⟩,
      List.forall_mem_singleton.mpr ⟨by decide, by decide⟩⟩
  obtain ⟨_, _, whole, choices, note⟩ := color_never_changes_text t Painter.lawful_standard clean
  exact ⟨(whole entries free).1, (whole entries free).2, choices _ (by decide), note _ (by decide)⟩

end Terminal

end GitTutor
