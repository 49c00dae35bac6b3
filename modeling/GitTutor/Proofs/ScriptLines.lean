import GitTutor.Proofs.ScriptShell
import GitTutor.Proofs.Words
import Mathlib.Logic.Relation

/-!
# Lines of a script

The command lines of a text are those in front of a line feed and then those behind it. A blank
where a line begins or ends belongs to no command line, whether it is a line feed, the carriage
return in front of one or any other, and a blank or commented line has none. So a text may be
respaced line by line without a change of its command lines.
-/

namespace GitTutor

open Text

namespace Text

theorem mem_of_mem_trim {c : Char} {cs : List Char} (h : c ∈ trim cs) : c ∈ cs :=
  (List.dropWhile_sublist isBlank).subset ((List.rdropWhile_prefix isBlank _).subset h)

theorem trim_cons {b : Char} (blank : isBlank b = true) (cs : List Char) :
    trim (b :: cs) = trim cs := by
  rw [trim, trim, List.dropWhile_cons_of_pos blank]

/-- A text with a line feed ends with a line behind the last one. -/
theorem exists_last_line {text : List Char} (feed : '\n' ∈ text) :
    ∃ front line, text = front ++ '\n' :: line ∧ '\n' ∉ line := by
  obtain ⟨line, front, whole, free⟩ := List.eq_append_cons_of_mem (List.mem_reverse.mpr feed)
  refine ⟨front.reverse, line.reverse, ?_, fun h => free (List.mem_reverse.mp h)⟩
  rw [← List.reverse_reverse text, whole]
  simp

end Text

namespace Script

/-- The command lines of a text are those of its pieces between line feeds. -/
theorem commandLines_eq_pieces (text : List Char) :
    commandLines text = ((pieces (· == '\n') text).map trim).filter isCommandLine := by
  rw [commandLines_eq]
  by_cases feed : '\n' ∈ text
  · obtain ⟨front, rest, whole, free⟩ := List.eq_append_cons_of_mem feed
    have shorter : rest.length < text.length := by
      rw [whole, List.length_append, List.length_cons]
      omega
    have later := commandLines_eq_pieces rest
    rw [commandLines_eq] at later
    -- A segment keeps the line feed that ends it and a piece does not; trimming makes them equal.
    rw [whole, segments_append_cons (passes_of_free free) rfl, pieces_append_cons front rfl,
      pieces_of_free (passes_of_free free), List.map_cons, trim_concat (by decide), List.map_append,
      List.filter_append, ← later, ← List.filter_append]
    rfl
  · rw [pieces_of_free (passes_of_free feed)]
    by_cases none : text = []
    · rw [none]
      rfl
    · rw [segments_of_pass none (passes_of_free feed)]
termination_by text.length

/-- A line feed keeps the command lines in front of it apart from those behind it. -/
theorem commandLines_append_feed (front back : List Char) :
    commandLines (front ++ '\n' :: back) = commandLines front ++ commandLines back := by
  simp only [commandLines_eq_pieces]
  rw [pieces_append_cons front rfl, List.map_append, List.filter_append]

/-- A text without a line feed has at most one command line. -/
theorem commandLines_of_free {line : List Char} (free : '\n' ∉ line) :
    commandLines line = [trim line].filter isCommandLine := by
  rw [commandLines_eq_pieces, pieces_of_free (passes_of_free free), List.map_singleton]

/-- A blank in front of a text belongs to no command line. -/
theorem commandLines_cons_blank {b : Char} (blank : isBlank b = true) (back : List Char) :
    commandLines (b :: back) = commandLines back := by
  rw [commandLines_eq_pieces, commandLines_eq_pieces, pieces]
  split
  · rfl
  · cases found : pieces (· == '\n') back with
    | nil => exact absurd found (pieces_ne_nil _ back)
    | cons piece others => rw [attach, List.map_cons, List.map_cons, trim_cons blank]

/-- A blank at the end of a text belongs to no command line. -/
theorem commandLines_concat_blank {b : Char} (blank : isBlank b = true) (front : List Char) :
    commandLines (front ++ [b]) = commandLines front := by
  by_cases feed : b = '\n'
  · subst feed
    rw [commandLines_append_feed]
    exact List.append_nil _
  · -- Only the last line is another one, and it is trimmed at the end.
    have last : ∀ line : List Char, '\n' ∉ line →
        commandLines (line ++ [b]) = commandLines line := by
      intro line free
      rw [commandLines_of_free free, commandLines_of_free, trim_concat blank]
      rw [List.mem_append, List.mem_singleton]
      rintro (within | same)
      · exact free within
      · exact feed same.symm
    by_cases lines : '\n' ∈ front
    · obtain ⟨earlier, line, rfl, free⟩ := exists_last_line lines
      rw [List.append_assoc, List.cons_append, commandLines_append_feed, commandLines_append_feed,
        last line free]
    · exact last front lines

section Blanks

variable {blanks : List Char} (blank : ∀ c ∈ blanks, isBlank c = true)
include blank

theorem commandLines_blanks_append (back : List Char) :
    commandLines (blanks ++ back) = commandLines back := by
  induction blanks with
  | nil => rfl
  | cons b blanks ih =>
      obtain ⟨first, later⟩ := List.forall_mem_cons.mp blank
      rw [List.cons_append, commandLines_cons_blank first, ih later]

theorem commandLines_append_blanks (front : List Char) :
    commandLines (front ++ blanks) = commandLines front := by
  induction blanks generalizing front with
  | nil => rw [List.append_nil]
  | cons b blanks ih =>
      obtain ⟨first, later⟩ := List.forall_mem_cons.mp blank
      rw [← List.singleton_append, ← List.append_assoc, ih later, commandLines_concat_blank first]

end Blanks

theorem isCommandLine_iff {line : List Char} :
    isCommandLine line = true ↔ line ≠ [] ∧ line.head? ≠ some '#' := by
  cases line with
  | nil => simp [isCommandLine]
  | cons c rest => simp [isCommandLine]

/-- What every command line is like. -/
theorem of_mem_commandLines {text line : List Char} (h : line ∈ commandLines text) :
    isCommandLine line = true ∧ trim line = line ∧ '\n' ∉ line := by
  rw [commandLines_eq_pieces] at h
  obtain ⟨trims, kept⟩ := List.mem_filter.mp h
  obtain ⟨piece, found, rfl⟩ := List.mem_map.mp trims
  refine ⟨kept, trim_trim piece, fun feed => ?_⟩
  have stops := free_of_mem_pieces found _ (mem_of_mem_trim feed)
  cases stops

/-- A line feed keeps the lines of the text in front of it apart from those of the text behind
it. -/
theorem lines_append_feed (front back : String) :
    lines (front ++ "\n" ++ back) = lines front ++ lines back := by
  have shape : (front ++ "\n" ++ back).toList = front.toList ++ '\n' :: back.toList := by simp
  rw [lines, shape, commandLines_append_feed, List.map_append]
  rfl

theorem isCommandLine_trim_iff {line : String} : isCommandLine (trim line.toList) = true ↔
    ¬(trimmed line = "" ∨ (trimmed line).toList.head? = some '#') := by
  rw [isCommandLine_iff, trimmed, String.toList_ofList, not_or, ne_eq, ne_eq,
    String.ofList_eq_empty_iff]

/-- A text without a line feed is one command line, without the blanks around it, unless it is
blank or a comment. -/
theorem lines_of_free {line : String} (free : '\n' ∉ line.toList) :
    lines line = if trimmed line = "" ∨ (trimmed line).toList.head? = some '#' then []
      else [trimmed line] := by
  rw [lines, commandLines_of_free free]
  by_cases command : isCommandLine (trim line.toList) = true
  · rw [List.filter_cons_of_pos command, if_neg (isCommandLine_trim_iff.mp command)]
    rfl
  · have idle := not_not.mp (mt isCommandLine_trim_iff.mpr command)
    rw [List.filter_cons_of_neg command, if_pos idle]
    rfl

/-- What every line of a script is like. -/
theorem of_mem_lines {text line : String} (h : line ∈ lines text) :
    line ≠ "" ∧ trimmed line = line ∧ line.toList.head? ≠ some '#' ∧ '\n' ∉ line.toList := by
  obtain ⟨cs, found, rfl⟩ := List.mem_map.mp h
  obtain ⟨command, trims, free⟩ := of_mem_commandLines found
  obtain ⟨some, noComment⟩ := isCommandLine_iff.mp command
  rw [trimmed_ofList, trims, String.toList_ofList]
  exact ⟨fun empty => some (String.ofList_eq_empty_iff.mp empty), rfl, noComment, free⟩

/-- Lines that could each be one of a script are the lines of the script that they make. -/
theorem lines_joined {texts : List String} (alone : ∀ text ∈ texts, lines text = [text]) :
    lines (joinWith "\n" texts) = texts := by
  induction texts with
  | nil => rfl
  | cons text rest ih =>
      obtain ⟨first, later⟩ := List.forall_mem_cons.mp alone
      cases rest with
      | nil => exact first
      | cons second rest => rw [joinWith, lines_append_feed, first, ih later, List.singleton_append]

theorem lines_of_mem_lines {text line : String} (h : line ∈ lines text) : lines line = [line] := by
  obtain ⟨some, trims, noComment, free⟩ := of_mem_lines h
  rw [lines_of_free free, trims, if_neg (not_or.mpr ⟨some, noComment⟩)]

/-- A text behind which a line begins. -/
def BeginsLine (front : String) : Prop :=
  front = "" ∨ ∃ text, front = text ++ "\n"

/-- A text in front of which a line ends. -/
def EndsLine (back : String) : Prop :=
  back = "" ∨ (∃ text, back = "\n" ++ text) ∨ ∃ text, back = "\r\n" ++ text

/-- A line that is blank or a comment. -/
structure IsIdle (line : String) : Prop where
  whole : '\n' ∉ line.toList
  idle : trimmed line = "" ∨ (trimmed line).toList.head? = some '#'

/-- Changes of a text that no script notices: a carriage return in front of a line feed, blanks
where a line begins or ends, and an idle line in front of another line or behind it. -/
inductive Retouch : String → String → Prop
  | carriage (front back : String) : Retouch (front ++ "\n" ++ back) (front ++ "\r\n" ++ back)
  | blanks {front blanks back : String} (place : BeginsLine front ∨ EndsLine back)
      (blank : ∀ c ∈ blanks.toList, isBlank c = true ∧ c ≠ '\n') :
      Retouch (front ++ back) (front ++ blanks ++ back)
  | lineBefore {front line : String} (place : BeginsLine front) (idle : IsIdle line)
      (back : String) : Retouch (front ++ back) (front ++ line ++ "\n" ++ back)
  | lineBehind (front : String) {line back : String} (idle : IsIdle line)
      (place : EndsLine back) : Retouch (front ++ back) (front ++ "\n" ++ line ++ back)

theorem lines_empty : lines "" = [] := rfl

theorem lines_blanks_append {blanks : String} (blank : ∀ c ∈ blanks.toList, isBlank c = true)
    (back : String) : lines (blanks ++ back) = lines back := by
  rw [lines, String.toList_append, commandLines_blanks_append blank, lines]

theorem lines_append_blanks {blanks : String} (blank : ∀ c ∈ blanks.toList, isBlank c = true)
    (front : String) : lines (front ++ blanks) = lines front := by
  rw [lines, String.toList_append, commandLines_append_blanks blank, lines]

/-- A carriage return in front of a line feed belongs to no line. -/
theorem lines_append_returnFeed (front back : String) :
    lines (front ++ "\r\n" ++ back) = lines front ++ lines back := by
  have cut : front ++ "\r\n" ++ back = front ++ "\r" ++ "\n" ++ back := by
    simp only [String.append_assoc]
    rfl
  have blank : ∀ c ∈ "\r".toList, isBlank c = true := List.all_eq_true.mp (by decide)
  rw [cut, lines_append_feed, lines_append_blanks blank]

theorem IsIdle.lines_eq {line : String} (h : IsIdle line) : lines line = [] := by
  rw [lines_of_free h.whole, if_pos h.idle]

theorem BeginsLine.lines_append {front : String} (h : BeginsLine front) (back : String) :
    lines (front ++ back) = lines front ++ lines back := by
  rcases h with rfl | ⟨text, rfl⟩
  · rw [String.empty_append, lines_empty, List.nil_append]
  · have ended := lines_append_feed text ""
    rw [String.append_empty, lines_empty, List.append_nil] at ended
    rw [lines_append_feed, ended]

theorem EndsLine.lines_append {back : String} (h : EndsLine back) (front : String) :
    lines (front ++ back) = lines front ++ lines back := by
  rcases h with rfl | ⟨text, rfl⟩ | ⟨text, rfl⟩
  · rw [String.append_empty, lines_empty, List.append_nil]
  · have begun := lines_append_feed "" text
    rw [String.empty_append, lines_empty, List.nil_append] at begun
    rw [← String.append_assoc, lines_append_feed, begun]
  · have begun := lines_append_returnFeed "" text
    rw [String.empty_append, lines_empty, List.nil_append] at begun
    rw [← String.append_assoc, lines_append_returnFeed, begun]

/-- A retouched text has the same lines. -/
theorem Retouch.lines_eq {text text' : String} (h : Retouch text text') :
    lines text' = lines text := by
  cases h with
  | carriage front back => rw [lines_append_feed, lines_append_returnFeed]
  | @blanks front blanks back place blank =>
      have blank := fun c h => (blank c h).1
      rcases place with begins | ends
      · rw [String.append_assoc, begins.lines_append, begins.lines_append,
          lines_blanks_append blank]
      · rw [ends.lines_append, ends.lines_append, lines_append_blanks blank]
  | @lineBefore front line place idle back =>
      rw [lines_append_feed, place.lines_append, place.lines_append, idle.lines_eq, List.append_nil]
  | @lineBehind front line back idle place =>
      rw [place.lines_append, place.lines_append, lines_append_feed, idle.lines_eq, List.append_nil]

/-- How a script is cut into command lines. A line feed keeps what is in front of it apart from
what is behind it, and a text without one is a single command line, without the blanks around it,
unless it is blank or a comment. So every line is trimmed, not empty, no comment and on one line,
the lines of a script are a script with the same lines, and any number of retouches leaves them
as they are. -/
theorem script_lines_extracted (a b : String) :
    lines (a ++ "\n" ++ b) = lines a ++ lines b ∧
    ('\n' ∉ a.toList → lines a =
      if trimmed a = "" ∨ (trimmed a).toList.head? = some '#' then [] else [trimmed a]) ∧
    (∀ line ∈ lines a,
      line ≠ "" ∧ trimmed line = line ∧ line.toList.head? ≠ some '#' ∧ '\n' ∉ line.toList) ∧
    lines ("\n".intercalate (lines a)) = lines a ∧
    ∀ a', Relation.ReflTransGen Retouch a a' → lines a' = lines a := by
  refine ⟨lines_append_feed a b, lines_of_free, fun line => of_mem_lines, ?_,
    fun a' retouched => ?_⟩
  · rw [← joinWith_eq_intercalate]
    exact lines_joined fun line => lines_of_mem_lines
  · induction retouched with
    | refl => rfl
    | tail _ last ih => rw [last.lines_eq, ih]

/-- A comment behind a blank, a carriage return at the end of a line, and blanks of other kinds at
either end of the text. -/
theorem script_lines_extracted_retouched :
    lines "git status\ngit log" = ["git status", "git log"] ∧
      lines "\t# first\n\u3000git status\r\ngit log\r" = ["git status", "git log"] ∧
      lines "\t# first" = [] := by
  obtain ⟨cut, one, _, _, _⟩ := script_lines_extracted "git status" "git log"
  obtain ⟨_, last, _, _, _⟩ := script_lines_extracted "git log" ""
  obtain ⟨_, _, _, _, kept⟩ := script_lines_extracted "git status\ngit log" ""
  obtain ⟨_, comment, _, _, _⟩ := script_lines_extracted "\t# first" ""
  have plain : lines "git status\ngit log" = ["git status", "git log"] := by
    refine cut.trans ?_
    rw [one (by decide), last (by decide)]
    decide
  refine ⟨plain, (kept _ ?_).trans plain, (comment (by decide)).trans (by decide)⟩
  have wide : ∀ c ∈ "\u3000".toList, isBlank c = true ∧ c ≠ '\n' :=
    List.forall_mem_singleton.mpr ⟨by decide, by decide⟩
  have back : ∀ c ∈ "\r".toList, isBlank c = true ∧ c ≠ '\n' :=
    List.forall_mem_singleton.mpr ⟨by decide, by decide⟩
  calc Relation.ReflTransGen Retouch "git status\ngit log" "git status\r\ngit log" :=
        .single (.carriage "git status" "git log")
    Relation.ReflTransGen Retouch _ "\u3000git status\r\ngit log" :=
        .single (@Retouch.blanks "" "\u3000" "git status\r\ngit log" (.inl (.inl rfl)) wide)
    Relation.ReflTransGen Retouch _ "\u3000git status\r\ngit log\r" :=
        .single (@Retouch.blanks "\u3000git status\r\ngit log" "\r" "" (.inr (.inl rfl)) back)
    Relation.ReflTransGen Retouch _ "\t# first\n\u3000git status\r\ngit log\r" :=
        .single (@Retouch.lineBefore "" "\t# first" (.inl rfl) ⟨by decide, by decide⟩
          "\u3000git status\r\ngit log\r")

end Script

end GitTutor
