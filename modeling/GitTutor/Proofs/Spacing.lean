import GitTutor.Proofs.Transcript
import GitTutor.Proofs.Words
import Mathlib.Data.List.Chain

/-!
# Spacing of lines

A layout is a way to write words on a line: blanks in front, and behind each word a gap of
blanks, which may only be missing at the end. Every line is a layout of its words and of no
others. A line counts only through its words, so sessions whose lines are spaced in different
ways stay equal up to the lines that their transcripts show.
-/

namespace GitTutor

namespace Text

section Gaps

variable {lead gap word back : List Char}

/-- Blanks in front of a text do not change its words. -/
theorem words_blanks_append (blanks : ∀ c ∈ lead, isBlank c = true) :
    words (lead ++ back) = words back := by
  induction lead with
  | nil => rfl
  | cons c lead ih =>
      rw [List.cons_append, words_blank (blanks c List.mem_cons_self),
        ih fun d h => blanks d (List.mem_cons_of_mem c h)]

/-- A word and the gap behind it are the first word of a text. -/
theorem words_word_append (isWord : IsWord word) (blanks : ∀ c ∈ gap, isBlank c = true)
    (apart : back ≠ [] → gap ≠ []) : words (word ++ gap ++ back) = word :: words back := by
  cases gap with
  | nil =>
      have last : back = [] := by
        by_contra more
        exact apart more rfl
      rw [last, List.append_nil, List.append_nil, words_of_isWord isWord]
      rfl
  | cons b gap =>
      rw [List.append_assoc, List.cons_append, words_append_cons word (blanks b List.mem_cons_self),
        words_of_isWord isWord, words_blanks_append fun d h => blanks d (List.mem_cons_of_mem b h)]
      rfl

end Gaps

/-- A way to write words on a line: the blanks in front, and each word with the gap behind it,
which is not empty if another word follows. -/
structure Layout where
  lead : List Char
  parts : List (List Char × List Char)
  lead_blank : ∀ c ∈ lead, isBlank c = true
  isWord : ∀ part ∈ parts, IsWord part.1
  gap_blank : ∀ part ∈ parts, ∀ c ∈ part.2, isBlank c = true
  apart : parts.IsChain fun part _ => part.2 ≠ []

namespace Layout

/-- The characters of words with the gaps behind them. -/
def body (parts : List (List Char × List Char)) : List Char :=
  parts.flatMap fun part => part.1 ++ part.2

def chars (l : Layout) : List Char :=
  l.lead ++ body l.parts

/-- The line that a layout writes. -/
def line (l : Layout) : String :=
  String.ofList l.chars

/-- The words that a layout writes. -/
def texts (l : Layout) : List String :=
  l.parts.map fun part => String.ofList part.1

theorem words_body {parts : List (List Char × List Char)} (isWord : ∀ part ∈ parts, IsWord part.1)
    (blanks : ∀ part ∈ parts, ∀ c ∈ part.2, isBlank c = true)
    (apart : parts.IsChain fun part _ => part.2 ≠ []) :
    words (body parts) = parts.map Prod.fst := by
  induction parts with
  | nil => rfl
  | cons part rest ih =>
      have later := ih (fun p h => isWord p (List.mem_cons_of_mem part h))
        (fun p h => blanks p (List.mem_cons_of_mem part h)) apart.tail
      have gap : body rest ≠ [] → part.2 ≠ [] := by
        intro more
        cases rest with
        | nil => exact absurd rfl more
        | cons next rest => exact (List.isChain_cons_cons.mp apart).1
      have first := words_word_append (isWord part List.mem_cons_self)
        (blanks part List.mem_cons_self) gap
      rw [later] at first
      exact first

/-- The words of a line that a layout writes are the words of the layout. -/
theorem wordsOf_line (l : Layout) : wordsOf l.line = l.texts := by
  rw [wordsOf, line, String.toList_ofList, chars, words_blanks_append l.lead_blank,
    words_body l.isWord l.gap_blank l.apart, List.map_map]
  rfl

/-- The layout of an empty line. -/
def empty : Layout where
  lead := []
  parts := []
  lead_blank := by simp
  isWord := by simp
  gap_blank := by simp
  apart := .nil

/-- A blank in front of everything. -/
def indent (l : Layout) {c : Char} (blank : isBlank c = true) : Layout :=
  { l with
    lead := c :: l.lead
    lead_blank := List.forall_mem_cons.mpr ⟨blank, l.lead_blank⟩ }

end Layout

theorem isWord_cons {c : Char} {cs : List Char} (solid : isBlank c = false)
    (rest : ∀ d ∈ cs, isBlank d = false) : IsWord (c :: cs) :=
  ⟨List.cons_ne_nil c cs, List.forall_mem_cons.mpr ⟨solid, rest⟩⟩

/-- Every text is written by a layout. -/
theorem exists_layout (cs : List Char) : ∃ l : Layout, l.chars = cs := by
  induction cs with
  | nil => exact ⟨Layout.empty, rfl⟩
  | cons c cs ih =>
      obtain ⟨l, rfl⟩ := ih
      by_cases blank : isBlank c = true
      · exact ⟨l.indent blank, rfl⟩
      · have solid : isBlank c = false := Bool.eq_false_iff.mpr blank
        obtain ⟨lead, parts, lead_blank, isWord, gap_blank, apart⟩ := l
        -- The character starts a word of its own, unless one begins right behind it.
        by_cases touches : lead = [] ∧ parts ≠ []
        · obtain ⟨rfl, some⟩ := touches
          obtain ⟨⟨word, gap⟩, rest, rfl⟩ := List.exists_cons_of_ne_nil some
          rw [List.forall_mem_cons] at isWord gap_blank
          refine ⟨⟨[], (c :: word, gap) :: rest, lead_blank, ?_, ?_, ?_⟩, rfl⟩
          · exact List.forall_mem_cons.mpr ⟨isWord_cons solid isWord.1.2, isWord.2⟩
          · exact List.forall_mem_cons.mpr gap_blank
          · cases rest with
            | nil => exact .singleton _
            | cons next rest => exact List.isChain_cons_cons.mpr (List.isChain_cons_cons.mp apart)
        · refine ⟨⟨[], ([c], lead) :: parts, by simp, ?_, ?_, ?_⟩, rfl⟩
          · exact List.forall_mem_cons.mpr ⟨isWord_cons solid (by simp), isWord⟩
          · exact List.forall_mem_cons.mpr ⟨lead_blank, gap_blank⟩
          · cases parts with
            | nil => exact .singleton _
            | cons next rest =>
                refine List.isChain_cons_cons.mpr ⟨fun none => ?_, apart⟩
                exact touches ⟨none, List.cons_ne_nil next rest⟩

/-- Every line is a layout of its words. -/
theorem exists_layout_line (line : String) :
    ∃ l : Layout, l.line = line ∧ l.texts = wordsOf line := by
  obtain ⟨l, written⟩ := exists_layout line.toList
  have same : l.line = line := by rw [Layout.line, written, String.ofList_toList]
  exact ⟨l, same, by rw [← same, Layout.wordsOf_line]⟩

theorem wordsOf_intercalate_wordsOf (line : String) :
    wordsOf (" ".intercalate (wordsOf line)) = wordsOf line := by
  rw [← joinWith_eq_intercalate, wordsOf_joinWith fun w => isWord_of_mem_wordsOf]

end Text

open Text

/-- Entries that differ at most in the spacing of the line that they show. -/
structure Entry.Respells (entry other : Entry) : Prop where
  command : wordsOf other.command = wordsOf entry.command
  output : other.output = entry.output
  isError : other.isError = entry.isError

theorem Entry.Respells.refl (entry : Entry) : entry.Respells entry :=
  ⟨rfl, rfl, rfl⟩

namespace Session

section Parts

variable {σ : Type}

/-- Steps that differ at most in the spacing of the line that they execute. -/
inductive Step.Respells : Step → Step → Prop
  | execute {line other : String} (same : wordsOf other = wordsOf line) :
      Respells (.execute line) (.execute other)
  | touch (name : Option String) : Respells (.touch name) (.touch name)
  | clear : Respells .clear .clear

/-- Sessions that differ at most in the spacing of the lines in their transcripts. -/
structure Respells (s t : Session σ) : Prop where
  same : t = s.withTranscript t.transcript
  entries : List.Forall₂ Entry.Respells s.transcript t.transcript

namespace Respells

variable {s t : Session σ}

theorem refl (s : Session σ) : s.Respells s :=
  ⟨rfl, List.forall₂_same.mpr fun entry _ => .refl entry⟩

theorem note (h : s.Respells t) {entry other : Entry} (shown : entry.Respells other) :
    (s.note entry).Respells (t.note other) := by
  obtain ⟨same, entries⟩ := h
  rw [same]
  exact ⟨rfl, List.rel_append entries (.cons shown .nil)⟩

theorem settle (h : s.Respells t) (effect : Effect σ) :
    (s.settle effect).Respells (t.settle effect) := by
  obtain ⟨same, entries⟩ := h
  rw [same]
  exact ⟨rfl, entries⟩

end Respells

end Parts

variable {σ : Type} [Entropy σ]

/-- What a line comes to depends on its words alone. -/
theorem answer_congr (s : Session σ) {line other : String} (same : wordsOf other = wordsOf line) :
    s.answer (trimmed other) = s.answer (trimmed line) := by
  simp only [answer, Command.ofLine, wordsOf_trimmed, same]

/-- A line may be spaced in another way. -/
theorem execute_respelled (s : Session σ) {line other : String}
    (same : wordsOf other = wordsOf line) : ∃ output isError,
      (s.execute line).transcript = s.transcript ++ [⟨trimmed line, output, isError⟩] ∧
      s.execute other =
        { s.execute line with
          transcript := s.transcript ++ [⟨trimmed other, output, isError⟩] } := by
  rw [execute_eq, execute_eq, answer_congr s same]
  cases s.answer (trimmed line) with
  | error cause => exact ⟨cause.message, true, rfl, rfl⟩
  | ok effect => exact ⟨effect.1.2, false, rfl, rfl⟩

namespace Respells

variable {s t : Session σ}

theorem execute (h : s.Respells t) {line other : String} (same : wordsOf other = wordsOf line) :
    (s.execute line).Respells (t.execute other) := by
  have answered : t.answer (trimmed other) = s.answer (trimmed line) := by
    rw [answer_congr t same, h.same, answer_withTranscript]
  have shown : wordsOf (trimmed other) = wordsOf (trimmed line) := by
    rw [wordsOf_trimmed, wordsOf_trimmed, same]
  rw [execute_eq, execute_eq, answered]
  cases s.answer (trimmed line) with
  | error cause => exact h.note ⟨shown, rfl, rfl⟩
  | ok effect => exact (h.settle effect).note ⟨shown, rfl, rfl⟩

theorem touch (h : s.Respells t) (name : Option String) :
    (s.touch name).Respells (t.touch name) := by
  let chosen := chooseFile s.entropy name
  let answer := s.repository.touch chosen.1
  have here : s.touch name =
      (s.settle (answer, chosen.2)).note ⟨touchCommand, answer.2, false⟩ := rfl
  have there : t.touch name =
      (t.settle (answer, chosen.2)).note ⟨touchCommand, answer.2, false⟩ := by
    rw [h.same]
    rfl
  rw [here, there]
  exact (h.settle (answer, chosen.2)).note (.refl _)

/-- Steps that differ in spacing at most keep sessions equal up to spacing. -/
theorem step (h : s.Respells t) {first second : Step} (steps : first.Respells second) :
    (s.step first).Respells (t.step second) := by
  cases steps with
  | execute same =>
      simp only [Session.step]
      exact h.execute same
  | touch name =>
      simp only [Session.step]
      exact h.touch name
  | clear =>
      obtain ⟨same, _⟩ := h
      rw [same]
      exact ⟨rfl, .nil⟩

/-- So do whole runs. -/
theorem run (h : s.Respells t) {steps others : List Step}
    (alike : List.Forall₂ Step.Respells steps others) : (s.run steps).Respells (t.run others) := by
  induction alike generalizing s t with
  | nil => exact h
  | cons first _ ih => exact ih (h.step first)

end Respells

/-- Spacing does not matter. A line has exactly the words of the layouts that write it, so words
with any blanks around and between them are read back, and the words of every line are free of
blanks, not empty and in the order of the line, and can be written with single spaces instead.
A line may be executed with other spacing: the repository, the source, the output and whether
it is an error are the same, and only the line that the transcript shows differs. So a whole
run may space its lines in another way. -/
theorem spacing_never_matters (s : Session σ) :
    (∀ line ws, wordsOf line = ws ↔ ∃ l : Layout, l.line = line ∧ l.texts = ws) ∧
    (∀ line, (∀ word ∈ wordsOf line, IsWord word.toList) ∧
      wordsOf (" ".intercalate (wordsOf line)) = wordsOf line) ∧
    (∀ line other, wordsOf other = wordsOf line → ∃ output isError,
      (s.execute line).transcript = s.transcript ++ [⟨trimmed line, output, isError⟩] ∧
      s.execute other =
        { s.execute line with
          transcript := s.transcript ++ [⟨trimmed other, output, isError⟩] }) ∧
    ∀ steps others, List.Forall₂ Step.Respells steps others →
      (s.run others).repository = (s.run steps).repository ∧
      (s.run others).entropy = (s.run steps).entropy ∧
      List.Forall₂ Entry.Respells (s.run steps).transcript (s.run others).transcript := by
  refine ⟨fun line ws => ?_, fun line => ?_, fun line other same => ?_,
    fun steps others alike => ?_⟩
  · constructor
    · rintro rfl
      exact exists_layout_line line
    · rintro ⟨l, rfl, rfl⟩
      exact l.wordsOf_line
  · exact ⟨fun word => isWord_of_mem_wordsOf, wordsOf_intercalate_wordsOf line⟩
  · exact execute_respelled s same
  · obtain ⟨same, entries⟩ := (Respells.refl s).run alike
    rw [same]
    exact ⟨rfl, rfl, entries⟩

/-- A message is recorded with single spaces between its words, whatever blanks the line has. -/
theorem spacing_never_matters_stash :
    let s := start Settings.standard Counter.zero
    let line := "git stash push \"half done\""
    let other := "\u3000git\tstash \u2028 push \"half\u00a0\u00a0done\"\u0085"
    wordsOf other = wordsOf line ∧
      (s.run [.touch (some "a.txt"), .execute other]).repository.stash =
        [⟨"half done", ["a.txt"], "main"⟩] := by
  intro s line other
  have same : wordsOf other = wordsOf line := by decide
  refine ⟨same, ?_⟩
  obtain ⟨_, _, _, runs⟩ := spacing_never_matters s
  have alike : List.Forall₂ Step.Respells [.touch (some "a.txt"), .execute line]
      [.touch (some "a.txt"), .execute other] := .cons (.touch _) (.cons (.execute same) .nil)
  rw [(runs _ _ alike).1]
  decide +kernel

end Session

end GitTutor
