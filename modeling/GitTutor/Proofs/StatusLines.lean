import GitTutor.Proofs.TidyText
import GitTutor.Text.Lead

/-!
# Lines of the status

The status is a text of lines: the current branch, and then a section for the staged files and
one for the modified files, or the notice that there are none. No line of a file is a heading,
so from the lines the branch and both lists can be read back, and states that print the same
status agree in all of them.
-/

namespace GitTutor

open Repository Text

/-- The branch that is checked out, the staged and the modified files have words as their names. -/
structure Repository.NamedByWords (r : Repository) : Prop where
  current : IsWord r.current.toList
  staged : AllWords r.staged
  modified : AllWords r.modified

theorem Repository.Tidy.namedByWords {seed : Commit} {r : Repository} (tidy : r.Tidy)
    (w : r.WellFormed seed) : r.NamedByWords where
  current := tidy.branches _ w.current_mem
  staged := tidy.staged
  modified := tidy.modified

section Ends

/-- Lines with a line break behind each of them. -/
def ended (lines : List String) : String :=
  String.join (lines.map (· ++ "\n"))

theorem ended_append (front back : List String) :
    ended (front ++ back) = ended front ++ ended back := by
  rw [ended, List.map_append, String.join_append, ended, ended]

theorem ended_cons (line : String) (rest : List String) :
    ended (line :: rest) = line ++ "\n" ++ ended rest :=
  String.join_cons

/-- Line breaks behind all lines are line breaks between them and one at the end. -/
theorem ended_eq_joinWith {lines : List String} (given : lines ≠ []) :
    ended lines = joinWith "\n" lines ++ "\n" := by
  induction lines with
  | nil => exact absurd rfl given
  | cons line rest ih =>
      cases rest with
      | nil => simp [ended, joinWith, String.join_cons]
      | cons second rest =>
          calc ended (line :: second :: rest)
            _ = line ++ "\n" ++ ended (second :: rest) := ended_cons line (second :: rest)
            _ = line ++ "\n" ++ joinWith "\n" (second :: rest) ++ "\n" := by
              rw [ih (List.cons_ne_nil second rest), ← String.append_assoc]
            _ = joinWith "\n" (line :: second :: rest) ++ "\n" := rfl

/-- A word at the end of a text is kept when the blanks behind it are dropped. -/
theorem trimmedEnd_word (front : String) {word : String} (h : IsWord word.toList) :
    trimmedEnd (front ++ word ++ "\n") = front ++ word := by
  obtain ⟨c, within⟩ := List.exists_mem_of_ne_nil _ h.1
  have shown : isBlank c = false := h.2 c within
  have last : isBlank (word.toList.getLast h.1) = false := h.2 _ (List.getLast_mem h.1)
  have kept : trimmedEnd (word ++ "\n") = word := by
    have feed : isBlank '\n' = true := by decide
    rw [trimmedEnd, String.toList_append, trimEnd, dropTrailing_eq_rdropWhile]
    change String.ofList (List.rdropWhile isBlank (word.toList ++ ['\n'])) = word
    rw [List.rdropWhile_concat_pos isBlank _ _ feed, List.rdropWhile_eq_self_iff.mpr,
      String.ofList_toList]
    intro _
    rw [last]
    exact Bool.false_ne_true
  rw [String.append_assoc, trimmedEnd_append front (c := c) _ shown, kept]
  rw [String.toList_append]
  exact List.mem_append_left _ within

end Ends

namespace Repository

variable {r : Repository}

/-- The heading of the staged files. -/
abbrev stagedHeading : String := "Changes to be committed:"

/-- The heading of the modified files. -/
abbrev modifiedHeading : String := "Changes not staged for commit:"

/-- What stands in front of the name on the line of a file. -/
abbrev fileMark : String := "  modified:   "

/-- The line of a file. -/
def fileLine (file : String) : String :=
  fileMark ++ file

/-- The lines of a section: an empty one, the heading and one for each file. Without files there
is no section. -/
def sectionLines (heading : String) (files : List String) : List String :=
  if files = [] then [] else "" :: heading :: files.map fileLine

theorem statusSection_eq (heading : String) (files : List String) :
    statusSection heading files = ended (sectionLines heading files) := by
  unfold statusSection sectionLines
  by_cases none : files = []
  · simp [none, ended]
  · simp [none, ended, String.join_cons, fileLine, Function.comp_def, String.append_assoc]

/-- The lines of the status. -/
def statusLines (r : Repository) : List String :=
  ("On branch " ++ r.current) ::
    if r.isClean then ["nothing to commit, working tree clean"]
    else sectionLines stagedHeading r.staged ++ sectionLines modifiedHeading r.modified

theorem isClean_iff : r.isClean = true ↔ r.staged = [] ∧ r.modified = [] := by
  rw [isClean, Bool.and_eq_true, List.isEmpty_iff, List.isEmpty_iff]

theorem statusLines_of_unclean (unclean : r.isClean = false) :
    r.statusLines = ("On branch " ++ r.current) ::
      (sectionLines stagedHeading r.staged ++ sectionLines modifiedHeading r.modified) := by
  rw [statusLines, if_neg (Bool.eq_false_iff.mp unclean)]

theorem sectionLines_concat (heading : String) (files : List String) (file : String) :
    sectionLines heading (files ++ [file]) =
      ("" :: heading :: files.map fileLine) ++ [fileLine file] := by
  simp [sectionLines]

/-- The lines of an unclean status end with that of a file. -/
theorem statusLines_eq_concat (named : r.NamedByWords) (unclean : r.isClean = false) :
    ∃ front file, r.statusLines = front ++ [fileLine file] ∧ front ≠ [] ∧ IsWord file.toList := by
  rw [statusLines_of_unclean unclean]
  rcases List.eq_nil_or_concat' r.modified with unmodified | ⟨files, file, shape⟩
  · rcases List.eq_nil_or_concat' r.staged with unstaged | ⟨files, file, shape⟩
    · rw [isClean_iff.mpr ⟨unstaged, unmodified⟩] at unclean
      cases unclean
    · refine ⟨("On branch " ++ r.current) :: "" :: stagedHeading :: files.map fileLine, file, ?_,
        List.cons_ne_nil _ _, ?_⟩
      · rw [shape, unmodified, sectionLines_concat]
        simp [sectionLines]
      · exact named.staged file (shape ▸ List.mem_append_right files List.mem_cons_self)
  · refine ⟨("On branch " ++ r.current) :: (sectionLines stagedHeading r.staged ++
      "" :: modifiedHeading :: files.map fileLine), file, ?_, List.cons_ne_nil _ _, ?_⟩
    · rw [shape, sectionLines_concat]
      simp
    · exact named.modified file (shape ▸ List.mem_append_right files List.mem_cons_self)

/-- An unclean status ends with the name of a file behind the mark of its line. -/
theorem statusReport_of_unclean (named : r.NamedByWords) (unclean : r.isClean = false) :
    r.statusReport = joinWith "\n" r.statusLines ∧
      ∃ front file, r.statusReport = front ++ fileMark ++ file ∧ IsWord file.toList := by
  obtain ⟨lines, file, shape, more, word⟩ := statusLines_eq_concat named unclean
  have joined : joinWith "\n" r.statusLines =
      joinWith "\n" lines ++ "\n" ++ fileMark ++ file := by
    rw [shape, joinWith_append "\n" more (List.cons_ne_nil _ _)]
    exact (String.append_assoc).symm
  have report : r.statusReport = joinWith "\n" r.statusLines := by
    calc r.statusReport
      _ = trimmedEnd (ended r.statusLines) := by
        rw [statusReport, if_neg (Bool.eq_false_iff.mp unclean), statusSection_eq,
          statusSection_eq, statusLines_of_unclean unclean, ended_cons, ended_append,
          String.append_assoc]
      _ = trimmedEnd (joinWith "\n" lines ++ "\n" ++ fileMark ++ file ++ "\n") := by
        rw [ended_eq_joinWith (by simp [statusLines]), joined]
      _ = joinWith "\n" r.statusLines := by rw [trimmedEnd_word _ word, joined]
  exact ⟨report, joinWith "\n" lines ++ "\n", file, report.trans joined, word⟩

/-- The status is made of its lines. -/
theorem statusReport_eq (named : r.NamedByWords) :
    r.statusReport = joinWith "\n" r.statusLines := by
  cases clean : r.isClean with
  | true =>
      rw [statusReport, statusLines, if_pos clean, if_pos clean]
      simp [joinWith]
  | false => exact (statusReport_of_unclean named clean).1

theorem of_mem_sectionLines {heading line : String} {files : List String}
    (h : line ∈ sectionLines heading files) :
    line = "" ∨ line = heading ∨ ∃ file ∈ files, fileLine file = line := by
  unfold sectionLines at h
  split at h
  · cases h
  · simpa only [List.mem_cons, List.mem_map] using h

theorem notMem_sectionLines {heading line : String} {files : List String}
    (title : '\n' ∉ heading.toList) (words : AllWords files)
    (h : line ∈ sectionLines heading files) : '\n' ∉ line.toList := by
  rcases of_mem_sectionLines h with rfl | rfl | ⟨file, known, rfl⟩
  · exact List.not_mem_nil
  · exact title
  · have whole := notMem_of_isWord (words file known)
    simp [fileLine, fileMark, whole]

/-- The lines of the status are the lines of its text. -/
theorem lines_statusReport (named : r.NamedByWords) :
    (pieces (· == '\n') r.statusReport.toList).map String.ofList = r.statusLines := by
  have whole : ∀ line ∈ r.statusLines, '\n' ∉ line.toList := by
    intro line h
    rcases List.mem_cons.mp h with rfl | h
    · have branch := notMem_of_isWord named.current
      simp [branch]
    · split at h
      · rw [List.mem_singleton.mp h]
        decide
      · rcases List.mem_append.mp h with h | h
        · exact notMem_sectionLines (by decide) named.staged h
        · exact notMem_sectionLines (by decide) named.modified h
  have shown : r.statusLines ≠ [] := List.cons_ne_nil _ _
  rw [statusReport_eq named, lines_joinWith shown whole, map_ofList_toList]

section Reading

/-- The text behind a lead, if the line starts with it. -/
def textBehind? (lead line : String) : Option String :=
  (dropLead? lead.toList line.toList).map String.ofList

theorem textBehind?_append (lead text : String) : textBehind? lead (lead ++ text) = some text := by
  have cut : dropLead? lead.toList (lead ++ text).toList = some text.toList := by
    rw [dropLead?_eq_some_iff, String.toList_append]
  rw [textBehind?, cut, Option.map_some, String.ofList_toList]

/-- The files that some lines of the status show. -/
def filesIn (lines : List String) : List String :=
  lines.filterMap (textBehind? fileMark)

theorem filesIn_append (front back : List String) :
    filesIn (front ++ back) = filesIn front ++ filesIn back :=
  List.filterMap_append

theorem filesIn_files (files : List String) : filesIn (files.map fileLine) = files := by
  have shown : textBehind? fileMark ∘ fileLine = some :=
    funext fun file => textBehind?_append _ file
  rw [filesIn, List.filterMap_map, shown, List.filterMap_some]

/-- The branch, the staged and the modified files, read back from the lines of a status: what
stands before the heading of the modified files shows the staged ones. -/
def statusOf (lines : List String) : Option String × List String × List String :=
  (lines.head?.bind (textBehind? "On branch "),
    filesIn (lines.takeWhile fun line => line != modifiedHeading),
    filesIn (lines.dropWhile fun line => line != modifiedHeading))

theorem headLine_ne_heading (name : String) : "On branch " ++ name ≠ modifiedHeading := by
  intro same
  have texts := congrArg String.toList same
  simp [modifiedHeading] at texts

theorem fileLine_ne_heading (file : String) : fileLine file ≠ modifiedHeading := by
  intro same
  have texts := congrArg String.toList same
  simp [fileLine, fileMark, modifiedHeading] at texts

theorem filesIn_sectionLines {heading : String}
    (other : textBehind? fileMark heading = none) (files : List String) :
    filesIn (sectionLines heading files) = files := by
  unfold sectionLines
  split
  · rename_i without
    rw [without]
    rfl
  · have empty : textBehind? fileMark "" = none := by decide
    calc filesIn ("" :: heading :: files.map fileLine)
      _ = filesIn (files.map fileLine) := by
        rw [filesIn, List.filterMap_cons_none empty, List.filterMap_cons_none other, filesIn]
      _ = files := filesIn_files files

theorem ne_heading_of_mem_staged {line : String} {files : List String}
    (h : line ∈ sectionLines stagedHeading files) :
    line ≠ modifiedHeading := by
  rcases of_mem_sectionLines h with rfl | rfl | ⟨file, _, rfl⟩
  · decide
  · decide
  · exact fileLine_ne_heading file

/-- A status is cut in two where the heading of the modified files stands, if it does. -/
theorem statusLines_split (r : Repository) :
    ∃ front back, r.statusLines = ("On branch " ++ r.current) :: (front ++ back) ∧
      (∀ line ∈ front, line ≠ modifiedHeading) ∧
      (back = [] ∨ ∃ rest, back = modifiedHeading :: rest) ∧
      filesIn front = r.staged ∧ filesIn back = r.modified := by
  have heading : textBehind? fileMark stagedHeading = none := by decide
  cases clean : r.isClean with
  | true =>
      obtain ⟨staged, modified⟩ := isClean_iff.mp clean
      refine ⟨["nothing to commit, working tree clean"], [], ?_, by decide, Or.inl rfl, ?_, ?_⟩
      · rw [statusLines, if_pos clean, List.append_nil]
      · rw [staged]
        decide
      · rw [modified]
        rfl
  | false =>
      have shape := statusLines_of_unclean clean
      by_cases unmodified : r.modified = []
      · refine ⟨sectionLines stagedHeading r.staged, [], ?_, fun line => ne_heading_of_mem_staged,
          Or.inl rfl, filesIn_sectionLines heading _, ?_⟩
        · rw [shape, unmodified]
          rfl
        · rw [unmodified]
          rfl
      · have heading' : textBehind? fileMark modifiedHeading = none := by decide
        have last : sectionLines modifiedHeading r.modified =
            [""] ++ modifiedHeading :: r.modified.map fileLine := if_neg unmodified
        refine ⟨sectionLines stagedHeading r.staged ++ [""],
          modifiedHeading :: r.modified.map fileLine, ?_, ?_, Or.inr ⟨_, rfl⟩, ?_, ?_⟩
        · rw [shape, last, List.append_assoc]
        · intro line h
          rcases List.mem_append.mp h with h | h
          · exact ne_heading_of_mem_staged h
          · rw [List.mem_singleton.mp h]
            decide
        · rw [filesIn_append, filesIn_sectionLines heading]
          exact List.append_nil _
        · rw [filesIn, List.filterMap_cons_none heading']
          exact filesIn_files r.modified

/-- The branch and the files are read back from the lines of the status. -/
theorem statusOf_statusLines (r : Repository) :
    statusOf r.statusLines = (some r.current, r.staged, r.modified) := by
  obtain ⟨front, back, shape, before, behind, staged, modified⟩ := statusLines_split r
  have first : textBehind? fileMark ("On branch " ++ r.current) = none := by
    simp [textBehind?, fileMark, dropLead?]
  have passed : ∀ line ∈ ("On branch " ++ r.current) :: front,
      (line != modifiedHeading) = true := by
    intro line h
    rw [bne_iff_ne]
    rcases List.mem_cons.mp h with rfl | h
    · exact headLine_ne_heading r.current
    · exact before line h
  have taken : (r.statusLines.takeWhile fun line => line != modifiedHeading) =
      ("On branch " ++ r.current) :: front := by
    rw [shape, ← List.cons_append, List.takeWhile_append_of_pos passed]
    rcases behind with rfl | ⟨rest, rfl⟩ <;> simp
  have dropped : (r.statusLines.dropWhile fun line => line != modifiedHeading) = back := by
    rw [shape, ← List.cons_append, List.dropWhile_append_of_pos passed]
    rcases behind with rfl | ⟨rest, rfl⟩ <;> simp
  have named : r.statusLines.head?.bind (textBehind? "On branch ") = some r.current := by
    rw [shape, List.head?_cons, Option.bind_some, textBehind?_append]
  rw [statusOf, taken, dropped, named, filesIn, List.filterMap_cons_none first, modified]
  exact congrArg (fun files => (some r.current, files, r.modified)) staged

end Reading

/-- States that print the same status have the same branch and the same files. -/
theorem eq_of_statusReport_eq {r r' : Repository} (named : r.NamedByWords)
    (named' : r'.NamedByWords) (same : r.statusReport = r'.statusReport) :
    r.current = r'.current ∧ r.staged = r'.staged ∧ r.modified = r'.modified := by
  have lines : r.statusLines = r'.statusLines := by
    rw [← lines_statusReport named, same, lines_statusReport named']
  have parts : (some r.current, r.staged, r.modified) =
      (some r'.current, r'.staged, r'.modified) := by
    rw [← statusOf_statusLines, lines, statusOf_statusLines]
  simpa only [Prod.mk.injEq, Option.some.injEq] using parts

/-- Only the status of a clean state ends with the notice: the last two words of another one are
not those of the notice. -/
theorem notice_suffix_iff (named : r.NamedByWords) :
    "nothing to commit, working tree clean".toList <:+ r.statusReport.toList ↔
      r.staged = [] ∧ r.modified = [] := by
  rw [← isClean_iff]
  constructor
  · rintro ⟨before, whole⟩
    by_contra unclean
    obtain ⟨_, front, file, report, word⟩ :=
      statusReport_of_unclean named (Bool.eq_false_iff.mpr unclean)
    have space : isBlank ' ' = true := by decide
    have notice : words r.statusReport.toList =
        words (before ++ "nothing to commit, working".toList) ++
          ["tree".toList, "clean".toList] := by
      have cut : before ++ "nothing to commit, working tree clean".toList =
          before ++ "nothing to commit, working".toList ++ ' ' :: "tree clean".toList := by simp
      have last : words "tree clean".toList = ["tree".toList, "clean".toList] := by decide
      rw [← whole, cut, words_append_cons _ space, last]
    have files : words r.statusReport.toList =
        words (front ++ " ").toList ++ ["modified:".toList, file.toList] := by
      have cut : r.statusReport.toList =
          (front ++ " ").toList ++ ' ' :: ("modified:  ".toList ++ ' ' :: file.toList) := by
        simp [report, fileMark]
      have mark : words "modified:  ".toList = ["modified:".toList] := by decide
      rw [cut, words_append_cons _ space, words_append_cons _ space, mark, words_of_isWord word]
      rfl
    obtain ⟨_, last⟩ := List.append_inj' (notice.symm.trans files) rfl
    exact absurd (List.cons.inj last).1 (by decide)
  · intro clean
    rw [statusReport, if_pos clean, String.toList_append]
    exact List.suffix_append _ _

end Repository

/-- In a session of the shell under a valid configuration, branch and files have words as their
names. -/
theorem Shell.namedByWords_after {σ : Type} [Entropy σ] {c : Config} (valid : c.validate = .ok ())
    (compile : PatternCompiler) (e : σ) (t : Terminal) (lines : List String) :
    (after t (Session.startWith compile c.settings e) lines).repository.NamedByWords := by
  obtain ⟨branch, _, _⟩ := (Config.validate_eq_ok_iff c).mp valid
  obtain ⟨steps, same, meant⟩ := after_eq_run t (Session.startWith compile c.settings e) lines
  have asked : ∀ step ∈ steps, step.Tidy := by
    intro step h
    obtain ⟨line, _, means⟩ := meant step h
    exact means.tidy
  have first := Repository.Tidy.fresh (Config.isBranchName_iff.mp branch)
  rw [same]
  exact (Session.tidy_run asked (.fresh c.settings) first).namedByWords
    (Session.wellFormed_run compile c.settings e steps)

namespace Repository

/-- The status tells the truth, for all states whose branch and files have words as their names,
as they have in the shell under a valid configuration. Equal statuses come from states with the
same current branch, the same staged and the same modified files, in the same order. The status
ends with the notice that there is nothing to commit exactly if there are neither; otherwise it
lists the staged files, one on each line and in order, and after them the modified files. -/
theorem status_tells_truth :
    (∀ r r' : Repository, r.NamedByWords → r'.NamedByWords → r.statusReport = r'.statusReport →
      r.current = r'.current ∧ r.staged = r'.staged ∧ r.modified = r'.modified) ∧
    (∀ r : Repository, r.NamedByWords →
      ("nothing to commit, working tree clean".toList <:+ r.statusReport.toList ↔
        r.staged = [] ∧ r.modified = []) ∧
      (¬(r.staged = [] ∧ r.modified = []) →
        (pieces (· == '\n') r.statusReport.toList).map String.ofList =
          ("On branch " ++ r.current) ::
            (sectionLines "Changes to be committed:" r.staged ++
              sectionLines "Changes not staged for commit:" r.modified))) ∧
    ∀ (σ : Type) [Entropy σ] (c : Config), c.validate = .ok () →
      ∀ (compile : PatternCompiler) (e : σ) (t : Terminal) (lines : List String),
        (Shell.after t (Session.startWith compile c.settings e) lines).repository.NamedByWords := by
  refine ⟨fun r r' => eq_of_statusReport_eq, fun r named => ⟨notice_suffix_iff named, ?_⟩,
    fun σ _ c valid => Shell.namedByWords_after valid⟩
  intro unclean
  rw [lines_statusReport named]
  exact statusLines_of_unclean (Bool.eq_false_iff.mpr (mt isClean_iff.mp unclean))

/-- Files that are named like words of the headings and of the notice. -/
theorem status_tells_truth_clean :
    let r := { Repository.fresh Settings.standard with
      staged := ["committed:", "clean"], modified := ["clean"] }
    let r' := { r with branches := ["main", "dev"] }
    r.NamedByWords ∧ r.statusReport = r'.statusReport ∧ r.modified = r'.modified ∧
      (pieces (· == '\n') r.statusReport.toList).map String.ofList =
        ["On branch main", "", "Changes to be committed:", "  modified:   committed:",
          "  modified:   clean", "", "Changes not staged for commit:", "  modified:   clean"] ∧
      ¬ "nothing to commit, working tree clean".toList <:+ r.statusReport.toList ∧
      Config.standard.validate = .ok () ∧
      (Shell.after ⟨⟨"user", "host", "~", false⟩, .standard⟩ (Session.startWith (fun _ => none)
        Config.standard.settings Counter.zero) [":touch a"]).repository.NamedByWords := by
  intro r r'
  obtain ⟨injective, shown, shell⟩ := status_tells_truth
  have named : r.NamedByWords := by
    refine ⟨by decide, ?_, ?_⟩ <;> unfold AllWords <;> decide
  have named' : r'.NamedByWords := ⟨named.current, named.staged, named.modified⟩
  obtain ⟨notice, lines⟩ := shown r named
  have unclean : ¬(r.staged = [] ∧ r.modified = []) := by decide
  have valid : Config.standard.validate = .ok () := by decide +kernel
  exact ⟨named, rfl, (injective r r' named named' rfl).2.2, lines unclean, mt notice.mp unclean,
    valid, shell Counter Config.standard valid _ _ _ _⟩

end Repository

end GitTutor
