import GitTutor.Command.Reader
import GitTutor.Proofs.Trimming

/-!
# Words of a text

The words of a text are blank-free and not empty. A blank ends the words in front
of it and starts those behind it, and blanks at either end of a text do not change
its words, so a line has the same words before and after trimming. Free text is made of
words with single spaces between them.
-/

namespace GitTutor.Text

section Pieces

variable {α : Type} {sep : α → Bool}

/-- A separator ends the pieces in front of it and starts those behind it. -/
theorem pieces_append_cons (front : List α) {s : α} (separates : sep s = true) (back : List α) :
    pieces sep (front ++ s :: back) = pieces sep front ++ pieces sep back := by
  induction front with
  | nil => simp [pieces, separates]
  | cons a front ih =>
      rw [List.cons_append, pieces, pieces, ih]
      split
      · rfl
      · cases found : pieces sep front with
        | nil => exact absurd found (pieces_ne_nil sep front)
        | cons piece others => rfl

/-- A list without separators is one piece. -/
theorem pieces_of_free {as : List α} (free : ∀ a ∈ as, sep a = false) : pieces sep as = [as] := by
  induction as with
  | nil => rfl
  | cons a as ih =>
      have plain : sep a = false := free a List.mem_cons_self
      rw [pieces, if_neg (Bool.eq_false_iff.mp plain),
        ih fun b h => free b (List.mem_cons_of_mem a h), attach]

/-- No piece holds a separator. -/
theorem free_of_mem_pieces {as piece : List α} (h : piece ∈ pieces sep as) :
    ∀ a ∈ piece, sep a = false := by
  induction as generalizing piece with
  | nil =>
      rw [pieces, List.mem_singleton] at h
      subst h
      intro a none
      cases none
  | cons b as ih =>
      rw [pieces] at h
      split at h
      · rcases List.mem_cons.mp h with rfl | h
        · intro a none
          cases none
        · exact ih h
      · rename_i plain
        cases found : pieces sep as with
        | nil => exact absurd found (pieces_ne_nil sep as)
        | cons first others =>
            rw [found] at h ih
            rcases List.mem_cons.mp h with rfl | h
            · intro a ha
              rcases List.mem_cons.mp ha with rfl | ha
              · exact Bool.eq_false_iff.mpr plain
              · exact ih List.mem_cons_self a ha
            · exact ih (List.mem_cons_of_mem first h)

end Pieces

/-- A text that is not empty and holds no blank. -/
def IsWord (cs : List Char) : Prop :=
  cs ≠ [] ∧ ∀ c ∈ cs, isBlank c = false

instance (cs : List Char) : Decidable (IsWord cs) :=
  decidable_of_iff (cs ≠ [] ∧ cs.all (fun c => !isBlank c) = true) (by simp [IsWord])

theorem isWord_of_mem_words {cs w : List Char} (h : w ∈ words cs) : IsWord w := by
  obtain ⟨piece, some⟩ := List.mem_filter.mp h
  refine ⟨?_, free_of_mem_pieces piece⟩
  rintro rfl
  cases some

/-- A blank ends the words in front of it and starts those behind it. -/
theorem words_append_cons (front : List Char) {b : Char} (blank : isBlank b = true)
    (back : List Char) : words (front ++ b :: back) = words front ++ words back := by
  rw [words, pieces_append_cons front blank, List.filter_append]
  rfl

theorem words_of_isWord {w : List Char} (word : IsWord w) : words w = [w] := by
  rw [words, pieces_of_free word.2]
  simp [word.1]

/-- A text that begins with a character that is no blank has a first word that begins with it. -/
theorem words_solid {c : Char} (solid : isBlank c = false) (cs : List Char) :
    ∃ w ws, words (c :: cs) = (c :: w) :: ws := by
  rw [words, pieces, if_neg (Bool.eq_false_iff.mp solid)]
  cases pieces isBlank cs with
  | nil => exact ⟨[], [], rfl⟩
  | cons piece others => exact ⟨piece, _, rfl⟩

theorem words_dropWhile (cs : List Char) : words (cs.dropWhile isBlank) = words cs := by
  induction cs with
  | nil => rfl
  | cons c rest ih =>
      rw [List.dropWhile_cons]
      split
      · rename_i blank
        rw [ih, words_blank blank]
      · rfl

theorem words_trimEnd (cs : List Char) : words (trimEnd cs) = words cs := by
  rw [trimEnd, dropTrailing_eq_rdropWhile]
  induction cs using List.reverseRecOn with
  | nil => rfl
  | append_singleton cs c ih =>
      by_cases blank : isBlank c = true
      · rw [List.rdropWhile_concat_pos isBlank _ _ blank, ih, words_append_cons cs blank]
        exact (List.append_nil _).symm
      · rw [List.rdropWhile_concat_neg isBlank _ _ blank]

/-- Trimming does not change the words. -/
theorem words_trim (cs : List Char) : words (trim cs) = words cs := by
  rw [trim, words_trimEnd, words_dropWhile]

theorem wordsOf_trimmed (line : String) : wordsOf (trimmed line) = wordsOf line := by
  rw [wordsOf, wordsOf, trimmed, String.toList_ofList, words_trim]

theorem wordsOf_append (front back : String) :
    wordsOf (front ++ " " ++ back) = wordsOf front ++ wordsOf back := by
  have blank : isBlank ' ' = true := by decide
  have shape : (front ++ " " ++ back).toList = front.toList ++ ' ' :: back.toList := by
    simp
  rw [wordsOf, shape, words_append_cons _ blank, List.map_append]
  rfl

theorem wordsOf_word {word : String} (h : IsWord word.toList) : wordsOf word = [word] := by
  rw [wordsOf, words_of_isWord h, List.map_singleton, String.ofList_toList]

/-- Words with single spaces between them are the words of the line that they make. -/
theorem wordsOf_joinWith {ws : List String} (h : ∀ w ∈ ws, IsWord w.toList) :
    wordsOf (joinWith " " ws) = ws := by
  induction ws with
  | nil => rfl
  | cons w ws ih =>
      have first := wordsOf_word (h w List.mem_cons_self)
      cases ws with
      | nil => exact first
      | cons second rest =>
          rw [joinWith, wordsOf_append, first, ih fun v hv => h v (List.mem_cons_of_mem w hv)]
          rfl

theorem joinWith_eq_intercalate (sep : String) (texts : List String) :
    joinWith sep texts = sep.intercalate texts := by
  induction texts with
  | nil => exact String.intercalate_nil.symm
  | cons text rest ih =>
      cases rest with
      | nil => exact String.intercalate_singleton.symm
      | cons second rest => rw [joinWith, ih, String.intercalate_cons_cons]

/-- The separator stands between two lists of texts when they are joined. -/
theorem joinWith_append (sep : String) {front back : List String} (some : front ≠ [])
    (some' : back ≠ []) :
    joinWith sep (front ++ back) = joinWith sep front ++ sep ++ joinWith sep back := by
  simp only [joinWith_eq_intercalate]
  exact String.intercalate_append_of_ne_nil some some'

/-- Texts with a separator between neighbours are the pieces of the text that they make. -/
theorem pieces_joinWith {sep : Char → Bool} {b : Char} (separates : sep b = true) {between : String}
    (shape : between.toList = [b]) {texts : List String} (some : texts ≠ [])
    (free : ∀ text ∈ texts, ∀ c ∈ text.toList, sep c = false) :
    pieces sep (joinWith between texts).toList = texts.map String.toList := by
  induction texts with
  | nil => exact absurd rfl some
  | cons text rest ih =>
      have first := pieces_of_free (free text List.mem_cons_self)
      cases rest with
      | nil => exact first
      | cons second rest =>
          have later := ih (List.cons_ne_nil second rest)
            fun other h => free other (List.mem_cons_of_mem text h)
          rw [joinWith, String.toList_append, String.toList_append, shape, List.append_assoc,
            List.singleton_append, pieces_append_cons _ separates, first, later]
          rfl

theorem notMem_of_isWord {text : String} (word : IsWord text.toList) : '\n' ∉ text.toList := by
  intro within
  have solid : isBlank '\n' = false := word.2 _ within
  exact absurd solid (by decide)

/-- Texts without line breaks are the lines of the text that they make with a line break between
neighbours. -/
theorem lines_joinWith {texts : List String} (some : texts ≠ [])
    (whole : ∀ text ∈ texts, '\n' ∉ text.toList) :
    pieces (· == '\n') (joinWith "\n" texts).toList = texts.map String.toList := by
  refine pieces_joinWith rfl rfl some fun text h c within => ?_
  rw [beq_eq_false_iff_ne]
  rintro rfl
  exact whole text h within

theorem map_ofList_toList (texts : List String) :
    (texts.map String.toList).map String.ofList = texts := by
  rw [List.map_map]
  exact (List.map_congr_left fun _ _ => String.ofList_toList).trans (List.map_id texts)

theorem isWord_of_mem_wordsOf {line word : String} (h : word ∈ wordsOf line) :
    IsWord word.toList := by
  obtain ⟨w, found, rfl⟩ := List.mem_map.mp h
  rw [String.toList_ofList]
  exact isWord_of_mem_words found

/-- Free text is words with single spaces between them, without double quotes. -/
theorem freeText_eq (words : List String) :
    freeText words = String.ofList ((" ".intercalate words).toList.filter (· ≠ '"')) := by
  rw [freeText, joinWith_eq_intercalate]
  refine congrArg String.ofList (List.filter_congr fun c _ => ?_)
  rw [Bool.eq_iff_iff, bne_iff_ne, decide_eq_true_iff]

end GitTutor.Text
