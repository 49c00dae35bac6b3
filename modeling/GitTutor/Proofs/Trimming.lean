import GitTutor.Text.Line
import Mathlib.Data.List.DropRight

/-!
# Trimming

A trimmed text neither starts nor ends with a blank, so trimming it again changes
nothing. Blanks at the end of a text are dropped whatever they are, so it does
not matter whether a line is trimmed with its end or without it.
-/

namespace GitTutor.Text

theorem dropTrailing_eq_rdropWhile (p : Char → Bool) (cs : List Char) :
    dropTrailing p cs = cs.rdropWhile p := rfl

/-- A blank at the end is dropped. -/
theorem trim_concat {b : Char} (blank : isBlank b = true) (cs : List Char) :
    trim (cs ++ [b]) = trim cs := by
  unfold trim trimEnd
  rw [List.dropWhile_append]
  split
  · rename_i none
    have all : [b].dropWhile isBlank = [] := by simp [List.dropWhile, blank]
    rw [all, List.isEmpty_iff.mp none]
  · rw [dropTrailing_eq_rdropWhile, List.rdropWhile_concat_pos isBlank _ _ blank]
    rfl

theorem trim_withoutLineEnd (line : List Char) : trim (withoutLineEnd line) = trim line := by
  have feed : isBlank '\n' = true := by decide
  have carriage : isBlank '\r' = true := by decide
  unfold withoutLineEnd
  split
  · rename_i rest ending
    have whole : line = rest.reverse ++ ['\r'] ++ ['\n'] := by
      rw [← List.reverse_reverse line, ending]
      simp
    rw [whole, trim_concat feed, trim_concat carriage]
  · rename_i rest _ ending
    have whole : line = rest.reverse ++ ['\n'] := by
      rw [← List.reverse_reverse line, ending]
      simp
    rw [whole, trim_concat feed]
  · rfl

/-- A trimmed text does not start with a blank. -/
theorem dropWhile_trim (cs : List Char) : (trim cs).dropWhile isBlank = trim cs := by
  refine List.dropWhile_eq_self_iff.mpr fun some => ?_
  have front : trim cs <+: cs.dropWhile isBlank := List.rdropWhile_prefix isBlank _
  have same := front.getElem some
  have first := List.dropWhile_eq_self_iff.mp (List.dropWhile_idempotent isBlank cs)
    (Nat.lt_of_lt_of_le some front.length_le)
  rw [same]
  exact first

theorem trim_trim (cs : List Char) : trim (trim cs) = trim cs := by
  calc trim (trim cs) = trimEnd ((trim cs).dropWhile isBlank) := rfl
    _ = trimEnd (trim cs) := by rw [dropWhile_trim]
    _ = trim cs := List.rdropWhile_idempotent isBlank _

/-- What is in front of a text with more than blanks is kept whole. -/
theorem trimEnd_append (front : List Char) {back : List Char} {c : Char} (within : c ∈ back)
    (shown : isBlank c = false) : trimEnd (front ++ back) = front ++ trimEnd back := by
  simp only [trimEnd, dropTrailing_eq_rdropWhile]
  induction back using List.reverseRecOn with
  | nil => cases within
  | append_singleton back d ih =>
      rw [← List.append_assoc]
      by_cases blank : isBlank d = true
      · have earlier : c ∈ back := by
          rcases List.mem_append.mp within with earlier | last
          · exact earlier
          · rw [List.mem_singleton.mp last, blank] at shown
            cases shown
        rw [List.rdropWhile_concat_pos isBlank _ _ blank,
          List.rdropWhile_concat_pos isBlank _ _ blank, ih earlier]
      · rw [List.rdropWhile_concat_neg isBlank _ _ blank,
          List.rdropWhile_concat_neg isBlank _ _ blank, List.append_assoc]

theorem trimmedEnd_append (front : String) {back : String} {c : Char} (within : c ∈ back.toList)
    (shown : isBlank c = false) : trimmedEnd (front ++ back) = front ++ trimmedEnd back := by
  rw [trimmedEnd, String.toList_append, trimEnd_append _ within shown, String.ofList_append,
    String.ofList_toList, trimmedEnd]

/-- A text is what it is without the blanks at its end, and then blanks. -/
theorem exists_eq_trimmedEnd_append (s : String) :
    ∃ blanks : String, s = trimmedEnd s ++ blanks ∧ ∀ c ∈ blanks.toList, isBlank c = true := by
  refine ⟨String.ofList (s.toList.rtakeWhile isBlank), ?_, fun c h => ?_⟩
  · rw [trimmedEnd, ← String.ofList_append, trimEnd, dropTrailing_eq_rdropWhile,
      List.rdropWhile_append_rtakeWhile, String.ofList_toList]
  · rw [String.toList_ofList] at h
    exact List.mem_rtakeWhile_imp h

theorem trimmed_ofList (cs : List Char) : trimmed (String.ofList cs) = String.ofList (trim cs) := by
  rw [trimmed, String.toList_ofList]

end GitTutor.Text
