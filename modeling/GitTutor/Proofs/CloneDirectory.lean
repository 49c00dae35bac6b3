import GitTutor.Proofs.Words
import GitTutor.Repository.Report

/-!
# The directory of a clone

An address is cut at slashes and colons, and the directory is named for the piece behind the last
of them, without `.git` at its end. Slashes at the end of the address are dropped before it is cut,
but colons are not. So the directory is named for the last piece that is not empty as long as no
colon stands behind that piece; otherwise it has no name.
-/

namespace GitTutor.Repository

open Text

/-- A character that an address is cut at. -/
def separates (c : Char) : Bool :=
  c == '/' || c == ':'

/-- An address taken apart at its last piece that is not empty: what stands in front of the piece,
the piece, and the separators behind it. -/
structure LastPiece (url front piece tail : List Char) : Prop where
  whole : url = front ++ piece ++ tail
  border : ∀ c ∈ front.getLast?, separates c = true
  full : piece ≠ []
  solid : ∀ c ∈ piece, separates c = false
  closing : ∀ c ∈ tail, separates c = true

instance (url front piece tail : List Char) : Decidable (LastPiece url front piece tail) :=
  decidable_of_iff
    (url = front ++ piece ++ tail ∧ front.getLast?.all separates = true ∧ piece ≠ [] ∧
      piece.all (!separates ·) = true ∧ tail.all separates = true) <| by
    simp only [Option.all_eq_true, List.all_eq_true, Bool.not_eq_true']
    constructor
    · rintro ⟨whole, border, full, solid, closing⟩
      exact ⟨whole, border, full, solid, closing⟩
    · rintro ⟨whole, border, full, solid, closing⟩
      exact ⟨whole, border, full, solid, closing⟩

/-- What is left of a piece without one `.git` at its end, if it ends so. -/
def IsStem (piece name : List Char) : Prop :=
  piece = name ++ ".git".toList ∨ ¬".git".toList <:+ piece ∧ name = piece

theorem separates_iff {c : Char} : separates c = true ↔ c = '/' ∨ c = ':' := by
  rw [separates, Bool.or_eq_true, beq_iff_eq, beq_iff_eq]

theorem isStem_withoutGitSuffix (piece : List Char) : IsStem piece (withoutGitSuffix piece) := by
  unfold withoutGitSuffix
  split
  · rename_i rest ending
    refine Or.inl ?_
    rw [← List.reverse_reverse piece, ending]
    simp
  · rename_i other
    refine Or.inr ⟨?_, rfl⟩
    rintro ⟨name, rfl⟩
    exact other name.reverse (by simp)

theorem IsStem.mem {piece name : List Char} (h : IsStem piece name) {c : Char} (within : c ∈ name) :
    c ∈ piece := by
  rcases h with rfl | ⟨_, rfl⟩
  · exact List.mem_append_left _ within
  · exact within

theorem directoryName_eq (url : List Char) :
    directoryName url =
      withoutGitSuffix ((pieces separates (url.rdropWhile (· == '/'))).getLast?.getD []) := rfl

/-- A slash behind an address does not change the directory. -/
theorem directoryName_append_slash (url : List Char) :
    directoryName (url ++ ['/']) = directoryName url := by
  rw [directoryName_eq, directoryName_eq, List.rdropWhile_concat_pos _ _ _ rfl]

/-- A colon behind an address takes the name away. -/
theorem directoryName_append_colon (url : List Char) : directoryName (url ++ [':']) = [] := by
  have kept : (url ++ [':']).rdropWhile (· == '/') = url ++ [':'] :=
    List.rdropWhile_concat_neg _ _ _ (by decide)
  have cut : pieces separates (url ++ [':']) = pieces separates url ++ [[]] :=
    pieces_append_cons url rfl []
  rw [directoryName_eq, kept, cut, List.getLast?_concat, Option.getD_some]
  rfl

/-- Separators behind an address take the name away if a colon is among them; otherwise they do not
change it. -/
theorem directoryName_append (url : List Char) {tail : List Char}
    (closing : ∀ c ∈ tail, separates c = true) :
    directoryName (url ++ tail) = if ':' ∈ tail then [] else directoryName url := by
  induction tail using List.reverseRecOn with
  | nil => simp
  | append_singleton tail c ih =>
      have earlier := ih fun d within => closing d (List.mem_append_left _ within)
      rw [← List.append_assoc]
      rcases separates_iff.mp (closing c List.mem_concat_self) with rfl | rfl
      · rw [directoryName_append_slash, earlier]
        simp
      · rw [directoryName_append_colon]
        simp

section Cut

variable {front piece : List Char} (border : ∀ c ∈ front.getLast?, separates c = true)
include border

/-- What ends with a separator is cut on its own. -/
theorem exists_pieces_append (back : List Char) :
    ∃ others, pieces separates (front ++ back) = others ++ pieces separates back := by
  induction front using List.reverseRecOn with
  | nil => exact ⟨[], rfl⟩
  | append_singleton front c =>
      have separator : separates c = true := border c List.getLast?_concat
      refine ⟨pieces separates front, ?_⟩
      rw [List.append_assoc, List.singleton_append, pieces_append_cons front separator]

/-- An address that ends with a piece names the directory for it. -/
theorem directoryName_piece (full : piece ≠ []) (solid : ∀ c ∈ piece, separates c = false) :
    directoryName (front ++ piece) = withoutGitSuffix piece := by
  obtain ⟨others, cut⟩ := exists_pieces_append border piece
  have kept : (front ++ piece).rdropWhile (· == '/') = front ++ piece := by
    obtain ⟨init, c, rfl⟩ := List.eq_nil_or_concat' piece |>.resolve_left full
    rw [← List.append_assoc]
    refine List.rdropWhile_concat_neg _ _ _ fun slash => ?_
    have solid := solid c List.mem_concat_self
    rw [beq_iff_eq.mp slash] at solid
    cases solid
  rw [directoryName_eq, kept, cut, pieces_of_free solid, List.getLast?_concat, Option.getD_some]

end Cut

/-- Separators alone have only empty pieces. -/
theorem eq_nil_of_mem_pieces {tail : List Char} (closing : ∀ c ∈ tail, separates c = true)
    {piece : List Char} (h : piece ∈ pieces separates tail) : piece = [] := by
  induction tail with
  | nil => exact List.mem_singleton.mp h
  | cons c tail ih =>
      rw [pieces, if_pos (closing c List.mem_cons_self)] at h
      rcases List.mem_cons.mp h with rfl | h
      · rfl
      · exact ih (fun d within => closing d (List.mem_cons_of_mem c within)) h

namespace LastPiece

variable {url front piece tail : List Char}

theorem pieces_eq (h : LastPiece url front piece tail) :
    ∃ others empties, pieces separates url = others ++ piece :: empties ∧
      ∀ other ∈ empties, other = [] := by
  obtain ⟨others, cut⟩ := exists_pieces_append h.border (piece ++ tail)
  have one := pieces_of_free h.solid
  rw [← List.append_assoc, ← h.whole] at cut
  cases shape : tail with
  | nil =>
      rw [shape, List.append_nil, one] at cut
      exact ⟨others, [], cut, List.forall_mem_nil _⟩
  | cons c rest =>
      have closing := List.forall_mem_cons.mp (shape ▸ h.closing)
      rw [shape, pieces_append_cons piece closing.1, one] at cut
      exact ⟨others, pieces separates rest, cut, fun other => eq_nil_of_mem_pieces closing.2⟩

/-- The last piece is the last one that is not empty. -/
theorem getLast?_eq (h : LastPiece url front piece tail) :
    ((pieces separates url).filter (· ≠ [])).getLast? = some piece := by
  obtain ⟨others, empties, cut, none⟩ := h.pieces_eq
  have rest : empties.filter (· ≠ []) = [] :=
    List.filter_eq_nil_iff.mpr fun other within => by simp [none other within]
  rw [cut, List.filter_append, List.filter_cons_of_pos (by simpa using h.full), rest,
    List.getLast?_concat]

theorem directoryName_eq_stem (h : LastPiece url front piece tail) :
    directoryName url = if ':' ∈ tail then [] else withoutGitSuffix piece := by
  rw [h.whole, directoryName_append _ h.closing, directoryName_piece h.border h.full h.solid]

end LastPiece

/-- An address has a last piece if not all of its characters are separators. -/
theorem exists_lastPiece {url : List Char} (named : ∃ c ∈ url, separates c = false) :
    ∃ front piece tail, LastPiece url front piece tail := by
  let body := url.rdropWhile separates
  have full : body ≠ [] := by
    intro none
    obtain ⟨c, within, solid⟩ := named
    rw [List.rdropWhile_eq_nil_iff.mp none c within] at solid
    cases solid
  have last := List.rdropWhile_last_not separates url full
  refine ⟨body.rdropWhile (!separates ·), body.rtakeWhile (!separates ·), url.rtakeWhile separates,
    ?_, ?_, ?_, ?_, ?_⟩
  · rw [List.rdropWhile_append_rtakeWhile, List.rdropWhile_append_rtakeWhile]
  · intro c ending
    obtain ⟨some, rfl⟩ := List.mem_getLast?_eq_getLast ending
    simpa using List.rdropWhile_last_not _ _ some
  · intro none
    have ended := List.rtakeWhile_eq_nil_iff.mp none full
    rw [Bool.not_eq_true, Bool.not_eq_false'] at ended
    exact last ended
  · intro c within
    simpa using List.mem_rtakeWhile_imp within
  · intro c within
    exact List.mem_rtakeWhile_imp within

/-- No separator is part of the name. -/
theorem separates_of_mem_directoryName {url : List Char} {c : Char}
    (within : c ∈ directoryName url) : separates c = false := by
  rw [directoryName_eq] at within
  have inside := (isStem_withoutGitSuffix _).mem within
  cases found : (pieces separates (url.rdropWhile (· == '/'))).getLast? with
  | none => exact absurd (List.getLast?_eq_none_iff.mp found) (pieces_ne_nil _ _)
  | some piece =>
      rw [found] at inside
      exact free_of_mem_pieces (List.mem_of_getLast? found) c inside

/-- Which directory the cloning of an address creates. An address with a character that is no
separator has a last piece that is not empty. The directory is named for what is left of that piece
without one `.git` at its end exactly if no colon stands behind the piece or nothing is left of it;
behind a colon the directory has no name. No separator is part of the name. Slashes behind the
address do not change it, and separators with a colon among them take it away. -/
theorem directory_named_iff (url : String) :
    ((∃ c ∈ url.toList, separates c = false) ↔
      ∃ front piece tail, LastPiece url.toList front piece tail) ∧
    (∀ front piece tail, LastPiece url.toList front piece tail →
      ((pieces separates url.toList).filter (· ≠ [])).getLast? = some piece ∧
      ∃ name, IsStem piece name ∧
        (repositoryName url = String.ofList name ↔ ':' ∉ tail ∨ name = []) ∧
        (':' ∈ tail → repositoryName url = "")) ∧
    (∀ c ∈ (repositoryName url).toList, separates c = false) ∧
    ∀ more : String, (∀ c ∈ more.toList, separates c = true) →
      repositoryName (url ++ more) = if ':' ∈ more.toList then "" else repositoryName url := by
  refine ⟨⟨exists_lastPiece, ?_⟩, ?_, ?_, ?_⟩
  · rintro ⟨front, piece, tail, last⟩
    obtain ⟨c, rest, shape⟩ := List.exists_cons_of_ne_nil last.full
    have within : c ∈ piece := shape ▸ List.mem_cons_self
    refine ⟨c, ?_, last.solid c within⟩
    rw [last.whole]
    exact List.mem_append_left _ (List.mem_append_right _ within)
  · intro front piece tail last
    have value := last.directoryName_eq_stem
    refine ⟨last.getLast?_eq, _, isStem_withoutGitSuffix piece, ?_, ?_⟩
    · rw [repositoryName, String.ofList_inj, value]
      split
      · rename_i colon
        exact ⟨fun same => Or.inr same.symm, fun h => (h.resolve_left (not_not_intro colon)).symm⟩
      · rename_i plain
        exact iff_of_true rfl (Or.inl plain)
    · intro colon
      rw [repositoryName, value, if_pos colon]
  · intro c within
    rw [repositoryName, String.toList_ofList] at within
    exact separates_of_mem_directoryName within
  · intro more closing
    rw [repositoryName, repositoryName, String.toList_append, directoryName_append _ closing]
    split <;> rfl

/-- Slashes behind an address are dropped, and a colon behind it takes the name away. -/
theorem directory_named_iff_lib :
    repositoryName "git@github.com:user/lib.git/" = "lib" ∧
      repositoryName ("git@github.com:user/lib.git/" ++ "/:") = "" := by
  obtain ⟨_, value, _, more⟩ := directory_named_iff "git@github.com:user/lib.git/"
  have last : LastPiece "git@github.com:user/lib.git/".toList "git@github.com:user/".toList
      "lib.git".toList ['/'] := by
    decide +kernel
  have closing : ∀ c ∈ "/:".toList, separates c = true := List.all_eq_true.mp rfl
  obtain ⟨_, name, stem, named, _⟩ := value _ _ _ last
  have lib : name = "lib".toList := by
    rcases stem with whole | ⟨other, _⟩
    · have parts : "lib".toList ++ ".git".toList = name ++ ".git".toList := whole
      exact (List.append_cancel_right parts).symm
    · exact absurd (by decide) other
  refine ⟨?_, (more "/:" closing).trans (if_pos (by decide))⟩
  rw [named.mpr (Or.inl (by decide)), lib]
  rfl

/-- The last piece that is not empty stands in front of the colon, which takes the name away. -/
theorem name_lost_behind_colon :
    ((pieces separates "git@host:".toList).filter (· ≠ [])).getLast? = some "git@host".toList ∧
      IsStem "git@host".toList "git@host".toList ∧
      repositoryName "git@host:" = "" ∧ repositoryName "git@host" = "git@host" :=
  ⟨by decide, Or.inr ⟨by decide, rfl⟩, by decide, by decide⟩

end GitTutor.Repository
