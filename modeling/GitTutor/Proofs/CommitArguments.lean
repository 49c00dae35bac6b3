import GitTutor.Proofs.Words

/-!
# Arguments of a commit

The first word that starts the message cuts the arguments of `git commit` in two. In front
of it only the words that ask for every modified file count. Everything behind it is the
message, also words that look like options.
-/

namespace GitTutor

open Text

namespace CommitRequest

variable {front rest words : List String} {word marker : String}

theorem startsMessage_iff : startsMessage word = true ↔ word ∈ ["-m", "--message", "-am"] := by
  simp [startsMessage, or_assoc]

theorem startsMessage_eq_false_iff :
    startsMessage word = false ↔ word ∉ ["-m", "--message", "-am"] := by
  rw [← startsMessage_iff, Bool.not_eq_true]

theorem asksAll_iff : asksAll word = true ↔ word = "-a" ∨ word = "--all" := by
  simp [asksAll]

theorem any_asksAll_iff : front.any asksAll = true ↔ "-a" ∈ front ∨ "--all" ∈ front := by
  simp only [List.any_eq_true, asksAll_iff]
  constructor
  · rintro ⟨word, within, rfl | rfl⟩
    · exact Or.inl within
    · exact Or.inr within
  · rintro (within | within)
    · exact ⟨_, within, Or.inl rfl⟩
    · exact ⟨_, within, Or.inr rfl⟩

/-- Words that do not start the message only tell whether every modified file is asked for. -/
theorem scan_append (plain : ∀ word ∈ front, startsMessage word = false) (all : Bool)
    (back : List String) :
    scan all (front ++ back) = scan (all || front.any asksAll) back := by
  induction front generalizing all with
  | nil => simp
  | cons word front ih =>
      have here : ¬startsMessage word = true :=
        Bool.eq_false_iff.mp (plain word List.mem_cons_self)
      rw [List.cons_append, scan, if_neg here, ih fun w h => plain w (List.mem_cons_of_mem word h),
        List.any_cons, Bool.or_assoc]

/-- Behind the word that starts the message nothing is read but the message. -/
theorem scan_marker (starts : startsMessage marker = true) (all : Bool) (rest : List String) :
    scan all (marker :: rest) =
      if isAllBlank (freeText rest) then .error .emptyCommitMessage
      else .ok ⟨freeText rest, all || marker = "-am"⟩ := by
  rw [scan, if_pos starts]

theorem ofWords_unmarked (plain : ∀ word ∈ words, startsMessage word = false) :
    ofWords words = .error .missingCommitMessage := by
  have whole := scan_append plain false []
  rwa [List.append_nil, scan] at whole

theorem ofWords_marked (plain : ∀ word ∈ front, startsMessage word = false)
    (starts : startsMessage marker = true) (rest : List String) :
    ofWords (front ++ marker :: rest) =
      if isAllBlank (freeText rest) then .error .emptyCommitMessage
      else .ok ⟨freeText rest, front.any asksAll || marker = "-am"⟩ := by
  rw [ofWords, scan_append plain, scan_marker starts, Bool.false_or]

/-- A message is missing exactly if no word starts one. -/
theorem ofWords_missing_iff :
    ofWords words = .error .missingCommitMessage ↔
      ∀ word ∈ words, startsMessage word = false := by
  refine ⟨fun missing => ?_, ofWords_unmarked⟩
  cases found : words.find? startsMessage with
  | none =>
      intro word within
      exact Bool.eq_false_iff.mpr (List.find?_eq_none.mp found word within)
  | some marker =>
      obtain ⟨starts, front, rest, rfl, plain⟩ := List.find?_eq_some_iff_append.mp found
      rw [ofWords_marked (fun word h => by simpa using plain word h) starts] at missing
      split at missing <;> cases missing

/-- A word in front of the message that asks for nothing may be left out. -/
theorem ofWords_insert (plain : ∀ word ∈ front, startsMessage word = false)
    (other : startsMessage word = false) (quiet : asksAll word = false) (back : List String) :
    ofWords (front ++ word :: back) = ofWords (front ++ back) := by
  rw [ofWords, ofWords, scan_append plain, scan_append plain, scan,
    if_neg (Bool.eq_false_iff.mp other), quiet, Bool.or_false]

/-- How the arguments of `git commit` are read, whatever they are. The message is missing exactly
if no word starts one. Otherwise the first word that does so cuts the arguments in two: the
words behind it, with single spaces between them and without double quotes, are refused exactly
if they are blank, and else they are the message, and every modified file is asked for exactly
if that word is `-am` or an earlier one is `-a` or `--all`. Every other word in front of the
message may be added or left out, and the words behind count for nothing but the message. -/
theorem commit_arguments_read (words : List String) :
    let text := fun rest : List String =>
      String.ofList ((" ".intercalate rest).toList.filter (· ≠ '"'))
    (ofWords words = .error .missingCommitMessage ↔
      ∀ word ∈ words, word ∉ ["-m", "--message", "-am"]) ∧
    (∀ front marker rest, words = front ++ marker :: rest →
      (∀ word ∈ front, word ∉ ["-m", "--message", "-am"]) →
      marker ∈ ["-m", "--message", "-am"] →
      (ofWords words = .error .emptyCommitMessage ↔
        ∀ c ∈ (text rest).toList, isBlank c = true) ∧
      ((∃ c ∈ (text rest).toList, isBlank c = false) → ∃ all : Bool,
        ofWords words = .ok ⟨text rest, all⟩ ∧
        (all = true ↔ marker = "-am" ∨ "-a" ∈ front ∨ "--all" ∈ front)) ∧
      ∀ rest', text rest' = text rest → ofWords (front ++ marker :: rest') = ofWords words) ∧
    ∀ front word back, words = front ++ back →
      (∀ w ∈ front, w ∉ ["-m", "--message", "-am"]) →
      word ∉ ["-a", "--all", "-m", "--message", "-am"] →
      ofWords (front ++ word :: back) = ofWords words := by
  intro text
  have free : ∀ rest, text rest = freeText rest := fun rest => (freeText_eq rest).symm
  refine ⟨?_, ?_, ?_⟩
  · simp only [ofWords_missing_iff, startsMessage_eq_false_iff]
  · rintro front marker rest rfl plain starts
    have read := ofWords_marked (fun w h => startsMessage_eq_false_iff.mpr (plain w h))
      (startsMessage_iff.mpr starts)
    have blank : isAllBlank (freeText rest) = true ↔
        ∀ c ∈ (freeText rest).toList, isBlank c = true := by
      rw [isAllBlank, List.all_eq_true]
    simp only [free, read]
    refine ⟨?_, ?_, fun rest' same => by rw [same]⟩
    · rw [← blank]
      split <;> simp [*]
    · rintro ⟨c, within, solid⟩
      have shows : ¬isAllBlank (freeText rest) = true := by
        intro all
        rw [blank.mp all c within] at solid
        cases solid
      refine ⟨_, if_neg shows, ?_⟩
      rw [Bool.or_eq_true, any_asksAll_iff, decide_eq_true_iff, or_comm]
  · rintro front word back rfl plain other
    simp only [List.mem_cons, List.not_mem_nil, or_false, not_or] at other
    obtain ⟨short, long, marks⟩ := other
    refine ofWords_insert (fun w h => startsMessage_eq_false_iff.mpr (plain w h)) ?_ ?_ back
    · simpa [startsMessage_eq_false_iff] using marks
    · rw [Bool.eq_false_iff, ne_eq, asksAll_iff, not_or]
      exact ⟨short, long⟩

/-- An option and an unknown word in front of the message, and behind it quotes and a word that
would ask for every modified file elsewhere. -/
theorem commit_arguments_read_quoted :
    ofWords ["--all", "-x", "--message", "\"fix", "-am", "typo\""] =
        .ok ⟨"fix -am typo", true⟩ ∧
      ofWords ["--all", "--message", "\"fix", "-am", "typo\""] = .ok ⟨"fix -am typo", true⟩ ∧
      ofWords ["-a", "-am", "\"\"", "\u3000\""] = .error .emptyCommitMessage := by
  have plain : ∀ word ∈ ["--all"], word ∉ ["-m", "--message", "-am"] := by decide
  obtain ⟨_, cut, spare⟩ :=
    commit_arguments_read ["--all", "--message", "\"fix", "-am", "typo\""]
  obtain ⟨_, given, _⟩ := cut ["--all"] "--message" ["\"fix", "-am", "typo\""] rfl plain (by decide)
  obtain ⟨all, read, asked⟩ := given ⟨'f', by decide, by decide⟩
  obtain rfl : all = true := asked.mpr (by decide)
  obtain ⟨_, cut', _⟩ := commit_arguments_read ["-a", "-am", "\"\"", "\u3000\""]
  obtain ⟨blank, _⟩ := cut' ["-a"] "-am" ["\"\"", "\u3000\""] rfl (by decide) (by decide)
  refine ⟨?_, read.trans (by decide), blank.mpr (List.all_eq_true.mp (by decide))⟩
  have longer := spare ["--all"] "-x" ["--message", "\"fix", "-am", "typo\""] rfl plain (by decide)
  exact longer.trans (read.trans (by decide))

end CommitRequest

end GitTutor
