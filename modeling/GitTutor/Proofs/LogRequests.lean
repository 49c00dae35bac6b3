import GitTutor.Command.Reader

/-!
# Requests of the log

The arguments of `git log` are read from left to right, and what is read of a later part
does not depend on what an earlier part says: flags add up, and a later limit or branch
replaces an earlier one. A limit of digits may be written in four ways, which all say the same.
-/

namespace GitTutor

open Text

namespace LogRequest

variable {a b words : List String} {word value : String} {p q r : LogRequest}

/-- A request with what a second one adds to it. -/
def followedBy (p q : LogRequest) : LogRequest where
  oneline := p.oneline || q.oneline
  graph := p.graph || q.graph
  all := p.all || q.all
  limit := q.limit.or p.limit
  branch := q.branch.or p.branch

@[simp] theorem followedBy_plain (p : LogRequest) : p.followedBy plain = p := by
  simp [followedBy, plain]

/-- What a single word says does not depend on the request that it is added to. -/
theorem addWord_followedBy (p q : LogRequest) (word : String) :
    (p.followedBy q).addWord word = (q.addWord word).map p.followedBy := by
  unfold addWord
  split
  · simp [followedBy, Except.map]
  split
  · simp [followedBy, Except.map]
  split
  · simp [followedBy, Except.map]
  split
  · split
    · rfl
    · simp [followedBy, Except.map]
  · split
    · rfl
    · simp [followedBy, Except.map]

/-- A word other than `-n` is read on its own. -/
theorem addWords_cons (single : word ≠ "-n") (r : LogRequest) (words : List String) :
    r.addWords (word :: words) = (r.addWord word).bind fun r => r.addWords words := by
  cases words with
  | nil =>
      rw [addWords, if_neg single]
      cases r.addWord word <;> rfl
  | cons next rest =>
      rw [addWords, if_neg single]
      cases r.addWord word <;> rfl

/-- After `-n` the next word is read as a limit. -/
theorem addWords_limit (r : LogRequest) (value : String) (words : List String) :
    r.addWords ("-n" :: value :: words) =
      (readLimit value).bind fun limit => { r with limit := some limit }.addWords words := by
  rw [addWords, if_pos rfl]
  cases readLimit value <;> rfl

/-- What some words say does not depend on the request that they are added to. -/
theorem addWords_followedBy (p q : LogRequest) (words : List String) :
    (p.followedBy q).addWords words = (q.addWords words).map p.followedBy := by
  fun_induction addWords q words with
  | case1 q => rfl
  | case2 q => rfl
  | case3 q word single =>
      rw [addWords, if_neg single]
      exact addWord_followedBy p q word
  | case4 q value rest cause refused =>
      rw [addWords_limit, refused]
      rfl
  | case5 q value rest limit read ih =>
      have more : { p.followedBy q with limit := some limit } =
          p.followedBy { q with limit := some limit } := rfl
      rw [addWords_limit, read]
      exact (congrArg (addWords · rest) more).trans ih
  | case6 q word value rest single cause refused =>
      rw [addWords_cons single, addWord_followedBy, refused]
      rfl
  | case7 q word value rest single r read ih =>
      rw [addWords_cons single, addWord_followedBy, read]
      exact ih

/-- What some words say is added to what is already asked for. -/
theorem addWords_eq (p : LogRequest) (words : List String) :
    p.addWords words = (ofWords words).map p.followedBy := by
  have start := addWords_followedBy p plain words
  rwa [followedBy_plain] at start

/-- Words that are accepted leave the words behind them to be read as they would be alone. -/
theorem addWords_append (accepted : r.addWords a = .ok p) (b : List String) :
    r.addWords (a ++ b) = p.addWords b := by
  fun_induction addWords r a with
  | case1 r =>
      cases accepted
      rfl
  | case2 r =>
      -- A `-n` without a value would take the first word of `b`, but it is not accepted.
      cases accepted
  | case3 r word single =>
      rw [List.singleton_append, addWords_cons single, accepted]
      rfl
  | case4 r value rest cause refused => cases accepted
  | case5 r value rest limit read ih =>
      rw [List.cons_append, List.cons_append, addWords_limit, read]
      exact ih accepted
  | case6 r word value rest single cause refused => cases accepted
  | case7 r word value rest single q read ih =>
      rw [List.cons_append, addWords_cons single, read]
      exact ih accepted

theorem ofWords_append (accepted : ofWords a = .ok p) (b : List String) :
    ofWords (a ++ b) = (ofWords b).map p.followedBy := by
  rw [ofWords, addWords_append accepted, addWords_eq]

section Spellings

/-- A word that carries a limit says the same as `-n` with the limit as the next word. -/
theorem addWords_spelled (carries : limitIn? word = some value) (given : value ≠ "")
    (r : LogRequest) (words : List String) :
    r.addWords (word :: words) = r.addWords ("-n" :: value :: words) := by
  have other : ∀ option ∈ ["-n", "--oneline", "--graph", "--all"], word ≠ option := by
    rintro option known rfl
    simp only [List.mem_cons, List.not_mem_nil, or_false] at known
    -- Of these words only `-n` itself carries a limit, and that one is empty.
    rcases known with rfl | rfl | rfl | rfl
    · exact given (Option.some.inj (carries.symm.trans (by decide)))
    · cases carries
    · cases carries
    · cases carries
  have alone : r.addWord word =
      (readLimit value).map fun limit => { r with limit := some limit } := by
    rw [addWord, if_neg (other _ (by simp)), if_neg (other _ (by simp)),
      if_neg (other _ (by simp))]
    simp only [carries]
    cases readLimit value <;> rfl
  rw [addWords_cons (other _ (by simp)), addWords_limit, alone]
  cases readLimit value <;> rfl

theorem limitIn?_attached (value : String) : limitIn? ("-n" ++ value) = some value := by
  simp [limitIn?, dropLead?]

theorem limitIn?_long (value : String) : limitIn? ("--max-count=" ++ value) = some value := by
  have cut : dropLead? "--max-count=".toList ("--max-count=" ++ value).toList =
      some value.toList := by
    rw [dropLead?_eq_some_iff, String.toList_append]
  rw [limitIn?, cut]
  exact congrArg some String.ofList_toList

theorem exists_first_digit (given : value ≠ "") (digits : value.toList.all isDecimal = true) :
    ∃ d rest, value.toList = d :: rest ∧ isDecimal d = true := by
  obtain ⟨d, rest, shape⟩ := List.exists_cons_of_ne_nil (mt String.toList_eq_nil_iff.mp given)
  rw [shape, List.all_cons, Bool.and_eq_true] at digits
  exact ⟨d, rest, shape, digits.1⟩

theorem limitIn?_digits (given : value ≠ "") (digits : value.toList.all isDecimal = true) :
    limitIn? ("-" ++ value) = some value := by
  obtain ⟨d, rest, shape, first⟩ := exists_first_digit given digits
  have dash : '-' ≠ d := by
    rintro rfl
    cases first
  have letter : 'n' ≠ d := by
    rintro rfl
    cases first
  have whole : ("-" ++ value).toList = '-' :: d :: rest := by
    rw [String.toList_append, shape]
    rfl
  have back : String.ofList (d :: rest) = value := by
    rw [← shape, String.ofList_toList]
  rw [shape] at digits
  simp [limitIn?, whole, dropLead?, dash, letter, digits, back]

/-- Digits are read as a limit if their number is stored in 64 bits. -/
theorem readLimit_of_digits (given : value ≠ "") (digits : value.toList.all isDecimal = true) :
    readLimit value = if digitsValue value.toList < wordBound then
      .ok (digitsValue value.toList) else .error (.invalidLogLimit value) := by
  obtain ⟨d, rest, shape, first⟩ := exists_first_digit given digits
  have plus : d ≠ '+' := by
    rintro rfl
    cases first
  have count : readCount? wordBound value.toList =
      if digitsValue value.toList < wordBound then some (digitsValue value.toList) else none := by
    rw [shape] at digits ⊢
    simp [readCount?, readDigits?, plus, digits, Option.filter]
  rw [readLimit, count]
  by_cases below : digitsValue value.toList < wordBound
  · simp only [if_pos below]
  · simp only [if_neg below]

end Spellings

/-- The arguments of `git log` compose: behind words that are accepted, other words are refused
exactly as they are alone, and otherwise both sets of flags count and the later limit and the
later branch, if they are given. In every place the four spellings of a limit say the same, also
where the limit is refused, as digits are that stand for 2 to the 64 or more. -/
theorem log_words_compose (accepted : ofWords a = .ok p) (b : List String) :
    (∀ cause, ofWords (a ++ b) = .error cause ↔ ofWords b = .error cause) ∧
    (∀ q, ofWords b = .ok q → ofWords (a ++ b) =
      .ok ⟨p.oneline || q.oneline, p.graph || q.graph, p.all || q.all, q.limit.or p.limit,
        q.branch.or p.branch⟩) ∧
    ∀ value, value ≠ "" →
      ofWords (a ++ ("-n" ++ value) :: b) = ofWords (a ++ "-n" :: value :: b) ∧
      ofWords (a ++ ("--max-count=" ++ value) :: b) = ofWords (a ++ "-n" :: value :: b) ∧
      (value.toList.all isDecimal = true →
        ofWords (a ++ ("-" ++ value) :: b) = ofWords (a ++ "-n" :: value :: b) ∧
        (18446744073709551615 < digitsValue value.toList →
          ofWords (a ++ "-n" :: value :: b) = .error (.invalidLogLimit value))) := by
  have together := ofWords_append accepted b
  refine ⟨fun cause => ?_, fun q read => ?_, fun value given => ?_⟩
  · rw [together]
    cases ofWords b <;> simp [Except.map]
  · rw [together, read]
    rfl
  · have spelled : ∀ word, limitIn? word = some value →
        ofWords (a ++ word :: b) = ofWords (a ++ "-n" :: value :: b) := by
      intro word carries
      rw [ofWords, ofWords, addWords_append accepted, addWords_append accepted]
      exact addWords_spelled carries given p b
    refine ⟨spelled _ (limitIn?_attached value), spelled _ (limitIn?_long value),
      fun digits => ⟨spelled _ (limitIn?_digits given digits), fun great => ?_⟩⟩
    have bound : wordBound ≤ digitsValue value.toList := great
    have refused : readLimit value = .error (.invalidLogLimit value) := by
      rw [readLimit_of_digits given digits, if_neg (Nat.not_lt.mpr bound)]
    rw [ofWords, addWords_append accepted, addWords_limit, refused]
    rfl

/-- A limit that is too great behind a limit that is accepted, and a branch that stays. -/
theorem log_words_compose_limits :
    LogRequest.ofWords ["--graph", "dev", "-n", "+7"] =
        .ok ⟨false, true, false, some 7, some "dev"⟩ ∧
      LogRequest.ofWords (["--graph", "dev", "-n", "+7"] ++ ["-3", "--all"]) =
        .ok ⟨false, true, true, some 3, some "dev"⟩ ∧
      LogRequest.ofWords (["--graph", "dev", "-n", "+7"] ++
        ("-" ++ "18446744073709551616") :: ["-3", "--all"]) =
          .error (.invalidLogLimit "18446744073709551616") := by
  have accepted : LogRequest.ofWords ["--graph", "dev", "-n", "+7"] =
      .ok ⟨false, true, false, some 7, some "dev"⟩ := by rfl
  obtain ⟨_, combined, spellings⟩ := log_words_compose accepted ["-3", "--all"]
  obtain ⟨_, _, spelled⟩ := spellings "18446744073709551616" (by decide)
  obtain ⟨same, great⟩ := spelled (by decide)
  refine ⟨accepted, combined ⟨false, false, true, some 3, none⟩ rfl, ?_⟩
  exact same.trans (great (by decide))

end LogRequest

end GitTutor
