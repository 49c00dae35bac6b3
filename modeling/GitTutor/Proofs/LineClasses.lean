import GitTutor.Command.Reader

/-!
# Classes of lines

The first two words of a line decide whether it is a command of `git` at all and which
subcommand it names. Behind them stand the arguments, and a subcommand that refuses its
arguments says that they are invalid and nothing else. Reading by positions, with slices
that must not reach beyond the end of the words, comes to the same.
-/

namespace GitTutor

open Text

/-- The word that names the subcommand of a command. -/
def Command.subcommand : Command → String
  | .version => "--version"
  | .config _ => "config"
  | .init => "init"
  | .status => "status"
  | .branch _ => "branch"
  | .checkout _ => "checkout"
  | .add _ => "add"
  | .commit _ => "commit"
  | .log _ => "log"
  | .merge _ => "merge"
  | .pull _ => "pull"
  | .push _ => "push"
  | .clone _ => "clone"
  | .stash _ => "stash"
  | .rebase _ => "rebase"
  | .cherryPick _ => "cherry-pick"

section Arguments

variable {α β : Type} {words : List String}

/-- A reader of arguments gives a request, or it refuses the arguments as invalid. -/
def ReadsArguments (read : Except CommandError α) : Prop :=
  ∀ cause, read = .error cause → cause.kind = .invalidArgument

@[simp] theorem readsArguments_ok (a : α) : ReadsArguments (.ok a : Except CommandError α) := by
  intro cause refused
  cases refused

@[simp] theorem readsArguments_error (cause : CommandError) :
    ReadsArguments (.error cause : Except CommandError α) ↔ cause.kind = .invalidArgument := by
  simp [ReadsArguments]

/-- What a reader gives may be wrapped. -/
theorem ReadsArguments.map {read : Except CommandError α} (h : ReadsArguments read) (f : α → β) :
    ReadsArguments (f <$> read) := by
  cases read with
  | ok a => exact readsArguments_ok (f a)
  | error cause => exact (readsArguments_error cause).mpr (h cause rfl)

theorem readsArguments_target {missing : CommandError} (invalid : missing.kind = .invalidArgument)
    (words : List String) : ReadsArguments (readTarget missing words) := by
  unfold readTarget
  split
  · rwa [readsArguments_error]
  · split <;> simp [CommandError.kind]

theorem readsArguments_key (word : String) : ReadsArguments (IdentityKey.ofWord word) := by
  unfold IdentityKey.ofWord
  split
  · simp
  · split <;> simp [CommandError.kind]

theorem readsArguments_keyed (words : List String) :
    ReadsArguments (ConfigRequest.ofKeyed words) := by
  unfold ConfigRequest.ofKeyed
  split
  · simp [CommandError.kind]
  · rename_i word values
    split
    · simp [CommandError.kind]
    · split
      · rename_i cause refused
        exact (readsArguments_error cause).mpr (readsArguments_key word cause refused)
      · split <;> simp

theorem readsArguments_config (words : List String) :
    ReadsArguments (ConfigRequest.ofWords words) := by
  unfold ConfigRequest.ofWords
  split
  · simp
  · split
    · simp
    · split <;> exact readsArguments_keyed _

theorem readsArguments_branch (words : List String) :
    ReadsArguments (BranchRequest.ofWords words) := by
  unfold BranchRequest.ofWords
  split
  · simp
  · split
    · simp
    · split
      · split <;> simp [CommandError.kind]
      · split <;> simp [CommandError.kind]

theorem readsArguments_checkout (words : List String) :
    ReadsArguments (CheckoutRequest.ofWords words) := by
  unfold CheckoutRequest.ofWords
  split
  · simp [CommandError.kind]
  · split
    · split <;> simp [CommandError.kind]
    · split <;> simp [CommandError.kind]

theorem readsArguments_add (words : List String) : ReadsArguments (AddRequest.ofWords words) := by
  unfold AddRequest.ofWords
  split
  · simp [CommandError.kind]
  · split
    · simp
    · split <;> simp [CommandError.kind]

theorem readsArguments_commit (all : Bool) (words : List String) :
    ReadsArguments (CommitRequest.scan all words) := by
  induction words generalizing all with
  | nil => simp [CommitRequest.scan, CommandError.kind]
  | cons word rest ih =>
      rw [CommitRequest.scan]
      split
      · dsimp only
        split <;> simp [CommandError.kind]
      · exact ih _

theorem readsArguments_limit (value : String) : ReadsArguments (LogRequest.readLimit value) := by
  unfold LogRequest.readLimit
  split <;> simp [CommandError.kind]

theorem readsArguments_logWord (request : LogRequest) (word : String) :
    ReadsArguments (request.addWord word) := by
  unfold LogRequest.addWord
  split
  · simp
  split
  · simp
  split
  · simp
  split
  · rename_i value _
    split
    · rename_i cause refused
      exact (readsArguments_error cause).mpr (readsArguments_limit value cause refused)
    · simp
  · split <;> simp [CommandError.kind]

theorem readsArguments_log (request : LogRequest) (words : List String) :
    ReadsArguments (request.addWords words) := by
  fun_induction LogRequest.addWords request words with
  | case1 => simp
  | case2 => simp [CommandError.kind]
  | case3 request word => exact readsArguments_logWord request word
  | case4 request value rest cause refused =>
      exact (readsArguments_error cause).mpr (readsArguments_limit value cause refused)
  | case5 _ _ _ _ _ ih => exact ih
  | case6 request word value rest _ cause refused =>
      exact (readsArguments_error cause).mpr (readsArguments_logWord request word cause refused)
  | case7 _ _ _ _ _ _ _ ih => exact ih

theorem readsArguments_url (words : List String) : ReadsArguments (readUrl words) := by
  fun_induction readUrl words with
  | case1 => simp [CommandError.kind]
  | case2 => simp [CommandError.kind]
  | case3 => simp
  | case4 _ _ _ _ ih => exact ih
  | case5 _ _ _ _ _ ih => exact ih
  | case6 => simp

theorem readsArguments_stash (words : List String) :
    ReadsArguments (StashRequest.ofWords words) := by
  unfold StashRequest.ofWords
  split
  · simp
  · repeat' split
    all_goals simp [CommandError.kind]

end Arguments

namespace Command

/-- What is read under a subcommand is a command of that subcommand, or the arguments are
refused as invalid. -/
def ReadUnder (name : String) (read : Except CommandError Command) : Prop :=
  (∃ command, read = .ok command ∧ command.subcommand = name) ∨
    ∃ cause, read = .error cause ∧ cause.kind = .invalidArgument

theorem ReadUnder.of_ok {name : String} {command : Command} (named : command.subcommand = name) :
    ReadUnder name (.ok command) :=
  Or.inl ⟨command, rfl, named⟩

theorem ReadUnder.of_map {α : Type} {name : String} {f : α → Command}
    {read : Except CommandError α} (named : ∀ a, (f a).subcommand = name)
    (h : ReadsArguments read) : ReadUnder name (f <$> read) := by
  cases read with
  | ok a => exact .of_ok (named a)
  | error cause => exact Or.inr ⟨cause, rfl, h cause rfl⟩

/-- Every word of the list, and `--version`, has its arguments read by its subcommand. -/
theorem readUnder_of_mem {name : String} (known : name ∈ "--version" :: subcommands)
    (words : List String) : ReadUnder name (ofSubcommand name words) := by
  simp only [subcommands, List.mem_cons, List.not_mem_nil, or_false] at known
  rcases known with rfl | rfl | rfl | rfl | rfl | rfl | rfl | rfl | rfl | rfl | rfl | rfl | rfl |
    rfl | rfl | rfl
  · exact .of_ok rfl
  · exact .of_map (fun _ => rfl) (readsArguments_config words)
  · exact .of_ok rfl
  · exact .of_ok rfl
  · exact .of_map (fun _ => rfl) (readsArguments_branch words)
  · exact .of_map (fun _ => rfl) (readsArguments_checkout words)
  · exact .of_map (fun _ => rfl) (readsArguments_add words)
  · exact .of_map (fun _ => rfl) (readsArguments_commit false words)
  · exact .of_map (fun _ => rfl) (readsArguments_log .plain words)
  · exact .of_map (fun _ => rfl) (readsArguments_target rfl words)
  · exact .of_ok rfl
  · exact .of_ok rfl
  · exact .of_map (fun _ => rfl) (readsArguments_url words)
  · exact .of_map (fun _ => rfl) (readsArguments_stash words)
  · exact .of_map (fun _ => rfl) (readsArguments_target rfl words)
  · exact .of_map (fun _ => rfl) (readsArguments_target rfl words)

/-- No other word is the name of a subcommand. -/
theorem ofSubcommand_of_notMem {name : String} (unknown : name ∉ "--version" :: subcommands)
    (words : List String) : ofSubcommand name words = .error (.unknownSubcommand name) := by
  unfold ofSubcommand
  split
  all_goals first
    | exact absurd (by decide) unknown
    | rfl

theorem ReadUnder.ne_error {name : String} {read : Except CommandError Command}
    {cause : CommandError} (under : ReadUnder name read) (other : cause.kind ≠ .invalidArgument) :
    read ≠ .error cause := by
  rintro rfl
  rcases under with ⟨command, same, _⟩ | ⟨refused, same, invalid⟩
  · cases same
  · cases same
    exact other invalid

/-- The classes of lines, given by their words, and what is read of a line in each class. -/
inductive Class : List String → Except CommandError Command → Prop
  | foreign {words : List String} (other : words.head? ≠ some "git") :
      Class words (.error (.commandNotFound (words.head?.getD "")))
  | bare : Class ["git"] (.error .missingSubcommand)
  | unknown {name : String} {arguments : List String}
      (unlisted : name ∉ "--version" :: subcommands) :
      Class ("git" :: name :: arguments) (.error (.unknownSubcommand name))
  | known {name : String} {arguments : List String} {read : Except CommandError Command}
      (listed : name ∈ "--version" :: subcommands) (under : ReadUnder name read) :
      Class ("git" :: name :: arguments) read

/-- Every line is in the class in which it is read. -/
theorem class_ofWords (words : List String) : Class words (ofWords words) := by
  cases words with
  | nil => exact .foreign (by simp)
  | cons word rest =>
      by_cases git : word = "git"
      · subst git
        cases rest with
        | nil => exact .bare
        | cons name arguments =>
            have read : ofWords ("git" :: name :: arguments) = ofSubcommand name arguments := rfl
            rw [read]
            by_cases listed : name ∈ "--version" :: subcommands
            · exact .known listed (readUnder_of_mem listed arguments)
            · rw [ofSubcommand_of_notMem listed]
              exact .unknown listed
      · have read : ofWords (word :: rest) = .error (.commandNotFound word) := by
          simp [ofWords, git]
        rw [read]
        exact .foreign (by simpa using git)

section Classes

variable {words : List String} {read : Except CommandError Command}

theorem Class.notFound_iff (h : Class words read) (word : String) :
    read = .error (.commandNotFound word) ↔
      words.head? ≠ some "git" ∧ word = words.head?.getD "" := by
  cases h with
  | foreign other => simp [other, eq_comm]
  | bare => simp
  | unknown => simp
  | known listed under =>
      have other : read ≠ .error (.commandNotFound word) :=
        under.ne_error (by simp [CommandError.kind])
      simp [other]

theorem Class.missing_iff (h : Class words read) :
    read = .error .missingSubcommand ↔ words = ["git"] := by
  cases h with
  | foreign other =>
      constructor
      · intro same
        cases same
      · rintro rfl
        exact absurd rfl other
  | bare => simp
  | unknown => simp
  | known listed under =>
      have other : read ≠ .error .missingSubcommand :=
        under.ne_error (by simp [CommandError.kind])
      simp [other]

theorem Class.unknown_iff (h : Class words read) (name : String) :
    read = .error (.unknownSubcommand name) ↔
      ∃ arguments, words = "git" :: name :: arguments ∧ name ∉ "--version" :: subcommands := by
  cases h with
  | foreign other =>
      constructor
      · intro same
        cases same
      · rintro ⟨_, rfl, _⟩
        exact absurd rfl other
  | bare => simp
  | unknown unlisted =>
      constructor
      · intro same
        cases same
        exact ⟨_, rfl, unlisted⟩
      · rintro ⟨_, same, _⟩
        cases same
        rfl
  | known listed under =>
      constructor
      · intro same
        exact absurd same (under.ne_error (by simp [CommandError.kind]))
      · rintro ⟨_, same, unlisted⟩
        cases same
        exact absurd listed unlisted

theorem Class.readUnder (h : Class words read) {name : String} {arguments : List String}
    (shape : words = "git" :: name :: arguments) (listed : name ∈ "--version" :: subcommands) :
    ReadUnder name read := by
  cases h with
  | foreign other =>
      rw [shape] at other
      exact absurd rfl other
  | bare => cases shape
  | unknown unlisted =>
      cases shape
      exact absurd listed unlisted
  | known _ under =>
      cases shape
      exact under

/-- No line is refused for what a repository holds. -/
theorem Class.kind_ne (h : Class words read) {cause : CommandError}
    (refused : read = .error cause) : cause.kind ≠ .referential ∧ cause.kind ≠ .conflict := by
  cases h with
  | foreign | bare | unknown =>
      cases refused
      simp [CommandError.kind]
  | known listed under =>
      rcases under with ⟨command, same, _⟩ | ⟨other, same, invalid⟩
      · cases same.symm.trans refused
      · cases same.symm.trans refused
        simp [invalid]

end Classes

end Command

section Positions

/-- The words from one position up to another one, unless these bounds are out of order or
beyond the end. -/
def slice? (words : List String) (start stop : Nat) : Option (List String) :=
  if start ≤ stop ∧ stop ≤ words.length then some ((words.take stop).drop start) else none

theorem slice?_to_end {words : List String} {start : Nat} (within : start ≤ words.length) :
    slice? words start words.length = some (words.drop start) := by
  rw [slice?, if_pos ⟨within, Nat.le_refl _⟩, List.take_length]

/-- The value that the words after a key give it, cut out by positions. -/
def IdentityKey.valueAt? : IdentityKey → List String → Option String
  | .name, values => some (freeText values)
  | .email, values => (slice? values 0 1).map freeText

/-- Read a key and the words after it, with the value cut out by positions. -/
def ConfigRequest.keyedAt? : List String → Option (Except CommandError ConfigRequest)
  | [] => some (.error .missingConfigKey)
  | word :: values =>
      if isFlag word then some (.error (.unknownOption word))
      else match IdentityKey.ofWord word with
        | .error cause => some (.error cause)
        | .ok key =>
            if values = [] then some (.ok (.get key))
            else (key.valueAt? values).map fun value => .ok (.set key value)

/-- Read the arguments of `git config`, with the value cut out by positions. -/
def ConfigRequest.readAt? : List String → Option (Except CommandError ConfigRequest)
  | [] => some (.ok .summary)
  | word :: rest =>
      if word = "--list" ∨ word = "-l" then some (.ok .listing)
      else if word = "--global" ∨ word = "--local" then keyedAt? rest
      else keyedAt? (word :: rest)

/-- Read the arguments of `git commit` from a position on. -/
def CommitRequest.scanAt? (words : List String) (all : Bool) (index : Nat) :
    Option (Except CommandError CommitRequest) :=
  if below : index < words.length then
    if startsMessage words[index] then
      (slice? words (index + 1) words.length).map fun rest =>
        let message := freeText rest
        if isAllBlank message then .error .emptyCommitMessage
        else .ok ⟨message, all || words[index] = "-am"⟩
    else scanAt? words (all || asksAll words[index]) (index + 1)
  else some (.error .missingCommitMessage)
termination_by words.length - index

/-- Read the arguments of a subcommand, by positions where arguments are cut out. -/
def Command.argumentsAt? (name : String) (words : List String) :
    Option (Except CommandError Command) :=
  if name = "config" then (ConfigRequest.readAt? words).map (Command.config <$> ·)
  else if name = "commit" then (CommitRequest.scanAt? words false 0).map (Command.commit <$> ·)
  else some (ofSubcommand name words)

/-- Read the words of a line by positions. -/
def Command.readAt? (words : List String) : Option (Except CommandError Command) :=
  let first := words[0]?.getD ""
  if first ≠ "git" then some (.error (.commandNotFound first))
  else match words[1]? with
    | none => some (.error .missingSubcommand)
    | some name => (slice? words 2 words.length).bind (argumentsAt? name)

theorem IdentityKey.valueAt?_eq (key : IdentityKey) (value : String) (rest : List String) :
    key.valueAt? (value :: rest) = some (key.valueOf value rest) := by
  cases key with
  | name => rfl
  | email => simp [valueAt?, valueOf, slice?]

theorem ConfigRequest.keyedAt?_eq (words : List String) :
    keyedAt? words = some (ofKeyed words) := by
  cases words with
  | nil => rfl
  | cons word values =>
      rw [keyedAt?, ofKeyed]
      split
      · rfl
      · cases IdentityKey.ofWord word with
        | error cause => rfl
        | ok key =>
            cases values with
            | nil => rfl
            | cons value rest => simp [IdentityKey.valueAt?_eq]

theorem ConfigRequest.readAt?_eq (words : List String) : readAt? words = some (ofWords words) := by
  cases words with
  | nil => rfl
  | cons word rest =>
      rw [readAt?, ofWords]
      split
      · rfl
      · split <;> exact keyedAt?_eq _

/-- The message starts behind a word, so it starts at the end of the words at the latest. -/
theorem CommitRequest.scanAt?_eq (words : List String) (all : Bool) (index : Nat) :
    scanAt? words all index = some (scan all (words.drop index)) := by
  fun_induction scanAt? words all index with
  | case1 all index below starts =>
      rw [List.drop_eq_getElem_cons below, scan, if_pos starts, slice?_to_end below]
      rfl
  | case2 all index below other ih =>
      rw [ih, List.drop_eq_getElem_cons below, scan, if_neg other]
  | case3 all index beyond =>
      rw [List.drop_eq_nil_of_le (Nat.le_of_not_lt beyond)]
      rfl

theorem Command.argumentsAt?_eq (name : String) (words : List String) :
    argumentsAt? name words = some (ofSubcommand name words) := by
  unfold argumentsAt?
  split
  · rename_i config
    subst config
    rw [ConfigRequest.readAt?_eq]
    rfl
  · split
    · rename_i commit
      subst commit
      rw [CommitRequest.scanAt?_eq]
      rfl
    · rfl

theorem Command.readAt?_eq (words : List String) : readAt? words = some (ofWords words) := by
  match words with
  | [] => rfl
  | [word] => by_cases git : word = "git" <;> simp [readAt?, ofWords, git]
  | word :: name :: arguments =>
      by_cases git : word = "git"
      · subst git
        have cut : slice? ("git" :: name :: arguments) 2 ("git" :: name :: arguments).length =
            some arguments := slice?_to_end (by simp)
        calc readAt? ("git" :: name :: arguments)
          _ = (slice? ("git" :: name :: arguments) 2
              ("git" :: name :: arguments).length).bind (argumentsAt? name) := rfl
          _ = argumentsAt? name arguments := by rw [cut, Option.bind_some]
          _ = some (ofWords ("git" :: name :: arguments)) := argumentsAt?_eq name arguments
      · simp [readAt?, ofWords, git]

end Positions

namespace Command

/-- The class of every line by its words. A line is no command exactly if its first word is not
`git`, it lacks a subcommand exactly if it is `git` alone, and it names an unknown subcommand
exactly if its second word is neither `--version` nor in the list of subcommands. Every other
line is read as a command of its second word or refused with invalid arguments, and none is
refused for what a repository holds. Reading by positions never leaves the words, and the
subcommands that are read are those of the list. -/
theorem line_classified (line : String) :
    let words := wordsOf line
    (∀ word, ofLine line = .error (.commandNotFound word) ↔
      words.head? ≠ some "git" ∧ word = words.head?.getD "") ∧
    (ofLine line = .error .missingSubcommand ↔ words = ["git"]) ∧
    (∀ name, ofLine line = .error (.unknownSubcommand name) ↔
      ∃ arguments, words = "git" :: name :: arguments ∧ name ∉ "--version" :: subcommands) ∧
    (∀ name arguments, words = "git" :: name :: arguments → name ∈ "--version" :: subcommands →
      (∃ command, ofLine line = .ok command ∧ command.subcommand = name) ∨
        ∃ cause, ofLine line = .error cause ∧ cause.kind = .invalidArgument) ∧
    (∀ cause, ofLine line = .error cause →
      cause.kind ≠ .referential ∧ cause.kind ≠ .conflict) ∧
    readAt? words = some (ofLine line) ∧
    ∀ name arguments, ofSubcommand name arguments = .error (.unknownSubcommand name) ↔
      name ∉ "--version" :: subcommands := by
  intro words
  have cls : Class words (ofLine line) := class_ofWords words
  refine ⟨cls.notFound_iff, cls.missing_iff, cls.unknown_iff, fun name arguments => cls.readUnder,
    fun cause => cls.kind_ne, readAt?_eq words, fun name arguments => ⟨fun refused listed => ?_,
      fun unlisted => ofSubcommand_of_notMem unlisted arguments⟩⟩
  have under := readUnder_of_mem listed arguments
  exact under.ne_error (by simp [CommandError.kind]) refused

/-- Blanks of several kinds, a word that is almost a subcommand and one that is refused later. -/
theorem line_classified_blanks :
    wordsOf "\u3000git\tLog\u00a0-3" = ["git", "Log", "-3"] ∧
      ofLine "\u3000git\tLog\u00a0-3" = .error (.unknownSubcommand "Log") ∧
      wordsOf " git log  -n " = ["git", "log", "-n"] ∧
      ((∃ command, ofLine " git log  -n " = .ok command ∧ command.subcommand = "log") ∨
        ∃ cause, ofLine " git log  -n " = .error cause ∧ cause.kind = .invalidArgument) := by
  have upper : wordsOf "\u3000git\tLog\u00a0-3" = ["git", "Log", "-3"] := by decide +kernel
  have lower : wordsOf " git log  -n " = ["git", "log", "-n"] := by decide +kernel
  obtain ⟨_, _, unknown, _⟩ := line_classified "\u3000git\tLog\u00a0-3"
  obtain ⟨_, _, _, known, _⟩ := line_classified " git log  -n "
  exact ⟨upper, (unknown "Log").mpr ⟨["-3"], upper, by decide⟩, lower,
    known "log" ["-n"] lower (by decide)⟩

end Command

end GitTutor
