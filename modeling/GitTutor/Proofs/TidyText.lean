import GitTutor.Proofs.BranchNames
import GitTutor.Proofs.LostCommits
import GitTutor.Proofs.Placement
import GitTutor.Proofs.ShellTurns

/-!
# Tidy text

The names that a session stores come from words of its lines, apart from the name of
the first branch, which a valid configuration makes a word, and from drawn file names,
which are words. Its messages are words with single spaces between them. So a name fits
where a report puts it, and a message on its line, whatever was typed.
-/

namespace GitTutor

open Repository Text

namespace Text

/-- A text that fits on a line and shows: it is not blank, and spaces are its only blanks. -/
structure IsPhrase (cs : List Char) : Prop where
  shows : ∃ c ∈ cs, isBlank c = false
  spaced : ∀ c ∈ cs, isBlank c = true → c = ' '

instance (cs : List Char) : Decidable (IsPhrase cs) :=
  decidable_of_iff
    (cs.any (fun c => !isBlank c) = true ∧ cs.all (fun c => !isBlank c || c == ' ') = true)
    ⟨fun ⟨shows, spaced⟩ =>
        ⟨by simpa using shows, by simpa [or_iff_not_imp_left] using spaced⟩,
      fun phrase =>
        ⟨by simpa using phrase.shows, by simpa [or_iff_not_imp_left] using phrase.spaced⟩⟩

theorem IsWord.not_isBlank {w : List Char} (word : IsWord w) {c : Char} (h : c ∈ w) :
    ¬isBlank c = true :=
  Bool.eq_false_iff.mp (word.2 c h)

theorem IsWord.isPhrase {w : List Char} (word : IsWord w) : IsPhrase w where
  shows := by
    obtain ⟨c, h⟩ := List.exists_mem_of_ne_nil w word.1
    exact ⟨c, h, word.2 c h⟩
  spaced := fun _ h blank => absurd blank (word.not_isBlank h)

theorem IsPhrase.append {front back : List Char} (before : IsPhrase front)
    (after : IsPhrase back) : IsPhrase (front ++ back) where
  shows := by
    obtain ⟨c, h, solid⟩ := before.shows
    exact ⟨c, List.mem_append_left back h, solid⟩
  spaced := by
    intro c h
    rcases List.mem_append.mp h with h | h
    · exact before.spaced c h
    · exact after.spaced c h

/-- Characters of joined texts come from the texts or from what stands between them. -/
theorem mem_joinWith {sep : String} {ws : List String} {c : Char}
    (h : c ∈ (joinWith sep ws).toList) : c ∈ sep.toList ∨ ∃ w ∈ ws, c ∈ w.toList := by
  induction ws with
  | nil => cases h
  | cons w ws ih =>
      cases ws with
      | nil => exact Or.inr ⟨w, List.mem_cons_self, h⟩
      | cons second rest =>
          rw [joinWith, String.toList_append, String.toList_append, List.append_assoc] at h
          rcases List.mem_append.mp h with h | h
          · exact Or.inr ⟨w, List.mem_cons_self, h⟩
          · rcases List.mem_append.mp h with h | h
            · exact Or.inl h
            · rcases ih h with h | ⟨v, within, h⟩
              · exact Or.inl h
              · exact Or.inr ⟨v, List.mem_cons_of_mem w within, h⟩

/-- Every name of a list is a word. -/
def AllWords (names : List String) : Prop :=
  ∀ name ∈ names, IsWord name.toList

theorem AllWords.nil : AllWords [] :=
  fun _ h => absurd h List.not_mem_nil

theorem AllWords.subset {names fewer : List String} (words : AllWords names)
    (h : fewer ⊆ names) : AllWords fewer :=
  fun name within => words name (h within)

theorem AllWords.concat {names : List String} (words : AllWords names) {name : String}
    (word : IsWord name.toList) : AllWords (names ++ [name]) := by
  intro other h
  rcases List.mem_append.mp h with h | h
  · exact words other h
  · exact List.mem_singleton.mp h ▸ word

theorem AllWords.addUnique {names : List String} (words : AllWords names) {name : String}
    (word : IsWord name.toList) : AllWords (addUnique names name) := by
  intro other h
  rcases mem_addUnique.mp h with h | rfl
  · exact words other h
  · exact word

theorem AllWords.addAllUnique {names more : List String} (words : AllWords names)
    (words' : AllWords more) : AllWords (addAllUnique names more) := by
  intro other h
  rcases mem_addAllUnique.mp h with h | h
  · exact words other h
  · exact words' other h

theorem isBlank_of_isDigit {c : Char} (digit : c.isDigit = true) : isBlank c = false := by
  have range : 48 ≤ c.toNat ∧ c.toNat ≤ 57 := Char.isDigit_iff_toNat.mp digit
  simp only [isBlank, blankRanges, List.any_cons, List.any_nil, Bool.or_false,
    Bool.or_eq_false_iff, Bool.and_eq_false_iff, decide_eq_false_iff_not]
  omega

theorem isWord_repr (n : Nat) : IsWord (Nat.repr n).toList := by
  rw [Nat.toList_repr]
  refine ⟨Nat.toDigits_ne_nil, fun c h => ?_⟩
  exact isBlank_of_isDigit (Nat.isDigit_of_mem_toDigits (by decide) (by decide) h)

theorem IsWord.append {front back : List Char} (before : IsWord front) (after : IsWord back) :
    IsWord (front ++ back) := by
  refine ⟨List.append_ne_nil_of_left_ne_nil before.1 back, fun c h => ?_⟩
  rcases List.mem_append.mp h with h | h
  · exact before.2 c h
  · exact after.2 c h

end Text

/-- A message that fits on a line and has no double quote. -/
structure IsMessage (text : String) : Prop where
  phrase : IsPhrase text.toList
  unquoted : '"' ∉ text.toList

section Reading

variable {words : List String}

/-- Words as free text are a message unless they are blank. -/
theorem isMessage_freeText (all : AllWords words) (solid : isAllBlank (freeText words) = false) :
    IsMessage (freeText words) where
  phrase := by
    constructor
    · simpa [isAllBlank] using solid
    · intro c h blank
      rw [freeText, String.toList_ofList] at h
      rcases mem_joinWith (List.mem_of_mem_filter h) with space | ⟨word, within, h⟩
      · exact List.mem_singleton.mp space
      · exact absurd blank ((all word within).not_isBlank h)
  unquoted := by
    intro h
    rw [freeText, String.toList_ofList] at h
    exact absurd rfl (bne_iff_ne.mp (List.mem_filter.mp h).2)

theorem CommitRequest.isMessage_of_scan {all : Bool} {request : CommitRequest}
    (solid : AllWords words) (read : scan all words = .ok request) : IsMessage request.message := by
  induction words generalizing all with
  | nil => cases read
  | cons word rest ih =>
      have later : AllWords rest := solid.subset (List.subset_cons_self word rest)
      rw [scan] at read
      split at read
      · dsimp only at read
        split at read
        · cases read
        · rename_i shows
          cases read
          exact isMessage_freeText later (Bool.eq_false_iff.mpr shows)
      · exact ih later read

theorem StashRequest.isMessage_of_messageOf {message : String} (solid : AllWords words)
    (h : messageOf words = some message) : IsMessage message := by
  rw [messageOf] at h
  split at h
  · cases h
  · rename_i shows
    cases h
    exact isMessage_freeText solid (Bool.eq_false_iff.mpr shows)

theorem StashRequest.isMessage_of_words {message : String} (solid : AllWords words)
    (read : ofWords words = .ok (.push (some message))) : IsMessage message := by
  unfold ofWords at read
  split at read
  · cases read
  · rename_i word rest
    have later : AllWords rest := solid.subset (List.subset_cons_self word rest)
    split at read
    · split at read
      · cases read
      · rename_i first more
        split at read
        · refine isMessage_of_messageOf (later.subset (List.subset_cons_self first more)) ?_
          simpa using read
        · refine isMessage_of_messageOf later ?_
          simpa using read
    · repeat' split at read
      all_goals cases read

theorem AddRequest.paths_of_words {paths : List String}
    (read : ofWords words = .ok (.paths paths)) : paths = words := by
  unfold ofWords at read
  split at read
  · cases read
  · split at read
    · cases read
    · split at read <;> cases read
      rfl

theorem readTarget_mem {missing : CommandError} {target : String}
    (read : readTarget missing words = .ok target) : target ∈ words := by
  unfold readTarget at read
  split at read
  · cases read
  · split at read <;> cases read
    exact List.mem_cons_self

/-- The names that a command carries into the repository are words, and its text is a message. -/
def Command.Tidy : Command → Prop
  | .branch (.create name) => IsWord name.toList
  | .checkout (.create name) => IsWord name.toList
  | .add (.paths paths) => AllWords paths
  | .commit request => IsMessage request.message
  | .stash (.push (some message)) => IsMessage message
  | .cherryPick source => IsWord source.toList
  | _ => True

theorem Command.Tidy.isMessage_getD {message : Option String}
    (asked : (Command.stash (.push message)).Tidy) : IsMessage (message.getD "WIP") := by
  cases message with
  | none => exact ⟨by decide, by decide⟩
  | some message => exact asked

/-- Every line that is read as a command is read as a tidy one. -/
theorem Command.tidy_of_line {line : String} {command : Command}
    (read : ofLine line = .ok command) : command.Tidy := by
  obtain ⟨arguments, within, taken⟩ := readFrom_of_line read
  have solid : AllWords arguments := fun word h => isWord_of_mem_wordsOf (within h)
  unfold Tidy
  split
  · exact solid _ (BranchRequest.create_of_words taken).1
  · exact solid _ (CheckoutRequest.create_of_words taken)
  · exact AddRequest.paths_of_words taken ▸ solid
  · exact CommitRequest.isMessage_of_scan solid taken
  · exact StashRequest.isMessage_of_words solid taken
  · exact solid _ (readTarget_mem taken)
  · trivial

end Reading

namespace Repository

variable {compile : PatternCompiler} {modified : List String}

/-- A pathspec stands for itself or for modified files. -/
theorem mem_of_resolve {path file : String} {files : List String}
    (resolved : resolve compile modified path = .ok files) (h : file ∈ files) :
    file = path ∨ file ∈ modified := by
  unfold resolve at resolved
  split at resolved
  · split at resolved
    · cases resolved
    · split at resolved
      · cases resolved
      · cases resolved
        exact Or.inr (List.mem_of_mem_filter h)
  · cases resolved
    exact Or.inl (List.mem_singleton.mp h)

theorem mem_of_resolveAll {paths files : List String} {file : String}
    (resolved : resolveAll compile modified paths = .ok files) (h : file ∈ files) :
    file ∈ paths ∨ file ∈ modified := by
  induction paths generalizing files with
  | nil =>
      cases resolved
      cases h
  | cons path rest ih =>
      rw [resolveAll] at resolved
      split at resolved
      · cases resolved
      · rename_i first here
        split at resolved
        · cases resolved
        · rename_i more later
          cases resolved
          rcases List.mem_append.mp h with h | h
          · rcases mem_of_resolve here h with rfl | h
            · exact Or.inl List.mem_cons_self
            · exact Or.inr h
          · rcases ih later h with h | h
            · exact Or.inl (List.mem_cons_of_mem path h)
            · exact Or.inr h

end Repository

/-- A commit with words as files and a message that fits on a line, and has a double quote only
after a cherry-pick. -/
structure Commit.Tidy (c : Commit) : Prop where
  files : AllWords c.files
  message : IsPhrase c.message.toList
  unquoted : '"' ∉ c.message.toList ∨ ∃ source, c.message = "Cherry-picked commit " ++ source

theorem Commit.Tidy.of_cherryPick {source : String} (word : IsWord source.toList)
    (hash author : String) :
    Commit.Tidy ⟨hash, "Cherry-picked commit " ++ source, author, []⟩ where
  files := AllWords.nil
  message := by
    rw [String.toList_append]
    have front : IsPhrase "Cherry-picked commit ".toList := by decide
    exact front.append word.isPhrase
  unquoted := Or.inr ⟨source, rfl⟩

/-- A stash entry with words as names and a message. -/
structure StashEntry.Tidy (entry : StashEntry) : Prop where
  branch : IsWord entry.branch.toList
  files : AllWords entry.files
  message : IsMessage entry.message

/-- The conditions on the text of a repository. The first commit of every log is not from a line,
so nothing is said of it. -/
structure Repository.Tidy (r : Repository) : Prop where
  branches : AllWords r.branches
  staged : AllWords r.staged
  modified : AllWords r.modified
  stash : ∀ entry ∈ r.stash, entry.Tidy
  commits : ∀ name, ∀ c ∈ (r.log name).tail, c.Tidy

namespace Repository.Tidy

variable {seed : Commit} {r : Repository}

theorem withFiles (tidy : r.Tidy) {staged modified : List String} (hs : AllWords staged)
    (hm : AllWords modified) : { r with staged := staged, modified := modified }.Tidy :=
  { tidy with staged := hs, modified := hm }

theorem withStash (tidy : r.Tidy) {stash : List StashEntry}
    (h : ∀ entry ∈ stash, entry.Tidy) : { r with stash := stash }.Tidy :=
  { tidy with stash := h }

theorem fork (tidy : r.Tidy) {name : String} (word : IsWord name.toList) :
    (r.fork name).Tidy :=
  { tidy with
    branches := tidy.branches.concat word
    commits := by
      intro other c h
      rw [log_fork] at h
      split at h
      · exact tidy.commits r.current c h
      · exact tidy.commits other c h }

theorem append (tidy : r.Tidy) (w : r.WellFormed seed) {commits : List Commit}
    (new : ∀ c ∈ commits, c.Tidy) : (r.append commits).Tidy :=
  { tidy with
    commits := by
      intro other c h
      rw [log_append] at h
      split at h
      · rw [List.tail_append_of_ne_nil w.currentLog_ne_nil] at h
        rcases List.mem_append.mp h with h | h
        · exact tidy.commits r.current c h
        · exact new c h
      · exact tidy.commits other c h }

theorem appendOne (tidy : r.Tidy) (w : r.WellFormed seed) {c : Commit} (new : c.Tidy) :
    (r.append [c]).Tidy :=
  tidy.append w fun _ h => List.mem_singleton.mp h ▸ new

/-- A merge takes over no first commit, because the current log has one already. -/
theorem incoming (tidy : r.Tidy) (w : r.WellFormed seed) {branch : String} {c : Commit}
    (h : c ∈ r.incoming branch) : c.Tidy := by
  have some : 0 < r.currentLog.length := List.length_pos_iff.mpr w.currentLog_ne_nil
  refine tidy.commits branch c ?_
  rw [← List.drop_one]
  exact (List.drop_sublist_drop_left _ some).subset h

theorem filesToCommit (tidy : r.Tidy) (all : Bool) : AllWords (r.filesToCommit all) := by
  cases all with
  | false => exact tidy.staged
  | true => exact tidy.staged.addAllUnique tidy.modified

theorem fresh {settings : Settings} (word : IsWord settings.initialBranch.toList) :
    (Repository.fresh settings).Tidy where
  branches := AllWords.nil.concat word
  staged := AllWords.nil
  modified := AllWords.nil
  stash := fun _ h => absurd h List.not_mem_nil
  commits := by
    intro name c h
    rw [log_fresh] at h
    split at h <;> cases h

/-- Every transition of a tidy command keeps the text tidy. -/
theorem transition {σ : Type} [Entropy σ] {compile : PatternCompiler} {e e' : σ}
    {command : Command} {r' : Repository} (tidy : r.Tidy) (w : r.WellFormed seed)
    (asked : command.Tidy) (t : Transition compile r e command r' e') : r'.Tidy := by
  cases t with
  | report => exact tidy
  | push => exact tidy
  | identify => exact { tidy with }
  | create name => exact tidy.fork asked
  | delete name => exact { tidy with branches := tidy.branches.subset (List.erase_subset ..) }
  | branchOff name => exact { tidy.fork asked with }
  | switch name => exact { tidy with }
  | stageAll => exact tidy.withFiles tidy.modified AllWords.nil
  | stage paths files resolved =>
      have found : AllWords files := by
        intro file h
        rcases mem_of_resolveAll resolved h with h | h
        · exact asked file h
        · exact tidy.modified file h
      exact tidy.withFiles (tidy.staged.addAllUnique found)
        (tidy.modified.subset (List.filter_subset_self ..))
  | commit request =>
      refine (tidy.appendOne w ?_).withFiles AllWords.nil ?_
      · exact ⟨tidy.filesToCommit request.all, asked.phrase, Or.inl asked.unquoted⟩
      · split
        · exact AllWords.nil
        · exact tidy.modified
  | commitNothing => exact tidy
  | merge branch => exact tidy.append w fun c h => tidy.incoming w h
  | mergeNothing => exact tidy
  | shelve message =>
      refine (tidy.withFiles AllWords.nil AllWords.nil).withStash fun entry h => ?_
      rcases List.mem_cons.mp h with rfl | h
      · -- The entry names the current branch, which exists and so has a word as its name.
        exact ⟨tidy.branches _ w.current_mem, tidy.modified.addAllUnique tidy.staged,
          asked.isMessage_getD⟩
      · exact tidy.stash entry h
  | shelveNothing => exact tidy
  | restore entry rest newest =>
      have kept := tidy.stash entry (newest ▸ List.mem_cons_self)
      exact tidy.withFiles tidy.staged (tidy.modified.addAllUnique kept.files)
  | pop entry rest newest =>
      have kept := tidy.stash entry (newest ▸ List.mem_cons_self)
      refine (tidy.withFiles tidy.staged (tidy.modified.addAllUnique kept.files)).withStash ?_
      exact fun older h => tidy.stash older (newest ▸ List.mem_cons_of_mem entry h)
  | drop entry rest newest =>
      exact tidy.withStash fun older h => tidy.stash older (newest ▸ List.mem_cons_of_mem entry h)
  | dropAll => exact tidy.withStash (by simp)
  | cherryPick source => exact tidy.appendOne w (.of_cherryPick asked _ _)

end Repository.Tidy

theorem Counter.isShortHash_hash (e : Counter) :
    ShortHash.isShortHash (Entropy.hash e).1 = true := by
  have drawn : (Entropy.hash e).1 = ShortHash.ofNat (e.hashes + 1) := rfl
  rw [drawn]
  exact ShortHash.isShortHash_ofNat _

/-- Every commit of every log has a short hash. -/
def Repository.ShortHashes (r : Repository) : Prop :=
  ∀ i c, r.Places i c → ShortHash.isShortHash c.hash = true

theorem Repository.shortHashes_fresh {settings : Settings}
    (first : ShortHash.isShortHash settings.seedHash = true) :
    (Repository.fresh settings).ShortHashes := by
  rintro i c ⟨name, found⟩
  have only := List.mem_of_getElem? found
  rw [log_fresh] at only
  split at only
  · rw [List.mem_singleton.mp only]
    exact first
  · cases only

namespace Session

variable {σ : Type} [Entropy σ] {seed : Commit}

/-- A step that puts a file under a given name into the tree puts it under a word. -/
def Step.Tidy : Step → Prop
  | .touch (some file) => IsWord file.toList
  | _ => True

theorem isWord_chooseFile (e : σ) {name : Option String} (asked : (Step.touch name).Tidy) :
    IsWord (chooseFile e name).1.toList := by
  cases name with
  | some file => exact asked
  | none =>
      have stem : IsWord "file".toList := by decide
      have ending : IsWord ".txt".toList := by decide
      rw [chooseFile, String.toList_append, String.toList_append]
      exact (stem.append (isWord_repr _)).append ending

/-- Every tidy step keeps the text tidy. -/
theorem tidy_step {s : Session σ} {step : Step} (asked : step.Tidy)
    (w : s.repository.WellFormed seed) (tidy : s.repository.Tidy) :
    (s.step step).repository.Tidy := by
  have moves := step_moves s step
  generalize (s.step step).repository = r' at moves ⊢
  generalize (s.step step).entropy = e' at moves
  cases moves with
  | refused => exact tidy
  | command done change =>
      obtain ⟨_, _, _, read, _⟩ := done
      exact tidy.transition w (Command.tidy_of_line read) change
  | touch name =>
      exact tidy.withFiles tidy.staged (tidy.modified.addUnique (isWord_chooseFile s.entropy asked))
  | clear => exact tidy

/-- A run of tidy steps keeps the text tidy. -/
theorem tidy_run {s : Session σ} {steps : List Step} (asked : ∀ step ∈ steps, step.Tidy)
    (w : s.repository.WellFormed seed) (tidy : s.repository.Tidy) :
    (s.run steps).repository.Tidy := by
  induction steps generalizing s with
  | nil => exact tidy
  | cons first rest ih =>
      have now := asked first List.mem_cons_self
      exact ih (fun step h => asked step (List.mem_cons_of_mem first h))
        (wellFormed_step s first w) (tidy_step now w tidy)

/-- The message of a commit that `git commit` makes fits on a line and has no double quote. -/
theorem Makes.isMessage {s : Session σ} {step : Step} {request : CommitRequest} {c : Commit}
    (made : s.Makes step (.commit request) c) : IsMessage c.message := by
  obtain ⟨⟨_, _, _, read, _⟩, new⟩ := made
  rw [Command.commit?] at new
  split at new
  · cases new
  · cases new
    exact Command.tidy_of_line read

/-- A source whose hashes are short gives every commit a short hash. -/
theorem shortHashes_run (short : ∀ e : σ, ShortHash.isShortHash (Entropy.hash e).1 = true)
    {s : Session σ} (steps : List Step) (known : s.repository.ShortHashes) :
    (s.run steps).repository.ShortHashes := by
  refine run_invariant (P := fun s => s.repository.ShortHashes)
    (fun s step known i c placed => ?_) known steps
  rcases step_places s step with old | ⟨new, drawn, _, old⟩
  · exact known i c (old i c placed)
  · rcases old i c placed with placed | ⟨_, rfl⟩
    · exact known i c placed
    · rw [drawn]
      exact short s.entropy

end Session

namespace Shell

theorem Asks.tidy {words : List String} {step : Session.Step} (asked : Asks words (.take step))
    (solid : AllWords words) : step.Tidy := by
  cases asked with
  | clear | shortcut => trivial
  | touch more =>
      cases more with
      | nil => trivial
      | cons file more => exact solid file (List.mem_cons_of_mem _ List.mem_cons_self)

/-- A line takes only tidy steps. -/
theorem Means.tidy {line : String} {step : Session.Step} (means : Means line (.take step)) :
    step.Tidy := by
  cases means with
  | execute => trivial
  | own colon asked => exact asked.tidy fun _ => isWord_of_mem_wordsOf

/-- Whatever lines the shell handles in a session under a valid configuration: names of branches
and files are words, messages of commits and stash entries fit on a line, and no message that
`git commit` or `git stash` stores has a double quote. Only the first commit of a log, which is
the configured one, may have another message. With a counter as the source all hashes are short
ones. -/
theorem stored_text_tidy {c : Config} (valid : c.validate = .ok ()) (compile : PatternCompiler)
    (t : Terminal) (lines : List String) :
    (∀ (σ : Type) [Entropy σ] (e : σ),
      let r := (after t (Session.startWith compile c.settings e) lines).repository
      r.Tidy ∧ ∀ name ∈ r.logs.names, (r.log name).head? = some c.settings.seedCommit) ∧
    (∀ (σ : Type) [Entropy σ] (s : Session σ) step request commit,
      s.Makes step (.commit request) commit → IsMessage commit.message) ∧
    ∀ e : Counter, let r := (after t (Session.startWith compile c.settings e) lines).repository
      ∀ name, ∀ commit ∈ r.log name, ShortHash.isShortHash commit.hash = true := by
  obtain ⟨branch, hash, _⟩ := (Config.validate_eq_ok_iff c).mp valid
  refine ⟨fun σ _ e => ?_, fun σ _ s step request commit => Session.Makes.isMessage, fun e => ?_⟩
  · obtain ⟨steps, same, meant⟩ := after_eq_run t (Session.startWith compile c.settings e) lines
    have asked : ∀ step ∈ steps, step.Tidy := by
      intro step h
      obtain ⟨line, _, means⟩ := meant step h
      exact means.tidy
    have first := Repository.Tidy.fresh (Config.isBranchName_iff.mp branch)
    rw [same]
    refine ⟨Session.tidy_run asked (.fresh c.settings) first, fun name h => ?_⟩
    exact (Session.wellFormed_run compile c.settings e steps).head?_log h
  · obtain ⟨steps, same, _⟩ := after_eq_run t (Session.startWith compile c.settings e) lines
    rw [same]
    intro r name commit h
    obtain ⟨i, found⟩ := List.mem_iff_getElem?.mp h
    have first := Repository.shortHashes_fresh hash
    exact Session.shortHashes_run Counter.isShortHash_hash steps first i commit ⟨name, found⟩

/-- Blanks of several kinds, quotes that are never closed, and a drawn file name. -/
theorem stored_text_tidy_quotes :
    let t : Terminal := ⟨⟨"user", "host", "~", false⟩, .standard⟩
    let s := Session.startWith (fun _ => none) Config.standard.settings Counter.zero
    let r := (after t s [":touch", "git commit -am \"two\twords", "git cherry-pick \"",
      ":touch \u3000b.txt", "git stash push \"\" \u00a0 kept\n"]).repository
    Config.standard.validate = .ok () ∧ r.Tidy ∧
      (r.log "main").map Commit.message =
        ["Initial commit", "two words", "Cherry-picked commit \""] ∧
      r.stash = [⟨" kept", ["b.txt"], "main"⟩] := by
  intro t s r
  have valid : Config.standard.validate = .ok () := by decide +kernel
  obtain ⟨texts, _, _⟩ := stored_text_tidy valid (fun _ => none) t
    [":touch", "git commit -am \"two\twords", "git cherry-pick \"",
      ":touch \u3000b.txt", "git stash push \"\" \u00a0 kept\n"]
  exact ⟨valid, (texts Counter Counter.zero).1, by decide +kernel, by decide +kernel⟩

end Shell

end GitTutor
