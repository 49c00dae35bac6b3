import GitTutor.Config.Listing
import GitTutor.Proofs.EncodedOrder
import GitTutor.Proofs.Leaves
import GitTutor.Proofs.TableOrder
import Mathlib.Data.List.Nodup
import Mathlib.Order.Bounds.Basic

/-!
# The listing of options

The listing has one line for each option that is set, in the order of the bytes of their keys. No
name of a remote makes the key of another option, so no option is hidden. The width of the keys is
counted in bytes and the spaces behind a key in characters. A key has no more characters than
bytes, so all values begin in one column. Only the name of a remote can make a key so long that its
width does not fit into 16 bits, and then nothing is listed at all.
-/

namespace GitTutor.Config

open Text

/-- The options that a configuration sets, with their values. -/
inductive Sets (c : Config) : String → String → Prop
  | console : Sets c "global.output_log_level" (Nat.repr c.logging.console.toNat)
  | file : Sets c "global.file_log_level" (Nat.repr c.logging.file.toNat)
  | path {path : FilePath} (given : c.logging.path = some path) :
      Sets c "global.log_file" path.display
  | seed {n : Nat} (given : c.seed = some n) : Sets c "simulator.seed" (Nat.repr n)
  | color : Sets c "terminal.color" (if c.terminal.color then "true" else "false")
  /-- Every other option of one value, but no empty part of the identity. -/
  | text (o : TextOption) (shown : o.place = "user" → o.get c ≠ "") :
      Sets c (o.place ++ "." ++ o.key) (o.get c)
  | remote {name address : String} (given : c.settings.remotes.get? name = some address) :
      Sets c ("remotes." ++ name) address

/-- The rows in front of those of the remotes. -/
def leadingRows (c : Config) : Rows String :=
  loggingRows c.logging ++ simulatorRows c.settings c.seed ++ userRows c.settings.user

theorem options_eq (c : Config) : c.options =
    Table.ofList (c.leadingRows ++ remoteRows c.settings.remotes ++ terminalRows c.terminal) := rfl

/-- The keys that can stand in front of those of the remotes. -/
def leadingKeys : List String :=
  ["global.output_log_level", "global.file_log_level", "global.log_file"] ++
  ["simulator.initial_branch", "simulator.seed_hash", "simulator.seed_message",
   "simulator.seed_author", "simulator.git_version", "simulator.workspace", "simulator.seed"] ++
  ["user.name", "user.email"]

/-- The keys of the terminal. -/
def terminalKeys : List String :=
  ["terminal.prompt_user", "terminal.prompt_host", "terminal.prompt_path", "terminal.color"]

theorem leadingRows_keys (c : Config) : (c.leadingRows.map Prod.fst).Sublist leadingKeys := by
  rw [leadingRows, List.map_append, List.map_append]
  apply List.Sublist.append
  · apply List.Sublist.append
    · rw [loggingRows]
      cases c.logging.path <;> simp
    · rw [simulatorRows]
      cases c.seed <;> simp
  · rw [userRows]
    exact List.filter_sublist.map Prod.fst

theorem terminalRows_keys (t : TerminalSettings) : (terminalRows t).map Prod.fst = terminalKeys := rfl

theorem remoteRows_keys (remotes : Table String) :
    (remoteRows remotes).map Prod.fst = remotes.names.map ("remotes." ++ ·) := by
  rw [remoteRows, Table.names, List.map_map, List.map_map]
  rfl

theorem remoteKey_injective : Function.Injective ("remotes." ++ · : String → String) := by
  intro name name' same
  have letters := congrArg String.toList same
  simp only [String.toList_append] at letters
  exact String.toList_inj.mp (List.append_cancel_left letters)

/-- The key of a remote is that of no other option. -/
theorem remoteKey_notMem (name : String) : "remotes." ++ name ∉ leadingKeys ∧
    "remotes." ++ name ∉ terminalKeys := by
  -- Every other key begins with another letter.
  have others : ∀ key ∈ leadingKeys ++ terminalKeys, key.toList.head? ≠ some 'r' := by decide
  have first : ("remotes." ++ name).toList.head? = some 'r' := by
    rw [String.toList_append]
    rfl
  refine ⟨fun within => ?_, fun within => ?_⟩
  · exact others _ (List.mem_append_left _ within) first
  · exact others _ (List.mem_append_right _ within) first

/-- No key is that of two rows. -/
theorem nodup_keys (c : Config) :
    ((c.leadingRows ++ remoteRows c.settings.remotes ++ terminalRows c.terminal).map
      Prod.fst).Nodup := by
  rw [List.map_append, List.map_append, remoteRows_keys, terminalRows_keys]
  have leading : ∀ key ∈ c.leadingRows.map Prod.fst, key ∈ leadingKeys := fun key within =>
    (leadingRows_keys c).subset within
  have apart : ∀ key ∈ leadingKeys, key ∉ terminalKeys := by decide
  refine List.nodup_append.mpr ⟨List.nodup_append.mpr ⟨?_, ?_, ?_⟩, by decide, ?_⟩
  · exact (by decide : leadingKeys.Nodup).sublist (leadingRows_keys c)
  · exact List.Nodup.map remoteKey_injective c.settings.remotes.nodup
  · rintro key within _ remote rfl
    obtain ⟨name, -, rfl⟩ := List.mem_map.mp remote
    exact (remoteKey_notMem name).1 (leading _ within)
  · rintro key within _ terminal rfl
    rcases List.mem_append.mp within with within | remote
    · exact apart key (leading key within) terminal
    · obtain ⟨name, -, rfl⟩ := List.mem_map.mp remote
      exact (remoteKey_notMem name).2 terminal

theorem mem_remoteRows_iff {remotes : Table String} {key value : String} :
    (key, value) ∈ remoteRows remotes ↔
      ∃ name, key = "remotes." ++ name ∧ remotes.get? name = some value := by
  rw [remoteRows, List.mem_map]
  constructor
  · rintro ⟨⟨name, address⟩, within, same⟩
    obtain ⟨rfl, rfl⟩ := Prod.mk.inj same
    exact ⟨name, rfl, (Rows.find?_eq_some_iff remotes.nodup).mpr within⟩
  · rintro ⟨name, rfl, given⟩
    exact ⟨(name, value), (Rows.find?_eq_some_iff remotes.nodup).mp given, rfl⟩

theorem sets_of_mem_loggingRows {c : Config} {key value : String}
    (h : (key, value) ∈ loggingRows c.logging) : c.Sets key value := by
  simp only [loggingRows, List.mem_append, List.mem_cons, List.not_mem_nil, or_false,
    Option.mem_toList, Option.map_eq_some_iff, Prod.mk.injEq] at h
  rcases h with (⟨rfl, rfl⟩ | ⟨rfl, rfl⟩) | ⟨path, given, rfl, rfl⟩
  · exact .console
  · exact .file
  · exact .path given

/-- The row of an option whose value is a text. -/
def textRow (c : Config) (o : TextOption) : String × String :=
  (o.place ++ "." ++ o.key, o.get c)

theorem sets_of_mem_textRows {c : Config} {options : List TextOption}
    (shown : ∀ o ∈ options, o.place ≠ "user") {key value : String}
    (h : (key, value) ∈ options.map c.textRow) : c.Sets key value := by
  obtain ⟨o, within, same⟩ := List.mem_map.mp h
  obtain ⟨rfl, rfl⟩ := Prod.mk.inj same
  exact .text o fun user => absurd user (shown o within)

theorem simulatorRows_eq (c : Config) : simulatorRows c.settings c.seed =
    [.initialBranch, .seedHash, .seedMessage, .seedAuthor, .gitVersion, .workspace].map c.textRow ++
      (c.seed.map fun n => ("simulator.seed", Nat.repr n)).toList := rfl

theorem userRows_eq (c : Config) : userRows c.settings.user =
    ([.userName, .userEmail].map c.textRow).filter fun row => row.2 != "" := rfl

theorem terminalRows_eq (c : Config) : terminalRows c.terminal =
    [.promptUser, .promptHost, .promptPath].map c.textRow ++
      [("terminal.color", if c.terminal.color then "true" else "false")] := rfl

theorem sets_of_mem_simulatorRows {c : Config} {key value : String}
    (h : (key, value) ∈ simulatorRows c.settings c.seed) : c.Sets key value := by
  rw [simulatorRows_eq] at h
  rcases List.mem_append.mp h with text | seed
  · exact sets_of_mem_textRows (by decide) text
  · obtain ⟨n, given, same⟩ := Option.map_eq_some_iff.mp (Option.mem_toList.mp seed)
    obtain ⟨rfl, rfl⟩ := Prod.mk.inj same
    exact .seed given

theorem sets_of_mem_userRows {c : Config} {key value : String}
    (h : (key, value) ∈ userRows c.settings.user) : c.Sets key value := by
  rw [userRows_eq] at h
  obtain ⟨within, shown⟩ := List.mem_filter.mp h
  obtain ⟨o, -, same⟩ := List.mem_map.mp within
  obtain ⟨rfl, rfl⟩ := Prod.mk.inj same
  exact .text o fun _ => bne_iff_ne.mp shown

theorem sets_of_mem_terminalRows {c : Config} {key value : String}
    (h : (key, value) ∈ terminalRows c.terminal) : c.Sets key value := by
  rw [terminalRows_eq] at h
  rcases List.mem_append.mp h with text | color
  · exact sets_of_mem_textRows (by decide) text
  · obtain ⟨rfl, rfl⟩ := Prod.mk.inj (List.mem_singleton.mp color)
    exact .color

theorem textRow_mem {c : Config} {o : TextOption} (shown : o.place = "user" → o.get c ≠ "") :
    c.textRow o ∈ simulatorRows c.settings c.seed ∨ c.textRow o ∈ userRows c.settings.user ∨
      c.textRow o ∈ terminalRows c.terminal := by
  have place : o ∈ [.initialBranch, .seedHash, .seedMessage, .seedAuthor, .gitVersion, .workspace] ∨
      o ∈ [.userName, .userEmail] ∧ o.place = "user" ∨
      o ∈ [.promptUser, .promptHost, .promptPath] := by
    cases o <;> decide
  rw [simulatorRows_eq, userRows_eq, terminalRows_eq]
  rcases place with simulator | ⟨user, empty⟩ | terminal
  · exact .inl (List.mem_append_left _ (List.mem_map_of_mem simulator))
  · have kept : ((c.textRow o).2 != "") = true := bne_iff_ne.mpr (shown empty)
    exact .inr (.inl (List.mem_filter.mpr ⟨List.mem_map_of_mem user, kept⟩))
  · exact .inr (.inr (List.mem_append_left _ (List.mem_map_of_mem terminal)))

theorem Sets.mem_rows {c : Config} {key value : String} (h : c.Sets key value) :
    (key, value) ∈ c.leadingRows ++ remoteRows c.settings.remotes ++ terminalRows c.terminal := by
  simp only [leadingRows, List.mem_append]
  cases h with
  | console => simp [loggingRows]
  | file => simp [loggingRows]
  | path given => simp [loggingRows, given]
  | seed given => simp [simulatorRows, given]
  | color => simp [terminalRows]
  | text o shown =>
      rcases textRow_mem shown with simulator | user | terminal
      · exact .inl (.inl (.inl (.inr simulator)))
      · exact .inl (.inl (.inr user))
      · exact .inr terminal
  | remote given => exact .inl (.inr (mem_remoteRows_iff.mpr ⟨_, rfl, given⟩))

/-- The rows of the listing are those of the options that are set. -/
theorem mem_options_iff {c : Config} {key value : String} :
    (key, value) ∈ c.options.rows ↔ c.Sets key value := by
  rw [options_eq, Table.mem_rows_ofList c.nodup_keys]
  constructor
  · intro within
    simp only [leadingRows, List.mem_append] at within
    rcases within with (((logging | simulator) | user) | remote) | terminal
    · exact sets_of_mem_loggingRows logging
    · exact sets_of_mem_simulatorRows simulator
    · exact sets_of_mem_userRows user
    · obtain ⟨name, rfl, given⟩ := mem_remoteRows_iff.mp remote
      exact .remote given
    · exact sets_of_mem_terminalRows terminal
  · exact Sets.mem_rows

/-- The width of the keys is the greatest number of bytes that one of them takes. -/
theorem isGreatest_keyWidth {rows : Rows String} (filled : rows ≠ []) :
    IsGreatest {n | ∃ row ∈ rows, n = row.1.utf8ByteSize} (keyWidth rows) := by
  have width : (0 :: rows.map fun row => row.1.utf8ByteSize).max? = some (keyWidth rows) := by
    rw [List.max?_cons', List.foldl_map, keyWidth]
  obtain ⟨within, greatest⟩ := List.max?_eq_some_iff.mp width
  have bound : ∀ row ∈ rows, row.1.utf8ByteSize ≤ keyWidth rows := fun row h =>
    greatest _ (List.mem_cons_of_mem 0 (List.mem_map_of_mem h))
  constructor
  · rcases List.mem_cons.mp within with none | found
    · obtain ⟨row, rest, rfl⟩ := List.exists_cons_of_ne_nil filled
      have first := bound row List.mem_cons_self
      rw [none] at first
      exact ⟨row, List.mem_cons_self, none.trans (Nat.le_zero.mp first).symm⟩
    · obtain ⟨row, h, size⟩ := List.mem_map.mp found
      exact ⟨row, h, size.symm⟩
  · rintro n ⟨row, h, rfl⟩
    exact bound row h

/-- A line of the listing: a key with spaces behind it up to a number of characters, the sign,
and the value as it is. -/
structure IsLine (width : Nat) (key value line : String) : Prop where
  written : ∃ spaces, key.length + spaces = width ∧
    line = key ++ String.ofList (List.replicate spaces ' ') ++ " = " ++ value
  readBack : line.toList.drop (width + 3) = value.toList

/-- A row has a line up to the greatest width. -/
theorem exists_listingLine {width : Nat} {row : String × String} (fits : row.1.length ≤ width)
    (bound : width < widthBound) :
    ∃ line, listingLine? width row = some line ∧ IsLine width row.1 row.2 line := by
  have whole : row.1.length + (width - row.1.length) = width := Nat.add_sub_of_le fits
  let padded := row.1 ++ String.ofList (List.replicate (width - row.1.length) ' ')
  have front : (padded ++ " = ").toList.length = width + 3 := by
    rw [String.length_toList, String.length_append, String.length_append, String.length_ofList,
      List.length_replicate, whole]
    rfl
  refine ⟨padded ++ " = " ++ row.2, ?_, ⟨width - row.1.length, whole, rfl⟩, ?_⟩
  · rw [listingLine?, padded?, if_pos bound]
    rfl
  · rw [String.toList_append, ← front, List.drop_left]

/-- A greater width stops the listing at its first line. -/
theorem mapM_listingLine_eq_none {width : Nat} (wide : widthBound ≤ width) {rows : Rows String}
    (some : rows ≠ []) : rows.mapM (listingLine? width) = none := by
  obtain ⟨row, rest, rfl⟩ := List.exists_cons_of_ne_nil some
  rw [List.mapM_cons, listingLine?, padded?, if_neg (Nat.not_lt.mpr wide)]
  rfl

/-- Rows that all have a line are listed. -/
theorem exists_lines {width : Nat} (bound : width < widthBound) {rows : Rows String}
    (fit : ∀ row ∈ rows, row.1.length ≤ width) :
    ∃ lines, rows.mapM (listingLine? width) = some lines ∧
      List.Forall₂ (fun row line => IsLine width row.1 row.2 line) rows lines := by
  induction rows with
  | nil => exact ⟨[], rfl, .nil⟩
  | cons row rest ih =>
      obtain ⟨line, first, isLine⟩ := exists_listingLine (fit row List.mem_cons_self) bound
      obtain ⟨lines, others, areLines⟩ := ih fun other h => fit other (List.mem_cons_of_mem row h)
      refine ⟨line :: lines, ?_, .cons isLine areLines⟩
      rw [List.mapM_cons, first, others]
      rfl

theorem options_ne_nil (c : Config) : c.options.rows ≠ [] :=
  List.ne_nil_of_mem (mem_options_iff.mpr .console)

/-- The bytes in front of the name of a remote. -/
theorem utf8ByteSize_remoteKey (name : String) :
    ("remotes." ++ name).utf8ByteSize = 8 + name.utf8ByteSize := by
  rw [String.utf8ByteSize_append]
  rfl

/-- Only the name of a remote can take the width beyond its bound. -/
theorem widthBound_le_keyWidth_iff (c : Config) : widthBound ≤ keyWidth c.options.rows ↔
    ∃ name ∈ c.settings.remotes.names, widthBound ≤ 8 + name.utf8ByteSize := by
  have greatest := isGreatest_keyWidth c.options_ne_nil
  constructor
  · intro wide
    obtain ⟨⟨key, value⟩, within, size⟩ := greatest.1
    rw [size] at wide
    have short : ∀ key ∈ leadingKeys ++ terminalKeys, key.utf8ByteSize < widthBound := by
      decide +kernel
    rw [options_eq, Table.mem_rows_ofList c.nodup_keys, List.mem_append, List.mem_append] at within
    rcases within with (leading | remote) | terminal
    · have known := (leadingRows_keys c).subset (List.mem_map_of_mem leading)
      exact absurd wide (Nat.not_le.mpr (short _ (List.mem_append_left _ known)))
    · obtain ⟨name, rfl, given⟩ := mem_remoteRows_iff.mp remote
      have named := (Table.mem_names_iff _ name).mpr (Option.isSome_of_eq_some given)
      exact ⟨name, named, utf8ByteSize_remoteKey name ▸ wide⟩
    · have known : (key, value).1 ∈ (terminalRows c.terminal).map Prod.fst :=
        List.mem_map_of_mem terminal
      exact absurd wide (Nat.not_le.mpr (short _ (List.mem_append_right _ known)))
  · rintro ⟨name, named, wide⟩
    obtain ⟨address, given⟩ :=
      Option.isSome_iff_exists.mp ((Table.mem_names_iff _ name).mp named)
    have listed := mem_options_iff.mpr (Sets.remote given)
    exact (utf8ByteSize_remoteKey name ▸ wide).trans (greatest.2 ⟨_, listed, rfl⟩)

theorem listing?_eq_none_iff (c : Config) : c.listing? = none ↔
    ∃ name ∈ c.settings.remotes.names, widthBound ≤ 8 + name.utf8ByteSize := by
  rw [← widthBound_le_keyWidth_iff]
  refine ⟨fun none => ?_, fun wide => mapM_listingLine_eq_none wide c.options_ne_nil⟩
  by_contra below
  have fit : ∀ row ∈ c.options.rows, row.1.length ≤ keyWidth c.options.rows := fun row within =>
    (length_le_utf8ByteSize row.1).trans
      ((isGreatest_keyWidth c.options_ne_nil).2 ⟨row, within, rfl⟩)
  obtain ⟨lines, listed, -⟩ := exists_lines (Nat.not_le.mp below) fit
  rw [listing?, listed] at none
  cases none

/-- What the listing is. No key is that of two options. With the greatest number of bytes that a
key takes as the width, the listing has one line for each option that is set, in the order of the
bytes of their keys, and every line is the key, spaces up to the width in characters, the sign and
the value, which can be read back from its column. This is so exactly if the width fits into 16
bits, which only the name of a remote can prevent; otherwise the program breaks off. -/
theorem options_listed (c : Config) :
    (∀ key value value', c.Sets key value → c.Sets key value' → value = value') ∧
    ∃ (rows : List (String × String)) (width : Nat),
      (∀ key value, (key, value) ∈ rows ↔ c.Sets key value) ∧
      rows.Pairwise (fun row next => encode row.1.toList < encode next.1.toList) ∧
      IsGreatest {n | ∃ key value, c.Sets key value ∧ n = key.utf8ByteSize} width ∧
      (width < 65536 → ∃ lines, c.listing? = some lines ∧
        List.Forall₂ (fun row line => IsLine width row.1 row.2 line) rows lines) ∧
      (65536 ≤ width → c.listing? = none) ∧
      (65536 ≤ width ↔ ∃ name ∈ c.settings.remotes.names, 65536 ≤ 8 + name.utf8ByteSize) := by
  have options : ∀ {key value}, (key, value) ∈ c.options.rows ↔ c.Sets key value :=
    mem_options_iff
  refine ⟨fun key value value' set set' => ?_, c.options.rows, keyWidth c.options.rows,
    fun key value => options, ?_, ?_, fun fits => ?_,
    fun wide => mapM_listingLine_eq_none wide c.options_ne_nil, widthBound_le_keyWidth_iff c⟩
  · have found := (Rows.find?_eq_some_iff c.options.nodup).mpr (options.mpr set)
    have found' := (Rows.find?_eq_some_iff c.options.nodup).mpr (options.mpr set')
    exact Option.some.inj (found.symm.trans found')
  · refine (List.pairwise_map.mp c.options.ordered).imp fun {row next} less => ?_
    exact encode_lt_encode_iff.mpr less
  · have same : {n | ∃ key value, c.Sets key value ∧ n = key.utf8ByteSize} =
        {n | ∃ row ∈ c.options.rows, n = row.1.utf8ByteSize} := by
      ext n
      constructor
      · rintro ⟨key, value, set, size⟩
        exact ⟨(key, value), options.mpr set, size⟩
      · rintro ⟨⟨key, value⟩, within, size⟩
        exact ⟨key, value, options.mp within, size⟩
    rw [same]
    exact isGreatest_keyWidth c.options_ne_nil
  · exact exists_lines fits fun row within =>
      (length_le_utf8ByteSize row.1).trans
        ((isGreatest_keyWidth c.options_ne_nil).2 ⟨row, within, rfl⟩)

/-- A remote whose name has fewer characters than bytes, and one whose name has blanks, a sign and
the key of another option in it. -/
theorem options_listed_names :
    let remotes : Table String := ⟨[("größe", "x"), ("user.name = y", "z")], by decide⟩
    let c : Config := { Config.standard with settings := { Settings.standard with remotes } }
    ∃ lines width, c.listing? = some lines ∧
      (∃ line ∈ lines, IsLine width "remotes.größe" "x" line) ∧
      (∃ line ∈ lines, IsLine width "remotes.user.name = y" "z" line) ∧
      ∃ line ∈ lines, IsLine width "terminal.color" "true" line := by
  intro remotes c
  obtain ⟨_, rows, width, sets, _, _, fitting, _, wide⟩ := options_listed c
  have fits : width < 65536 := by
    rw [← Nat.not_le, wide]
    decide
  obtain ⟨all, lines, areLines⟩ := fitting fits
  obtain ⟨_, written⟩ := List.forall₂_iff_get.mp areLines
  have listed : ∀ {key value}, c.Sets key value →
      ∃ line ∈ all, IsLine width key value line := by
    intro key value set
    obtain ⟨i, bound, row⟩ := List.mem_iff_getElem.mp ((sets key value).mpr set)
    have line := written i bound (areLines.length_eq ▸ bound)
    rw [List.get_eq_getElem, row] at line
    exact ⟨_, List.get_mem _ _, line⟩
  have first : c.Sets ("remotes." ++ "größe") "x" := .remote (by decide)
  have second : c.Sets ("remotes." ++ "user.name = y") "z" := .remote (by decide)
  exact ⟨all, width, lines, listed first, listed second, listed .color⟩

/-- The name of a remote in so many letters. -/
def longName (letters : Nat) : String :=
  String.ofList (List.replicate letters 'a')

theorem utf8ByteSize_longName (letters : Nat) : (longName letters).utf8ByteSize = letters := by
  rw [utf8ByteSize_eq, longName, String.toList_ofList]
  induction letters with
  | zero => rfl
  | succ n ih =>
      rw [List.replicate_succ, encode_cons, List.length_append, ih, Nat.add_comm]
      rfl

/-- The standard configuration with one remote of some name. -/
def withRemote (name : String) : Config :=
  { standard with settings.remotes := Table.empty.insert name "u" }

/-- Any text makes sense as the name of a remote. -/
theorem validate_withRemote (name : String) : (withRemote name).validate = .ok () := by
  have branch : isBranchName standard.settings.initialBranch = true := by decide +kernel
  have hash : ShortHash.isShortHash standard.settings.seedHash = true := by decide +kernel
  have address : isAllBlank "u" = false := by decide +kernel
  refine (validate_eq_ok_iff _).mpr ⟨branch, hash, fun row within => ?_⟩
  have rows : (withRemote name).settings.remotes.rows = [(name, "u")] := rfl
  rw [rows, List.mem_singleton] at within
  rw [within]
  exact address

/-- A remote whose name takes 65528 bytes makes sense, and over a configuration with it the
program breaks off. -/
theorem long_name_unlisted :
    (withRemote (longName 65528)).validate = .ok () ∧
      (withRemote (longName 65528)).listing? = none := by
  refine ⟨validate_withRemote _, (listing?_eq_none_iff _).mpr ⟨longName 65528, ?_, ?_⟩⟩
  · exact (Table.mem_names_insert Table.empty _ _ "u").mpr (.inl rfl)
  · rw [utf8ByteSize_longName]
    decide

end GitTutor.Config
