import GitTutor.Proofs.Overrides

/-!
# Arguments of their own

Some options have arguments of their own. Each such argument stands for an override, and these
come after the free ones, so they win over them.
-/

namespace GitTutor.Config

open Text

/-- The override that an argument of its own stands for. -/
def flag (place key : String) (text : Option String) : List (KeyPath × String) :=
  (text.map fun t => (⟨place, [.key key]⟩, t)).toList

/-- The overrides that arguments of their own stand for. -/
def flags (a : Arguments) : List (KeyPath × String) :=
  flag "global" "output_log_level" (a.level.map fun level => Nat.repr level.toNat) ++
  flag "global" "file_log_level"
    ((a.fileLevel.or a.level).map fun level => Nat.repr level.toNat) ++
  flag "global" "log_file" (a.logFile.map FilePath.display) ++
  flag "terminal" "color" (if a.noColor then some "false" else none)

theorem readOverrides_flag (dotted : String) {place key : String}
    (isKey : IsKey dotted ⟨place, [.key key]⟩) (text : Option String) :
    readOverrides (text.map (dotted ++ "=" ++ ·)).toList = .ok (flag place key text) := by
  cases text with
  | none => rfl
  | some t =>
      simp only [Option.map_some, Option.toList_some, readOverrides, readOverride_of_key isKey,
        flag]

theorem readOverrides_level (dotted : String) {place key : String}
    (isKey : IsKey dotted ⟨place, [.key key]⟩) (level : Option LogLevel) :
    readOverrides (level.map (Arguments.levelOverride dotted)).toList =
      .ok (flag place key (level.map fun level => Nat.repr level.toNat)) := by
  rw [← readOverrides_flag dotted isKey, Option.map_map]
  rfl

/-- Arguments of their own come after the free overrides. -/
theorem readOverrides_overrides (a : Arguments) :
    readOverrides a.overrides = (readOverrides a.options).map (· ++ flags a) := by
  have console : IsKey "global.output_log_level" ⟨"global", [.key "output_log_level"]⟩ := by
    decide +kernel
  have file : IsKey "global.file_log_level" ⟨"global", [.key "file_log_level"]⟩ := by
    decide +kernel
  have path : readOverrides
      (a.logFile.map fun path => "global.log_file=" ++ path.display).toList =
        .ok (flag "global" "log_file" (a.logFile.map FilePath.display)) := by
    have literal : "global.log_file=" = "global.log_file" ++ "=" := by decide +kernel
    rw [literal, ← readOverrides_flag "global.log_file" (by decide +kernel)]
    cases a.logFile <;> rfl
  have color : readOverrides (if a.noColor then ["terminal.color=false"] else []) =
      .ok (flag "terminal" "color" (if a.noColor then some "false" else none)) := by
    cases a.noColor with
    | true =>
        have literal : "terminal.color=false" = "terminal.color" ++ "=" ++ "false" := by
          decide +kernel
        rw [literal]
        exact readOverrides_flag "terminal.color" (by decide +kernel) (some "false")
    | false => rfl
  rw [Arguments.overrides, readOverrides_append, readOverrides_append, readOverrides_append,
    readOverrides_append, readOverrides_level _ console, readOverrides_level _ file, path, color]
  cases readOverrides a.options with
  | error e => rfl
  | ok os => simp [Except.bind, Except.map, flags]

theorem free_of_readOverrides {a : Arguments} {overrides : List (KeyPath × String)}
    (read : readOverrides a.overrides = .ok overrides) :
    ∃ os, readOverrides a.options = .ok os ∧ os ++ flags a = overrides := by
  rw [readOverrides_overrides] at read
  cases chosen : readOverrides a.options with
  | error e =>
      rw [chosen] at read
      cases read
  | ok os =>
      rw [chosen] at read
      exact ⟨os, rfl, Except.ok.inj read⟩

theorem nameLeaves_flag (place key : String) (text : Option String) :
    NameLeaves (flag place key text) := by
  intro o among
  obtain ⟨t, -, rfl⟩ := Option.map_eq_some_iff.mp (Option.mem_toList.mp among)
  exact ⟨place, key, rfl⟩

theorem nameLeaves_flags (a : Arguments) : NameLeaves (flags a) :=
  (((nameLeaves_flag _ _ _).append (nameLeaves_flag _ _ _)).append (nameLeaves_flag _ _ _)).append
    (nameLeaves_flag _ _ _)

/-- What an argument of its own gives to an option. -/
theorem lastText?_flag (root name : String) (text : Option String) (place key : String) :
    lastText? (flag root name text) place key =
      if root = place ∧ name = key then text else none := by
  cases text with
  | none => simp [flag, lastText?]
  | some t => by_cases here : root = place ∧ name = key <;> simp [flag, lastText?, textFor?, here]

/-- Free overrides and arguments of their own together give an option what its own argument gives,
or else what the last free override does. -/
theorem lastText?_append_flags {a : Arguments} {os : List (KeyPath × String)}
    (chosen : readOverrides a.options = .ok os) (place key : String) :
    lastText? (os ++ flags a) place key =
      (lastText? (flags a) place key).or (chosen? a.options place key) := by
  rw [lastText?_append, chosen?, filterMap_readOverride chosen]

/-- No argument of its own is about a remote. -/
theorem lastText?_flags_remotes (a : Arguments) (name : String) :
    lastText? (flags a) "remotes" name = none := by
  simp [flags, lastText?_append, lastText?_flag]

end GitTutor.Config
