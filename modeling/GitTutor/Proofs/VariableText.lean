import GitTutor.Proofs.Leaves

/-!
# Texts from the environment

An option that is a text can be given by a variable or by an override. The text
of an override arrives as it is. The text of a variable is read as a truth value
or a number where possible and written back, so it arrives as it is only if it
is already written in that way. Nothing else tells the two apart. All this only needs what the
library that reads them is documented to do.
-/

namespace GitTutor.Config

open Text Value

/-- What becomes of the text of a variable: it is read as a value, and the value
is written as a text. -/
def written (v : String) : String :=
  (Value.ofVariable v).asText?.getD v

theorem asText?_ofVariable (v : String) : (Value.ofVariable v).asText? = some (written v) := by
  obtain ⟨t, isText⟩ : ∃ t, (Value.ofVariable v).asText? = some t := by
    rw [Value.ofVariable]
    split
    · exact ⟨_, rfl⟩
    split
    · exact ⟨_, rfl⟩
    split
    · exact ⟨_, rfl⟩
    split <;> exact ⟨_, rfl⟩
  rw [written, isText]
  rfl

/-- A library writes what a variable is read as. -/
theorem Library.Lawful.text?_ofVariable {lib : Library} (lawful : lib.Lawful) (v : String) :
    lib.text? (lib.ofVariable v) = some (written v) := by
  rw [lawful.ofVariable]
  exact lawful.text?_of_asText? (asText?_ofVariable v)

namespace TextOption

/-- The key of an option: its section and its name. -/
def dotted (o : TextOption) : String :=
  o.place ++ "." ++ o.key

/-- The name of the variable of an option. -/
def variableName (o : TextOption) : String :=
  Config.variableName o.place o.key

/-- A configuration from one variable and no other source. -/
def fromVariable (lib : Library) (o : TextOption) (v : String) : Recipe where
  sources := []
  environment := lib.environmentRows Program.variableStart [(o.variableName, v)]
  overrides := []

/-- A configuration from one override and no other source. -/
def fromOverride (o : TextOption) (v : String) : Recipe where
  sources := []
  environment := []
  overrides := [o.dotted ++ "=" ++ v]

theorem mem_optionKeys (o : TextOption) : (o.place, o.key) ∈ optionKeys := by
  cases o <;> decide

theorem isKey_dotted (o : TextOption) : IsKey o.dotted ⟨o.place, [.key o.key]⟩ := by
  cases o <;> decide +kernel

/-- A configuration in which an option has another text. -/
def set (c : Config) (t : String) : TextOption → Config
  | initialBranch => { c with settings.initialBranch := t }
  | seedHash => { c with settings.seedHash := t }
  | seedMessage => { c with settings.seedMessage := t }
  | seedAuthor => { c with settings.seedAuthor := t }
  | gitVersion => { c with settings.gitVersion := t }
  | workspace => { c with settings.workspace := t }
  | userName => { c with settings.user.name := t }
  | userEmail => { c with settings.user.email := t }
  | promptUser => { c with terminal.user := t }
  | promptHost => { c with terminal.host := t }
  | promptPath => { c with terminal.path := t }

@[simp] theorem get_set (o : TextOption) (c : Config) (t : String) : o.get (o.set c t) = t := by
  cases o <;> rfl

theorem section?_same {place key : String} {options : List String}
    (known : options.contains key = true) (v : Value) : section? [(place, .table [(key, v)])] place
      options = some [(key, v)] := by
  simp only [section?, given?, Rows.find?, if_true, asSection?, List.all_cons, List.all_nil, known,
    Bool.and_true]

theorem section?_other {place other : String} (differs : place ≠ other) (options : List String)
    (v : Value) : section? [(place, v)] other options = some [] := by
  simp only [section?, given?, Rows.find?, differs, if_false]

/-- A text alone under the key of an option describes the configuration that
differs from the standard one by this text. -/
theorem described_single (o : TextOption) {lib : Library} {v : Value} {t : String}
    (isText : lib.text? v = some t) : Described lib [(o.place, .table [(o.key, v)])] (o.set standard t) where
  logging := by
    rw [section?_other (by cases o <;> decide)]
    cases o <;> rfl
  settings := by
    cases o with
    | userName | userEmail | promptUser | promptHost | promptPath =>
        rw [section?_other (by decide)]
        rfl
    | _ =>
        simp only [place, key]
        rw [section?_same (by decide), Option.bind_some, settingsOf?]
        simp only [given?, Rows.find?, isText, String.reduceEq, if_true, if_false]
        rfl
  seed := by
    cases o with
    | userName | userEmail | promptUser | promptHost | promptPath =>
        rw [section?_other (by decide)]
        rfl
    | _ =>
        simp only [place, key]
        rw [section?_same (by decide)]
        rfl
  user := by
    cases o with
    | userName | userEmail =>
        simp only [place, key]
        rw [section?_same (by decide), Option.bind_some, userOf?]
        simp only [given?, Rows.find?, isText, String.reduceEq, if_true, if_false]
        rfl
    | _ =>
        rw [section?_other (by decide)]
        rfl
  remotes := by
    have elsewhere : o.place ≠ "remotes" := by
      cases o <;> decide
    rw [given?, Rows.find?, if_neg elsewhere]
    cases o <;> rfl
  terminal := by
    cases o with
    | promptUser | promptHost | promptPath =>
        simp only [place, key]
        rw [section?_same (by decide), Option.bind_some, terminalOf?]
        simp only [given?, Rows.find?, isText, String.reduceEq, if_true, if_false]
        rfl
    | _ =>
        rw [section?_other (by decide)]
        rfl

/-- The outcome of giving an option a text and nothing else: the standard
configuration with this text, unless the text makes no sense there. -/
def checked (o : TextOption) (t : String) : Except Failure Config :=
  match (o.set standard t).validate with
  | .error e => .error (.invalid e)
  | .ok () => .ok (o.set standard t)

section Single

variable {lib : Library} (lawful : lib.Lawful) (o : TextOption)

theorem ofRows?_single {v : Value} {t : String} (isText : lib.text? v = some t) :
    ofRows? lib [(o.place, .table [(o.key, v)])] = some (o.set standard t) := by
  have known : sections.contains o.place = true := by
    cases o <;> decide
  refine (o.described_single isText).read ?_
  rw [List.all_cons, known, List.all_nil, Bool.and_true]

include lawful

theorem put_single {v : Value} {t : String} (isText : lib.text? v = some t) :
    put ⟨o.place, [.key o.key]⟩ v [] = [(o.place, .table [(o.key, v)])] := by
  have whole : overlay .unset v = v := by
    cases v with
    | table rows =>
        rw [lawful.text_nested _ rfl] at isText
        cases isText
    | _ => simp [overlay]
  simp only [put, change, look, Rows.find?_nil, Option.getD_none, Value.rows, Rows.assign, whole]

theorem load_single {v : Value} {t : String} (isText : lib.text? v = some t)
    {recipe : Recipe} {files : Files} {overrides : List (KeyPath × String)}
    (read : readOverrides recipe.overrides = .ok overrides)
    (merged : recipe.rows lib files overrides = .ok (put ⟨o.place, [.key o.key]⟩ v [])) :
    recipe.load lib files = o.checked t := by
  rw [Recipe.load, read]
  simp only [merged, o.put_single lawful isText, o.ofRows?_single isText]
  rfl

/-- A variable gives its option what is written back. -/
theorem load_fromVariable (v : String) (files : Files) :
    (o.fromVariable lib v).load lib files = o.checked (written v) := by
  refine o.load_single lawful (lawful.text?_ofVariable v) rfl ?_
  have named : lib.variableKey? Program.variableStart o.variableName = some o.dotted :=
    lawful.variableKey?_name (o.place, o.key) o.mem_optionKeys
  simp only [fromVariable, Library.environmentRows, List.filterMap_cons, List.filterMap_nil, named,
    Option.map_some, Recipe.rows, mergeSources, lawful.taken_singleton, lawful.takenOverrides_nil,
    putSource, List.foldl_cons, List.foldl_nil, applyOverrides, o.isKey_dotted.2.2.2,
    Option.getD_some]

/-- An override gives its option its text. -/
theorem load_fromOverride (v : String) (files : Files) :
    (o.fromOverride v).load lib files = o.checked v := by
  have read : readOverrides (o.fromOverride v).overrides =
      .ok [(⟨o.place, [.key o.key]⟩, v)] := by
    simp only [fromOverride, readOverrides, readOverride_of_key o.isKey_dotted]
  refine o.load_single lawful (lawful.text_text v) read ?_
  simp only [fromOverride, Recipe.rows, mergeSources, lawful.taken_nil,
    lawful.takenOverrides_singleton, putSource, List.foldl_cons, List.foldl_nil, applyOverrides]

end Single

/-- Every text of an option is accepted, or all that are refused are named in the
refusal. -/
theorem validate_set (o : TextOption) :
    (∀ t, (o.set standard t).validate = .ok ()) ∨
      ∃ (valid : String → Bool) (before after : String), ∀ t, (o.set standard t).validate =
        if valid t then .ok () else .error ⟨o.place, o.key, before ++ t ++ after⟩ := by
  have branch : isBranchName standard.settings.initialBranch = true := by decide +kernel
  have hash : ShortHash.isShortHash standard.settings.seedHash = true := by decide +kernel
  have remotes : blankRemote? standard.settings.remotes = none := by decide +kernel
  cases o with
  | initialBranch =>
      right
      refine ⟨isBranchName, "'", "' is not a valid branch name", fun t => ?_⟩
      simp only [validate, set, hash, remotes, place, key, if_true]
  | seedHash =>
      right
      refine ⟨ShortHash.isShortHash, "expected 7 characters of [0-9a-z], got '", "'", fun t => ?_⟩
      simp only [validate, set, branch, remotes, place, key, if_true]
  | _ =>
      left
      intro t
      simp only [validate, set, branch, hash, remotes, if_true]

/-- Two texts of an option have one outcome iff they are the same. -/
theorem checked_inj (o : TextOption) {t u : String} : o.checked t = o.checked u ↔ t = u := by
  refine ⟨fun same => ?_, fun same => by rw [same]⟩
  have of_set : o.set standard t = o.set standard u → t = u := fun equal => by
    rw [← o.get_set standard t, equal, o.get_set]
  obtain accepted | ⟨valid, before, after, refused⟩ := o.validate_set
  · simp only [checked, accepted, Except.ok.injEq] at same
    exact of_set same
  · simp only [checked, refused] at same
    cases ht : valid t <;> cases hu : valid u <;> simp [ht, hu] at same
    · exact same
    · exact of_set same

/-- An override gives its option its text as it is, and a variable gives it what
is written back. The two have the same outcome exactly for texts that are
already written that way. -/
theorem variable_agrees_iff_written {lib : Library} (lawful : lib.Lawful) (o : TextOption)
    (v : String) (files : Files) :
    (o.fromOverride v).load lib files = o.checked v ∧
      (o.fromVariable lib v).load lib files = o.checked (written v) ∧
        ((o.fromVariable lib v).load lib files = (o.fromOverride v).load lib files ↔
          written v = v) := by
  refine ⟨o.load_fromOverride lawful v files, o.load_fromVariable lawful v files, ?_⟩
  rw [o.load_fromVariable lawful, o.load_fromOverride lawful]
  exact o.checked_inj

/-- The library that is used gives an ordinary word the same way on both paths, and a number with
a zero at its end in two ways. -/
theorem variable_agrees_iff_written_standard :
    Library.standard.Lawful ∧ ∀ files : Files,
      (fromVariable .standard .userName "Ada").load .standard files =
        (fromOverride .userName "Ada").load .standard files ∧
      (fromVariable .standard .gitVersion "2.50").load .standard files ≠
        (fromOverride .gitVersion "2.50").load .standard files := by
  refine ⟨Library.lawful_standard, fun files => ⟨?_, fun same => ?_⟩⟩
  · exact (variable_agrees_iff_written Library.lawful_standard .userName "Ada" files).2.2.mpr
      (by decide +kernel)
  · have kept := (variable_agrees_iff_written Library.lawful_standard .gitVersion "2.50"
      files).2.2.mp same
    revert kept
    decide +kernel

/-- A version that ends in zero loses the zero in a variable, and a hash that
starts with zeros is refused there. -/
theorem variable_loses_zeros :
    ((fromVariable .standard .gitVersion "2.50").load .standard (Files.ofList [])).toOption.map
        (fun c => c.settings.gitVersion) = some "2.5" ∧
      ((fromOverride .gitVersion "2.50").load .standard (Files.ofList [])).toOption.map
        (fun c => c.settings.gitVersion) = some "2.50" ∧
      ((fromVariable .standard .seedHash "0012345").load .standard (Files.ofList [])).toOption.map
        (fun c => c.settings.seedHash) = none ∧
      ((fromOverride .seedHash "0012345").load .standard (Files.ofList [])).toOption.map
        (fun c => c.settings.seedHash) = some "0012345" := by
  decide +kernel

end TextOption

end GitTutor.Config
