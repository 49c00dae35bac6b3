import Mathlib.Data.List.Forall2
import GitTutor.Proofs.Flags
import GitTutor.Proofs.Leaves
import GitTutor.Proofs.PathText
import GitTutor.Proofs.TableOrder

/-!
# Precedence of configuration layers

The local file, the files that are asked for, the environment, the free overrides and the arguments
of their own are layers of a configuration, each stronger than those before it. When a configuration
is loaded, every option with one value has what the strongest layer says that says something about
it, and so has every remote. This holds for every library that keeps to its documentation, in
whatever orders it takes the entries of its maps.
-/

namespace GitTutor.Config

open Text Value

/-- What an invocation finds around its arguments. -/
structure Layers where
  localFile : Layer
  /-- The files that are asked for, in their order. -/
  configs : List Layer
  environment : Layer

/-- Whether a layer writes the rows of a source: of several with one name the last, and all in any
order. -/
def Layer.Holds (layer : Layer) (rows : Rows Value) : Prop :=
  List.Perm layer (Layer.ofSource (lastOf rows))

/-- Whether a layer writes what a source gives. -/
def Source.Gives (files : Files) (source : Source) (layer : Layer) : Prop :=
  ∃ rows, source.rows files = .ok rows ∧ layer.Holds rows

namespace Layers

/-- The layers of an invocation: the local file, if there is one, the files that are asked for one
by one, and the variables. -/
structure Of (s : Surroundings) (a : Arguments) (l : Layers) : Prop where
  localFile : (Source.optionalFile Program.localFile).Gives s.files l.localFile
  configs : List.Forall₂ (fun path layer => (Source.file path).Gives s.files layer) a.configs
    l.configs
  environment :
    l.environment.Holds (s.library.environmentRows Program.variableStart s.bindings)

/-- The layers with the strongest one first. -/
def strongestFirst (l : Layers) : List Layer :=
  l.environment :: (l.configs.reverse ++ [l.localFile])

/-- What the layers say about an option: the strongest one that says something counts. -/
def verdict (l : Layers) (place key : String) : Verdict :=
  .first (l.strongestFirst.map fun layer => layer.verdict place key)

/-- The writes of all layers in their order. -/
def writes (l : Layers) : Layer :=
  l.localFile ++ l.configs.flatten ++ l.environment

theorem verdict_writes (l : Layers) (place key : String) :
    l.writes.verdict place key = l.verdict place key := by
  have older : Layer.verdict (l.localFile ++ l.configs.flatten) place key =
      .first ((l.configs.reverse ++ [l.localFile]).map fun layer => layer.verdict place key) := by
    rw [← List.flatten_cons, Layer.verdict_flatten, List.reverse_cons]
  rw [writes, Layer.verdict_append, older]
  rfl

/-- The writes of all layers and then those of overrides, as a library takes them. -/
def withOverrides (l : Layers) (lib : Library) (overrides : List (KeyPath × String)) : Layer :=
  l.writes ++ .ofOverrides (lib.takenOverrides overrides)

section WithOverrides

variable {lib : Library} (lawful : lib.Lawful) {overrides : List (KeyPath × String)}
  (leaves : NameLeaves overrides) (l : Layers)

include lawful leaves

/-- The last override of an option counts, and without one the layers. -/
theorem verdict_withOverrides (place key : String) :
    (l.withOverrides lib overrides).verdict place key =
      ((lastText? overrides place key).elim Verdict.silent fun t => .gives (.text t)).or
        (l.verdict place key) := by
  rw [withOverrides, Layer.verdict_append, verdict_ofOverrides (nameLeaves_taken lawful leaves),
    lastText?_taken lawful, verdict_writes]

theorem mentions_ofTaken_iff (place : String) :
    (Layer.ofOverrides (lib.takenOverrides overrides)).mentions place = true ↔
      ∃ key, (lastText? overrides place key).isSome = true := by
  rw [mentions_ofOverrides_iff (nameLeaves_taken lawful leaves)]
  simp only [lastText?_taken lawful]

theorem mentions_withOverrides_iff (place : String) :
    (l.withOverrides lib overrides).mentions place = true ↔
      l.writes.mentions place = true ∨ ∃ key, (lastText? overrides place key).isSome = true := by
  rw [← mentions_ofTaken_iff lawful leaves, withOverrides, Layer.mentions, List.any_append,
    Bool.or_eq_true, Layer.mentions, Layer.mentions]

/-- A section ends as a list iff the layers leave it so and no override names an option of it. -/
theorem endsAsList_withOverrides_iff (place : String) :
    (l.withOverrides lib overrides).endsAsList place = true ↔
      l.writes.endsAsList place = true ∧ ∀ key, lastText? overrides place key = none := by
  rw [withOverrides, Layer.endsAsList_append,
    endsAsList_ofOverrides (nameLeaves_taken lawful leaves)]
  have mentioned := mentions_ofTaken_iff lawful leaves place
  split
  · rename_i spoken
    obtain ⟨key, given⟩ := mentioned.mp spoken
    simp only [Bool.false_eq_true, false_iff, not_and]
    intro _ silent
    rw [silent key] at given
    cases given
  · rename_i unspoken
    rw [mentioned, not_exists] at unspoken
    exact (and_iff_left fun key => Option.not_isSome_iff_eq_none.mp (unspoken key)).symm

end WithOverrides

end Layers

/-- Whether a value agrees with a verdict: it is read off the value that is given,
and it is the standard one if none is. -/
def Verdict.Settles {α : Type} (read : Value → Option α) (standard x : α) : Verdict → Prop
  | .gives v => read v = some x
  | _ => x = standard

theorem Verdict.settles_of_given {α : Type} {read : Value → Option α} {standard x : α}
    {rows : Rows Value} {key : String} {verdict : Verdict}
    (readPlain : ∀ v : Value, read v.plain = read v)
    (given : given? rows key standard read = some x)
    (told : (Rows.find? rows key).map plain = verdict.amend none) :
    verdict.Settles read standard x := by
  rw [given?] at given
  cases verdict with
  | gives v =>
      obtain ⟨w, found, same⟩ := Option.map_eq_some_iff.mp told
      simp only [found] at given
      rw [Verdict.Settles, ← readPlain v, ← same, readPlain w]
      exact given
  | silent =>
      simp only [Option.map_eq_none_iff.mp told] at given
      exact (Option.some.inj given).symm
  | discards =>
      simp only [Option.map_eq_none_iff.mp told] at given
      exact (Option.some.inj given).symm

/-- An option with one value agrees with what layers say. -/
theorem Leaf.settles {lib : Library} {α : Type} (leaf : Leaf lib α) {layer : Layer} {c : Config}
    (read : ofRows? lib (layer.onto []) = some c) (unlisted : layer.endsAsList leaf.place = false) :
    (layer.verdict leaf.place leaf.key).Settles leaf.read (leaf.get standard) (leaf.get c) :=
  Verdict.settles_of_given leaf.read_plain (leaf.given read (Layer.isList_onto unlisted))
    (Layer.told_onto layer [] leaf.place leaf.key)

section Remotes

variable {lib : Library} (lawful : lib.Lawful)

/-- The texts of rows stand under the names of their values. -/
theorem find?_texts {rows : Rows Value} {texts : Rows String}
    (read : (rows.mapM fun row => (lib.text? row.2).map fun s => (row.1, s)) = some texts) :
    texts.map Prod.fst = rows.map Prod.fst ∧
      ∀ name, given? rows name none (fun v => (lib.text? v).map some) =
        some (Rows.find? texts name) := by
  induction rows generalizing texts with
  | nil =>
      obtain rfl := Option.some.inj read
      exact ⟨rfl, fun name => rfl⟩
  | cons row rest ih =>
      simp only [List.mapM_cons, Option.bind_eq_bind, Option.bind_eq_some_iff, Option.pure_def,
        Option.some.injEq, Option.map_eq_some_iff] at read
      obtain ⟨_, ⟨text, isText, rfl⟩, others, readOthers, rfl⟩ := read
      obtain ⟨names, found⟩ := ih readOthers
      refine ⟨by rw [List.map_cons, List.map_cons, names], fun name => ?_⟩
      rw [given?, Rows.find?, Rows.find?]
      by_cases here : row.1 = name
      · simp [here, isText]
      · simp only [here, if_false]
        exact found name

/-- A remote has the text that stands under its name. -/
theorem given_of_texts? {rows : Rows Value} {t : Table String}
    (nodup : (rows.map Prod.fst).Nodup) (read : lib.texts? (.table rows) = some t)
    (name : String) :
    given? rows name none (fun v => (lib.text? v).map some) = some (t.get? name) := by
  obtain ⟨texts, readTexts, rfl⟩ := Option.map_eq_some_iff.mp read
  obtain ⟨names, found⟩ := find?_texts readTexts
  rw [found name, Table.get?_ofList (names ▸ nodup)]

include lawful in
/-- Without a word about remotes there are the standard ones; otherwise every
remote agrees with what layers say. -/
theorem Layer.remotes_settled {layer : Layer} {c : Config}
    (read : ofRows? lib (layer.onto []) = some c) :
    if layer.mentions "remotes" then
      ∀ name, (layer.verdict "remotes" name).Settles (fun v => (lib.text? v).map some) none
        (c.settings.remotes.get? name)
    else c.settings.remotes = Settings.standardRemotes := by
  have remotes := (described read).remotes
  have mentioned := Layer.isSome_find?_onto layer [] "remotes"
  rw [Rows.find?_nil, Option.isSome_none, Bool.or_false] at mentioned
  rw [given?] at remotes
  split at remotes
  · rename_i missing
    rw [missing] at mentioned
    rw [← mentioned]
    exact (Option.some.inj remotes).symm
  · rename_i v found
    rw [found] at mentioned
    rw [← mentioned]
    intro name
    have whole : look (layer.onto []) "remotes" = v := by
      rw [look, found]
      rfl
    have nodup := Layer.nodup_onto layer [] "remotes" List.nodup_nil
    have told := Layer.told_onto layer [] "remotes" name
    rw [whole] at nodup
    rw [Config.told, whole] at told
    cases v with
    | table rows =>
        refine Verdict.settles_of_given (fun v => ?_) (given_of_texts? nodup remotes name) told
        rw [lawful.text?_plain]
    | _ => cases remotes

end Remotes

/-- The rows of sources in a row are those of their layers. -/
theorem mergeSources_eq {lib : Library} (lawful : lib.Lawful) {files : Files}
    {sources : List Source} {number : Nat} {rows merged : Rows Value}
    (read : mergeSources lib files number rows sources = .ok merged) :
    ∃ layers : List Layer, List.Forall₂ (Source.Gives files) sources layers ∧
      merged = Layer.onto layers.flatten rows := by
  induction sources generalizing number rows with
  | nil =>
      cases read
      exact ⟨[], .nil, rfl⟩
  | cons source rest ih =>
      rw [mergeSources] at read
      split at read
      · cases read
      · rename_i more found
        obtain ⟨layers, gives, rfl⟩ := ih read
        refine ⟨.ofSource (lib.taken number more) :: layers, .cons ⟨more, found, ?_⟩ gives, ?_⟩
        · exact List.Perm.map _ (lawful.perm_rows number (lastOf more))
        · rw [List.flatten_cons, Layer.onto_append, Layer.putSource_eq]

/-- What a recipe loads is read from its sources, then its environment, then its overrides. -/
theorem read_of_load {lib : Library} {files : Files} {recipe : Recipe} {c : Config}
    (loaded : recipe.load lib files = .ok c) :
    ∃ overrides base, readOverrides recipe.overrides = .ok overrides ∧
      mergeSources lib files 0 [] recipe.sources = .ok base ∧
      ofRows? lib (applyOverrides
        (putSource base (lib.taken recipe.sources.length recipe.environment))
        (lib.takenOverrides overrides)) = some c := by
  rw [Recipe.load] at loaded
  split at loaded
  · cases loaded
  rename_i overrides readAll
  split at loaded
  · cases loaded
  rename_i rows merged
  split at loaded
  · cases loaded
  rename_i config read
  split at loaded
  · cases loaded
  cases loaded
  rw [Recipe.rows] at merged
  split at merged
  · cases merged
  rename_i base readSources
  cases merged
  exact ⟨overrides, base, readAll, readSources, read⟩

/-- What an invocation loads is what its layers and then its overrides write. -/
theorem layers_of_load {s : Surroundings} {a : Arguments} {c : Config}
    (lawful : s.library.Lawful) (loaded : (Program.recipe s a).load s.library s.files = .ok c) :
    ∃ l os, Layers.Of s a l ∧ readOverrides a.options = .ok os ∧
      ofRows? s.library ((l.withOverrides s.library (os ++ flags a)).onto []) = some c := by
  obtain ⟨overrides, base, readAll, readSources, read⟩ := read_of_load loaded
  obtain ⟨os, chosen, rfl⟩ := free_of_readOverrides readAll
  obtain ⟨layers, gives, rfl⟩ := mergeSources_eq lawful readSources
  obtain ⟨localFile, files, localGives, configs, rfl⟩ := List.forall₂_cons_left_iff.mp gives
  let number := (Program.recipe s a).sources.length
  let environment := Layer.ofSource (s.library.taken number (Program.recipe s a).environment)
  refine ⟨⟨localFile, files, environment⟩, os, ⟨localGives, ?_, ?_⟩, chosen, ?_⟩
  · exact List.forall₂_map_left_iff.mp configs
  · exact (lawful.perm_rows number _).map _
  · rw [← read, Layer.applyOverrides_eq, Layer.putSource_eq, Layers.withOverrides, Layers.writes,
      Layer.onto_append, Layer.onto_append, List.flatten_cons]

namespace Leaf

variable {lib : Library} {α : Type} (leaf : Leaf lib α)

/-- Whether the section of an option is left as a list: layers leave it so, and neither an argument
of its own nor a free override is about an option of that section. -/
def LeftAsList (a : Arguments) (l : Layers) : Prop :=
  l.writes.endsAsList leaf.place = true ∧
    ∀ key, (lastText? (flags a) leaf.place key).or (chosen? a.options leaf.place key) = none

/-- An option has the value of its own argument. Without one it has what the text of the last free
override is read as. With neither, and unless its section is left as a list, it agrees with what
layers say. -/
def Follows (own : Option α) (a : Arguments) (l : Layers) (c : Config) : Prop :=
  match own, chosen? a.options leaf.place leaf.key with
  | some x, _ => leaf.get c = x
  | none, some t => leaf.read (.text t) = some (leaf.get c)
  | none, none => ¬ leaf.LeftAsList a l →
      (l.verdict leaf.place leaf.key).Settles leaf.read (leaf.get standard) (leaf.get c)

/-- What an argument of its own gives to an option: a text that is read as the value of the
argument, or nothing without one. -/
def OwnText (a : Arguments) : Option α → Prop
  | some x => ∃ t, lastText? (flags a) leaf.place leaf.key = some t ∧ leaf.read (.text t) = some x
  | none => lastText? (flags a) leaf.place leaf.key = none

variable {leaf} in
theorem ownText_map {β : Type} {a : Arguments} {given : Option β} (text : β → String)
    {value : β → α} (readText : ∀ x, leaf.read (.text (text x)) = some (value x))
    (said : lastText? (flags a) leaf.place leaf.key = given.map text) :
    leaf.OwnText a (given.map value) := by
  cases given with
  | none => exact said
  | some x => exact ⟨text x, said, readText x⟩

end Leaf

section OwnTexts

variable {lib : Library} (lawful : lib.Lawful) (a : Arguments)

theorem TextOption.ownText (o : TextOption) : (o.leaf lawful).OwnText a none := by
  rw [Leaf.OwnText, flags]
  cases o <;> simp [lastText?_append, lastText?_flag, TextOption.leaf, TextOption.place,
    TextOption.key]

namespace Leaf

theorem ownText_seed : (seed lawful).OwnText a none := by
  simp [OwnText, flags, lastText?_append, lastText?_flag, seed]

theorem ownText_console : (console lawful).OwnText a a.level := by
  rw [← Option.map_id_apply (x := a.level)]
  refine ownText_map (fun level => Nat.repr (LogLevel.toNat level)) lawful.level?_digit ?_
  simp [flags, lastText?_append, lastText?_flag, console]

theorem ownText_file : (file lawful).OwnText a (a.fileLevel.or a.level) := by
  rw [← Option.map_id_apply (x := a.fileLevel.or a.level)]
  refine ownText_map (fun level => Nat.repr (LogLevel.toNat level)) lawful.level?_digit ?_
  simp [flags, lastText?_append, lastText?_flag, file]

/-- The path of a log file arrives as it is shown, whatever characters it has. -/
theorem ownText_path :
    (path lawful).OwnText a (a.logFile.map fun given => some given.displayed) := by
  refine ownText_map FilePath.display (fun given => ?_) ?_
  · simp only [path, optionally?, Library.path?, lawful.text_text, Option.map_some]
    rfl
  · simp [flags, lastText?_append, lastText?_flag, path]

theorem ownText_color :
    (color lawful).OwnText a (if a.noColor then some false else none) := by
  have said : lastText? (flags a) (color lawful).place (color lawful).key =
      if a.noColor then some "false" else none := by
    simp [flags, lastText?_append, lastText?_flag, color]
  cases given : a.noColor with
  | false => exact said.trans (by rw [given]; rfl)
  | true => exact ⟨"false", said.trans (by rw [given]; rfl), lawful.truth_false⟩

end Leaf

end OwnTexts

/-- What the remotes of a configuration are: without a word about any there are the standard ones;
otherwise a remote has the text of the last free override of its name, and agrees with what layers
say where there is none. -/
structure RemotesFollow (lib : Library) (options : List String) (l : Layers) (c : Config) :
    Prop where
  standard : l.writes.mentions "remotes" = false →
    (∀ name, chosen? options "remotes" name = none) →
      c.settings.remotes = Settings.standardRemotes
  chosen : ∀ name text, chosen? options "remotes" name = some text →
    c.settings.remotes.get? name = some text
  layered : ∀ name, chosen? options "remotes" name = none →
    (l.writes.mentions "remotes" = true ∨ ∃ other, (chosen? options "remotes" other).isSome) →
      (l.verdict "remotes" name).Settles (fun v => (lib.text? v).map some) none
        (c.settings.remotes.get? name)

section Loaded

variable {lib : Library} (lawful : lib.Lawful) {a : Arguments} {l : Layers} {c : Config}
  {os : List (KeyPath × String)} (chosen : readOverrides a.options = .ok os)
  (named : NameLeaves os)
  (read : ofRows? lib ((l.withOverrides lib (os ++ flags a)).onto []) = some c)

include lawful chosen named read

/-- An option follows its layers where an argument of its own gives it its text. -/
theorem Leaf.follows_of_ownText {α : Type} {leaf : Leaf lib α} {own : Option α}
    (ownText : leaf.OwnText a own) : leaf.Follows own a l c := by
  have leaves := named.append (nameLeaves_flags a)
  have texts := lastText?_append_flags chosen leaf.place
  have settled := leaf.settles read
  rw [Layers.verdict_withOverrides lawful leaves, texts] at settled
  have unlisted : (¬ ∀ key, lastText? (os ++ flags a) leaf.place key = none) ∨
      l.writes.endsAsList leaf.place = false →
        (l.withOverrides lib (os ++ flags a)).endsAsList leaf.place = false := by
    rw [← Bool.not_eq_true, ← Bool.not_eq_true,
      Layers.endsAsList_withOverrides_iff lawful leaves, not_and_or]
    exact Or.symm
  -- A text of an override makes the section a table and settles the value.
  have settledByText : ∀ t, (lastText? (flags a) leaf.place leaf.key).or
      (chosen? a.options leaf.place leaf.key) = some t →
        leaf.read (.text t) = some (leaf.get c) := by
    intro t given
    rw [given] at settled
    refine settled (unlisted (.inl fun silent => ?_))
    rw [← texts, silent] at given
    cases given
  unfold Follows
  split
  · rename_i x _
    obtain ⟨t, said, readText⟩ := ownText
    exact Option.some.inj ((settledByText t (by rw [said]; rfl)).symm.trans readText)
  · rename_i t given
    have silent : lastText? (flags a) leaf.place leaf.key = none := ownText
    exact settledByText t (by rw [silent, given]; rfl)
  · rename_i free
    intro kept
    have silent : lastText? (flags a) leaf.place leaf.key = none := ownText
    rw [silent, free] at settled
    refine settled (unlisted ?_)
    by_contra neither
    obtain ⟨others, ends⟩ := not_or.mp neither
    refine kept ⟨Bool.eq_true_of_not_eq_false ends, fun key => ?_⟩
    rw [← texts]
    exact not_not.mp others key

/-- Remotes follow the layers. -/
theorem remotesFollow : RemotesFollow lib a.options l c := by
  have leaves := named.append (nameLeaves_flags a)
  have texts : ∀ name, lastText? (os ++ flags a) "remotes" name =
      chosen? a.options "remotes" name := fun name => by
    rw [lastText?_append_flags chosen, lastText?_flags_remotes, Option.none_or]
  have settled := Layer.remotes_settled lawful read
  have whole := l.mentions_withOverrides_iff lawful leaves "remotes"
  simp only [texts] at whole
  simp only [l.verdict_withOverrides lawful leaves, texts] at settled
  constructor
  · intro silent free
    have unmentioned := mt whole.mp (by simp [silent, free])
    rw [if_neg unmentioned] at settled
    exact settled
  · intro name text given
    rw [if_pos (whole.mpr (.inr ⟨name, by rw [given]; rfl⟩))] at settled
    have here := settled name
    rw [given] at here
    have same : (lib.text? (.text text)).map some = some (c.settings.remotes.get? name) := here
    rw [lawful.text_text] at same
    exact (Option.some.inj same).symm
  · intro name free spoken
    rw [if_pos (whole.mpr spoken)] at settled
    have here := settled name
    rwa [free] at here

end Loaded

/-- When the free overrides name options, then in a configuration that was loaded every option with
one value has the value of its own argument, or else the text of the last free override of it, or
else what the strongest layer says that says something about it; a layer that gives the whole
section as something else than a table says that the option is not set. The path of the log file is
the one that is shown for its argument, which is the argument itself if it is a text. Every remote
has what is said about it in the same way, and the standard remotes are there only if nothing
mentions any. -/
theorem strongest_layer_wins {s : Surroundings} {a : Arguments} {c : Config}
    (lawful : s.library.Lawful) (named : ∀ assignment ∈ a.options, NamesLeaf assignment)
    (loaded : (Program.recipe s a).load s.library s.files = .ok c) :
    ∃ l, Layers.Of s a l ∧
      (∀ o : TextOption, (o.leaf lawful).Follows none a l c) ∧
      (Leaf.seed lawful).Follows none a l c ∧
      (Leaf.console lawful).Follows a.level a l c ∧
      (Leaf.file lawful).Follows (a.fileLevel.or a.level) a l c ∧
      (Leaf.path lawful).Follows (a.logFile.map fun path => some path.displayed) a l c ∧
      (∀ text, a.logFile = some (.ofText text) → c.logging.path = some (.ofText text)) ∧
      (Leaf.color lawful).Follows (if a.noColor then some false else none) a l c ∧
      RemotesFollow s.library a.options l c := by
  obtain ⟨l, os, layers, chosen, read⟩ := layers_of_load lawful loaded
  have leaves := nameLeaves_of_namesLeaf chosen named
  have path := Leaf.follows_of_ownText lawful chosen leaves read (Leaf.ownText_path lawful a)
  refine ⟨l, layers,
    fun o => Leaf.follows_of_ownText lawful chosen leaves read (o.ownText lawful a),
    Leaf.follows_of_ownText lawful chosen leaves read (Leaf.ownText_seed lawful a),
    Leaf.follows_of_ownText lawful chosen leaves read (Leaf.ownText_console lawful a),
    Leaf.follows_of_ownText lawful chosen leaves read (Leaf.ownText_file lawful a),
    path, fun text given => ?_,
    Leaf.follows_of_ownText lawful chosen leaves read (Leaf.ownText_color lawful a),
    remotesFollow lawful chosen leaves read⟩
  rw [given, Option.map_some, FilePath.displayed_ofText] at path
  exact path

/-- Surroundings with some variables and files of given texts, and nothing else. -/
def plainSurroundings (bindings texts : List (String × String)) : Surroundings where
  bindings := bindings
  files := Files.ofList (texts.map fun file => (.ofText file.1, .ok file.2.toUTF8.toList))
  library := .standard
  painter := .standard
  openLog := fun path => .error (.file path)
  stamp := ""
  randomSeed := 0
  onTerminal := false

/-- Arguments that only name configuration files and free overrides. -/
def plainArguments (configs options : List String) : Arguments where
  configs := configs.map FilePath.ofText
  level := none
  fileLevel := none
  logFile := none
  options := options
  noColor := false
  task := none

theorem ok_of_toOption {ε α : Type} {outcome : Except ε α} {x : α}
    (same : outcome.toOption = some x) : outcome = .ok x := by
  cases outcome with
  | error e => cases same
  | ok y => rw [Option.some.inj same]

/-- The configuration of a class: a branch from the local file, a name from the environment, an
address from an override, a remote from a file that is asked for and a log file from an
argument. -/
theorem strongest_layer_wins_class :
    let s := plainSurroundings [("GITSIM_USER__NAME", "Ada")]
      [("gitsim.toml", "[simulator]\ninitial_branch = \"trunk\"\n[user]\nname = \"Local\"\n"),
       ("class.toml", "[user]\nemail = \"c@d\"\n[remotes]\nupstream = \"u\"\n")]
    let a := { plainArguments ["class.toml"] ["user.email=a@b"] with
      logFile := some (.ofText "a=b.log") }
    let c := { standard with
      logging.path := some (.ofText "a=b.log")
      settings.initialBranch := "trunk"
      settings.user := ⟨"Ada", "a@b"⟩
      settings.remotes := Table.empty.insert "upstream" "u" }
    s.library.Lawful ∧ (∀ assignment ∈ a.options, NamesLeaf assignment) ∧
      (Program.recipe s a).load s.library s.files = .ok c ∧
      ∃ l, Layers.Of s a l ∧
        (∀ o : TextOption, (o.leaf Library.lawful_standard).Follows none a l c) ∧
        (Leaf.path Library.lawful_standard).Follows (some (some (.ofText "a=b.log"))) a l c ∧
        RemotesFollow .standard a.options l c := by
  intro s a c
  have named : ∀ assignment ∈ a.options, NamesLeaf assignment := by
    intro assignment among
    obtain rfl := List.mem_singleton.mp among
    exact ⟨"user", "email", "a@b", ok_of_toOption (by decide +kernel)⟩
  have loaded : (Program.recipe s a).load s.library s.files = .ok c :=
    ok_of_toOption (by decide +kernel)
  obtain ⟨l, layers, texts, -, -, -, path, -, -, remotes⟩ :=
    strongest_layer_wins Library.lawful_standard named loaded
  exact ⟨Library.lawful_standard, named, loaded, l, layers, texts,
    FilePath.displayed_ofText "a=b.log" ▸ path, remotes⟩

/-- What a source writes; nothing if it cannot be read. -/
def Source.layer (files : Files) (source : Source) : Layer :=
  .ofSource (lastOf ((source.rows files).toOption.getD []))

theorem Source.gives_layer {files : Files} {source : Source}
    (readable : (source.rows files).toOption.isSome = true) :
    source.Gives files (source.layer files) := by
  obtain ⟨rows, read⟩ := Option.isSome_iff_exists.mp readable
  refine ⟨rows, ok_of_toOption read, ?_⟩
  rw [Layer.Holds, Source.layer, read, Option.getD_some]

/-- The text of the strongest layer that gives an option one. -/
def Layers.text? (l : Layers) (place key : String) : Option String :=
  l.strongestFirst.findSome? fun layer =>
    match layer.verdict place key with
    | .gives v => v.asText?
    | _ => none

/-- An address from the local file is forgotten when a later file gives the whole section as a
number, a section that is a list sets options that no layer names, and the path of a log file
arrives in replacement characters when it is not a text. -/
theorem whole_section_replaced :
    let s := plainSurroundings []
      [("gitsim.toml", "[user]\nemail = \"e\"\n"), ("b.toml", "user = 3\n"),
       ("c.toml", "user = [\"y\"]\n")]
    let replaced := plainArguments ["b.toml"] ["user.name=x"]
    let listed := plainArguments ["c.toml"] []
    let logged := { plainArguments [] [] with logFile := some ⟨[0xFF]⟩ }
    let layers := fun path : String => Layers.mk
      ((Source.optionalFile Program.localFile).layer s.files)
      [(Source.file (.ofText path)).layer s.files] []
    let loaded := fun a : Arguments => ((Program.recipe s a).load s.library s.files).toOption
    (Layers.Of s replaced (layers "b.toml") ∧
      (∀ assignment ∈ replaced.options, NamesLeaf assignment) ∧
      chosen? replaced.options "user" "email" = none ∧
      (layers "b.toml").text? "user" "email" = some "e" ∧
      (loaded replaced).map (·.settings.user.email) = some "") ∧
    (Layers.Of s listed (layers "c.toml") ∧ (layers "c.toml").text? "user" "name" = none ∧
      (loaded listed).map (·.settings.user.name) = some "y") ∧
    (loaded logged).map (·.logging.path) = some (some (.ofText "\uFFFD")) := by
  intro s replaced listed logged layers loaded
  have localGives : (Source.optionalFile Program.localFile).Gives s.files
      ((Source.optionalFile Program.localFile).layer s.files) :=
    Source.gives_layer (by decide +kernel)
  have number : (Source.file (.ofText "b.toml")).Gives s.files
      ((Source.file (.ofText "b.toml")).layer s.files) := Source.gives_layer (by decide +kernel)
  have list : (Source.file (.ofText "c.toml")).Gives s.files
      ((Source.file (.ofText "c.toml")).layer s.files) := Source.gives_layer (by decide +kernel)
  refine ⟨⟨⟨localGives, .cons number .nil, .refl _⟩, fun assignment among => ?_,
    by decide +kernel, by decide +kernel, by decide +kernel⟩,
    ⟨⟨localGives, .cons list .nil, .refl _⟩, by decide +kernel, by decide +kernel⟩,
    by decide +kernel⟩
  obtain rfl := List.mem_singleton.mp among
  exact ⟨"user", "name", "x", ok_of_toOption (by decide +kernel)⟩

end GitTutor.Config
