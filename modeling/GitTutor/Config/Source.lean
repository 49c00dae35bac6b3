import GitTutor.Config.Conversion
import GitTutor.Config.KeyPath
import GitTutor.Files
import GitTutor.Toml.Document

/-!
# Sources of configuration

A configuration is put together from TOML texts and files in their order, then
the environment, then single overrides. Later sources win, and so do later
overrides of one key. A library collects the rows of each source, and the overrides,
in maps and takes them from there in any order. A file that is asked for must be there; an optional
one may be missing.
-/

namespace GitTutor.Config

open Text

/-- One source in TOML. -/
inductive Source
  | text (content : String)
  | file (path : FilePath)
  | optionalFile (path : FilePath)
  deriving DecidableEq, Repr

/-- Why a configuration cannot be loaded. -/
inductive Failure
  | malformedOverride (assignment : String)
  | malformedKey (key : String)
  /-- One of the sources is missing or malformed. -/
  | unreadable (sources cause : String)
  /-- The values are not those of a configuration. -/
  | mismatch (sources : String)
  | invalid (value : InvalidValue)
  deriving DecidableEq, Repr

/-- The text that reports a failure. -/
def Failure.message : Failure → String
  | .malformedOverride assignment =>
      "invalid override '" ++ assignment ++ "', expected KEY=VALUE"
  | .malformedKey key => "Config error: malformed key '" ++ key ++ "'"
  | .unreadable sources cause => "failed to parse config '" ++ sources ++ "': " ++ cause
  | .mismatch sources => "invalid configuration in " ++ sources
  | .invalid value => value.message

/-- Split an override at its first equals sign. The key is trimmed and must not
be blank; the value stays as it is. -/
def splitOverride (assignment : String) : Except Failure (String × String) :=
  let cs := assignment.toList
  let key := trim (cs.takeWhile (· != '='))
  match cs.dropWhile (· != '=') with
  | _ :: value =>
      if key = [] then .error (.malformedOverride assignment)
      else .ok (String.ofList key, String.ofList value)
  | [] => .error (.malformedOverride assignment)

/-- Read an override as a path and a text. -/
def readOverride (assignment : String) : Except Failure (KeyPath × String) :=
  match splitOverride assignment with
  | .error e => .error e
  | .ok (key, value) =>
      match KeyPath.ofText? key with
      | some path => .ok (path, value)
      | none => .error (.malformedKey key)

/-- Read overrides in order; the first failure counts. -/
def readOverrides : List String → Except Failure (List (KeyPath × String))
  | [] => .ok []
  | assignment :: rest =>
      match readOverride assignment with
      | .error e => .error e
      | .ok first =>
          match readOverrides rest with
          | .error e => .error e
          | .ok others => .ok (first :: others)

/-- The path that is tried when a path leads to no file: the same with the
ending of TOML files. -/
def withEnding? (path : FilePath) : Option FilePath :=
  path.withEnding? ".toml"

/-- The bytes of a configuration file. -/
def fileBytes? (files : Files) (path : FilePath) : Option (List UInt8) :=
  (files.bytes? path).or ((withEnding? path).bind files.bytes?)

/-- The rows of a configuration file with given bytes. A byte order mark at its
start is not part of its text. -/
def fileRows? (bytes : List UInt8) : Option (Rows Value) :=
  Toml.read? (Toml.withoutMark (decodeLenient bytes))

/-- Why a source gives no rows. -/
def notToml (place : String) : String := "malformed TOML in " ++ place

/-- The rows that a source gives. An optional file that is missing gives none. -/
def Source.rows (files : Files) : Source → Except String (Rows Value)
  | .text content =>
      match Toml.read? content.toList with
      | some rows => .ok rows
      | none => .error (notToml "text")
  | .file path =>
      match fileBytes? files path with
      | none => .error ("configuration file \"" ++ path.display ++ "\" not found")
      | some bytes =>
          match fileRows? bytes with
          | some rows => .ok rows
          | none => .error (notToml path.display)
  | .optionalFile path =>
      match fileBytes? files path with
      | none => .ok []
      | some bytes =>
          match fileRows? bytes with
          | some rows => .ok rows
          | none => .error (notToml path.display)

/-- The kind and the place of a source, unless it is an optional file at a path
where there is nothing. -/
def Source.listed? (files : Files) : Source → Option (String × String)
  | .text _ => some ("string", "<string>")
  | .file path => some ("file", path.display)
  | .optionalFile path => if files.holds path then some ("optional", path.display) else none

/-- The places of sources in one text. -/
def placesText (files : Files) (sources : List Source) : String :=
  match sources.filterMap (Source.listed? files) with
  | [] => "<defaults>"
  | found => joinWith ", " (found.map Prod.snd)

/-- A numbered line for each source that is there. -/
def sourceLines (number : Nat) : List (String × String) → List String
  | [] => []
  | (kind, place) :: rest =>
      (Nat.repr number ++ ". [" ++ kind ++ "] " ++ place) :: sourceLines (number + 1) rest

/-- The lines that list sources. -/
def listSources (files : Files) (sources : List Source) : List String :=
  match sources.filterMap (Source.listed? files) with
  | [] => ["No configuration files loaded, using defaults"]
  | found => sourceLines 1 found

/-- The rows of sources laid over each other in their order. The sources are numbered from a
given number on. -/
def mergeSources (lib : Library) (files : Files) (number : Nat) (rows : Rows Value) :
    List Source → Except String (Rows Value)
  | [] => .ok rows
  | source :: rest =>
      match source.rows files with
      | .error cause => .error cause
      | .ok more =>
          mergeSources lib files (number + 1) (Value.putSource rows (lib.taken number more)) rest

/-- Rows after overrides, each of which is a text. -/
def applyOverrides (rows : Rows Value) (overrides : List (KeyPath × String)) : Rows Value :=
  overrides.foldl (fun rows o => Value.put o.1 (.text o.2) rows) rows

/-- Everything a configuration is made from. -/
structure Recipe where
  sources : List Source
  /-- What the environment adds. -/
  environment : Rows Value
  overrides : List String

namespace Recipe

/-- The rows of all sources, the environment and the overrides. The environment is numbered as
the last of the sources. -/
def rows (recipe : Recipe) (lib : Library) (files : Files)
    (overrides : List (KeyPath × String)) : Except String (Rows Value) :=
  match mergeSources lib files 0 [] recipe.sources with
  | .error cause => .error cause
  | .ok rows =>
      let environment := lib.taken recipe.sources.length recipe.environment
      .ok (applyOverrides (Value.putSource rows environment) (lib.takenOverrides overrides))

/-- Load a configuration. Overrides are checked first, and values last. -/
def load (recipe : Recipe) (lib : Library) (files : Files) : Except Failure Config :=
  let places := placesText files recipe.sources
  match readOverrides recipe.overrides with
  | .error e => .error e
  | .ok overrides =>
      match recipe.rows lib files overrides with
      | .error cause => .error (.unreadable places cause)
      | .ok rows =>
          match ofRows? lib rows with
          | none => .error (.mismatch places)
          | some config =>
              match config.validate with
              | .error value => .error (.invalid value)
              | .ok () => .ok config

end Recipe

end GitTutor.Config
