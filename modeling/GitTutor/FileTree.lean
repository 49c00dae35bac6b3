import GitTutor.Files

/-!
# File trees

A tree of files and directories around one directory, the top. A path is followed
part by part; a single dot stays where it is and two dots lead one level up, also
above the top. Every part on the way must be a directory. Main operations are
reading, `FileTree.files`, and opening a log file, `FileTree.openLog`, which makes
what is missing.
-/

namespace GitTutor

/-- Where a chain of names starts. -/
inductive Base
  /-- So many levels above the top; the top itself is no level above it. -/
  | above (levels : Nat)
  | root
  deriving DecidableEq, Repr

/-- A place in a tree: a start and the names of the way from there. -/
structure Place where
  base : Base
  names : List (List UInt8)
  deriving DecidableEq, Repr

namespace Place

/-- The place one level up. There is nothing above the root. -/
def up (place : Place) : Place :=
  match place.names, place.base with
  | [], .above levels => ⟨.above (levels + 1), []⟩
  | [], .root => place
  | _ :: _, base => ⟨base, place.names.dropLast⟩

/-- The place of a name in a directory. -/
def child (place : Place) (name : List UInt8) : Place :=
  ⟨place.base, place.names ++ [name]⟩

/-- Whether the way to one place goes on to another. -/
def isOnWayTo (place other : Place) : Bool :=
  place.base == other.base && place.names.isPrefixOf other.names

end Place

/-- The files of a tree, and directories that may be empty. -/
structure FileTree where
  entries : List (Place × List UInt8)
  directories : List Place

namespace FileTree

/-- A name may have this many bytes. -/
def nameBound : Nat := 255

/-- A path must have fewer bytes than this. -/
def pathBound : Nat := 4096

/-- The bytes of the file at a place. -/
def bytes? (tree : FileTree) (place : Place) : Option (List UInt8) :=
  (tree.entries.find? fun entry => entry.1 == place).map Prod.snd

/-- Whether a place is a directory: a start, or on the way to something. -/
def isDirectory (tree : FileTree) (place : Place) : Bool :=
  place.names.isEmpty || tree.directories.any place.isOnWayTo ||
    tree.entries.any fun entry => entry.1 != place && place.isOnWayTo entry.1

/-- Where a path starts. -/
def start (path : FilePath) : Place :=
  if path.bytes.head? = some FilePath.slash then ⟨.root, []⟩ else ⟨.above 0, []⟩

/-- Whether a part of a path leads nowhere. -/
def isIdle (part : List UInt8) : Bool :=
  part == [] || part == [FilePath.dot]

/-- Whether a part of a path leads one level up. -/
def isUpward (part : List UInt8) : Bool :=
  part == [FilePath.dot, FilePath.dot]

/-- The place of one part of a path in a directory, whether or not there is
something. -/
def step (tree : FileTree) (place : Place) (part : List UInt8) : Except ReadFailure Place :=
  if tree.isDirectory place then
    if isIdle part then .ok place
    else if isUpward part then .ok place.up
    else if nameBound < part.length then .error .nameTooLong
    else .ok (place.child part)
  else .error .notDirectory

/-- Follow parts, each of which must lead to something. -/
def follow (tree : FileTree) (place : Place) : List (List UInt8) → Except ReadFailure Place
  | [] => .ok place
  | part :: rest =>
      match tree.step place part with
      | .error e => .error e
      | .ok next =>
          if (tree.bytes? next).isSome || tree.isDirectory next then tree.follow next rest
          else .error .missing

/-- Why a path cannot be followed at all. -/
def pathFailure? (path : FilePath) : Option ReadFailure :=
  if path.bytes.contains 0 then some .nulInPath
  else if path.isEmpty then some .missing
  else if pathBound ≤ path.bytes.length then some .nameTooLong
  else none

/-- The place that a path leads to. -/
def locate (tree : FileTree) (path : FilePath) : Except ReadFailure Place :=
  match pathFailure? path with
  | some e => .error e
  | none => tree.follow (start path) path.parts

/-- What is found at each path. -/
def files (tree : FileTree) : Files := fun path =>
  match tree.locate path with
  | .error e => .error e
  | .ok place =>
      match tree.bytes? place with
      | some bytes => .ok bytes
      | none => .error .directory

/-- The tree with one more directory. -/
def addDirectory (tree : FileTree) (place : Place) : FileTree :=
  { tree with directories := place :: tree.directories }

/-- The tree in which a file has given bytes. -/
def write (tree : FileTree) (place : Place) (bytes : List UInt8) : FileTree :=
  { tree with entries := (place, bytes) :: tree.entries.filter fun entry => entry.1 != place }

/-- Follow parts and make the directories that are missing. -/
def makeWay (tree : FileTree) (place : Place) :
    List (List UInt8) → Except ReadFailure (FileTree × Place)
  | [] => if tree.isDirectory place then .ok (tree, place) else .error .notDirectory
  | part :: rest =>
      match tree.step place part with
      | .error e => .error e
      | .ok next =>
          if (tree.bytes? next).isSome || tree.isDirectory next then tree.makeWay next rest
          else (tree.addDirectory next).makeWay next rest

/-- The tree in which the directories of a path are made if they are missing. -/
def makeDirectories (tree : FileTree) (path : FilePath) : Except ReadFailure FileTree :=
  match pathFailure? path with
  | some e => .error e
  | none => (tree.makeWay (start path) path.parts).map Prod.fst

/-- The place of a file that can be opened for writing: the last part of its path
is a name, and everything before it leads to a directory. -/
def place? (tree : FileTree) (path : FilePath) : Option Place :=
  let parts := path.parts
  match pathFailure? path, parts.getLast?, tree.follow (start path) parts.dropLast with
  | none, some name, .ok place =>
      if isIdle name || isUpward name then none
      else
        match tree.step place name with
        | .ok file => if tree.isDirectory file then none else some file
        | .error _ => none
  | _, _, _ => none

/-- The tree after the file at a path was opened for writing at its end. -/
def openFile? (tree : FileTree) (path : FilePath) : Option FileTree :=
  (tree.place? path).map fun place => tree.write place ((tree.bytes? place).getD [])

/-- The tree after a log file was opened, whose directory is made first. -/
def openLog (tree : FileTree) (path : FilePath) : Except LogFailure FileTree :=
  let directory := path.directory
  let made := if directory.isEmpty then .ok tree else tree.makeDirectories directory
  match made with
  | .error _ => .error (.directory directory)
  | .ok tree =>
      match tree.openFile? path with
      | none => .error (.file path)
      | some tree => .ok tree

/-- The tree in which bytes are added at the end of a log file. -/
def append (tree : FileTree) (path : FilePath) (bytes : List UInt8) : FileTree :=
  match tree.openLog path with
  | .error _ => tree
  | .ok opened =>
      match opened.place? path with
      | none => opened
      | some place => opened.write place ((opened.bytes? place).getD [] ++ bytes)

/-- The tree of files with given paths. -/
def ofList (files : List (FilePath × List UInt8)) : FileTree :=
  files.foldl (fun tree file => tree.append file.1 file.2) ⟨[], []⟩

end FileTree

end GitTutor
