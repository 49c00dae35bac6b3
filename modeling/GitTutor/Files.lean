import GitTutor.FilePath

/-!
# Files

The program reads files through one function from paths to what is found there,
and it may open one file for its log, which can change what is found. A failure
has a cause with one fixed wording.
-/

namespace GitTutor

/-- Why a file cannot be read as text. -/
inductive ReadFailure
  | missing
  | notDirectory
  | directory
  | nameTooLong
  | notText
  /-- The path holds a character that ends texts of the system. -/
  | nulInPath
  /-- Any other cause, in the words of the system. -/
  | other (text : String)
  deriving DecidableEq, Repr

/-- The words of the system for a failed reading. -/
def ReadFailure.message : ReadFailure → String
  | .missing => "No such file or directory (os error 2)"
  | .notDirectory => "Not a directory (os error 20)"
  | .directory => "Is a directory (os error 21)"
  | .nameTooLong => "File name too long (os error 36)"
  | .notText => "stream did not contain valid UTF-8"
  | .nulInPath => "file name contained an unexpected NUL byte"
  | .other text => text

/-- Why a log file cannot be written. -/
inductive LogFailure
  /-- Its directory is missing and cannot be made. -/
  | directory (path : FilePath)
  /-- The file itself cannot be opened. -/
  | file (path : FilePath)
  deriving DecidableEq, Repr

/-- The text that reports why a log file cannot be written. -/
def LogFailure.message : LogFailure → String
  | .directory path => "failed to create log directory " ++ path.display
  | .file path => "failed to open log file " ++ path.display

/-- What is found at each path: the bytes of a file, or why there are none. -/
abbrev Files := FilePath → Except ReadFailure (List UInt8)

namespace Files

/-- The bytes of the file at a path. -/
def bytes? (files : Files) (path : FilePath) : Option (List UInt8) :=
  match files path with
  | .ok bytes => some bytes
  | .error _ => none

/-- Whether there is a file or a directory at a path. -/
def holds (files : Files) (path : FilePath) : Bool :=
  match files path with
  | .ok _ => true
  | .error .directory => true
  | .error _ => false

/-- The files that were found at some paths; there are no others. -/
def ofList (found : List (FilePath × Except ReadFailure (List UInt8))) : Files := fun path =>
  match found.find? fun row => row.1 == path with
  | some row => row.2
  | none => .error .missing

end Files

end GitTutor
