import GitTutor.Text.Blank
import GitTutor.Text.Utf8

/-!
# Paths

A path is made of bytes and need not be a text. Where it is shown, what is no text
in it is replaced. The parts of a path stand between slashes. Slashes and single
dots at the end of a path say nothing about its last name, and neither do repeated
slashes. Here the last name of a path, the path of its directory and the same path
with another ending are found in its bytes alone.
-/

namespace GitTutor

open Text

/-- The path of a file or a directory. -/
structure FilePath where
  bytes : List UInt8
  deriving DecidableEq, Repr

namespace FilePath

/-- The path that a text stands for. -/
def ofText (text : String) : FilePath := ⟨encode text.toList⟩

/-- A path as it is shown. -/
def display (path : FilePath) : String :=
  String.ofList (decodeLenient path.bytes)

/-- The path that is meant by what a path is shown as. -/
def displayed (path : FilePath) : FilePath := ofText path.display

/-- Whether a path has no bytes. -/
def isEmpty (path : FilePath) : Bool := path.bytes.isEmpty

/-- The byte between the parts of a path. -/
def slash : UInt8 := 0x2F

/-- The byte in front of an ending. -/
def dot : UInt8 := 0x2E

/-- The parts of a path; some of them may be empty. -/
def parts (path : FilePath) : List (List UInt8) :=
  pieces (· == slash) path.bytes

/-- A path, last byte first, without the slashes and single dots at its end. A slash
that is the whole path stays, and so does a dot at the very start. -/
def dropIdle : List UInt8 → List UInt8
  | 0x2F :: front =>
      match front with
      | [] => [slash]
      | _ :: _ => dropIdle front
  | 0x2E :: 0x2F :: front => dropIdle (slash :: front)
  | path => path

/-- A path, last byte first, without what is idle at its end. -/
def reversed (path : FilePath) : List UInt8 :=
  dropIdle path.bytes.reverse

/-- The last name of a path; it may be empty or dots. -/
def lastName (path : FilePath) : List UInt8 :=
  ((reversed path).takeWhile (· != slash)).reverse

/-- The path of the directory that holds what a path leads to; it is empty for a
single name. -/
def directory (path : FilePath) : FilePath :=
  ⟨(dropIdle ((reversed path).drop (lastName path).length)).reverse⟩

/-- Whether a path leads to something by a name of its own. -/
def isNamed (path : FilePath) : Bool :=
  !([[dot], [dot, dot], []].contains (lastName path))

/-- Whether a name has an ending: a dot that does not stand first. -/
def hasEnding (name : List UInt8) : Bool :=
  (name.drop 1).contains dot

/-- What stands for a name where an ending is put behind a slash. -/
def nameless : String := ".placeholder"

/-- A path whose last name takes one more ending. A name without an ending takes it
at once; otherwise it comes after the whole path. -/
def withEnding? (ending : String) (path : FilePath) : Option FilePath :=
  if isNamed path then
    if hasEnding (lastName path) then
      if path.bytes.getLast? = some slash then
        some ⟨path.bytes ++ (ofText (nameless ++ ending)).bytes⟩
      else some ⟨path.bytes ++ (ofText ending).bytes⟩
    else some ⟨(reversed path).reverse ++ (ofText ending).bytes⟩
  else none

end FilePath

end GitTutor
