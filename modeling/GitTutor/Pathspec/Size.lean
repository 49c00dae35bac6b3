import GitTutor.Pathspec

/-!
# Sizes of patterns

Where all names that a pattern matches have equally many bytes, the number of
these bytes is bounded, for the whole pattern and for every part of it.
-/

namespace GitTutor.Pathspec

/-- The number of bytes of a text. -/
def byteCount (text : List Char) : Nat :=
  (String.ofList text).utf8ByteSize

mutual

/-- The number of bytes that a token stands for, if it is always the same. A
single character counts with the four bytes that it may need. -/
def fixedSize? : Token → Option Nat
  | .literal text _ => some (byteCount text)
  | .separator => some 1
  | .one => some 4
  | .oneOf _ _ => some 4
  | .many => none
  | .tree _ => none
  | .alternation branches => commonSize? branches
  | .repetition body least most =>
      if most = some least then (patternSize? body).map (least * ·) else none

/-- The number of bytes that a pattern stands for, if it is always the same. -/
def patternSize? : Pattern → Option Nat
  | [] => some 0
  | token :: rest =>
      match fixedSize? token, patternSize? rest with
      | some first, some others => some (first + others)
      | _, _ => none

/-- The number of bytes that each of several patterns stands for, if it is always
the same. -/
def commonSize? : List Pattern → Option Nat
  | [] => none
  | pattern :: rest =>
      match patternSize? pattern with
      | none => none
      | some size =>
          match rest with
          | [] => some size
          | _ :: _ => if commonSize? rest = some size then some size else none

end

/-- A fixed number of bytes must stay below this bound. -/
def fixedSizeBound : Nat := 65536

/-- Whether a number of bytes is not fixed or small. -/
def isModest (size? : Option Nat) : Bool :=
  size?.all (· < fixedSizeBound)

end GitTutor.Pathspec
