/-!
# Space between the parts of a TOML text

Parts of a line stand apart by gaps of spaces and tabs. A line may end with a
comment, and then with a line feed, which a carriage return may precede.
-/

namespace GitTutor.Toml

/-- Whether a character is a space or a tab. -/
def isGap (c : Char) : Bool :=
  c == ' ' || c == '\t'

/-- Whether a character may stand for itself in comments and quotes. Control
characters other than the tab may not. -/
def isPrintable (c : Char) : Bool :=
  c == '\t' || (decide (0x20 ≤ c.toNat) && c.toNat != 0x7F)

/-- A text without the gap at its start. -/
def skipGap (cs : List Char) : List Char :=
  cs.dropWhile isGap

/-- The text after the line end at its start, if it starts with one. -/
def afterBreak? : List Char → Option (List Char)
  | '\n' :: rest => some rest
  | '\r' :: '\n' :: rest => some rest
  | _ => none

/-- Skip gaps, comments and line ends; a comment with a control character is
malformed. The flag tells whether the text starts inside a comment. -/
def skipSpace? : Bool → List Char → Option (List Char)
  | _, [] => some []
  | _, '\n' :: rest => skipSpace? false rest
  | _, '\r' :: '\n' :: rest => skipSpace? false rest
  | true, c :: rest => if isPrintable c then skipSpace? true rest else none
  | false, c :: rest =>
      if c = '#' then skipSpace? true rest
      else if isGap c then skipSpace? false rest
      else some (c :: rest)

/-- The text after the current line, of which only a gap and a comment may be
left. The last line needs no line end. -/
def finishLine? (cs : List Char) : Option (List Char) :=
  let rest := match skipGap cs with
    | '#' :: comment => comment.dropWhile isPrintable
    | rest => rest
  match rest with
  | [] => some []
  | rest => afterBreak? rest

end GitTutor.Toml
