import GitTutor.Text.Count
import GitTutor.Toml.Space

/-!
# Quoted texts of TOML

A text between double quotes has escapes, one between single quotes has none.
Between triple quotes a text may run over several lines; there, a line end right
after the opening quotes does not count, and a backslash at the end of a line
removes the space up to the next word.
-/

namespace GitTutor.Toml

open Text

/-- The value of a hexadecimal digit. -/
def hexValue? (c : Char) : Option Nat :=
  if isDecimal c then some (c.toNat - '0'.toNat)
  else if 'a' ≤ c ∧ c ≤ 'f' then some (c.toNat - 'a'.toNat + 10)
  else if 'A' ≤ c ∧ c ≤ 'F' then some (c.toNat - 'A'.toNat + 10)
  else none

/-- The number that hexadecimal digits stand for, most significant first. -/
def hexNumber? (cs : List Char) : Option Nat :=
  cs.foldl (fun n c => n.bind fun n => (hexValue? c).map (16 * n + ·)) (some 0)

/-- The character whose number is given by hexadecimal digits. -/
def numberedChar? (cs : List Char) : Option Char :=
  (hexNumber? cs).bind fun n => if n.isValidChar then some (Char.ofNat n) else none

/-- The character that a letter after a backslash stands for. -/
def escapedChar? (c : Char) : Option Char :=
  if c = 'b' then some (Char.ofNat 8)
  else if c = 't' then some '\t'
  else if c = 'n' then some '\n'
  else if c = 'e' then some (Char.ofNat 27)
  else if c = 'f' then some (Char.ofNat 12)
  else if c = 'r' then some '\r'
  else if c = '"' ∨ c = '\\' then some c
  else none

/-- A text that was read and the rest of the input. -/
abbrev Quote := List Char × List Char

/-- Put a character, if there is one, in front of a text that was read. -/
def onto (c? : Option Char) (quote? : Option Quote) : Option Quote :=
  c?.bind fun c => quote?.map fun quote => (c :: quote.1, quote.2)

/-- A text after its opening double quote. -/
def readBasic? : List Char → Option Quote
  | [] => none
  | c :: rest =>
      if c = '"' then some ([], rest)
      else if c = '\\' then
        match rest with
        | 'x' :: a :: b :: rest => onto (numberedChar? [a, b]) (readBasic? rest)
        | 'u' :: a :: b :: c :: d :: rest => onto (numberedChar? [a, b, c, d]) (readBasic? rest)
        | 'U' :: a :: b :: c :: d :: e :: f :: g :: h :: rest =>
            onto (numberedChar? [a, b, c, d, e, f, g, h]) (readBasic? rest)
        | letter :: rest => onto (escapedChar? letter) (readBasic? rest)
        | [] => none
      else if isPrintable c then onto (some c) (readBasic? rest)
      else none

/-- A text after its opening single quote. -/
def readLiteral? (cs : List Char) : Option Quote :=
  let body := cs.takeWhile fun c => c != '\'' && isPrintable c
  match cs.drop body.length with
  | '\'' :: rest => some (body, rest)
  | _ => none

/-- The end of a text between triple quotes: up to two quotes belong to the text
when they stand before the closing ones. -/
def closing? (mark : Char) (cs : List Char) : Option Quote :=
  let marks := cs.takeWhile (· == mark)
  if marks.length < 3 then none
  else
    let inner := min 2 (marks.length - 3)
    some (marks.take inner, cs.drop (inner + 3))

/-- Whether the line after a backslash holds nothing but a gap. -/
def isLineContinued (cs : List Char) : Bool :=
  (afterBreak? (skipGap cs)).isSome

/-- A text after its triple double quotes. The flag tells whether the space at
its start is removed. -/
def readBasicBlock? : Bool → List Char → Option Quote
  | _, [] => none
  | skipping, c :: rest =>
      let isBreak := c == '\n' || (c == '\r' && rest.head? == some '\n')
      if skipping ∧ (isGap c ∨ isBreak) then readBasicBlock? true rest
      else if c = '"' then
        match closing? '"' (c :: rest) with
        | some quote => some quote
        | none => onto (some c) (readBasicBlock? false rest)
      else if c = '\\' then
        if isLineContinued rest then readBasicBlock? true rest
        else
          match rest with
          | 'x' :: a :: b :: rest => onto (numberedChar? [a, b]) (readBasicBlock? false rest)
          | 'u' :: a :: b :: c :: d :: rest =>
              onto (numberedChar? [a, b, c, d]) (readBasicBlock? false rest)
          | 'U' :: a :: b :: c :: d :: e :: f :: g :: h :: rest =>
              onto (numberedChar? [a, b, c, d, e, f, g, h]) (readBasicBlock? false rest)
          | letter :: rest => onto (escapedChar? letter) (readBasicBlock? false rest)
          | [] => none
      else if isPrintable c ∨ isBreak then onto (some c) (readBasicBlock? false rest)
      else none

/-- A text after its triple single quotes. -/
def readLiteralBlock? : List Char → Option Quote
  | [] => none
  | c :: rest =>
      let isBreak := c == '\n' || (c == '\r' && rest.head? == some '\n')
      if c = '\'' then
        match closing? '\'' (c :: rest) with
        | some quote => some quote
        | none => onto (some c) (readLiteralBlock? rest)
      else if isPrintable c ∨ isBreak then onto (some c) (readLiteralBlock? rest)
      else none

/-- A text without the line end at its start. -/
def skipBreak (cs : List Char) : List Char :=
  (afterBreak? cs).getD cs

/-- Any quoted text, from its opening quotes on. -/
def readQuoted? : List Char → Option Quote
  | '"' :: '"' :: '"' :: rest => readBasicBlock? false (skipBreak rest)
  | '\'' :: '\'' :: '\'' :: rest => readLiteralBlock? (skipBreak rest)
  | '"' :: rest => readBasic? rest
  | '\'' :: rest => readLiteral? rest
  | _ => none

end GitTutor.Toml
