import GitTutor.Decimal.Binary64
import GitTutor.Text.Count

/-!
# Reading decimals

A decimal is digits with an optional point among or around them, an optional
exponent and an optional sign. Infinities and the value that is no number are
written in words, in any letter case.
-/

namespace GitTutor.Binary64

open Text

/-- Split off the sign of a text. -/
def readSign : List Char → Bool × List Char
  | '-' :: rest => (true, rest)
  | '+' :: rest => (false, rest)
  | rest => (false, rest)

/-- The exponent at the end of a decimal: nothing, or a letter and an integer. -/
def readExponent? : List Char → Option Int
  | [] => some 0
  | c :: rest =>
      if c = 'e' ∨ c = 'E' then
        let (negative, digits) := readSign rest
        (readDigits? digits).map fun n => if negative then -Int.ofNat n else Int.ofNat n
      else none

/-- The digits after the point, and the text after them. -/
def readFraction : List Char → List Char × List Char
  | '.' :: rest => (rest.takeWhile isDecimal, rest.dropWhile isDecimal)
  | rest => ([], rest)

/-- A decimal without its sign. -/
def readMagnitude? (negative : Bool) (cs : List Char) : Option Binary64 :=
  let whole := cs.takeWhile isDecimal
  let (fraction, rest) := readFraction (cs.dropWhile isDecimal)
  if whole ++ fraction = [] then none
  else (readExponent? rest).map fun e =>
    ofDecimal negative (digitsValue (whole ++ fraction)) (e - Int.ofNat fraction.length)

/-- A decimal, an infinity or the value that is no number. -/
def read? (cs : List Char) : Option Binary64 :=
  let (negative, rest) := readSign cs
  let word := rest.map Char.toLower
  if word = "inf".toList ∨ word = "infinity".toList then some (.infinite negative)
  else if word = "nan".toList then some .nan
  else readMagnitude? negative rest

end GitTutor.Binary64
