/-!
# Decimal counts

A count is written as a non-empty run of the digits 0 to 9, with an optional
leading plus sign, and is read only when it lies below the bound of its kind.
-/

namespace GitTutor.Text

/-- Whether a character is one of the ten decimal digits of ASCII. -/
def isDecimal (c : Char) : Bool :=
  decide ('0' ≤ c) && decide (c ≤ '9')

/-- The number that a list of decimal digits stands for, most significant first. -/
def digitsValue (cs : List Char) : Nat :=
  cs.foldl (fun n c => 10 * n + (c.toNat - '0'.toNat)) 0

/-- A non-empty run of decimal digits, read as a number. -/
def readDigits? (cs : List Char) : Option Nat :=
  if cs ≠ [] ∧ cs.all isDecimal then some (digitsValue cs) else none

/-- A count below `bound`, with an optional leading plus sign. -/
def readCount? (bound : Nat) (cs : List Char) : Option Nat :=
  let digits := match cs with
    | '+' :: rest => rest
    | rest => rest
  (readDigits? digits).filter (· < bound)

/-- Counts are stored in 64 bits: they lie below two to the 64. -/
def wordBound : Nat := 18446744073709551616

/-- Integers with a sign are stored in 64 bits too: their magnitudes lie below two
to the 63, which itself belongs to the least integer. -/
def integerBound : Nat := 9223372036854775808

/-- Whether a number is an integer of 64 bits. -/
def isInteger (n : Int) : Bool :=
  decide (-Int.ofNat integerBound ≤ n) && decide (n < Int.ofNat integerBound)

/-- An integer of 64 bits with an optional sign. -/
def readInteger? (cs : List Char) : Option Int :=
  match cs with
  | '-' :: rest => ((readDigits? rest).map fun n => -Int.ofNat n).filter isInteger
  | '+' :: rest => ((readDigits? rest).map Int.ofNat).filter isInteger
  | rest => ((readDigits? rest).map Int.ofNat).filter isInteger

end GitTutor.Text
