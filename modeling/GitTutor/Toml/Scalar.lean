import GitTutor.Config.Value
import GitTutor.Decimal.Reader
import GitTutor.Toml.Moment
import GitTutor.Toml.Quotes

/-!
# Unquoted values of TOML

Truth values, integers in four bases, decimals, infinities and moments are
written without quotes. Digits may be grouped by single underscores. Integers
have 64 bits, and a finite decimal must not round to an infinity.
-/

namespace GitTutor.Toml

open Text

/-- Digits without the underscores that group them, each of which must stand
between two digits. -/
def ungroup? (isDigit : Char → Bool) (cs : List Char) : Option (List Char) :=
  let groups := pieces (· == '_') cs
  if groups.all fun group => !group.isEmpty && group.all isDigit then some groups.flatten
  else none

/-- The digits before a point. A leading zero stands alone. -/
def wholeDigits? (cs : List Char) : Option (List Char) :=
  (ungroup? isDecimal cs).filter fun digits => digits == ['0'] || digits.head? != some '0'

/-- An integer in range. -/
def bounded? (n : Int) : Option Config.Value :=
  if isInteger n then some (.integer n) else none

/-- Whether a character is a digit of a base up to sixteen. -/
def isDigitOf (base : Nat) (c : Char) : Bool :=
  (hexValue? c).any (· < base)

/-- A number in a given base. -/
def inBase? (base : Nat) (cs : List Char) : Option Config.Value :=
  (ungroup? (isDigitOf base) cs).bind fun digits =>
    bounded? (Int.ofNat (digits.foldl (fun n c => base * n + (hexValue? c).getD 0) 0))

/-- An integer in base ten after its sign. -/
def integer? (negative : Bool) (cs : List Char) : Option Config.Value :=
  (wholeDigits? cs).bind fun digits =>
    let n := Int.ofNat (digitsValue digits)
    bounded? (if negative then -n else n)

/-- The integer after the letter of an exponent. -/
def exponent? (cs : List Char) : Option Int :=
  let (negative, digits) := Binary64.readSign cs
  (ungroup? isDecimal digits).map fun digits =>
    let n := Int.ofNat (digitsValue digits)
    if negative then -n else n

/-- Whether a character starts an exponent. -/
def startsExponent (c : Char) : Bool :=
  c == 'e' || c == 'E'

/-- Split a text after the first character that satisfies `p`, which is dropped. -/
def cut? (p : Char → Bool) (cs : List Char) : List Char × Option (List Char) :=
  match cs.dropWhile fun c => !p c with
  | [] => (cs, none)
  | _ :: rest => (cs.takeWhile fun c => !p c, some rest)

/-- The value of an optional part that must be well-formed if it is there. -/
def optional? {α : Type} (read : List Char → Option α) (missing : α) :
    Option (List Char) → Option α
  | none => some missing
  | some cs => read cs

/-- A decimal after its sign: a point or an exponent must be there. -/
def decimal? (negative : Bool) (cs : List Char) : Option Config.Value :=
  let (mantissa, exponent) := cut? startsExponent cs
  let (whole, fraction) := cut? (· == '.') mantissa
  if fraction.isNone ∧ exponent.isNone then none
  else
    match wholeDigits? whole, optional? (ungroup? isDecimal) [] fraction,
        optional? exponent? 0 exponent with
    | some whole, some fraction, some e =>
        let number := Binary64.ofDecimal negative (digitsValue (whole ++ fraction))
          (e - Int.ofNat fraction.length)
        match number with
        | .infinite _ => none
        | number => some (.number number)
    | _, _, _ => none

/-- An infinity or the value that is no number, after its sign. -/
def special? (negative : Bool) (cs : List Char) : Option Config.Value :=
  if cs = "inf".toList then some (.number (.infinite negative))
  else if cs = "nan".toList then some (.number .nan)
  else none

/-- A number in base ten or in words. -/
def signed? (cs : List Char) : Option Config.Value :=
  let (negative, rest) := Binary64.readSign cs
  ((integer? negative rest).or (decimal? negative rest)).or (special? negative rest)

/-- An unquoted value. -/
def scalar? (cs : List Char) : Option Config.Value :=
  match cs with
  | '0' :: 'x' :: digits => inBase? 16 digits
  | '0' :: 'o' :: digits => inBase? 8 digits
  | '0' :: 'b' :: digits => inBase? 2 digits
  | cs =>
      if cs = "true".toList then some (.truth true)
      else if cs = "false".toList then some (.truth false)
      else (signed? cs).or ((moment? cs).map fun text => .text (String.ofList text))

/-- Whether a character may stand in an unquoted value. -/
def isScalarChar (c : Char) : Bool :=
  (decide ('a' ≤ c) && decide (c ≤ 'z')) || (decide ('A' ≤ c) && decide (c ≤ 'Z')) ||
    isDecimal c || c == '+' || c == '-' || c == '_' || c == '.' || c == ':'

/-- The unquoted value at the start of a text and the rest. A space may stand
between a date and a time. -/
def readScalar? (cs : List Char) : Option (Config.Value × List Char) :=
  let word := cs.takeWhile isScalarChar
  let rest := cs.dropWhile isScalarChar
  let (word, rest) := match rest with
    | ' ' :: d :: more =>
        if isDate word ∧ isDecimal d then
          (word ++ ' ' :: (d :: more).takeWhile isScalarChar, (d :: more).dropWhile isScalarChar)
        else (word, rest)
    | _ => (word, rest)
  (scalar? word).map fun value => (value, rest)

end GitTutor.Toml
