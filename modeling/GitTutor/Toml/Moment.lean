import GitTutor.Text.Blank
import GitTutor.Text.Count

/-!
# Dates and times of TOML

A moment is a date, a time of day, or both with or without an offset from
universal time. It is read from its written form and written in one uniform way:
a `T` between date and time, an upper-case `Z`, and no more digits in a fraction
of a second than needed.
-/

namespace GitTutor.Toml

open Text

/-- The length of a written date. -/
def dateLength : Nat := 10

/-- A number written with a fixed count of digits. -/
def readFixed? (count : Nat) (cs : List Char) : Option Nat :=
  if cs.length = count then readDigits? cs else none

/-- Whether a year has a 29 February. -/
def isLeapYear (year : Nat) : Bool :=
  year % 4 == 0 && (year % 100 != 0 || year % 400 == 0)

/-- How many days a month has. -/
def daysOf (year month : Nat) : Nat :=
  if month = 2 then (if isLeapYear year then 29 else 28)
  else if month = 4 ∨ month = 6 ∨ month = 9 ∨ month = 11 then 30
  else 31

/-- Whether a text is a date of the calendar: year, month and day between dashes. -/
def isDate (cs : List Char) : Bool :=
  match pieces (· == '-') cs with
  | [year, month, day] =>
      match readFixed? 4 year, readFixed? 2 month, readFixed? 2 day with
      | some y, some m, some d =>
          decide (1 ≤ m) && decide (m ≤ 12) && decide (1 ≤ d) && decide (d ≤ daysOf y m)
      | _, _, _ => false
  | _ => false

/-- Whether a text is an hour and a minute with a colon between them. -/
def isClock (cs : List Char) : Bool :=
  match pieces (· == ':') cs with
  | [hour, minute] =>
      match readFixed? 2 hour, readFixed? 2 minute with
      | some h, some m => decide (h ≤ 23) && decide (m ≤ 59)
      | _, _ => false
  | _ => false

/-- A fraction of a second is kept to this many digits. -/
def fractionDigits : Nat := 9

/-- The uniform text of a fraction of a second, with its point. -/
def fraction? : List Char → Option (List Char)
  | [] => some []
  | '.' :: digits =>
      if digits ≠ [] ∧ digits.all isDecimal then
        match dropTrailing (· == '0') (digits.take fractionDigits) with
        | [] => some []
        | kept => some ('.' :: kept)
      else none
  | _ => none

/-- The uniform text of a time of day, with or without seconds. Second 60 is for
leap seconds. -/
def timeOfDay? (cs : List Char) : Option (List Char) :=
  let clock := cs.take 5
  match cs.drop 5 with
  | [] => if isClock clock then some clock else none
  | ':' :: rest =>
      match readFixed? 2 (rest.take 2), fraction? (rest.drop 2) with
      | some second, some fraction =>
          if isClock clock ∧ second ≤ 60 then some (clock ++ ':' :: rest.take 2 ++ fraction)
          else none
      | _, _ => none
  | _ => none

/-- The uniform text of an offset from universal time, which may be missing. An
offset of zero is written with a plus sign. -/
def offset? : List Char → Option (List Char)
  | [] => some []
  | [c] => if c = 'Z' ∨ c = 'z' then some ['Z'] else none
  | sign :: clock =>
      if (sign = '+' ∨ sign = '-') ∧ isClock clock then
        some ((if clock = "00:00".toList then '+' else sign) :: clock)
      else none

/-- Whether a character starts an offset. -/
def startsOffset (c : Char) : Bool :=
  c == 'Z' || c == 'z' || c == '+' || c == '-'

/-- The uniform text of a time of day with the offset after it. -/
def offsetTime? (cs : List Char) : Option (List Char) :=
  let time := cs.takeWhile fun c => !startsOffset c
  match timeOfDay? time, offset? (cs.drop time.length) with
  | some time, some offset => some (time ++ offset)
  | _, _ => none

/-- The uniform text of a moment. -/
def moment? (cs : List Char) : Option (List Char) :=
  if isDate cs then some cs
  else if isDate (cs.take dateLength) then
    match cs.drop dateLength with
    | mark :: time =>
        if mark = 'T' ∨ mark = 't' ∨ mark = ' ' then
          (offsetTime? time).map fun time => cs.take dateLength ++ 'T' :: time
        else none
    | [] => none
  else timeOfDay? cs

end GitTutor.Toml
