import GitTutor.Config.Value
import GitTutor.Text.Count
import GitTutor.Text.LowercaseText

/-!
# Reading values

Values are read as texts, counts and truth values. A text may be given as a number
or a truth value, a count as a text, and so on. A table or a list is none of these.
-/

namespace GitTutor.Config

open Text

/-- A text without regard to letter case. -/
def caseless (s : String) : String :=
  String.ofList (lowercaseText s.toList)

/-- The words for yes. -/
def yesWords : List String := ["true", "on", "yes"]

/-- The words for no. -/
def noWords : List String := ["false", "off", "no"]

namespace Value

/-- A value as a text. -/
def asText? : Value → Option String
  | text s => some s
  | truth b => some (if b then "true" else "false")
  | integer n => some (Int.repr n)
  | number x => some x.text
  | _ => none

/-- Numbers of one byte lie below this bound. -/
def byteBound : Nat := 256

/-- A value as a count below `bound`. -/
def asCount? (bound : Nat) : Value → Option Nat
  | truth b => some (if b then 1 else 0)
  | integer n => if 0 ≤ n ∧ n < bound then some n.toNat else none
  | number x => some (x.toCount bound)
  | text s =>
      if caseless s ∈ yesWords then some 1
      else if caseless s ∈ noWords then some 0
      else readCount? bound s.toList
  | _ => none

/-- A value as a truth value. -/
def asTruth? : Value → Option Bool
  | truth b => some b
  | integer n => some (n != 0)
  | number x => some (!x.isZero)
  | text s =>
      if caseless s ∈ "1" :: yesWords then some true
      else if caseless s ∈ "0" :: noWords then some false
      else none
  | _ => none

/-- A value as a number of one byte. A greater number is refused and not cut off. -/
def asByte? (v : Value) : Option Nat :=
  v.asCount? byteBound

end Value

end GitTutor.Config
