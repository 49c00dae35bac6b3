/-!
# Short hashes

A short hash is a number below `36 ^ 7` written with exactly seven digits of
base 36, the digits being `0` to `9` and then `a` to `z`. Larger numbers wrap.
-/

namespace GitTutor.ShortHash

/-- The number of digits of a short hash. -/
def width : Nat := 7

/-- The digit for a number below 36. -/
def digit (n : Nat) : Char :=
  if n < 10 then Char.ofNat ('0'.toNat + n) else Char.ofNat ('a'.toNat + (n - 10))

/-- Whether a character is a digit of base 36. -/
def isDigit (c : Char) : Bool :=
  (decide ('0' ≤ c) && decide (c ≤ '9')) || (decide ('a' ≤ c) && decide (c ≤ 'z'))

/-- The number that a digit of base 36 stands for. -/
def digitValue (c : Char) : Nat :=
  if c ≤ '9' then c.toNat - '0'.toNat else c.toNat - 'a'.toNat + 10

/-- The last `w` digits of a number, most significant first. -/
def digits : Nat → Nat → List Char
  | 0, _ => []
  | w + 1, v => digits w (v / 36) ++ [digit (v % 36)]

theorem length_digits (w v : Nat) : (digits w v).length = w := by
  induction w generalizing v with
  | zero => rfl
  | succ w ih => simp [digits, ih]

/-- The number that a list of digits stands for. -/
def value (cs : List Char) : Nat :=
  cs.foldl (fun n c => 36 * n + digitValue c) 0

/-- The short hash of a number. -/
def ofNat (v : Nat) : String :=
  String.ofList (digits width v)

/-- Whether a string has the form of a short hash. -/
def isShortHash (s : String) : Bool :=
  s.toList.length == width && s.toList.all isDigit

end GitTutor.ShortHash
