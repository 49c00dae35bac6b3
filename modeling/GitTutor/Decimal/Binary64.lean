/-!
# Binary floating-point numbers

Numbers of the 64-bit binary format, as exact values: a decimal is rounded to
the nearest one, ties going to the even mantissa, and a number is written with
the fewest decimal digits that lead back to it. All arithmetic is on natural
numbers.
-/

namespace GitTutor

/-- A number of the 64-bit binary format. A finite one is its mantissa times two
to its exponent. -/
inductive Binary64
  | finite (negative : Bool) (mantissa : Nat) (exponent : Int)
  | infinite (negative : Bool)
  | nan
  deriving DecidableEq, Repr

namespace Binary64

/-- The least exponent of a finite number. -/
def leastExponent : Int := -1074

/-- The greatest exponent of a finite number. -/
def greatestExponent : Int := 971

/-- Mantissas lie below this bound, which is two to the 53. -/
def mantissaBound : Nat := 9007199254740992

/-- The ratio `num / den` in units of two to the `e`, again as a ratio. -/
def inUnits (num den : Nat) (e : Int) : Nat × Nat :=
  if 0 ≤ e then (num, den * Nat.pow 2 e.toNat) else (num * Nat.pow 2 (-e).toNat, den)

/-- The natural number nearest to a ratio; ties go to the even one. -/
def roundRatio (num den : Nat) : Nat :=
  let q := num / den
  let twice := 2 * (num % den)
  if twice > den ∨ (twice = den ∧ q % 2 = 1) then q + 1 else q

/-- The exponent under which a positive ratio gets a mantissa of full length, or
the least exponent for small ratios. -/
def exponentOf (num den : Nat) : Int :=
  let guess : Int := Int.ofNat num.log2 - Int.ofNat den.log2 - 52
  let scaled := inUnits num den guess
  max leastExponent (if scaled.1 / scaled.2 < mantissaBound / 2 then guess - 1 else guess)

/-- The number nearest to a ratio of natural numbers. -/
def ofRatio (negative : Bool) (num den : Nat) : Binary64 :=
  if num = 0 then .finite negative 0 leastExponent
  else
    let e := exponentOf num den
    let scaled := inUnits num den e
    let m := roundRatio scaled.1 scaled.2
    let (m, e) := if m = mantissaBound then (mantissaBound / 2, e + 1) else (m, e)
    if e > greatestExponent then .infinite negative else .finite negative m e

/-- How many decimal digits a positive number has. -/
def decimalLength (n : Nat) : Nat :=
  (Nat.toDigits 10 n).length

/-- The number nearest to `digits` times ten to the `e`. -/
def ofDecimal (negative : Bool) (digits : Nat) (e : Int) : Binary64 :=
  let magnitude := Int.ofNat (decimalLength digits) + e
  if digits = 0 ∨ magnitude < -330 then .finite negative 0 leastExponent
  else if magnitude > 310 then .infinite negative
  else if 0 ≤ e then ofRatio negative (digits * Nat.pow 10 e.toNat) 1
  else ofRatio negative digits (Nat.pow 10 (-e).toNat)

/-- A positive number as a ratio. -/
def ratio (mantissa : Nat) (exponent : Int) : Nat × Nat :=
  if 0 ≤ exponent then (mantissa * Nat.pow 2 exponent.toNat, 1)
  else (mantissa, Nat.pow 2 (-exponent).toNat)

/-- Whether a ratio rounds to a given number. Its quadruple is compared with the
quadruples of the midpoints to both neighbours; a midpoint itself belongs to the
even mantissa. -/
def roundsTo (mantissa : Nat) (exponent : Int) (num den : Nat) : Bool :=
  let scaled := inUnits (4 * num) den exponent
  let below := if mantissa = mantissaBound / 2 ∧ exponent ≠ leastExponent then 1 else 2
  let least := (4 * mantissa - below) * scaled.2
  let greatest := (4 * mantissa + 2) * scaled.2
  if mantissa % 2 = 0 then decide (least ≤ scaled.1) && decide (scaled.1 ≤ greatest)
  else decide (least < scaled.1) && decide (scaled.1 < greatest)

/-- The ratio of `d` times ten to the `p`. -/
def decimalRatio (d : Nat) (p : Int) : Nat × Nat :=
  if 0 ≤ p then (d * Nat.pow 10 p.toNat, 1) else (d, Nat.pow 10 (-p).toNat)

/-- The power of ten just above a positive ratio. -/
def decimalMagnitude (num den : Nat) : Int :=
  let guess := Int.ofNat (decimalLength num) - Int.ofNat (decimalLength den)
  let power := decimalRatio 1 guess
  if power.1 * den ≤ num * power.2 then guess + 1 else guess

/-- The nearest decimal on the grid of ten to the `p` that rounds to a given
number, if one does; of two equally near ones the greater. -/
def onGrid? (mantissa : Nat) (exponent p : Int) : Option Nat :=
  let x := ratio mantissa exponent
  let unit := decimalRatio 1 p
  let num := x.1 * unit.2
  let den := x.2 * unit.1
  let lower := num / den
  let fits := fun d =>
    let r := decimalRatio d p
    roundsTo mantissa exponent r.1 r.2
  let upperNearer := decide (2 * (num % den) ≥ den)
  match fits lower && lower != 0, fits (lower + 1) with
  | true, true => some (if upperNearer then lower + 1 else lower)
  | true, false => some lower
  | false, true => some (lower + 1)
  | false, false => none

/-- The first grid with a hit, from `n` digits on. -/
def shortestFrom (mantissa : Nat) (exponent magnitude : Int) : Nat → Nat → Nat × Int
  | 0, n => (mantissa, magnitude - Int.ofNat n)
  | fuel + 1, n =>
      let p := magnitude - Int.ofNat n
      match onGrid? mantissa exponent p with
      | some d => (d, p)
      | none => shortestFrom mantissa exponent magnitude fuel (n + 1)

/-- A decimal without zeros at the end of its digits. -/
def stripZeros : Nat → Nat × Int → Nat × Int
  | 0, d => d
  | fuel + 1, (d, p) => if d % 10 = 0 then stripZeros fuel (d / 10, p + 1) else (d, p)

/-- The shortest decimal that rounds to a positive number: its digits and the
power of ten of the last one. Seventeen digits always suffice. -/
def shortest (mantissa : Nat) (exponent : Int) : Nat × Int :=
  let x := ratio mantissa exponent
  stripZeros 20 (shortestFrom mantissa exponent (decimalMagnitude x.1 x.2) 17 1)

/-- A decimal in positional notation. -/
def positional (digits : Nat) (p : Int) : List Char :=
  let ds := Nat.toDigits 10 digits
  if 0 ≤ p then ds ++ List.replicate p.toNat '0'
  else
    let places := (-p).toNat
    if places < ds.length then
      ds.take (ds.length - places) ++ '.' :: ds.drop (ds.length - places)
    else '0' :: '.' :: List.replicate (places - ds.length) '0' ++ ds

/-- The text of a number: positional notation with the fewest digits. -/
def text : Binary64 → String
  | .nan => "NaN"
  | .infinite negative => if negative then "-inf" else "inf"
  | .finite negative mantissa exponent =>
      let magnitude :=
        if mantissa = 0 then ['0']
        else
          let d := shortest mantissa exponent
          positional d.1 d.2
      String.ofList (if negative then '-' :: magnitude else magnitude)

/-- Whether a number is zero, of either sign. -/
def isZero : Binary64 → Bool
  | .finite _ mantissa _ => mantissa == 0
  | _ => false

/-- The nearest count below `bound`, halves going up; numbers out of range go to
the nearest end, and a number that is no number goes to zero. -/
def toCount (bound : Nat) : Binary64 → Nat
  | .nan => 0
  | .infinite negative => if negative then 0 else bound - 1
  | .finite negative mantissa exponent =>
      if negative then 0
      else
        let x := ratio mantissa exponent
        min (bound - 1) ((2 * x.1 + x.2) / (2 * x.2))

end Binary64

end GitTutor
