/-!
# Ranges of code points

A set of characters is a list of ranges of code points, in order and with room
between them. Stored as UTF-8, a range is one of a few sequences of ranges of bytes.
-/

namespace GitTutor.Text

/-- A range of numbers with both its ends. -/
abbrev CodeRange := Nat × Nat

namespace CodeRange

/-- Add a range to a set. -/
def insert (range : CodeRange) : List CodeRange → List CodeRange
  | [] => [range]
  | next :: more =>
      if range.2 + 1 < next.1 then range :: next :: more
      else if next.2 + 1 < range.1 then next :: insert range more
      else insert (min range.1 next.1, max range.2 next.2) more

/-- The set of what some ranges hold. -/
def union (ranges : List CodeRange) : List CodeRange :=
  ranges.foldr insert []

/-- The last code point. -/
def lastCode : Nat := 0x10FFFF

/-- The code points from a given one on that a set does not hold. -/
def gaps (start : Nat) : List CodeRange → List CodeRange
  | [] => if start ≤ lastCode then [(start, lastCode)] else []
  | range :: more =>
      if start < range.1 then (start, range.1 - 1) :: gaps (range.2 + 1) more
      else gaps (range.2 + 1) more

/-- The code points that a set does not hold. -/
def complement (set : List CodeRange) : List CodeRange :=
  gaps 0 set

/-- The common part of two ranges, if there is one. -/
def common? (a b : CodeRange) : Option CodeRange :=
  let low := max a.1 b.1
  let high := min a.2 b.2
  if low ≤ high then some (low, high) else none

end CodeRange

/-- How many numbers some bytes tell apart that continue a character. -/
def continuations : Nat → Nat
  | 0 => 1
  | n + 1 => 64 * continuations n

/-- The numbers of a range as sequences of ranges of bytes: a first byte, which counts
up from `mark`, and a number of bytes that continue it. -/
def byteRanges (mark : Nat) : Nat → CodeRange → List (List CodeRange)
  | 0, range => [[(mark + range.1, mark + range.2)]]
  | n + 1, (low, high) =>
      let unit := continuations (n + 1)
      let first := low / unit
      let last := high / unit
      let after (lead : CodeRange) (rest : CodeRange) :=
        (byteRanges 0x80 n rest).map ((mark + lead.1, mark + lead.2) :: ·)
      if first = last then after (first, first) (low % unit, high % unit)
      else
        let start := if low % unit = 0 then first else first + 1
        let stop := if high % unit = unit - 1 then last + 1 else last
        (if start = first then [] else after (first, first) (low % unit, unit - 1)) ++
          (if start < stop then after (start, stop - 1) (0, unit - 1) else []) ++
          if last < stop then [] else after (last, last) (0, high % unit)

/-- The ranges of code points that are stored in the same way: the mark of their first
byte, the number of bytes after it, and the range. -/
def storageRows : List (Nat × Nat × CodeRange) :=
  [(0x00, 0, (0x0, 0x7F)), (0xC0, 1, (0x80, 0x7FF)), (0xE0, 2, (0x800, 0xD7FF)),
   (0xE0, 2, (0xE000, 0xFFFF)), (0xF0, 3, (0x10000, 0x10FFFF))]

/-- The characters of a range as sequences of ranges of bytes. -/
def CodeRange.stored (range : CodeRange) : List (List CodeRange) :=
  storageRows.flatMap fun row =>
    match range.common? row.2.2 with
    | some part => byteRanges row.1 row.2.1 part
    | none => []

end GitTutor.Text
