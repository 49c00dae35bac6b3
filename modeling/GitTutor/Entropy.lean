import GitTutor.ShortHash

/-!
# Sources of arbitrary values

A session needs fresh commit hashes and numbers for practice files. Where they
come from is left open: a source is any type of states with one draw of each
kind. The counter is the predictable source.
-/

namespace GitTutor

/-- States from which a short hash and a file number can be drawn. -/
class Entropy (σ : Type) where
  /-- Draw a short hash. -/
  hash : σ → String × σ
  /-- Draw a number for a practice file. -/
  fileNumber : σ → Nat × σ

/-- File numbers lie below this bound. -/
def fileNumberBound : Nat := 100

/-- The predictable source: how many hashes were drawn, and the last file number. A program keeps
the two in 64 and 32 bits. Here they have no bound: the hashes of a session are fewer than two to
the 64, and a file number is below its bound anyway. -/
structure Counter where
  hashes : Nat
  files : Nat
  deriving DecidableEq, Repr

namespace Counter

/-- The counter before its first draw. -/
def zero : Counter := ⟨0, 0⟩

/-- The next hash counts up from one, and the next file number wraps at the bound. -/
instance : Entropy Counter where
  hash c := (ShortHash.ofNat (c.hashes + 1), { c with hashes := c.hashes + 1 })
  fileNumber c :=
    let n := (c.files + 1) % fileNumberBound
    (n, { c with files := n })

end Counter

end GitTutor
