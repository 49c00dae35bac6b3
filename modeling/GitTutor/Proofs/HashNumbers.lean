import GitTutor.Proofs.Draws
import GitTutor.Proofs.EncodedOrder
import GitTutor.Proofs.ShortHash
import Mathlib.Data.List.Nodup

/-!
# Short hashes as numbers

The form of a short hash can be read off its bytes, because the bytes of the alphabet belong to no
other character. The hashes that a counter gives are those of the numbers that follow its own, with
any draws of file numbers between them. They repeat only when more of them are drawn than there are
short hashes, and their order breaks only where the numbers wrap.
-/

namespace GitTutor

open Text

namespace ShortHash

theorem exists_byte {c : Char} (h : c ∈ alphabet) : ∃ b, String.utf8EncodeChar c = [b] := by
  have all : ∀ n < 36, (String.utf8EncodeChar (digit n)).length = 1 := by decide
  obtain ⟨n, small, rfl⟩ := mem_alphabet_iff.mp h
  exact List.length_eq_one_iff.mp (all n small)

/-- Digits take one byte each. -/
theorem length_encode {cs : List Char} (h : ∀ c ∈ cs, c ∈ alphabet) :
    (encode cs).length = cs.length := by
  induction cs with
  | nil => rfl
  | cons c cs ih =>
      obtain ⟨first, rest⟩ := List.forall_mem_cons.mp h
      obtain ⟨b, single⟩ := exists_byte first
      rw [encode_cons, single, List.singleton_append, List.length_cons, List.length_cons, ih rest]

theorem mem_encode_alphabet {b : UInt8} :
    b ∈ encode alphabet ↔ ∃ c ∈ alphabet, String.utf8EncodeChar c = [b] := by
  rw [encode, List.mem_flatMap]
  constructor
  · rintro ⟨c, digit, within⟩
    obtain ⟨d, single⟩ := exists_byte digit
    rw [single, List.mem_singleton] at within
    exact ⟨c, digit, within ▸ single⟩
  · rintro ⟨c, digit, single⟩
    exact ⟨c, digit, single ▸ List.mem_singleton_self b⟩

/-- Bytes of digits are the bytes of some digits. -/
theorem exists_digits {bytes : List UInt8} (h : ∀ b ∈ bytes, b ∈ encode alphabet) :
    ∃ cs, encode cs = bytes ∧ ∀ c ∈ cs, c ∈ alphabet := by
  induction bytes with
  | nil => exact ⟨[], rfl, List.forall_mem_nil _⟩
  | cons b bytes ih =>
      obtain ⟨first, rest⟩ := List.forall_mem_cons.mp h
      obtain ⟨c, digit, single⟩ := mem_encode_alphabet.mp first
      obtain ⟨cs, same, all⟩ := ih rest
      refine ⟨c :: cs, ?_, List.forall_mem_cons.mpr ⟨digit, all⟩⟩
      rw [encode_cons, single, same, List.singleton_append]

/-- A text is made of digits exactly if its bytes are bytes of digits. -/
theorem forall_mem_encode_iff {cs : List Char} :
    (∀ b ∈ encode cs, b ∈ encode alphabet) ↔ ∀ c ∈ cs, c ∈ alphabet := by
  constructor
  · intro h
    -- Some digits have these bytes, and no other text has the bytes of those digits.
    obtain ⟨ds, same, all⟩ := exists_digits h
    rwa [encode_injective same] at all
  · intro h b within
    obtain ⟨c, among, bytes⟩ := List.mem_flatMap.mp within
    exact List.mem_flatMap.mpr ⟨c, h c among, bytes⟩

/-- The form of a short hash, read off the bytes. -/
theorem isShortHash_iff_bytes {s : String} :
    isShortHash s = true ↔
      s.utf8ByteSize = width ∧ ∀ b ∈ encode s.toList, b ∈ encode alphabet := by
  rw [isShortHash_iff, utf8ByteSize_eq, forall_mem_encode_iff]
  refine and_congr_left fun digits => ?_
  rw [length_encode digits]

end ShortHash

/-- A draw from a source of either kind. -/
inductive Draw
  | hash
  | fileNumber
  deriving DecidableEq, Repr

/-- The hashes among the draws from a source. -/
def Entropy.hashesAmong {σ : Type} [Entropy σ] : List Draw → σ → List String
  | [], _ => []
  | .hash :: rest, e => (Entropy.hash e).1 :: hashesAmong rest (Entropy.hash e).2
  | .fileNumber :: rest, e => hashesAmong rest (Entropy.fileNumber e).2

namespace Counter

/-- File numbers between the hashes of a counter do not change them. -/
theorem hashesAmong_eq (draws : List Draw) (c : Counter) :
    Entropy.hashesAmong draws c =
      (List.range' (c.hashes + 1) (draws.count .hash)).map ShortHash.ofNat := by
  rw [← firstHashes_eq]
  induction draws generalizing c with
  | nil => rfl
  | cons draw rest ih =>
      cases draw with
      | hash =>
          rw [Entropy.hashesAmong, ih, List.count_cons_self, Entropy.firstHashes]
      | fileNumber =>
          have kept : (Entropy.fileNumber c).2.hashes = c.hashes := rfl
          rw [Entropy.hashesAmong, ih, List.count_cons_of_ne (by decide), firstHashes_eq,
            firstHashes_eq, kept]

end Counter

namespace ShortHash

/-- The short hashes of consecutive numbers repeat exactly if there are more of them than there are
short hashes. -/
theorem nodup_map_range'_iff (first n : Nat) :
    ((List.range' first n).map ofNat).Nodup ↔ n ≤ 36 ^ width := by
  have count : 36 ^ width = 78364164096 := rfl
  rw [List.nodup_map_iff_inj_on List.nodup_range', count]
  simp only [List.mem_range'_1, ofNat_inj_iff, count]
  constructor
  · intro apart
    by_contra more
    have same := apart first (by omega) (first + 78364164096) (by omega) (by omega)
    omega
  · intro enough i hi j hj same
    omega

/-- The short hashes of consecutive numbers increase exactly if no number but the first one of them
wraps to zero. -/
theorem pairwise_map_range'_iff (first n : Nat) :
    ((List.range' first n).map ofNat).Pairwise (· < ·) ↔
      first % 36 ^ width + n ≤ 36 ^ width := by
  have count : 36 ^ width = 78364164096 := rfl
  rw [List.pairwise_map, List.pairwise_iff_getElem]
  simp only [ofNat_lt_ofNat_iff, List.length_range', List.getElem_range', one_mul, count]
  constructor
  · intro increasing
    by_contra more
    -- The number that wraps to zero and the one in front of it are out of order.
    have wrapped := increasing (78364164096 - first % 78364164096 - 1)
      (78364164096 - first % 78364164096) (by omega) (by omega) (by omega)
    omega
  · intro room i j hi hj less
    omega

/-- Short hashes are the numbers with seven digits of base 36. Every number has a short hash, which
stands for the number, wrapped; every short hash is that of exactly one number that does not wrap,
and its form can be read off its bytes. Smaller numbers have smaller short hashes. A counter gives
the short hashes of the numbers that follow its own, whatever file numbers are drawn between them.
They are pairwise different exactly if there are no more of them than there are short hashes, and
they increase exactly if no number but the first one wraps to zero; so they do while the numbers
stay below the first one that wraps. -/
theorem short_hashes_numbered :
    (∀ v, isShortHash (ofNat v) = true ∧ value (ofNat v).toList = v % 36 ^ width) ∧
    (∀ s, isShortHash s = true ↔ ∃! v, v < 36 ^ width ∧ s = ofNat v) ∧
    (∀ s, isShortHash s = true ↔
      s.utf8ByteSize = width ∧ ∀ b ∈ encode s.toList, b ∈ encode alphabet) ∧
    (∀ v w, v < w → w < 36 ^ width → ofNat v < ofNat w) ∧
    ∀ (c : Counter) (draws : List Draw),
      Entropy.hashesAmong draws c = (List.range' (c.hashes + 1) (draws.count .hash)).map ofNat ∧
      ((Entropy.hashesAmong draws c).Nodup ↔ draws.count .hash ≤ 36 ^ width) ∧
      ((Entropy.hashesAmong draws c).Pairwise (· < ·) ↔
        (c.hashes + 1) % 36 ^ width + draws.count .hash ≤ 36 ^ width) ∧
      (c.hashes + draws.count .hash < 36 ^ width →
        (Entropy.hashesAmong draws c).Pairwise (· < ·)) := by
  refine ⟨fun v => ⟨isShortHash_ofNat v, value_ofNat v⟩, fun s => isShortHash_iff_existsUnique,
    fun s => isShortHash_iff_bytes, fun v w less bound => ?_, fun c draws => ?_⟩
  · rwa [ofNat_lt_ofNat_iff, Nat.mod_eq_of_lt (less.trans bound), Nat.mod_eq_of_lt bound]
  · rw [Counter.hashesAmong_eq, nodup_map_range'_iff, pairwise_map_range'_iff]
    refine ⟨rfl, Iff.rfl, Iff.rfl, fun below => ?_⟩
    have wrapped := Nat.mod_le (c.hashes + 1) (36 ^ width)
    omega

/-- The last number with one digit and the first one with two, and the first one that wraps. -/
theorem short_hashes_numbered_carry :
    ofNat 35 < ofNat 36 ∧ ["000000z", "0000010"].Pairwise (· < ·) ∧
      value (ofNat 78364164096).toList = 0 := by
  obtain ⟨form, _, _, order, drawn⟩ := short_hashes_numbered
  obtain ⟨_, _, _, increasing⟩ := drawn ⟨34, 7⟩ [.hash, .fileNumber, .hash]
  have same : Entropy.hashesAmong [.hash, .fileNumber, .hash] (⟨34, 7⟩ : Counter) =
      ["000000z", "0000010"] := by decide
  rw [same] at increasing
  exact ⟨order 35 36 (by decide) (by decide), increasing (by decide), (form _).2⟩

end ShortHash

end GitTutor
