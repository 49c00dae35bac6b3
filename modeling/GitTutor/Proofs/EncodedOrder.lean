import GitTutor.Proofs.EncodedLines
import Mathlib.Data.String.Basic
import Mathlib.Tactic.SplitIfs

/-!
# Order and size of encoded text

A character that comes before another one also comes before it byte by byte, whatever is written
behind the two. So texts are in the order of their bytes, and no text takes fewer bytes than it
has characters.
-/

namespace GitTutor.Text

section Bytes

variable {m n : Nat} {s t : List UInt8}

theorem cons_ofNat_lt_iff (hm : m < 256) (hn : n < 256) :
    UInt8.ofNat m :: s < UInt8.ofNat n :: t ↔ m < n ∨ m = n ∧ s < t := by
  rw [List.cons_lt_cons_iff, UInt8.lt_iff_toNat_lt, ← UInt8.toNat_inj, UInt8.toNat_ofNat_of_lt' hm,
    UInt8.toNat_ofNat_of_lt' hn]

end Bytes

/-- The bytes of a smaller character come first, whatever is written behind them. -/
theorem utf8EncodeChar_append_lt {c d : Char} (less : c < d) (s t : List UInt8) :
    String.utf8EncodeChar c ++ s < String.utf8EncodeChar d ++ t := by
  have order : c.val.toNat < d.val.toNat := less
  have bound : d.val.toNat < 1114112 := by
    have := d.valid
    simp only [UInt32.isValidChar, Nat.isValidChar] at this
    omega
  -- Every byte but the first carries six bits, so all of them come from divisions by 64.
  have twice : ∀ v : Nat, v / 4096 = v / 64 / 64 := fun v => (Nat.div_div_eq_div_mul v 64 64).symm
  have thrice : ∀ v : Nat, v / 262144 = v / 64 / 64 / 64 := by omega
  simp only [String.utf8EncodeChar]
  split_ifs <;>
    simp (disch := omega) only [List.cons_append, List.nil_append, cons_ofNat_lt_iff, twice,
      thrice] <;>
    omega

theorem encode_cons (c : Char) (cs : List Char) :
    encode (c :: cs) = String.utf8EncodeChar c ++ encode cs :=
  List.flatMap_cons

/-- The bytes of a smaller text come first. -/
theorem encode_lt_of_lt {front back : List Char} (less : front < back) :
    encode front < encode back := by
  induction front generalizing back with
  | nil =>
      cases back with
      | nil => exact absurd less (List.lt_irrefl [])
      | cons d back =>
          rw [encode_cons]
          cases bytes : String.utf8EncodeChar d with
          | nil => exact absurd bytes String.utf8EncodeChar_ne_nil
          | cons b bs => exact List.nil_lt_cons b _
  | cons c front ih =>
      cases back with
      | nil => exact absurd less (List.not_lt_nil _)
      | cons d back =>
          rw [encode_cons, encode_cons]
          rcases List.cons_lt_cons_iff.mp less with first | ⟨rfl, later⟩
          · exact utf8EncodeChar_append_lt first _ _
          · exact List.append_left_lt (ih later)

/-- Texts are in the order of their bytes. -/
theorem encode_lt_encode_iff {a b : String} : encode a.toList < encode b.toList ↔ a < b := by
  constructor
  · intro less
    rcases lt_trichotomy a b with before | rfl | behind
    · exact before
    · exact absurd less (List.lt_irrefl _)
    · exact absurd (encode_lt_of_lt (String.lt_iff_toList_lt.mp behind)) (List.lt_asymm less)
  · intro less
    exact encode_lt_of_lt (String.lt_iff_toList_lt.mp less)

theorem toByteArray_eq_encode (text : String) :
    text.toByteArray = (encode text.toList).toByteArray := by
  calc text.toByteArray = (String.ofList text.toList).toByteArray := by rw [String.ofList_toList]
    _ = text.toList.utf8Encode := String.toByteArray_ofList
    _ = (encode text.toList).toByteArray := rfl

theorem utf8ByteSize_eq (text : String) : text.utf8ByteSize = (encode text.toList).length := by
  rw [String.utf8ByteSize, toByteArray_eq_encode]
  exact List.size_toByteArray

/-- A text takes at least one byte for each of its characters. -/
theorem length_le_utf8ByteSize (text : String) : text.length ≤ text.utf8ByteSize := by
  rw [utf8ByteSize_eq, ← String.length_toList]
  induction text.toList with
  | nil => exact Nat.le_refl 0
  | cons c cs ih =>
      have some := c.utf8Size_pos
      rw [encode_cons, List.length_append, String.length_utf8EncodeChar, List.length_cons]
      omega

end GitTutor.Text
