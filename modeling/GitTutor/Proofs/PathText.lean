import GitTutor.FilePath
import GitTutor.Proofs.EncodedOrder

/-!
# Paths that are texts

A path that is a text is shown as this text, so nothing of it is lost.
-/

namespace GitTutor

open Text

namespace Text

section Bytes

variable {a b c d : UInt8} (rest : List UInt8)

theorem continues_iff : continues b = true ↔ 128 ≤ b.toNat ∧ b.toNat ≤ 191 := by
  simp [continues, UInt8.le_iff_toNat_le]

theorem decodeLenient_one (first : a.toNat < 128) :
    decodeLenient (a :: rest) = Char.ofNat a.toNat :: decodeLenient rest := by
  rw [decodeLenient.eq_def]
  exact if_pos first

theorem decodeLenient_two (first : 194 ≤ a.toNat ∧ a.toNat ≤ 223) (second : continues b = true) :
    decodeLenient (a :: b :: rest) =
      Char.ofNat (a.toNat % 32 * 64 + low b) :: decodeLenient rest := by
  have large : ¬ a < 0x80 := fun small => by
    have : a.toNat < 128 := small
    omega
  rw [decodeLenient.eq_def]
  simp only [if_neg large, if_pos (show 0xC2 ≤ a ∧ a ≤ 0xDF from first), if_pos second]

theorem decodeLenient_three (first : 224 ≤ a.toNat ∧ a.toNat ≤ 239)
    (second : mayFollow a b = true) (third : continues c = true) :
    decodeLenient (a :: b :: c :: rest) =
      Char.ofNat ((a.toNat % 16 * 64 + low b) * 64 + low c) :: decodeLenient rest := by
  have large : ¬ a < 0x80 := fun small => by
    have : a.toNat < 128 := small
    omega
  have other : ¬ (0xC2 ≤ a ∧ a ≤ 0xDF) := fun ⟨_, small⟩ => by
    have : a.toNat ≤ 223 := small
    omega
  rw [decodeLenient.eq_def]
  simp only [if_neg large, if_neg other, if_pos (show 0xE0 ≤ a ∧ a ≤ 0xEF from first),
    if_pos second, if_pos third]

theorem decodeLenient_four (first : 240 ≤ a.toNat ∧ a.toNat ≤ 244)
    (second : mayFollow a b = true) (third : continues c = true) (fourth : continues d = true) :
    decodeLenient (a :: b :: c :: d :: rest) =
      Char.ofNat (((a.toNat % 8 * 64 + low b) * 64 + low c) * 64 + low d) ::
        decodeLenient rest := by
  have large : ¬ a < 0x80 := fun small => by
    have : a.toNat < 128 := small
    omega
  have other : ¬ (0xC2 ≤ a ∧ a ≤ 0xDF) := fun ⟨_, small⟩ => by
    have : a.toNat ≤ 223 := small
    omega
  have other' : ¬ (0xE0 ≤ a ∧ a ≤ 0xEF) := fun ⟨_, small⟩ => by
    have : a.toNat ≤ 239 := small
    omega
  rw [decodeLenient.eq_def]
  simp only [if_neg large, if_neg other, if_neg other',
    if_pos (show 0xF0 ≤ a ∧ a ≤ 0xF4 from first), if_pos second, if_pos third, if_pos fourth]

theorem mayFollow_iff : mayFollow a b = true ↔
    (if a.toNat = 224 then 160 else if a.toNat = 240 then 144 else 128) ≤ b.toNat ∧
      b.toNat ≤ (if a.toNat = 237 then 159 else if a.toNat = 244 then 143 else 191) := by
  have same : ∀ n : UInt8, a = n ↔ a.toNat = n.toNat := fun n => UInt8.toNat_inj.symm
  rw [mayFollow]
  simp only [same]
  split_ifs <;> simp_all [continues, UInt8.le_iff_toNat_le]

end Bytes

theorem ofNat_eq {n : Nat} {c : Char} (same : n = c.val.toNat) : Char.ofNat n = c := by
  rw [same]
  exact Char.ofNat_toNat c

/-- The bytes of a character are read as it, whatever follows. -/
theorem decodeLenient_utf8EncodeChar (c : Char) (rest : List UInt8) :
    decodeLenient (String.utf8EncodeChar c ++ rest) = c :: decodeLenient rest := by
  have valid : c.val.toNat < 0xD800 ∨ 0xDFFF < c.val.toNat ∧ c.val.toNat < 0x110000 := c.valid
  have byte : ∀ n, n < 256 → (UInt8.ofNat n).toNat = n := fun n h => UInt8.toNat_ofNat_of_lt' h
  simp only [String.utf8EncodeChar]
  generalize value : c.val.toNat = v at valid
  split_ifs with one two three
  · rw [List.singleton_append, decodeLenient_one rest (by rw [byte _ (by omega)]; omega),
      byte _ (by omega), ofNat_eq value.symm]
  · rw [List.cons_append, List.singleton_append, decodeLenient_two rest]
    · rw [low, byte _ (by omega), byte _ (by omega), ofNat_eq]
      omega
    · rw [byte _ (by omega)]
      omega
    · rw [continues_iff, byte _ (by omega)]
      omega
  · rw [List.cons_append, List.cons_append, List.singleton_append, decodeLenient_three rest]
    · rw [low, low, byte _ (by omega), byte _ (by omega), byte _ (by omega), ofNat_eq]
      omega
    · rw [byte _ (by omega)]
      omega
    · rw [mayFollow_iff, byte _ (by omega), byte _ (by omega)]
      split_ifs <;> omega
    · rw [continues_iff, byte _ (by omega)]
      omega
  · rw [List.cons_append, List.cons_append, List.cons_append, List.singleton_append,
      decodeLenient_four rest]
    · rw [low, low, low, byte _ (by omega), byte _ (by omega), byte _ (by omega),
        byte _ (by omega), ofNat_eq]
      omega
    · rw [byte _ (by omega)]
      omega
    · rw [mayFollow_iff, byte _ (by omega), byte _ (by omega)]
      split_ifs <;> omega
    · rw [continues_iff, byte _ (by omega)]
      omega
    · rw [continues_iff, byte _ (by omega)]
      omega

/-- The bytes of a text are read as the text. -/
theorem decodeLenient_encode (cs : List Char) : decodeLenient (encode cs) = cs := by
  induction cs with
  | nil => rfl
  | cons c cs ih => rw [encode_cons, decodeLenient_utf8EncodeChar, ih]

end Text

namespace FilePath

@[simp] theorem display_ofText (text : String) : (ofText text).display = text := by
  rw [display, ofText, decodeLenient_encode, String.ofList_toList]

@[simp] theorem displayed_ofText (text : String) : (ofText text).displayed = ofText text := by
  rw [displayed, display_ofText]

end FilePath

end GitTutor
