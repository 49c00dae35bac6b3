import GitTutor.ShortHash
import Mathlib.Algebra.Order.Group.Nat
import Mathlib.Data.List.Induction
import Mathlib.Data.String.Basic
import Mathlib.Tactic.SplitIfs
import Mathlib.Tactic.Tauto

/-!
# Numbers behind short hashes

The digits of a number give the number back, up to wrapping, and the number that digits stand for
gives the digits back. So every short hash is that of one number that does not wrap, and numbers
have the same short hash exactly if they wrap to the same number. Short hashes are in the order of
the numbers that they stand for.
-/

namespace GitTutor.ShortHash

/-- The digits of base 36, in the order of what they stand for. -/
def alphabet : List Char :=
  "0123456789abcdefghijklmnopqrstuvwxyz".toList

theorem alphabet_eq : alphabet = (List.range 36).map digit := by decide

theorem mem_alphabet_iff {c : Char} : c ∈ alphabet ↔ ∃ n < 36, digit n = c := by
  simp only [alphabet_eq, List.mem_map, List.mem_range]

theorem digit_mem_alphabet {n : Nat} (h : n < 36) : digit n ∈ alphabet :=
  mem_alphabet_iff.mpr ⟨n, h, rfl⟩

theorem isDigit_iff {c : Char} : isDigit c = true ↔ c ∈ alphabet := by
  rw [mem_alphabet_iff]
  constructor
  · have order : ∀ d e : Char, d ≤ e ↔ d.toNat ≤ e.toNat := fun _ _ => UInt32.le_iff_toNat_le
    have zero : '0'.toNat = 48 := rfl
    have nine : '9'.toNat = 57 := rfl
    have first : 'a'.toNat = 97 := rfl
    have last : 'z'.toNat = 122 := rfl
    intro h
    simp only [isDigit, Bool.or_eq_true, Bool.and_eq_true, decide_eq_true_eq, order] at h
    rcases h with numeral | letter
    · refine ⟨c.toNat - '0'.toNat, by omega, ?_⟩
      rw [digit, if_pos (by omega), Nat.add_sub_cancel' numeral.1, Char.ofNat_toNat]
    · refine ⟨10 + (c.toNat - 'a'.toNat), by omega, ?_⟩
      rw [digit, if_neg (by omega), Nat.add_sub_cancel_left, Nat.add_sub_cancel' letter.1,
        Char.ofNat_toNat]
  · have all : ∀ n < 36, isDigit (digit n) = true := by decide
    rintro ⟨n, small, rfl⟩
    exact all n small

theorem digitValue_digit {n : Nat} (h : n < 36) : digitValue (digit n) = n := by
  have all : ∀ m < 36, digitValue (digit m) = m := by decide
  exact all n h

theorem digitValue_lt {c : Char} (h : c ∈ alphabet) : digitValue c < 36 := by
  obtain ⟨n, small, rfl⟩ := mem_alphabet_iff.mp h
  rwa [digitValue_digit small]

theorem digit_digitValue {c : Char} (h : c ∈ alphabet) : digit (digitValue c) = c := by
  obtain ⟨n, small, rfl⟩ := mem_alphabet_iff.mp h
  rw [digitValue_digit small]

theorem digit_lt_digit_iff {m n : Nat} (hm : m < 36) (hn : n < 36) :
    digit m < digit n ↔ m < n := by
  have code : ∀ k < 36, (digit k).toNat = if k < 10 then 48 + k else 87 + k := by decide
  change (digit m).toNat < (digit n).toNat ↔ m < n
  rw [code m hm, code n hn]
  split_ifs <;> omega

theorem value_concat (cs : List Char) (c : Char) :
    value (cs ++ [c]) = 36 * value cs + digitValue c := by
  rw [value, value, List.foldl_append, List.foldl_cons, List.foldl_nil]

/-- The digits of a number stand for the number, wrapped. -/
theorem value_digits (w v : Nat) : value (digits w v) = v % 36 ^ w := by
  induction w generalizing v with
  | zero => simp [digits, value, Nat.mod_one]
  | succ w ih =>
      have low : digitValue (digit (v % 36)) = v % 36 := digitValue_digit (Nat.mod_lt v (by decide))
      rw [digits, value_concat, ih, low, Nat.pow_succ', Nat.mod_mul, Nat.add_comm]

/-- Digits are those of the number that they stand for. -/
theorem digits_value {cs : List Char} (h : ∀ c ∈ cs, c ∈ alphabet) :
    digits cs.length (value cs) = cs := by
  induction cs using List.reverseRecOn with
  | nil => rfl
  | append_singleton cs c ih =>
      have last := h c List.mem_concat_self
      have bound := digitValue_lt last
      have front : (36 * value cs + digitValue c) / 36 = value cs := by omega
      have low : (36 * value cs + digitValue c) % 36 = digitValue c := by omega
      rw [List.length_append, List.length_singleton, value_concat, digits, front, low,
        digit_digitValue last, ih fun d within => h d (List.mem_append_left _ within)]

theorem mem_alphabet_of_mem_digits {w v : Nat} {c : Char} (h : c ∈ digits w v) :
    c ∈ alphabet := by
  induction w generalizing v with
  | zero => cases h
  | succ w ih =>
      rcases List.mem_append.mp h with h | h
      · exact ih h
      · rw [List.mem_singleton.mp h]
        exact digit_mem_alphabet (Nat.mod_lt v (by decide))

/-- Only the wrapped number counts. -/
theorem digits_mod (w v : Nat) : digits w (v % 36 ^ w) = digits w v := by
  have same := digits_value fun c (h : c ∈ digits w v) => mem_alphabet_of_mem_digits h
  rwa [length_digits, value_digits] at same

theorem digits_inj_iff {w m n : Nat} : digits w m = digits w n ↔ m % 36 ^ w = n % 36 ^ w := by
  constructor
  · intro same
    rw [← value_digits, ← value_digits, same]
  · intro same
    rw [← digits_mod w m, ← digits_mod w n, same]

/-- Of two texts of one length, what stands in front of the last characters decides first. -/
theorem concat_lt_concat_iff {front back : List Char} (same : front.length = back.length)
    {c d : Char} : front ++ [c] < back ++ [d] ↔ front < back ∨ front = back ∧ c < d := by
  induction front generalizing back with
  | nil =>
      obtain rfl := List.length_eq_zero_iff.mp same.symm
      simp [List.cons_lt_cons_iff]
  | cons a front ih =>
      obtain ⟨b, back, rfl⟩ := List.exists_cons_of_length_eq_add_one same.symm
      have rest := Nat.succ.inj same
      rw [List.cons_append, List.cons_append, List.cons_lt_cons_iff, ih rest,
        List.cons_lt_cons_iff, List.cons.injEq]
      tauto

/-- Digits are in the order of the wrapped numbers. -/
theorem digits_lt_digits_iff {w m n : Nat} :
    digits w m < digits w n ↔ m % 36 ^ w < n % 36 ^ w := by
  induction w generalizing m n with
  | zero => simp [digits, Nat.mod_one]
  | succ w ih =>
      have lengths : (digits w (m / 36)).length = (digits w (n / 36)).length := by
        rw [length_digits, length_digits]
      have low := Nat.mod_lt m (show 36 > 0 by decide)
      have low' := Nat.mod_lt n (show 36 > 0 by decide)
      rw [digits, digits, concat_lt_concat_iff lengths, ih, digits_inj_iff,
        digit_lt_digit_iff low low', Nat.pow_succ', Nat.mod_mul, Nat.mod_mul]
      omega

/-- Numbers have the same short hash exactly if they wrap to the same number. -/
theorem ofNat_inj_iff {m n : Nat} : ofNat m = ofNat n ↔ m % 36 ^ width = n % 36 ^ width := by
  rw [ofNat, ofNat, String.ofList_inj, digits_inj_iff]

/-- Numbers that do not wrap have different short hashes. -/
theorem ofNat_inj {m n : Nat} (hm : m < 36 ^ width) (hn : n < 36 ^ width)
    (h : ofNat m = ofNat n) : m = n := by
  calc m = m % 36 ^ width := (Nat.mod_eq_of_lt hm).symm
    _ = n % 36 ^ width := ofNat_inj_iff.mp h
    _ = n := Nat.mod_eq_of_lt hn

/-- Short hashes are in the order of the wrapped numbers. -/
theorem ofNat_lt_ofNat_iff {m n : Nat} :
    ofNat m < ofNat n ↔ m % 36 ^ width < n % 36 ^ width := by
  rw [String.lt_iff_toList_lt, ofNat, ofNat, String.toList_ofList, String.toList_ofList,
    digits_lt_digits_iff]

theorem value_ofNat (v : Nat) : value (ofNat v).toList = v % 36 ^ width := by
  rw [ofNat, String.toList_ofList, value_digits]

theorem isShortHash_iff {s : String} :
    isShortHash s = true ↔ s.toList.length = width ∧ ∀ c ∈ s.toList, c ∈ alphabet := by
  simp only [isShortHash, Bool.and_eq_true, beq_iff_eq, List.all_eq_true, isDigit_iff]

theorem isShortHash_ofNat (v : Nat) : isShortHash (ofNat v) = true := by
  rw [isShortHash_iff, ofNat, String.toList_ofList]
  exact ⟨length_digits width v, fun c => mem_alphabet_of_mem_digits⟩

/-- A short hash is that of the number that its digits stand for. -/
theorem ofNat_value {s : String} (h : isShortHash s = true) : ofNat (value s.toList) = s := by
  obtain ⟨long, all⟩ := isShortHash_iff.mp h
  rw [ofNat, ← long, digits_value all, String.ofList_toList]

/-- A short hash is that of exactly one number that does not wrap. -/
theorem isShortHash_iff_existsUnique {s : String} :
    isShortHash s = true ↔ ∃! v, v < 36 ^ width ∧ s = ofNat v := by
  constructor
  · intro h
    have bound : value s.toList < 36 ^ width := by
      rw [← ofNat_value h, value_ofNat]
      exact Nat.mod_lt _ (by decide)
    refine ⟨value s.toList, ⟨bound, (ofNat_value h).symm⟩, ?_⟩
    rintro v ⟨small, rfl⟩
    rw [value_ofNat, Nat.mod_eq_of_lt small]
  · rintro ⟨v, ⟨_, rfl⟩, _⟩
    exact isShortHash_ofNat v

end GitTutor.ShortHash
