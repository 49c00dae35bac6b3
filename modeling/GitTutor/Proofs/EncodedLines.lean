import GitTutor.Text.Utf8
import Mathlib.Data.List.Basic

/-!
# Lines of encoded text

A line feed is one byte, and no other character has that byte in its encoding.
So cutting a stream of bytes after its line feeds and reading each part as text
gives the lines of the text that the stream encodes.
-/

namespace GitTutor.Text

theorem decode?_encode (cs : List Char) : decode? (encode cs) = some (String.ofList cs) := by
  have valid : (encode cs).toByteArray.IsValidUTF8 := ⟨cs, rfl⟩
  rw [decode?, String.fromUTF8?, dif_pos valid]
  rfl

/-- Different texts have different bytes. -/
theorem encode_injective : Function.Injective encode := by
  intro front back same
  have read : some (String.ofList front) = some (String.ofList back) := by
    rw [← decode?_encode, ← decode?_encode, same]
  exact String.ofList_injective (Option.some.inj read)

/-- Bytes that are read as a text are the bytes of that text. -/
theorem eq_encode_of_decode? {bytes : List UInt8} {text : String}
    (h : decode? bytes = some text) : bytes = encode text.toList := by
  by_cases valid : bytes.toByteArray.IsValidUTF8
  · obtain ⟨cs, same⟩ := valid
    have equal : bytes = encode cs := List.toByteArray_inj.mp same
    rw [equal, decode?_encode, Option.some.injEq] at h
    rw [equal, ← h, String.toList_ofList]
  · rw [decode?, String.fromUTF8?, dif_neg valid] at h
    cases h

theorem eq_ten_of_ofNat {n : Nat} (bound : n < 256) (h : 10 = UInt8.ofNat n) : n = 10 := by
  have same : (10 : UInt8).toNat = (UInt8.ofNat n).toNat := congrArg UInt8.toNat h
  rw [UInt8.toNat_ofNat', Nat.mod_eq_of_lt bound] at same
  exact same.symm

/-- Only a line feed has the byte of a line feed in its encoding. -/
theorem eq_newline_of_mem_utf8EncodeChar {c : Char} (h : 10 ∈ String.utf8EncodeChar c) :
    c = '\n' := by
  simp only [String.utf8EncodeChar] at h
  split at h
  · rename_i small
    have ten := eq_ten_of_ofNat (by omega) (List.mem_singleton.mp h)
    exact Char.ext (UInt32.toNat_inj.mp ten)
  · -- The bytes of every other character have their highest bit set.
    exfalso
    split at h
    · simp only [List.mem_cons, List.not_mem_nil, or_false] at h
      rcases h with h | h <;> have := eq_ten_of_ofNat (by omega) h <;> omega
    · split at h
      · simp only [List.mem_cons, List.not_mem_nil, or_false] at h
        rcases h with h | h | h <;> have := eq_ten_of_ofNat (by omega) h <;> omega
      · simp only [List.mem_cons, List.not_mem_nil, or_false] at h
        rcases h with h | h | h | h <;> have := eq_ten_of_ofNat (by omega) h <;> omega

section Segments

variable {α β : Type}

theorem foldr_attach_nil {front : List α} (some : front ≠ []) :
    front.foldr attach [] = [front] := by
  induction front with
  | nil => exact absurd rfl some
  | cons a rest ih =>
      cases rest with
      | nil => rfl
      | cons b rest => rw [List.foldr_cons, ih (List.cons_ne_nil b rest)]; rfl

theorem foldr_attach_cons (front part : List α) (parts : List (List α)) :
    front.foldr attach (part :: parts) = (front ++ part) :: parts := by
  induction front with
  | nil => rfl
  | cons a rest ih => rw [List.foldr_cons, ih]; rfl

/-- Items that do not stop a part go in front of the first part. -/
theorem segments_append {stop : α → Bool} {front : List α} (pass : ∀ a ∈ front, stop a = false)
    (rest : List α) : segments stop (front ++ rest) = front.foldr attach (segments stop rest) := by
  induction front with
  | nil => rfl
  | cons a front ih =>
      have here := pass a List.mem_cons_self
      have later := ih fun b hb => pass b (List.mem_cons_of_mem a hb)
      rw [List.cons_append, segments, here, later]
      rfl

theorem passes_of_free [BEq α] [LawfulBEq α] {x : α} {front : List α} (free : x ∉ front) :
    ∀ a ∈ front, (a == x) = false := by
  intro a h
  refine beq_eq_false_iff_ne.mpr ?_
  rintro rfl
  exact free h

/-- An item that stops a part ends the first one, if none does so before it. -/
theorem segments_append_cons {stop : α → Bool} {front : List α} (pass : ∀ a ∈ front, stop a = false)
    {s : α} (stops : stop s = true) (rest : List α) :
    segments stop (front ++ s :: rest) = (front ++ [s]) :: segments stop rest := by
  have first : segments stop (s :: rest) = [s] :: segments stop rest := by
    rw [segments, if_pos stops]
  rw [segments_append pass, first, foldr_attach_cons]

/-- A list in which nothing stops a part is one part. -/
theorem segments_of_pass {stop : α → Bool} {part : List α} (some : part ≠ [])
    (pass : ∀ a ∈ part, stop a = false) : segments stop part = [part] := by
  have whole := segments_append pass []
  rw [List.append_nil] at whole
  rw [whole, segments, foldr_attach_nil some]

/-- The parts of a list in which every item is replaced by some items, so that what stops a
part comes from one item that stops a part. -/
theorem segments_flatMap {stop : α → Bool} {stop' : β → Bool} {f : α → List β}
    (ends : ∀ a, stop a = true → ∃ b, f a = [b] ∧ stop' b = true)
    (passes : ∀ a, stop a = false → f a ≠ [] ∧ ∀ b ∈ f a, stop' b = false) (as : List α) :
    segments stop' (as.flatMap f) = (segments stop as).map (List.flatMap f) := by
  induction as with
  | nil => rfl
  | cons a rest ih =>
      rw [List.flatMap_cons, segments]
      cases stops : stop a with
      | true =>
          obtain ⟨b, single, stop⟩ := ends a stops
          rw [single, List.singleton_append, segments, stop, ih]
          simp [single]
      | false =>
          obtain ⟨some, pass⟩ := passes a stops
          rw [segments_append pass, ih]
          cases segments stop rest with
          | nil =>
              rw [List.map_nil, foldr_attach_nil some]
              simp [attach]
          | cons part parts =>
              rw [List.map_cons, foldr_attach_cons]
              simp [attach]

end Segments

/-- The lines of encoded text are the encoded lines of the text. -/
theorem streamLines_encode (cs : List Char) :
    streamLines (encode cs) = (segments (· == '\n') cs).map encode := by
  refine segments_flatMap (fun c stops => ?_) (fun c passes => ?_) cs
  · have feed : c = '\n' := by simpa using stops
    subst feed
    exact ⟨10, rfl, rfl⟩
  · refine ⟨String.utf8EncodeChar_ne_nil, fun b hb => ?_⟩
    have other : b ≠ 10 := by
      rintro rfl
      rw [eq_newline_of_mem_utf8EncodeChar hb] at passes
      cases passes
    simpa using other

end GitTutor.Text
