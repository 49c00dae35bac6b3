/-!
# Beginnings of texts

A text that begins with a given lead can be cut after it.
-/

namespace GitTutor.Text

/-- The text after a lead, if the text begins with it. -/
def dropLead? : List Char → List Char → Option (List Char)
  | [], cs => some cs
  | _ :: _, [] => none
  | l :: ls, c :: cs => if l = c then dropLead? ls cs else none

/-- Cutting succeeds exactly on the lead followed by the rest. -/
theorem dropLead?_eq_some_iff {lead cs rest : List Char} :
    dropLead? lead cs = some rest ↔ cs = lead ++ rest := by
  induction lead generalizing cs with
  | nil => simp [dropLead?]
  | cons l ls ih =>
      cases cs with
      | nil => simp [dropLead?]
      | cons c cs =>
          rw [dropLead?]
          split
          · rename_i h
            simp [ih, h]
          · rename_i h
            simp [Ne.symm h]

end GitTutor.Text
