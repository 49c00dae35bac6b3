/-!
# Rows

Rows pair names with values in the order in which they were written. The first
row with a name counts, and assigning a value to a name keeps its place.
-/

namespace GitTutor

/-- Names with values, in order. -/
abbrev Rows (β : Type) := List (String × β)

namespace Rows

variable {β : Type}

/-- The value of the first row with a given name. -/
def find? : Rows β → String → Option β
  | [], _ => none
  | row :: rest, name => if row.1 = name then some row.2 else find? rest name

/-- Rows in which a name has a value and all else is as before. -/
def assign (name : String) (value : β) : Rows β → Rows β
  | [] => [(name, value)]
  | row :: rest =>
      if row.1 = name then (name, value) :: rest else row :: assign name value rest

@[simp] theorem find?_nil (name : String) : find? ([] : Rows β) name = none := rfl

/-- The names that have a value are those of the rows. -/
theorem isSome_find?_iff (rows : Rows β) (name : String) :
    (find? rows name).isSome = true ↔ name ∈ rows.map Prod.fst := by
  induction rows with
  | nil => simp
  | cons row rest ih =>
      by_cases h : row.1 = name
      · simp [find?, h]
      · simp [find?, h, ih, Ne.symm h]

/-- An assigned name has its value, and every other name keeps its own. -/
theorem find?_assign (name other : String) (value : β) (rows : Rows β) :
    find? (assign name value rows) other =
      if other = name then some value else find? rows other := by
  induction rows with
  | nil => simp [assign, find?, eq_comm]
  | cons row rest ih =>
      rw [assign]
      split
      · rename_i h
        subst h
        by_cases ho : other = row.1 <;> simp [find?, ho, eq_comm]
      · rename_i h
        simp only [find?, ih]
        split
        · rename_i hk
          simp [show other ≠ name from fun he => h (hk.trans he)]
        · rfl

theorem mem_names_assign (name other : String) (value : β) (rows : Rows β) :
    other ∈ (assign name value rows).map Prod.fst ↔ other = name ∨ other ∈ rows.map Prod.fst := by
  rw [← isSome_find?_iff, ← isSome_find?_iff, find?_assign]
  split <;> simp [*]

/-- Assigning writes no name twice. -/
theorem nodup_assign (name : String) (value : β) {rows : Rows β}
    (nodup : (rows.map Prod.fst).Nodup) : ((assign name value rows).map Prod.fst).Nodup := by
  induction rows with
  | nil => simp [assign]
  | cons row rest ih =>
      obtain ⟨fresh, nodup⟩ := List.nodup_cons.mp nodup
      rw [assign]
      split
      · rename_i same
        exact List.nodup_cons.mpr ⟨same ▸ fresh, nodup⟩
      · rename_i other
        refine List.nodup_cons.mpr ⟨?_, ih nodup⟩
        rw [mem_names_assign]
        exact not_or.mpr ⟨other, fresh⟩

end Rows

end GitTutor
