import GitTutor.Table
import Mathlib.Data.String.Basic

/-!
# The rows of tables

Each name stands once in a table. When rows that name nothing twice are written into a table one
after the other, the rows of the table are those that were written, and each name has the value
that was written for it.
-/

namespace GitTutor

variable {β : Type}

/-- Among rows that name nothing twice, a name has the value of its row. -/
theorem Rows.find?_eq_some_iff {rows : Rows β} (nodup : (rows.map Prod.fst).Nodup) {name : String}
    {value : β} : Rows.find? rows name = some value ↔ (name, value) ∈ rows := by
  induction rows with
  | nil => simp
  | cons row rest ih =>
      obtain ⟨fresh, nodup⟩ := List.nodup_cons.mp nodup
      rw [Rows.find?, List.mem_cons]
      by_cases here : row.1 = name
      · subst here
        have elsewhere : (row.1, value) ∉ rest := fun within =>
          fresh (List.mem_map.mpr ⟨_, within, rfl⟩)
        rw [if_pos rfl, Option.some.injEq, or_iff_left elsewhere, Prod.ext_iff]
        constructor
        · rintro rfl
          exact ⟨rfl, rfl⟩
        · rintro ⟨-, same⟩
          exact same.symm
      · have other : (name, value) ≠ row := fun same => here (same ▸ rfl)
        rw [if_neg here, ih nodup, or_iff_right other]

namespace Table

/-- No name stands twice in a table. -/
theorem nodup (t : Table β) : (t.rows.map Prod.fst).Nodup :=
  t.ordered.imp fun less => ne_of_lt less

theorem get?_foldl_insert (rows : Rows β) (nodup : (rows.map Prod.fst).Nodup) (name : String) :
    ∀ t : Table β, (rows.foldl (fun t row => t.insert row.1 row.2) t).get? name =
      (Rows.find? rows name).or (t.get? name) := by
  induction rows with
  | nil =>
      intro t
      rfl
  | cons row rest ih =>
      intro t
      obtain ⟨fresh, nodup⟩ := List.nodup_cons.mp nodup
      rw [List.foldl_cons, ih nodup, Table.get?_insert, Rows.find?]
      by_cases here : row.1 = name
      · have missing : Rows.find? rest name = none := by
          rw [← Option.not_isSome_iff_eq_none, Rows.isSome_find?_iff, ← here]
          exact fresh
        simp [here, missing]
      · simp [here, Ne.symm here]

/-- A table made of rows in which no name stands twice has the values of the rows. -/
theorem get?_ofList {rows : Rows β} (nodup : (rows.map Prod.fst).Nodup) (name : String) :
    (ofList rows).get? name = Rows.find? rows name := by
  rw [ofList, get?_foldl_insert rows nodup, get?_empty, Option.or_none]

/-- A table made of rows in which no name stands twice has just these rows. -/
theorem mem_rows_ofList {rows : Rows β} (nodup : (rows.map Prod.fst).Nodup) {name : String}
    {value : β} : (name, value) ∈ (ofList rows).rows ↔ (name, value) ∈ rows := by
  rw [← Rows.find?_eq_some_iff (ofList rows).nodup, ← Rows.find?_eq_some_iff nodup]
  exact iff_of_eq (congrArg (· = some value) (get?_ofList nodup name))

end Table

end GitTutor
