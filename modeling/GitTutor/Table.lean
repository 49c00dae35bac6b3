import GitTutor.Rows

/-!
# Tables sorted by name

A table maps names to values and lists its rows in increasing order of names.
Writing a name replaces its row or puts a new row at its place.
-/

namespace GitTutor

/-- Rows of a name and a value, in increasing order of names. -/
structure Table (β : Type) where
  rows : Rows β
  ordered : (rows.map Prod.fst).Pairwise (· < ·)
  deriving DecidableEq, Repr

namespace Table

open Rows

variable {β : Type}

@[ext] theorem ext {t t' : Table β} (same : t.rows = t'.rows) : t = t' := by
  cases t
  cases t'
  cases same
  rfl

/-- The table without rows. -/
def empty : Table β := ⟨[], .nil⟩

/-- The value of a name. -/
def get? (t : Table β) (name : String) : Option β :=
  Rows.find? t.rows name

/-- Write a row at its place among sorted rows. -/
def place (name : String) (value : β) : Rows β → Rows β
  | [] => [(name, value)]
  | row :: rest =>
      if name = row.1 then (name, value) :: rest
      else if name < row.1 then (name, value) :: row :: rest
      else row :: place name value rest

theorem find?_place (rows : Rows β) (name other : String) (value : β) :
    find? (place name value rows) other =
      if other = name then some value else find? rows other := by
  induction rows with
  | nil => simp [place, find?, eq_comm]
  | cons row rest ih =>
      rw [place]
      split
      · rename_i hn
        subst hn
        by_cases ho : other = row.1 <;> simp [find?, ho, eq_comm]
      · rename_i hn
        split
        · by_cases ho : other = name
          · simp [find?, ho]
          · simp [find?, ho, Ne.symm ho]
        · simp only [find?, ih]
          split
          · rename_i hr
            simp [show other ≠ name from fun h => hn (h ▸ hr.symm)]
          · rfl

theorem mem_names_place {name other : String} {value : β} {rows : Rows β} :
    other ∈ (place name value rows).map Prod.fst ↔ other = name ∨ other ∈ rows.map Prod.fst := by
  rw [← isSome_find?_iff, ← isSome_find?_iff, find?_place]
  split <;> simp [*]

/-- Writing a row keeps the order. -/
theorem ordered_place (name : String) (value : β) {rows : Rows β}
    (ordered : (rows.map Prod.fst).Pairwise (· < ·)) :
    ((place name value rows).map Prod.fst).Pairwise (· < ·) := by
  induction rows with
  | nil => exact List.pairwise_singleton _ _
  | cons row rest ih =>
      obtain ⟨first, later⟩ := List.pairwise_cons.mp ordered
      rw [place]
      split
      · rename_i same
        rw [List.map_cons, same]
        exact ordered
      · rename_i other
        split
        · rename_i before
          refine List.pairwise_cons.mpr ⟨fun next within => ?_, ordered⟩
          rcases List.mem_cons.mp within with rfl | within
          · exact before
          · exact String.lt_trans before (first next within)
        · rename_i behind
          have after : row.1 < name := by grind
          refine List.pairwise_cons.mpr ⟨fun next within => ?_, ih later⟩
          rcases mem_names_place.mp within with rfl | within
          · exact after
          · exact first next within

/-- The table in which `name` has `value` and all else is as before. -/
def insert (t : Table β) (name : String) (value : β) : Table β :=
  ⟨place name value t.rows, ordered_place name value t.ordered⟩

/-- The names of a table in order. -/
def names (t : Table β) : List String :=
  t.rows.map Prod.fst

/-- The table with every value replaced by its image. -/
def map {γ : Type} (f : β → γ) (t : Table β) : Table γ :=
  ⟨t.rows.map fun row => (row.1, f row.2), by simpa [Function.comp_def] using t.ordered⟩

/-- The table of a list of rows; of two rows with one name the later one counts. -/
def ofList (rows : Rows β) : Table β :=
  rows.foldl (fun t row => t.insert row.1 row.2) empty

@[simp] theorem get?_empty (name : String) : (empty : Table β).get? name = none := rfl

/-- A written name has its value, and every other name keeps its own. -/
@[simp] theorem get?_insert (t : Table β) (name other : String) (value : β) :
    (t.insert name value).get? other = if other = name then some value else t.get? other :=
  find?_place t.rows name other value

@[simp] theorem get?_map {γ : Type} (f : β → γ) (t : Table β) (name : String) :
    (t.map f).get? name = (t.get? name).map f := by
  change find? (t.rows.map fun row => (row.1, f row.2)) name = (find? t.rows name).map f
  induction t.rows with
  | nil => rfl
  | cons row rest ih =>
      rw [List.map_cons, find?, find?]
      split
      · rfl
      · exact ih

theorem place_map {γ : Type} (f : β → γ) (name : String) (value : β) (rows : Rows β) :
    (place name value rows).map (fun row => (row.1, f row.2)) =
      place name (f value) (rows.map fun row => (row.1, f row.2)) := by
  induction rows with
  | nil => rfl
  | cons row rest ih =>
      rw [List.map_cons, place, place]
      split
      · rfl
      · split
        · rfl
        · rw [List.map_cons, ih]

/-- Writing a name before or after taking images comes to the same. -/
theorem map_insert {γ : Type} (f : β → γ) (t : Table β) (name : String) (value : β) :
    (t.insert name value).map f = (t.map f).insert name (f value) :=
  ext (place_map f name value t.rows)

/-- The names of a table are those that have a value. -/
theorem mem_names_iff (t : Table β) (name : String) :
    name ∈ t.names ↔ (t.get? name).isSome = true :=
  (isSome_find?_iff t.rows name).symm

@[simp] theorem mem_names_insert (t : Table β) (name other : String) (value : β) :
    other ∈ (t.insert name value).names ↔ other = name ∨ other ∈ t.names := by
  by_cases h : other = name <;> simp [mem_names_iff, h]

end Table

end GitTutor
