import GitTutor.CommandError

/-!
# Programs in place

A program in place works on a state one write after the other. It can be
refused at any point, and a refusal keeps whatever was written before it.
-/

namespace GitTutor

/-- A program that works on a state in place. -/
abbrev InPlace (ρ : Type) := EStateM CommandError ρ

namespace InPlace

variable {ρ α β : Type}

@[simp] theorem run_refusal (cause : CommandError) (s : ρ) :
    (throw cause : InPlace ρ α).run s = .error cause s := rfl

@[simp] theorem run_map (f : α → β) (p : InPlace ρ α) (s : ρ) :
    (f <$> p).run s =
      match p.run s with
      | .ok a after => .ok (f a) after
      | .error cause after => .error cause after := by
  rw [map_eq_pure_bind, EStateM.run_bind]
  cases p.run s <;> rfl

end InPlace

end GitTutor
