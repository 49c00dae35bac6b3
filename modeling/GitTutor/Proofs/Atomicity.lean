import GitTutor.Proofs.Effect

/-!
# Refusals change nothing

A program in place could be refused between two of its writes. `Atomic` says that
this never shows: whenever the program is refused, the state is the one from
before. It holds for every handler that can be refused and for the program of
every line, whatever the state and however patterns are read.
-/

namespace GitTutor

open Repository Text

/-- Whenever the program is refused, the state is as it was. -/
def InPlace.Atomic {ρ α : Type} (p : InPlace ρ α) : Prop :=
  ∀ before cause after, p.run before = .error cause after → after = before

/-- A program is atomic if from every state it is refused there or is not refused. -/
theorem InPlace.atomic_of_or {ρ α : Type} {p : InPlace ρ α}
    (h : ∀ s, (∃ cause, p.run s = .error cause s) ∨ ∃ a after, p.run s = .ok a after) :
    p.Atomic := by
  intro before cause after refused
  rcases h before with ⟨other, stays⟩ | ⟨a, final, done⟩
  · rw [stays] at refused
    cases refused
    rfl
  · rw [done] at refused
    cases refused

/-- A pathspec that stands for no file: a pattern that is malformed, or that matches none of
the modified files. -/
def Repository.Unresolvable (compile : PatternCompiler) (modified : List String)
    (path : String) : Prop :=
  Pathspec.isPattern path = true ∧
    ∀ test, compile path = some test → ∀ file ∈ modified, test file = false

namespace Handler

/-- A handler that ends as an update says is atomic. -/
theorem atomic_of_run {h : Handler String} {f : Repository → Except CommandError Answer}
    (run : ∀ r, h.run r = ending r (f r)) : h.Atomic := by
  apply InPlace.atomic_of_or
  intro r
  rw [run]
  cases f r with
  | error cause => exact Or.inl ⟨cause, rfl⟩
  | ok answer => exact Or.inr ⟨answer.2, answer.1, rfl⟩

end Handler

namespace Repository

variable {compile : PatternCompiler} {modified : List String}

/-- A pathspec is refused exactly when it stands for no file. -/
theorem resolve_error_iff {path : String} :
    (∃ cause, resolve compile modified path = .error cause) ↔
      Unresolvable compile modified path := by
  unfold resolve Unresolvable
  by_cases pattern : Pathspec.isPattern path = true
  · cases compiled : compile path with
    | none => simp [pattern]
    | some test =>
        by_cases hits : (modified.filter test).isEmpty = true
        · simp only [pattern, hits, if_true, Except.error.injEq, exists_eq', true_and, true_iff]
          intro _ same file h
          cases same
          have misses := List.filter_eq_nil_iff.mp (List.isEmpty_iff.mp hits) file h
          exact Bool.eq_false_iff.mpr misses
        · simp only [pattern, hits, if_true, true_and]
          constructor
          · rintro ⟨cause, h⟩
            cases h
          · intro h
            refine absurd (List.isEmpty_iff.mpr (List.filter_eq_nil_iff.mpr ?_)) hits
            intro file present hit
            rw [h test rfl file present] at hit
            cases hit
  · simp [pattern]

/-- A list of pathspecs is refused exactly when one of them stands for no file. -/
theorem resolveAll_error_iff {paths : List String} :
    (∃ cause, resolveAll compile modified paths = .error cause) ↔
      ∃ path ∈ paths, Unresolvable compile modified path := by
  induction paths with
  | nil => simp [resolveAll]
  | cons path rest ih =>
      simp only [List.mem_cons, exists_eq_or_imp]
      rw [← ih, ← resolve_error_iff, resolveAll]
      cases resolve compile modified path with
      | error cause => simp
      | ok files =>
          cases resolveAll compile modified rest <;> simp

end Repository

namespace Handler

/-- Staging pathspecs is refused exactly when one of them, wherever it stands, stands for no
file; the repository is then as it was. -/
theorem add_refused_iff {compile : PatternCompiler} {r : Repository} {paths : List String} :
    (∃ cause, (add compile (.paths paths)).run r = .error cause r) ↔
      ∃ path ∈ paths, Unresolvable compile r.modified path := by
  rw [← resolveAll_error_iff, add_run, Repository.add, addPaths]
  cases Repository.resolveAll compile r.modified paths <;> simp [ending]

end Handler

namespace Session

variable {σ : Type} [Entropy σ]

/-- The program of every line is atomic on the whole session. -/
theorem respond_atomic (line : String) : (respond line : InPlace (Session σ) String).Atomic := by
  apply InPlace.atomic_of_or
  intro s
  rw [respond_run]
  cases s.answer line with
  | error cause => exact Or.inl ⟨cause, rfl⟩
  | ok effect => exact Or.inr ⟨effect.1.2, s.settle effect, rfl⟩

/-- A line adds one entry, and if that entry is an error nothing else has changed. -/
theorem execute_atomic (s : Session σ) (line : String) :
    ∃ text failed, (s.execute line).transcript = s.transcript ++ [⟨trimmed line, text, failed⟩] ∧
      (failed = true →
        (s.execute line).repository = s.repository ∧ (s.execute line).entropy = s.entropy) := by
  rw [execute_eq]
  cases s.answer (trimmed line) with
  | error cause => exact ⟨cause.message, true, rfl, fun _ => ⟨rfl, rfl⟩⟩
  | ok effect =>
      refine ⟨effect.1.2, false, rfl, fun h => ?_⟩
      cases h

/-- Refusals change nothing. A line that adds an error entry leaves the repository and the
source as they were; every handler that is refused leaves the repository as it was; and a
list of pathspecs is refused without any write as soon as one of them stands for no file. -/
theorem refusals_change_nothing :
    (∀ (s : Session σ) line, ∃ text failed,
      (s.execute line).transcript = s.transcript ++ [⟨trimmed line, text, failed⟩] ∧
      (failed = true →
        (s.execute line).repository = s.repository ∧ (s.execute line).entropy = s.entropy)) ∧
    (∀ line, (respond line : InPlace (Session σ) String).Atomic) ∧
    (∀ name, (Handler.createBranch name).Atomic ∧ (Handler.deleteBranch name).Atomic ∧
      (Handler.checkoutNew name).Atomic ∧ (Handler.checkout name).Atomic ∧
      (Handler.merge name).Atomic) ∧
    (∀ pop, (Handler.restore pop).Atomic) ∧
    Handler.stashDrop.Atomic ∧
    ∀ compile, (∀ request, (Handler.add compile request).Atomic) ∧
      ∀ r paths, (∃ path ∈ paths, Unresolvable compile r.modified path) ↔
        ∃ cause, (Handler.add compile (.paths paths)).run r = .error cause r := by
  refine ⟨execute_atomic, respond_atomic, fun name => ⟨?_, ?_, ?_, ?_, ?_⟩, ?_, ?_, ?_⟩
  · exact Handler.atomic_of_run (Handler.createBranch_run name)
  · exact Handler.atomic_of_run (Handler.deleteBranch_run name)
  · exact Handler.atomic_of_run (Handler.checkoutNew_run name)
  · exact Handler.atomic_of_run (Handler.checkout_run name)
  · exact Handler.atomic_of_run (Handler.merge_run name)
  · exact fun pop => Handler.atomic_of_run (Handler.restore_run pop)
  · exact Handler.atomic_of_run Handler.stashDrop_run
  · intro compile
    refine ⟨fun request => ?_, fun r paths => Handler.add_refused_iff.symm⟩
    exact Handler.atomic_of_run (Handler.add_run compile request)

/-- A malformed pattern after a plain path is refused before that path is staged. -/
theorem refusals_change_nothing_add :
    ∃ cause, (Handler.add (fun _ => none) (.paths ["a.txt", "["])).run
        (Repository.fresh Settings.standard) =
      .error cause (Repository.fresh Settings.standard) := by
  obtain ⟨_, _, _, _, _, adding⟩ := @refusals_change_nothing Counter _
  have bad : Unresolvable (fun _ => none) (Repository.fresh Settings.standard).modified "[" := by
    refine ⟨by decide, fun test compiled => ?_⟩
    cases compiled
  exact ((adding _).2 _ ["a.txt", "["]).mp ⟨"[", by decide, bad⟩

end Session

end GitTutor
