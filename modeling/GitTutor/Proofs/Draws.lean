import GitTutor.Proofs.Transition

/-!
# Drawn hashes

How many hashes a command, a step and a run draw, and which hashes a source gives
first. A commit that is recorded and a cherry-pick draw one hash, a push draws
two, and nothing else draws any.
-/

namespace GitTutor

open Repository Text

section Source

variable {σ : Type} [Entropy σ]

/-- The source after a number of hashes. -/
def Entropy.afterHashes : Nat → σ → σ
  | 0, e => e
  | n + 1, e => afterHashes n (Entropy.hash e).2

/-- The first hashes that a source gives. -/
def Entropy.firstHashes : Nat → σ → List String
  | 0, _ => []
  | n + 1, e => (Entropy.hash e).1 :: firstHashes n (Entropy.hash e).2

end Source

namespace Counter

/-- Every hash counts once. -/
theorem hashes_afterHashes (n : Nat) (c : Counter) :
    (Entropy.afterHashes n c).hashes = c.hashes + n := by
  induction n generalizing c with
  | zero => rfl
  | succ n ih =>
      have once : (Entropy.hash c).2.hashes = c.hashes + 1 := rfl
      rw [Entropy.afterHashes, ih, once]
      omega

/-- The first hashes of a counter are those of the numbers that follow its own. -/
theorem firstHashes_eq (n : Nat) (c : Counter) :
    Entropy.firstHashes n c = (List.range' (c.hashes + 1) n).map ShortHash.ofNat := by
  induction n generalizing c with
  | zero => rfl
  | succ n ih =>
      have once : (Entropy.hash c).2.hashes = c.hashes + 1 := rfl
      have drawn : (Entropy.hash c).1 = ShortHash.ofNat (c.hashes + 1) := rfl
      rw [Entropy.firstHashes, ih, once, drawn, List.range'_succ, List.map_cons]

theorem mem_firstHashes_iff {n : Nat} {c : Counter} {hash : String} :
    hash ∈ Entropy.firstHashes n c ↔
      ∃ k, c.hashes < k ∧ k ≤ c.hashes + n ∧ hash = ShortHash.ofNat k := by
  rw [firstHashes_eq, List.mem_map]
  constructor
  · rintro ⟨k, within, rfl⟩
    obtain ⟨above, below⟩ := List.mem_range'_1.mp within
    exact ⟨k, by omega, by omega, rfl⟩
  · rintro ⟨k, above, below, rfl⟩
    exact ⟨k, List.mem_range'_1.mpr ⟨by omega, by omega⟩, rfl⟩

end Counter

/-- How many hashes a command draws at a repository. -/
def Command.draws (r : Repository) : Command → Nat
  | .commit request => if r.filesToCommit request.all = [] then 0 else 1
  | .cherryPick _ => 1
  | .push _ => 2
  | _ => 0

theorem Command.draws_of_isReport {command : Command} (quiet : command.isReport = true)
    (r : Repository) : command.draws r = 0 := by
  cases command with
  | commit => cases quiet
  | cherryPick => cases quiet
  | push => cases quiet
  | _ => rfl

/-- A transition takes as many hashes from the source as its command draws. -/
theorem Transition.source {σ : Type} [Entropy σ] {compile : PatternCompiler}
    {r r' : Repository} {e e' : σ} {command : Command}
    (t : Transition compile r e command r' e') :
    e' = Entropy.afterHashes (command.draws r) e := by
  cases t with
  | report quiet => rw [Command.draws_of_isReport quiet, Entropy.afterHashes]
  | commit request files => rw [Command.draws, if_neg files]; rfl
  | commitNothing request none => rw [Command.draws, if_pos none]; rfl
  | _ => rfl

namespace Session

variable {σ : Type}

/-- How many hashes a step draws. -/
def draws (s : Session σ) : Step → Nat
  | .execute line =>
      match Command.ofLine (trimmed line) with
      | .ok command => command.draws s.repository
      | .error _ => 0
  | _ => 0

theorem draws_of_command {s : Session σ} {line : String} {command : Command}
    (read : Command.ofLine (trimmed line) = .ok command) :
    s.draws (.execute line) = command.draws s.repository := by
  simp only [draws, read]

variable [Entropy σ]

/-- A command that is refused draws nothing. -/
theorem draws_of_refused {s : Session σ} {command : Command} {cause : CommandError}
    (refusal : s.perform command = .error cause) : command.draws s.repository = 0 := by
  cases command with
  | commit => cases refusal
  | cherryPick => cases refusal
  | push => cases refusal
  | _ => rfl

theorem draws_of_refusal {s : Session σ} {line : String} {cause : CommandError}
    (refusal : s.answer (trimmed line) = .error cause) : s.draws (.execute line) = 0 := by
  cases read : Command.ofLine (trimmed line) with
  | error => simp only [draws, read]
  | ok command =>
      simp only [answer, read] at refusal
      exact (draws_of_command read).trans (draws_of_refused refusal)

theorem CarriesOut.draws_eq {s : Session σ} {step : Step} {command : Command}
    (done : s.CarriesOut step command) : s.draws step = command.draws s.repository := by
  obtain ⟨line, text, rfl, read, _⟩ := done
  exact draws_of_command read

/-- How many hashes the steps of a run draw. -/
def drawsOfRun (s : Session σ) : List Step → Nat
  | [] => 0
  | first :: rest => s.draws first + drawsOfRun (s.step first) rest

/-- Every step advances a counter by the hashes that it draws. -/
theorem hashes_step (s : Session Counter) (step : Step) :
    (s.step step).entropy.hashes = s.entropy.hashes + s.draws step := by
  have moves := step_moves s step
  generalize (s.step step).repository = r' at moves
  generalize (s.step step).entropy = e' at moves ⊢
  cases moves with
  | refused line cause refusal => rw [draws_of_refusal refusal, Nat.add_zero]
  | command done change =>
      rw [change.source, Counter.hashes_afterHashes, done.draws_eq]
  | touch name => cases name <;> rfl
  | clear => rfl

/-- Every run advances a counter by the hashes that it draws. -/
theorem hashes_run (s : Session Counter) (steps : List Step) :
    (s.run steps).entropy.hashes = s.entropy.hashes + s.drawsOfRun steps := by
  induction steps generalizing s with
  | nil => rfl
  | cons first rest ih =>
      rw [run_cons, ih, hashes_step, drawsOfRun, Nat.add_assoc]

theorem hashes_le_run (s : Session Counter) (steps : List Step) :
    s.entropy.hashes ≤ (s.run steps).entropy.hashes := by
  rw [hashes_run]
  exact Nat.le_add_right _ _

end Session

end GitTutor
