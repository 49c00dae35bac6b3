import GitTutor.Proofs.Draws
import GitTutor.Proofs.Logs
import GitTutor.Proofs.ShortHash

/-!
# Where commits stand

Every log that is copied keeps each commit at its index: a created branch copies
the whole current log, and a merge takes over what lies beyond the current length.
So a commit enters the logs once, at the end of the current log, and is found at
that index wherever it is found later. With a counter as the source a hash then
names one commit at one index.
-/

namespace GitTutor

open Repository

/-- Some log holds the commit at the index. -/
def Repository.Places (r : Repository) (i : Nat) (c : Commit) : Prop :=
  ∃ name, (r.log name)[i]? = some c

namespace Repository

variable {r r' : Repository} {i : Nat} {c : Commit}

theorem Places.of_logs (same : r'.logs = r.logs) (h : r'.Places i c) : r.Places i c := by
  obtain ⟨name, found⟩ := h
  exact ⟨name, log_congr same name ▸ found⟩

/-- A created branch holds no commit that was not there before. -/
theorem Places.of_fork {name : String} (h : (r.fork name).Places i c) : r.Places i c := by
  obtain ⟨other, found⟩ := h
  rw [log_fork] at found
  split at found
  · exact ⟨r.current, found⟩
  · exact ⟨other, found⟩

/-- Commits at the end of the current log stand beyond its length. -/
theorem Places.of_append {commits : List Commit} (h : (r.append commits).Places i c) :
    r.Places i c ∨
      r.currentLog.length ≤ i ∧ commits[i - r.currentLog.length]? = some c := by
  obtain ⟨other, found⟩ := h
  rw [log_append] at found
  split at found
  · rcases Nat.lt_or_ge i r.currentLog.length with within | beyond
    · rw [List.getElem?_append_left within] at found
      exact Or.inl ⟨r.current, found⟩
    · rw [List.getElem?_append_right beyond] at found
      exact Or.inr ⟨beyond, found⟩
  · exact Or.inl ⟨other, found⟩

/-- A merge takes over commits at the indices that they have. -/
theorem Places.of_merge {branch : String} (h : (r.append (r.incoming branch)).Places i c) :
    r.Places i c := by
  rcases h.of_append with old | ⟨beyond, found⟩
  · exact old
  · rw [incoming, List.getElem?_drop, Nat.add_sub_of_le beyond] at found
    exact ⟨branch, found⟩

end Repository

/-- A command places no commit, or one commit with the hash that it draws, at the end of
the current log. -/
theorem LogChange.places {σ : Type} [Entropy σ] {r r' : Repository} {e e' : σ}
    {command : Command} (change : LogChange r e command r' e') :
    (∀ i c, r'.Places i c → r.Places i c) ∨
      ∃ new, new.hash = (Entropy.hash e).1 ∧ e' = (Entropy.hash e).2 ∧
        ∀ i c, r'.Places i c → r.Places i c ∨ i = r.currentLog.length ∧ c = new := by
  cases change with
  | keep same => exact Or.inl fun i c h => h.of_logs same
  | fork name _ _ _ copied => exact Or.inl fun i c h => (h.of_logs copied).of_fork
  | merge branch _ _ grown => exact Or.inl fun i c h => (h.of_logs grown).of_merge
  | record new _ drawn after grown =>
      refine Or.inr ⟨new, drawn, after, fun i c h => ?_⟩
      rcases (h.of_logs grown).of_append with old | ⟨beyond, found⟩
      · exact Or.inl old
      · right
        cases gap : i - r.currentLog.length with
        | zero =>
            rw [gap, List.getElem?_cons_zero, Option.some.injEq] at found
            exact ⟨by omega, found.symm⟩
        | succ n =>
            rw [gap, List.getElem?_cons_succ, List.getElem?_nil] at found
            cases found

namespace Session

theorem step_places {σ : Type} [Entropy σ] (s : Session σ) (step : Step) :
    (∀ i c, (s.step step).repository.Places i c → s.repository.Places i c) ∨
      ∃ new, new.hash = (Entropy.hash s.entropy).1 ∧
        (s.step step).entropy = (Entropy.hash s.entropy).2 ∧
        ∀ i c, (s.step step).repository.Places i c →
          s.repository.Places i c ∨ i = s.repository.currentLog.length ∧ c = new := by
  rcases step_logs s step with same | ⟨command, _, change⟩
  · exact Or.inl fun i c h => h.of_logs same
  · exact change.places

/-- A hash names one commit at one index, and it is the seed's or was drawn before. -/
structure Identified (seed : String) (s : Session Counter) : Prop where
  unique : ∀ i j c d, s.repository.Places i c → s.repository.Places j d →
    c.hash = d.hash → i = j ∧ c = d
  known : ∀ i c, s.repository.Places i c →
    c.hash = seed ∨ ∃ k, 0 < k ∧ k ≤ s.entropy.hashes ∧ c.hash = ShortHash.ofNat k

/-- The numbers up to `n` do not wrap as short hashes, and none of them is the seed's. -/
structure Distinct (seed : String) (n : Nat) : Prop where
  room : n < 36 ^ ShortHash.width
  apart : ∀ k, 0 < k → k ≤ n → seed ≠ ShortHash.ofNat k

theorem Distinct.mono {seed : String} {m n : Nat} (h : Distinct seed n) (less : m ≤ n) :
    Distinct seed m :=
  ⟨Nat.lt_of_le_of_lt less h.room, fun k pos le => h.apart k pos (Nat.le_trans le less)⟩

variable {seed : String} {s : Session Counter}

/-- A drawn hash differs from those of all commits. -/
theorem Identified.fresh (h : s.Identified seed) (clear : Distinct seed (s.entropy.hashes + 1))
    {i : Nat} {c : Commit} (placed : s.repository.Places i c) :
    c.hash ≠ (Entropy.hash s.entropy).1 := by
  intro same
  have drawn : (Entropy.hash s.entropy).1 = ShortHash.ofNat (s.entropy.hashes + 1) := rfl
  rw [drawn] at same
  rcases h.known i c placed with old | ⟨k, _, below, old⟩
  · exact clear.apart _ (Nat.succ_pos _) (Nat.le_refl _) (old.symm.trans same)
  · have bound : k < 36 ^ ShortHash.width := by
      have := clear.room
      omega
    have equal := ShortHash.ofNat_inj bound clear.room (old.symm.trans same)
    omega

/-- What is known of a hash stays known when more hashes are drawn. -/
theorem Identified.known_later (h : s.Identified seed) {n : Nat} (later : s.entropy.hashes ≤ n)
    {i : Nat} {c : Commit} (placed : s.repository.Places i c) :
    c.hash = seed ∨ ∃ k, 0 < k ∧ k ≤ n ∧ c.hash = ShortHash.ofNat k := by
  rcases h.known i c placed with known | ⟨k, pos, below, known⟩
  · exact Or.inl known
  · exact Or.inr ⟨k, pos, Nat.le_trans below later, known⟩

/-- Where no commit is new, hashes still name commits. -/
theorem Identified.of_old {s' : Session Counter} (h : s.Identified seed)
    (later : s.entropy.hashes ≤ s'.entropy.hashes)
    (old : ∀ i c, s'.repository.Places i c → s.repository.Places i c) :
    s'.Identified seed := by
  constructor
  · intro i j c d hi hj same
    exact h.unique i j c d (old i c hi) (old j d hj) same
  · intro i c placed
    exact h.known_later later (old i c placed)

/-- Where one commit is new and has the drawn hash, that hash names it alone. -/
theorem Identified.of_new {s' : Session Counter} (h : s.Identified seed)
    (clear : Distinct seed (s.entropy.hashes + 1)) {n : Nat} {new : Commit}
    (drawn : new.hash = (Entropy.hash s.entropy).1)
    (after : s'.entropy = (Entropy.hash s.entropy).2)
    (old : ∀ i c, s'.repository.Places i c → s.repository.Places i c ∨ i = n ∧ c = new) :
    s'.Identified seed := by
  have count : s'.entropy.hashes = s.entropy.hashes + 1 := by
    rw [after]
    rfl
  have fresh : ∀ i c, s.repository.Places i c → c.hash ≠ new.hash := by
    intro i c placed
    rw [drawn]
    exact h.fresh clear placed
  constructor
  · intro i j c d hi hj same
    rcases old i c hi with hi | ⟨rfl, rfl⟩
    · rcases old j d hj with hj | ⟨rfl, rfl⟩
      · exact h.unique i j c d hi hj same
      · exact absurd same (fresh i c hi)
    · rcases old j d hj with hj | ⟨rfl, rfl⟩
      · exact absurd same.symm (fresh j d hj)
      · exact ⟨rfl, rfl⟩
  · intro i c placed
    rcases old i c placed with placed | ⟨rfl, rfl⟩
    · exact h.known_later (by omega) placed
    · exact Or.inr ⟨s.entropy.hashes + 1, Nat.succ_pos _, Nat.le_of_eq count.symm, drawn⟩

/-- A step keeps that hashes name commits, as long as drawn hashes are distinct. -/
theorem Identified.step (h : s.Identified seed) (step : Step)
    (clear : Distinct seed (s.step step).entropy.hashes) : (s.step step).Identified seed := by
  rcases step_places s step with old | ⟨new, drawn, after, old⟩
  · refine h.of_old ?_ old
    rw [hashes_step]
    exact Nat.le_add_right _ _
  · refine h.of_new ?_ drawn after old
    rw [after] at clear
    exact clear

theorem Identified.run (steps : List Step) (h : s.Identified seed)
    (clear : Distinct seed (s.run steps).entropy.hashes) : (s.run steps).Identified seed := by
  induction steps generalizing s with
  | nil => exact h
  | cons first rest ih =>
      exact ih (h.step first (clear.mono (hashes_le_run (s.step first) rest))) clear

/-- At the start the only commit is the seed. -/
theorem Identified.start (compile : PatternCompiler) (settings : Settings) :
    (startWith compile settings Counter.zero).Identified settings.seedHash := by
  have only : ∀ i c, (startWith compile settings Counter.zero).repository.Places i c →
      i = 0 ∧ c = settings.seedCommit := by
    rintro i c ⟨name, found⟩
    change ((Repository.fresh settings).log name)[i]? = some c at found
    rw [log_fresh] at found
    split at found
    · cases i with
      | zero =>
          cases found
          exact ⟨rfl, rfl⟩
      | succ i => cases found
    · cases found
  constructor
  · intro i j c d hi hj _
    obtain ⟨rfl, rfl⟩ := only i c hi
    obtain ⟨rfl, rfl⟩ := only j d hj
    exact ⟨rfl, rfl⟩
  · intro i c placed
    obtain ⟨_, rfl⟩ := only i c placed
    exact Or.inl rfl

/-- A counter session that draws fewer hashes than there are and never the seed's draws
distinct ones. -/
theorem distinct_of_run {compile : PatternCompiler} {settings : Settings} {steps : List Step}
    (room : (startWith compile settings Counter.zero).drawsOfRun steps < 36 ^ ShortHash.width)
    (apart : settings.seedHash ∉ Entropy.firstHashes
      ((startWith compile settings Counter.zero).drawsOfRun steps) Counter.zero) :
    Distinct settings.seedHash
      ((startWith compile settings Counter.zero).run steps).entropy.hashes := by
  have count := hashes_run (startWith compile settings Counter.zero) steps
  have zero : (startWith compile settings Counter.zero).entropy.hashes = 0 := rfl
  rw [zero, Nat.zero_add] at count
  rw [count]
  refine ⟨room, fun k pos below same => apart ?_⟩
  refine Counter.mem_firstHashes_iff.mpr ⟨k, pos, ?_, same⟩
  exact Nat.le_trans below (Nat.le_add_left _ _)

/-- Hashes name commits after a run of such a session. -/
theorem identified_of_run {compile : PatternCompiler} {settings : Settings} {steps : List Step}
    (room : (startWith compile settings Counter.zero).drawsOfRun steps < 36 ^ ShortHash.width)
    (apart : settings.seedHash ∉ Entropy.firstHashes
      ((startWith compile settings Counter.zero).drawsOfRun steps) Counter.zero) :
    ((startWith compile settings Counter.zero).run steps).Identified settings.seedHash :=
  (Identified.start compile settings).run steps (distinct_of_run room apart)

/-- With a counter that draws fewer hashes than there are and never the seed's, commits with
equal hashes stand at one index of their logs and are equal, so no log holds a commit twice. -/
theorem hash_names_commit (compile : PatternCompiler) (settings : Settings)
    (steps : List Step)
    (room : (startWith compile settings Counter.zero).drawsOfRun steps < 36 ^ 7)
    (apart : settings.seedHash ∉ Entropy.firstHashes
      ((startWith compile settings Counter.zero).drawsOfRun steps) Counter.zero) :
    let r := ((startWith compile settings Counter.zero).run steps).repository
    (∀ (a b : String) (i j : Nat) (c d : Commit), (r.log a)[i]? = some c →
      (r.log b)[j]? = some d → c.hash = d.hash → i = j ∧ c = d) ∧
    ∀ name, (r.log name).Nodup := by
  intro r
  have identified := identified_of_run room apart
  have unique : ∀ (a b : String) (i j : Nat) (c d : Commit), (r.log a)[i]? = some c →
      (r.log b)[j]? = some d → c.hash = d.hash → i = j ∧ c = d := by
    intro a b i j c d hi hj same
    exact identified.unique i j c d ⟨a, hi⟩ ⟨b, hj⟩ same
  refine ⟨unique, fun name => List.pairwise_iff_getElem.mpr ?_⟩
  intro i j hi hj less same
  have equal := unique name name i j _ _ (List.getElem?_eq_getElem hi)
    (List.getElem?_eq_getElem hj) (congrArg Commit.hash same)
  omega

/-- A commit that a merge brings from `dev` to `main` stands at its index in both logs. -/
theorem hash_names_commit_merged :
    let s := startWith (fun _ => none) Settings.standard Counter.zero
    let steps := [.execute "git checkout -b dev", .execute "git cherry-pick f00d",
      .execute "git push", .execute "git checkout main", .execute "git merge dev"]
    s.drawsOfRun steps = 3 ∧ ((s.run steps).repository.log "main").Nodup ∧
      ∀ (i : Nat) (c : Commit), ((s.run steps).repository.log "main")[i]? = some c →
        c.hash = "0000001" → i = 1 ∧ ((s.run steps).repository.log "dev")[1]? = some c := by
  intro s steps
  have count : s.drawsOfRun steps = 3 := by decide +kernel
  have apart : Settings.standard.seedHash ∉
      Entropy.firstHashes (s.drawsOfRun steps) Counter.zero := by
    rw [count]
    decide +kernel
  have room : s.drawsOfRun steps < 36 ^ 7 := by
    rw [count]
    decide
  have names := hash_names_commit (fun _ => none) Settings.standard steps room apart
  refine ⟨count, names.2 "main", fun i c found hash => ?_⟩
  have picked : ((s.run steps).repository.log "dev")[1]? =
      some ⟨"0000001", "Cherry-picked commit f00d", "Unknown", []⟩ := by decide +kernel
  obtain ⟨rfl, rfl⟩ := names.1 "main" "dev" i 1 c _ found picked hash
  exact ⟨rfl, picked⟩

end Session

end GitTutor
