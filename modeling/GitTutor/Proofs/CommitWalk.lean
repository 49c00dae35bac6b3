import GitTutor.Proofs.AllCommits
import GitTutor.Proofs.LostCommits
import Mathlib.Data.List.Induction
import Mathlib.Data.List.Nodup

/-!
# The walk over all branches

The list of all commits is the walk over the logs of all branches, in the order of their
creation, without what comes again. So it is known by the places of the walk at which a hash
is met for the first time. A new commit is put in at one place, a new branch repeats what
the walk has met, and a deleted branch takes away what no other branch holds.
-/

namespace GitTutor

open Repository Text

namespace Repository

section Places

/-- A walk meets the hash of the commit at an index for the first time there. -/
def FirstAt (walk : List Commit) (i : Nat) : Prop :=
  ∃ c, walk[i]? = some c ∧ ∀ d ∈ walk.take i, d.hash ≠ c.hash

theorem FirstAt.lt_length {walk : List Commit} {i : Nat} (h : FirstAt walk i) :
    i < walk.length := by
  obtain ⟨c, found, _⟩ := h
  exact (List.getElem?_eq_some_iff.mp found).1

/-- One more commit adds its index if its hash is new, and nothing else. -/
theorem firstAt_concat {walk : List Commit} {c : Commit} {i : Nat} :
    FirstAt (walk ++ [c]) i ↔
      FirstAt walk i ∨ i = walk.length ∧ c.hash ∉ walk.map Commit.hash := by
  rcases Nat.lt_trichotomy i walk.length with within | rfl | beyond
  · have found : (walk ++ [c])[i]? = walk[i]? := List.getElem?_append_left within
    have before : (walk ++ [c]).take i = walk.take i :=
      List.take_append_of_le_length (Nat.le_of_lt within)
    have early : ¬ i = walk.length := Nat.ne_of_lt within
    rw [FirstAt, FirstAt, found, before]
    simp only [early, false_and, or_false]
  · have found : (walk ++ [c])[walk.length]? = some c := List.getElem?_concat_length
    have late : ¬ FirstAt walk walk.length := fun h => Nat.lt_irrefl _ h.lt_length
    rw [FirstAt, found, List.take_left]
    simp only [late, false_or, true_and, List.mem_map, not_exists, not_and]
    constructor
    · rintro ⟨d, same, new⟩
      cases same
      exact new
    · exact fun new => ⟨c, rfl, new⟩
  · have late : ¬ FirstAt walk i := fun h => Nat.lt_asymm beyond h.lt_length
    have late' : ¬ FirstAt (walk ++ [c]) i := by
      intro h
      have bound := h.lt_length
      rw [List.length_append, List.length_singleton] at bound
      omega
    have other : ¬ i = walk.length := Nat.ne_of_gt beyond
    simp only [late, late', other, false_and, or_false]

/-- What a walk keeps are the commits at the places that are first ones, in their order. -/
theorem exists_places (walk : List Commit) :
    ∃ places : List Nat, places.Pairwise (· < ·) ∧ (∀ i, i ∈ places ↔ FirstAt walk i) ∧
      (firstWithHash [] walk).map some = places.map fun i => walk[i]? := by
  induction walk using List.reverseRecOn with
  | nil =>
      refine ⟨[], List.Pairwise.nil, fun i => ?_, rfl⟩
      constructor
      · intro h
        cases h
      · rintro ⟨c, found, _⟩
        cases found
  | append_singleton walk c ih =>
      obtain ⟨places, ordered, first, kept⟩ := ih
      have below : ∀ i ∈ places, i < walk.length := fun i h => ((first i).mp h).lt_length
      have same : places.map (fun i => (walk ++ [c])[i]?) = places.map fun i => walk[i]? :=
        List.map_congr_left fun i h => List.getElem?_append_left (below i h)
      -- A further commit is kept exactly if its index is a first place, and no earlier one moves.
      rw [firstWithHash_append, List.append_nil]
      by_cases old : c.hash ∈ walk.map Commit.hash
      · have nothing : firstWithHash (walk.map Commit.hash) [c] = [] := if_pos old
        refine ⟨places, ordered, fun i => ?_, ?_⟩
        · rw [first, firstAt_concat, or_iff_left]
          exact fun h => h.2 old
        · rw [nothing, List.append_nil, kept, same]
      · have itself : firstWithHash (walk.map Commit.hash) [c] = [c] := if_neg old
        refine ⟨places ++ [walk.length], ?_, fun i => ?_, ?_⟩
        · refine List.pairwise_append.mpr ⟨ordered, List.pairwise_singleton _ _, ?_⟩
          intro i h j last
          rw [List.mem_singleton.mp last]
          exact below i h
        · rw [List.mem_append, first, firstAt_concat, List.mem_singleton, and_iff_left old]
        · rw [itself, List.map_append, List.map_append, kept, same, List.map_singleton,
            List.map_singleton, List.getElem?_concat_length]

end Places

variable {r r' : Repository} {name hash : String} {c : Commit}

/-- The log of some branch holds a commit with the hash. -/
def Live (r : Repository) (hash : String) : Prop :=
  ∃ name ∈ r.branches, hash ∈ (r.log name).map Commit.hash

/-- The hashes of all commits are those in the logs of the branches. -/
theorem mem_hashes_allCommits : hash ∈ r.allCommits.map Commit.hash ↔ r.Live hash := by
  rw [allCommits, mem_hashes_firstWithHash, List.map_flatMap, List.mem_flatMap]
  exact and_iff_right List.not_mem_nil

/-- All commits depend on the branches and the logs only. -/
theorem allCommits_congr (branches : r'.branches = r.branches) (logs : r'.logs = r.logs) :
    r'.allCommits = r.allCommits := by
  rw [allCommits, branches, funext (log_congr logs), allCommits]

theorem flatMap_log_congr {names : List String} (same : ∀ name ∈ names, r'.log name = r.log name) :
    names.flatMap r'.log = names.flatMap r.log := by
  rw [List.flatMap_def, List.flatMap_def, List.map_congr_left same]

/-- A commit with a new hash at the end of the current log is put in at one place. -/
theorem allCommits_append_one (distinct : r.branches.Nodup) (known : r.current ∈ r.branches)
    (new : ¬ r.Live c.hash) :
    ∃ front back, r.allCommits = front ++ back ∧
      (r.append [c]).allCommits = front ++ c :: back := by
  obtain ⟨before, behind, split⟩ := List.append_of_mem known
  have other : ∀ name ∈ before ++ behind, (r.append [c]).log name = r.log name := by
    intro name h
    rw [split] at distinct
    have away : name ≠ r.current := by
      rintro rfl
      exact List.Nodup.notMem (List.nodup_middle.mp distinct) h
    rw [log_append, if_neg away]
  have walk : r.branches.flatMap r.log =
      before.flatMap r.log ++ r.log r.current ++ behind.flatMap r.log := by
    rw [split, List.flatMap_append, List.flatMap_cons, List.append_assoc]
  have walk' : (r.append [c]).branches.flatMap (r.append [c]).log =
      before.flatMap r.log ++ r.log r.current ++ c :: behind.flatMap r.log := by
    have front := flatMap_log_congr fun name h => other name (List.mem_append_left behind h)
    have back := flatMap_log_congr fun name h => other name (List.mem_append_right before h)
    change r.branches.flatMap _ = _
    rw [split, List.flatMap_append, List.flatMap_cons, front, back, log_append, if_pos rfl]
    simp [currentLog]
  have absent : ∀ commits : List Commit, commits ⊆ r.branches.flatMap r.log →
      c.hash ∉ commits.map Commit.hash := by
    intro commits part held
    rw [← mem_hashes_allCommits, allCommits, mem_hashes_firstWithHash] at new
    exact new ⟨List.not_mem_nil, List.map_subset Commit.hash part held⟩
  rw [walk] at absent
  rw [allCommits, allCommits, walk, walk']
  exact firstWithHash_insert _ (absent _ (List.subset_append_left _ _))
    (absent _ (List.subset_append_right _ _))

/-- A new branch repeats what the walk has met. -/
theorem allCommits_fork (known : r.current ∈ r.branches) (fresh : name ∉ r.branches) :
    (r.fork name).allCommits = r.allCommits := by
  have same : r.branches.flatMap (r.fork name).log = r.branches.flatMap r.log := by
    refine flatMap_log_congr fun other h => ?_
    rw [log_fork, if_neg]
    rintro rfl
    exact fresh h
  have copy : (r.fork name).log name = r.currentLog := (log_fork r name name).trans (if_pos rfl)
  have walk : (r.fork name).branches.flatMap (r.fork name).log =
      r.branches.flatMap r.log ++ r.currentLog := by
    change (r.branches ++ [name]).flatMap _ = _
    rw [List.flatMap_append, List.flatMap_singleton, same, copy]
  have nothing : firstWithHash ((r.branches.flatMap r.log).map Commit.hash) r.currentLog = [] := by
    refine firstWithHash_eq_nil fun c held => ?_
    exact List.mem_map_of_mem (List.mem_flatMap.mpr ⟨r.current, known, held⟩)
  rw [allCommits, allCommits, walk, firstWithHash_append, List.append_nil, nothing,
    List.append_nil]

/-- Without a branch, the hashes in the logs of the others stay. -/
theorem live_erase (distinct : r.branches.Nodup) (branches : r'.branches = r.branches.erase name)
    (logs : r'.logs = r.logs) :
    r'.Live hash ↔
      ∃ other ∈ r.branches, other ≠ name ∧ hash ∈ (r.log other).map Commit.hash := by
  simp only [Live, branches, distinct.mem_erase_iff, log_congr logs]
  constructor
  · rintro ⟨other, ⟨away, live⟩, held⟩
    exact ⟨other, live, away, held⟩
  · rintro ⟨other, live, away, held⟩
    exact ⟨other, ⟨away, live⟩, held⟩

end Repository

/-- Deleting a branch takes its name from the branches and keeps all logs. -/
theorem Transition.deleted {σ : Type} [Entropy σ] {compile : PatternCompiler}
    {r r' : Repository} {e e' : σ} {name : String}
    (t : Transition compile r e (.branch (.delete name)) r' e') :
    r'.branches = r.branches.erase name ∧ r'.logs = r.logs := by
  cases t with
  | report quiet => cases quiet
  | delete => exact ⟨rfl, rfl⟩

namespace Session

variable {σ : Type} [Entropy σ]

/-- The list of all commits, in every state of a session, whatever hashes are drawn. No two of
its hashes are equal, and they are the hashes in the logs of the branches. It holds the commits
at those places of the walk over all branches at which a hash is met for the first time, in
their order. Making a commit with a hash that no branch holds puts that commit in at one place,
creating a branch changes nothing, and deleting one takes away the hashes that no other branch
holds. -/
theorem all_commits_first_met (compile : PatternCompiler) (settings : Settings) (entropy : σ)
    (earlier : List Step) :
    let s := (startWith compile settings entropy).run earlier
    let r := s.repository
    let walk := r.branches.flatMap r.log
    (r.allCommits.map Commit.hash).Nodup ∧
    (∀ hash, hash ∈ r.allCommits.map Commit.hash ↔
      ∃ name ∈ r.branches, hash ∈ (r.log name).map Commit.hash) ∧
    (∃ places : List Nat, places.Pairwise (· < ·) ∧ (∀ i, i ∈ places ↔ FirstAt walk i) ∧
      r.allCommits.map some = places.map fun i => walk[i]?) ∧
    ∀ step, let r' := (s.step step).repository
      (∀ command c, s.Makes step command c →
        (∀ name ∈ r.branches, c.hash ∉ (r.log name).map Commit.hash) →
          ∃ front back, r.allCommits = front ++ back ∧ r'.allCommits = front ++ c :: back) ∧
      (∀ name, s.CarriesOut step (.branch (.create name)) ∨
          s.CarriesOut step (.checkout (.create name)) → r'.allCommits = r.allCommits) ∧
      ∀ name, s.CarriesOut step (.branch (.delete name)) →
        r'.allCommits.map Commit.hash ⊆ r.allCommits.map Commit.hash ∧
        ∀ hash ∈ r.allCommits.map Commit.hash, hash ∉ r'.allCommits.map Commit.hash ↔
          ∀ other ∈ r.branches, other ≠ name → hash ∉ (r.log other).map Commit.hash := by
  intro s r walk
  have w : r.WellFormed settings.seedCommit := wellFormed_run compile settings entropy earlier
  refine ⟨nodup_hashes_allCommits r, fun hash => mem_hashes_allCommits, exists_places walk,
    fun step => ?_⟩
  intro r'
  refine ⟨?_, ?_, ?_⟩
  · rintro command c ⟨done, made⟩ new
    obtain ⟨branches, logs⟩ := done.transition.made made
    obtain ⟨front, back, before, after⟩ := allCommits_append_one w.branches_nodup w.current_mem
      fun ⟨name, live, held⟩ => new name live held
    refine ⟨front, back, before, ?_⟩
    rw [← after]
    exact allCommits_congr branches logs
  · intro name created
    have forked : name ∉ r.branches ∧ r'.branches = (r.fork name).branches ∧
        r'.logs = (r.fork name).logs := by
      rcases created with done | done
      · exact done.transition.forked (Or.inl rfl)
      · exact done.transition.forked (Or.inr rfl)
    obtain ⟨fresh, branches, logs⟩ := forked
    rw [allCommits_congr branches logs]
    exact allCommits_fork w.current_mem fresh
  · intro name done
    obtain ⟨branches, logs⟩ := done.transition.deleted
    have kept : ∀ hash, hash ∈ r'.allCommits.map Commit.hash ↔
        ∃ other ∈ r.branches, other ≠ name ∧ hash ∈ (r.log other).map Commit.hash :=
      fun hash => mem_hashes_allCommits.trans (live_erase w.branches_nodup branches logs)
    constructor
    · intro hash h
      obtain ⟨other, live, _, held⟩ := (kept hash).mp h
      exact mem_hashes_allCommits.mpr ⟨other, live, held⟩
    · intro hash _
      rw [kept]
      simp only [not_exists, not_and]

/-- After a merge of diverged branches, a commit on the first of them is put in before the one
that only the second holds, and deleting the second takes away that one alone. -/
theorem all_commits_first_met_diverged :
    let earlier := [.execute "git checkout -b dev", .execute "git cherry-pick d1",
      .execute "git cherry-pick d2", .execute "git checkout main",
      .execute "git cherry-pick m1", .execute "git merge dev"]
    let s := (startWith (fun _ => none) Settings.standard Counter.zero).run earlier
    let deleted := (s.step (.execute "git branch -d dev")).repository
    s.repository.allCommits.map Commit.hash = ["a1b2c3d", "0000003", "0000002", "0000001"] ∧
      (∃ front back, s.repository.allCommits = front ++ back ∧
        (s.step (.execute "git cherry-pick m2")).repository.allCommits =
          front ++ ⟨"0000004", "Cherry-picked commit m2", "Unknown", []⟩ :: back) ∧
      "0000001" ∉ deleted.allCommits.map Commit.hash ∧
      "0000002" ∈ deleted.allCommits.map Commit.hash := by
  intro earlier s deleted
  have made : s.Makes (.execute "git cherry-pick m2") (.cherryPick "m2")
      ⟨"0000004", "Cherry-picked commit m2", "Unknown", []⟩ :=
    ⟨⟨"git cherry-pick m2", "[main 0000004] Cherry-picked commit m2", rfl, rfl,
      by decide +kernel⟩, by decide +kernel⟩
  have done : s.CarriesOut (.execute "git branch -d dev") (.branch (.delete "dev")) :=
    ⟨"git branch -d dev", "Deleted branch dev", rfl, rfl, by decide +kernel⟩
  have facts : s.repository.allCommits.map Commit.hash =
        ["a1b2c3d", "0000003", "0000002", "0000001"] ∧
      s.repository.branches = ["main", "dev"] ∧
      (s.repository.log "main").map Commit.hash = ["a1b2c3d", "0000003", "0000002"] ∧
      "0000004" ∉ (s.repository.log "dev").map Commit.hash := by
    decide +kernel
  obtain ⟨_, _, _, steps⟩ := all_commits_first_met (fun _ => none) Settings.standard
    Counter.zero earlier
  have here : (startWith (fun _ => none) Settings.standard Counter.zero).run earlier = s := rfl
  rw [here] at steps
  clear_value s
  obtain ⟨all, live, main, dev⟩ := facts
  have put := (steps (.execute "git cherry-pick m2")).1 _ _ made
  have gone := ((steps (.execute "git branch -d dev")).2.2 "dev" done).2
  rw [live] at put
  rw [all, live] at gone
  refine ⟨all, put fun name h => ?_, ?_, ?_⟩
  · rcases List.mem_pair.mp h with rfl | rfl
    · rw [main]
      decide
    · exact dev
  · refine (gone "0000001" (by decide)).mpr fun other h away => ?_
    obtain rfl := (List.mem_pair.mp h).resolve_right away
    rw [main]
    decide
  · by_contra none
    have alone := (gone "0000002" (by decide)).mp none "main" (by decide) (by decide)
    rw [main] at alone
    exact alone (by decide)

end Session

end GitTutor
