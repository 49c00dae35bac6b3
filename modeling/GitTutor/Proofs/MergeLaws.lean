import GitTutor.Proofs.FeatureBranch
import Mathlib.Order.Bounds.Basic

/-!
# Laws of merging

A merge looks at the lengths of two logs only: behind the current log it puts what the other
one holds beyond that length. So the greater length is the one after it, a branch that was
merged has nothing more to bring, and several merges come to the greatest length of all,
whatever their order.
-/

namespace GitTutor

open Repository

namespace Repository

variable {r : Repository} {branch : String}

/-- The repository after a branch was merged. -/
def afterMerge (r : Repository) (branch : String) : Repository :=
  if r.incoming branch = [] then r else r.append (r.incoming branch)

/-- Only a longer log has commits to take over. -/
theorem incoming_eq_nil_iff :
    r.incoming branch = [] ↔ (r.log branch).length ≤ r.currentLog.length :=
  List.drop_eq_nil_iff

@[simp] theorem current_afterMerge (r : Repository) (branch : String) :
    (r.afterMerge branch).current = r.current := by
  unfold afterMerge
  split <;> rfl

@[simp] theorem branches_afterMerge (r : Repository) (branch : String) :
    (r.afterMerge branch).branches = r.branches := by
  unfold afterMerge
  split <;> rfl

/-- A merge writes logs only. -/
theorem afterMerge_eq (r : Repository) (branch : String) :
    r.afterMerge branch = { r with logs := (r.afterMerge branch).logs } := by
  unfold afterMerge
  split <;> rfl

/-- The current log is continued and every other log stays. -/
theorem log_afterMerge (r : Repository) (branch other : String) :
    (r.afterMerge branch).log other =
      if other = r.current then r.currentLog ++ r.incoming branch else r.log other := by
  unfold afterMerge
  split
  · rename_i none
    rw [none, List.append_nil]
    split
    · rename_i here
      rw [here]
      rfl
    · rfl
  · exact log_append r (r.incoming branch) other

theorem currentLog_afterMerge (r : Repository) (branch : String) :
    (r.afterMerge branch).currentLog = r.currentLog ++ r.incoming branch := by
  rw [currentLog, current_afterMerge, log_afterMerge, if_pos rfl]

/-- The greater length is the one after a merge. -/
theorem length_currentLog_afterMerge (r : Repository) (branch : String) :
    (r.afterMerge branch).currentLog.length =
      max r.currentLog.length (r.log branch).length := by
  rw [currentLog_afterMerge, List.length_append, incoming, List.length_drop]
  omega

/-- No log gets shorter. -/
theorem length_log_le_afterMerge (r : Repository) (branch other : String) :
    (r.log other).length ≤ ((r.afterMerge branch).log other).length := by
  rw [log_afterMerge]
  split
  · rename_i here
    rw [here, List.length_append]
    exact Nat.le_add_right _ _
  · exact Nat.le_refl _

/-- A branch that was merged has nothing more to bring. -/
theorem incoming_afterMerge (r : Repository) (branch : String) :
    (r.afterMerge branch).incoming branch = [] := by
  rw [incoming_eq_nil_iff, length_currentLog_afterMerge, log_afterMerge]
  split
  · rename_i here
    rw [here, incoming_current, List.append_nil]
    exact Nat.le_max_left _ _
  · exact Nat.le_max_right _ _

theorem afterMerge_of_nothing (none : r.incoming branch = []) : r.afterMerge branch = r :=
  if_pos none

/-- A repository stays as it is exactly if the merge has nothing to take over. -/
theorem afterMerge_eq_self_iff : r.afterMerge branch = r ↔ r.incoming branch = [] := by
  constructor
  · intro same
    have grown := currentLog_afterMerge r branch
    rw [same] at grown
    exact List.self_eq_append_right.mp grown
  · exact afterMerge_of_nothing

/-- There is nothing to take over from the current branch or from a log that is not longer. -/
theorem incoming_eq_nil_iff_or : r.incoming branch = [] ↔
    branch = r.current ∨ (r.log branch).length ≤ (r.log r.current).length := by
  constructor
  · exact fun none => Or.inr (incoming_eq_nil_iff.mp none)
  · rintro (rfl | short)
    · exact incoming_current r
    · exact incoming_eq_nil_iff.mpr short

/-- After several merges the current log is as long as the longest log that took part. -/
theorem isGreatest_length_afterMerges (r : Repository) (merged : List String) :
    IsGreatest {n | ∃ b ∈ r.current :: merged, (r.log b).length = n}
      ((merged.foldl afterMerge r).log r.current).length := by
  induction merged generalizing r with
  | nil =>
      constructor
      · exact ⟨r.current, List.mem_cons_self, rfl⟩
      · rintro n ⟨b, within, rfl⟩
        rw [List.mem_singleton.mp within]
        exact Nat.le_refl _
  | cons first rest ih =>
      have one : ((r.afterMerge first).log r.current).length =
          max (r.log r.current).length (r.log first).length := by
        have length := length_currentLog_afterMerge r first
        rwa [currentLog, current_afterMerge] at length
      -- The rest is merged into a log that is as long as the current and the first one.
      obtain ⟨⟨b, within, longest⟩, bound⟩ := ih (r.afterMerge first)
      rw [current_afterMerge] at within longest bound
      rw [List.foldl_cons]
      constructor
      · rw [← longest]
        by_cases here : b = r.current
        · subst here
          rw [one]
          rcases Nat.le_total (r.log first).length (r.log r.current).length with le | le
          · exact ⟨r.current, List.mem_cons_self, (Nat.max_eq_left le).symm⟩
          · exact ⟨first, List.mem_cons_of_mem _ List.mem_cons_self, (Nat.max_eq_right le).symm⟩
        · have later : b ∈ rest := (List.mem_cons.mp within).resolve_left here
          refine ⟨b, List.mem_cons_of_mem _ (List.mem_cons_of_mem _ later), ?_⟩
          rw [log_afterMerge, if_neg here]
      · have current := bound ⟨r.current, List.mem_cons_self, rfl⟩
        rw [one] at current
        rintro n ⟨c, within, rfl⟩
        rcases List.mem_cons.mp within with rfl | within
        · exact Nat.le_trans (Nat.le_max_left _ _) current
        · rcases List.mem_cons.mp within with rfl | within
          · exact Nat.le_trans (Nat.le_max_right _ _) current
          · calc (r.log c).length
              _ ≤ ((r.afterMerge first).log c).length := length_log_le_afterMerge r first c
              _ ≤ _ := bound ⟨c, List.mem_cons_of_mem _ within, rfl⟩

end Repository

namespace Handler

variable {r : Repository} {branch : String}

/-- Merging a branch that exists succeeds and counts the commits that it takes over. -/
theorem merge_run_of_known (known : branch ∈ r.branches) :
    (merge branch).run r =
      .ok (mergeText (r.incoming branch).length) (r.afterMerge branch) := by
  rw [merge_run, Repository.merge, if_pos (hasBranch_iff.mpr known), afterMerge]
  by_cases none : r.incoming branch = []
  · rw [if_pos (Or.inr none), if_pos none, none]
    rfl
  · have other : branch ≠ r.current := by
      rintro rfl
      exact none (incoming_current r)
    rw [if_neg (not_or.mpr ⟨other, none⟩), if_neg none, mergeText,
      if_neg (mt List.length_eq_zero_iff.mp none)]
    rfl

/-- Merging branches that exist, one after the other, succeeds. -/
theorem merges_run_of_known {merged : List String} (known : merged ⊆ r.branches) :
    ∃ texts, (merged.mapM merge).run r = .ok texts (merged.foldl afterMerge r) := by
  induction merged generalizing r with
  | nil => exact ⟨[], rfl⟩
  | cons first rest ih =>
      have now := merge_run_of_known (known List.mem_cons_self)
      have still : rest ⊆ (r.afterMerge first).branches := by
        rw [branches_afterMerge]
        exact List.subset_of_cons_subset known
      obtain ⟨texts, later⟩ := ih still
      refine ⟨mergeText (r.incoming first).length :: texts, ?_⟩
      rw [List.mapM_cons, EStateM.run_bind, now]
      simp [later]

/-- Laws of merging, in every repository. Merging a branch that exists puts the part of its log
beyond the current length behind the current log and leaves everything else alone, so the
greater length is the one after it. It changes nothing and says so exactly if the branch is the
current one or its log is not longer, and otherwise the number that it prints is the growth of
the log. Merging the branch again changes nothing, and if its log continues the current one, the
two are equal afterwards. Several branches can be merged one after the other, and then the
current log is as long as the longest log that took part, whatever the order. -/
theorem merge_laws (r : Repository) :
    (∀ branch ∈ r.branches, ∃ text after, (merge branch).run r = .ok text after ∧
      after = { r with logs := after.logs } ∧
      (∀ other, other ≠ r.current → after.log other = r.log other) ∧
      after.log r.current =
        r.log r.current ++ (r.log branch).drop (r.log r.current).length ∧
      (after.log r.current).length =
        max (r.log r.current).length (r.log branch).length ∧
      (after = r ∧ text = "Already up to date." ↔
        branch = r.current ∨ (r.log branch).length ≤ (r.log r.current).length) ∧
      (¬ (branch = r.current ∨ (r.log branch).length ≤ (r.log r.current).length) →
        text = "Merge made by the 'recursive' strategy.\n " ++
          Nat.repr ((after.log r.current).length - (r.log r.current).length) ++
            " commit(s) merged") ∧
      (merge branch).run after = .ok "Already up to date." after ∧
      (r.log r.current <+: r.log branch → after.log r.current = r.log branch)) ∧
    ∀ merged, merged ⊆ r.branches → ∃ texts after,
      (merged.mapM merge).run r = .ok texts after ∧
      IsGreatest {n | ∃ b ∈ r.current :: merged, (r.log b).length = n}
        (after.log r.current).length ∧
      ∀ others : List String, (∀ b, b ∈ others ↔ b ∈ merged) → ∃ texts' after',
        (others.mapM merge).run r = .ok texts' after' ∧
        (after'.log r.current).length = (after.log r.current).length := by
  constructor
  · intro branch known
    have current := currentLog_afterMerge r branch
    have length := length_currentLog_afterMerge r branch
    rw [currentLog, current_afterMerge] at current length
    refine ⟨_, _, merge_run_of_known known, afterMerge_eq r branch, ?_, current, length,
      ?_, ?_, ?_, ?_⟩
    · intro other away
      rw [log_afterMerge, if_neg away]
    · rw [← incoming_eq_nil_iff_or]
      constructor
      · exact fun same => afterMerge_eq_self_iff.mp same.1
      · intro none
        refine ⟨afterMerge_of_nothing none, ?_⟩
        rw [none]
        rfl
    · intro more
      have growth : (r.incoming branch).length =
          ((r.afterMerge branch).log r.current).length - (r.log r.current).length := by
        rw [current, List.length_append]
        exact (Nat.add_sub_cancel_left ..).symm
      rw [← incoming_eq_nil_iff_or] at more
      rw [mergeText, if_neg (mt List.length_eq_zero_iff.mp more), growth]
    · have known' : branch ∈ (r.afterMerge branch).branches := by
        rw [branches_afterMerge]
        exact known
      rw [merge_run_of_known known', incoming_afterMerge,
        afterMerge_of_nothing (incoming_afterMerge r branch)]
      rfl
    · intro forward
      rw [current]
      exact append_incoming forward
  · intro merged known
    obtain ⟨texts, done⟩ := merges_run_of_known known
    have greatest := isGreatest_length_afterMerges r merged
    refine ⟨texts, _, done, greatest, fun others same => ?_⟩
    obtain ⟨texts', done'⟩ := merges_run_of_known fun b h => known ((same b).mp h)
    have greatest' := isGreatest_length_afterMerges r others
    have alike : ∀ b, b ∈ r.current :: others ↔ b ∈ r.current :: merged := by
      intro b
      rw [List.mem_cons, List.mem_cons, same]
    simp only [alike] at greatest'
    exact ⟨texts', _, done', greatest'.unique greatest⟩

/-- A merge into a diverged log takes over one commit, and merges in another order and with
a repetition end with a log of the same length. -/
theorem merge_laws_diverged :
    let r := ((Session.startWith (fun _ => none) Settings.standard Counter.zero).run
      [.execute "git checkout -b dev", .execute "git cherry-pick d1",
        .execute "git checkout -b third", .execute "git cherry-pick t1",
        .execute "git cherry-pick t2", .execute "git checkout main",
        .execute "git cherry-pick m1", .execute "git cherry-pick m2",
        .execute "git checkout dev"]).repository
    (∃ after, (merge "main").run r =
        .ok "Merge made by the 'recursive' strategy.\n 1 commit(s) merged" after ∧
      (after.log "dev").map Commit.hash = ["a1b2c3d", "0000001", "0000005"] ∧
      (merge "main").run after = .ok "Already up to date." after) ∧
    ∃ texts after texts' after',
      (["main", "dev", "third"].mapM merge).run r = .ok texts after ∧
      (["third", "main", "dev", "main"].mapM merge).run r = .ok texts' after' ∧
      (after.log "dev").length = 4 ∧ (after'.log "dev").length = 4 := by
  intro r
  have facts : r.current = "dev" ∧ r.branches = ["main", "dev", "third"] ∧
      (r.log "dev").map Commit.hash = ["a1b2c3d", "0000001"] ∧
      (r.log "main").map Commit.hash = ["a1b2c3d", "0000004", "0000005"] ∧
      (r.log "third").length = 4 := by
    decide +kernel
  clear_value r
  obtain ⟨here, live, dev, main, four⟩ := facts
  have two : (r.log "dev").length = 2 := by
    rw [← List.length_map, dev]
    rfl
  have three : (r.log "main").length = 3 := by
    rw [← List.length_map, main]
    rfl
  obtain ⟨one, several⟩ := merge_laws r
  rw [here, live] at one several
  constructor
  · obtain ⟨text, after, done, _, _, grown, length, _, number, again, _⟩ :=
      one "main" (by decide)
    rw [two, three] at length number
    rw [length] at number
    rw [number (by decide)] at done
    refine ⟨after, done, ?_, again⟩
    rw [grown, two, List.map_append, List.map_drop, dev, main]
    rfl
  · obtain ⟨texts, after, done, greatest, alike⟩ :=
      several ["main", "dev", "third"] (List.Subset.refl _)
    have members : ∀ b, b ∈ ["third", "main", "dev", "main"] ↔ b ∈ ["main", "dev", "third"] := by
      intro b
      simp only [List.mem_cons, List.not_mem_nil, or_false]
      constructor
      · rintro (rfl | rfl | rfl | rfl) <;> simp
      · rintro (rfl | rfl | rfl) <;> simp
    obtain ⟨texts', after', done', same⟩ := alike _ members
    have four' : IsGreatest {n | ∃ b ∈ ["dev", "main", "dev", "third"], (r.log b).length = n} 4 := by
      constructor
      · exact ⟨"third", by decide, four⟩
      · rintro n ⟨b, within, rfl⟩
        simp only [List.mem_cons, List.not_mem_nil, or_false] at within
        rcases within with rfl | rfl | rfl | rfl <;> omega
    have length := greatest.unique four'
    exact ⟨texts, after, texts', after', done, done', length, same.trans length⟩

end Handler

end GitTutor
