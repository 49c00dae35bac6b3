import GitTutor.Repository
import Mathlib.Data.List.Basic

/-!
# All commits

Walking several logs and keeping the first commit with each hash gives a list
without equal hashes. What a walk already holds only matters as a set, so the
walk over two lists is the walk over the first one followed by what is new in
the second one.
-/

namespace GitTutor.Repository

/-- Only which of the walked hashes were seen matters, not in which order or how often. -/
theorem firstWithHash_congr {seen seen' : List String} {commits : List Commit}
    (same : ∀ c ∈ commits, c.hash ∈ seen ↔ c.hash ∈ seen') :
    firstWithHash seen commits = firstWithHash seen' commits := by
  induction commits generalizing seen seen' with
  | nil => rfl
  | cons c rest ih =>
      have later : ∀ d ∈ rest, d.hash ∈ seen ↔ d.hash ∈ seen' :=
        fun d h => same d (List.mem_cons_of_mem c h)
      have now := same c List.mem_cons_self
      by_cases old : c.hash ∈ seen
      · rw [firstWithHash, firstWithHash, if_pos old, if_pos (now.mp old)]
        exact ih later
      · rw [firstWithHash, firstWithHash, if_neg old, if_neg (mt now.mpr old)]
        congr 1
        exact ih fun d h => by rw [List.mem_cons, List.mem_cons, later d h]

/-- A walk over two lists is the walk over the first and then over the second, which skips
what the first holds. -/
theorem firstWithHash_append (seen : List String) (front back : List Commit) :
    firstWithHash seen (front ++ back) =
      firstWithHash seen front ++ firstWithHash (front.map Commit.hash ++ seen) back := by
  induction front generalizing seen with
  | nil => rfl
  | cons c rest ih =>
      by_cases old : c.hash ∈ seen
      · rw [List.cons_append, firstWithHash, if_pos old, ih, firstWithHash, if_pos old]
        congr 1
        refine firstWithHash_congr fun d _ => ?_
        rw [List.map_cons, List.cons_append, List.mem_cons]
        constructor
        · exact Or.inr
        · rintro (same | found)
          · exact List.mem_append_right _ (same ▸ old)
          · exact found
      · rw [List.cons_append, firstWithHash, if_neg old, ih, firstWithHash, if_neg old,
          List.cons_append]
        congr 2
        refine firstWithHash_congr fun d _ => ?_
        rw [List.map_cons, List.cons_append, List.mem_cons, List.mem_append, List.mem_append,
          List.mem_cons, or_left_comm]

/-- From a list whose hashes differ, a walk keeps the commits with a hash that is new. -/
theorem firstWithHash_eq_filter {seen : List String} {commits : List Commit}
    (distinct : (commits.map Commit.hash).Nodup) :
    firstWithHash seen commits = commits.filter fun c => decide (c.hash ∉ seen) := by
  induction commits generalizing seen with
  | nil => rfl
  | cons c rest ih =>
      obtain ⟨alone, distinct⟩ := List.nodup_cons.mp distinct
      by_cases old : c.hash ∈ seen
      · rw [firstWithHash, if_pos old, ih distinct, List.filter_cons_of_neg (by simpa using old)]
      · rw [firstWithHash, if_neg old, ih distinct, List.filter_cons_of_pos (by simpa using old)]
        congr 1
        refine List.filter_congr fun d hd => ?_
        have other : d.hash ≠ c.hash := by
          intro same
          exact alone (same ▸ List.mem_map_of_mem hd)
        simp [other]

/-- What a walk keeps has none of the hashes that were seen. -/
theorem hash_notMem_of_mem_firstWithHash {seen : List String} {commits : List Commit}
    {c : Commit} (h : c ∈ firstWithHash seen commits) : c.hash ∉ seen := by
  induction commits generalizing seen with
  | nil => cases h
  | cons d rest ih =>
      rw [firstWithHash] at h
      split at h
      · exact ih h
      · rename_i new
        rcases List.mem_cons.mp h with rfl | h
        · exact new
        · exact fun old => ih h (List.mem_cons_of_mem d.hash old)

theorem nodup_hashes_firstWithHash (seen : List String) (commits : List Commit) :
    ((firstWithHash seen commits).map Commit.hash).Nodup := by
  induction commits generalizing seen with
  | nil => exact List.nodup_nil
  | cons c rest ih =>
      rw [firstWithHash]
      split
      · exact ih seen
      · refine List.nodup_cons.mpr ⟨fun again => ?_, ih (c.hash :: seen)⟩
        obtain ⟨d, kept, same⟩ := List.mem_map.mp again
        exact hash_notMem_of_mem_firstWithHash kept (same ▸ List.mem_cons_self)

/-- A walk shows the hashes that are new. -/
theorem mem_hashes_firstWithHash {seen : List String} {commits : List Commit} {hash : String} :
    hash ∈ (firstWithHash seen commits).map Commit.hash ↔
      hash ∉ seen ∧ hash ∈ commits.map Commit.hash := by
  induction commits generalizing seen with
  | nil => simp [firstWithHash]
  | cons c rest ih =>
      by_cases old : c.hash ∈ seen
      · rw [firstWithHash, if_pos old, ih, List.map_cons, List.mem_cons]
        constructor
        · exact fun ⟨new, later⟩ => ⟨new, Or.inr later⟩
        · rintro ⟨new, same | later⟩
          · exact absurd (same ▸ old) new
          · exact ⟨new, later⟩
      · rw [firstWithHash, if_neg old, List.map_cons, List.map_cons, List.mem_cons,
          List.mem_cons, ih, List.mem_cons, not_or]
        constructor
        · rintro (same | ⟨⟨_, new⟩, later⟩)
          · exact ⟨same ▸ old, Or.inl same⟩
          · exact ⟨new, Or.inr later⟩
        · rintro ⟨new, same | later⟩
          · exact Or.inl same
          · by_cases same : hash = c.hash
            · exact Or.inl same
            · exact Or.inr ⟨⟨same, new⟩, later⟩

/-- A walk over commits that were all seen shows nothing. -/
theorem firstWithHash_eq_nil {seen : List String} {commits : List Commit}
    (old : ∀ c ∈ commits, c.hash ∈ seen) : firstWithHash seen commits = [] := by
  rw [List.eq_nil_iff_forall_not_mem]
  intro c kept
  have shown := mem_hashes_firstWithHash.mp (List.mem_map_of_mem kept)
  obtain ⟨d, within, same⟩ := List.mem_map.mp shown.2
  exact shown.1 (same ▸ old d within)

/-- A commit with a hash that the walk does not meet otherwise is put in at its place. -/
theorem firstWithHash_insert (front : List Commit) {c : Commit} {back : List Commit}
    (before : c.hash ∉ front.map Commit.hash) (behind : c.hash ∉ back.map Commit.hash) :
    ∃ earlier later, firstWithHash [] (front ++ back) = earlier ++ later ∧
      firstWithHash [] (front ++ c :: back) = earlier ++ c :: later := by
  refine ⟨_, _, firstWithHash_append [] front back, ?_⟩
  rw [firstWithHash_append, firstWithHash, if_neg (by rwa [List.append_nil])]
  congr 2
  refine firstWithHash_congr fun d within => ?_
  have other : d.hash ≠ c.hash := by
    intro same
    exact behind (same ▸ List.mem_map_of_mem within)
  rw [List.mem_cons]
  exact or_iff_right other

/-- No two of all commits have the same hash. -/
theorem nodup_hashes_allCommits (r : Repository) : (r.allCommits.map Commit.hash).Nodup :=
  nodup_hashes_firstWithHash [] _

end GitTutor.Repository
