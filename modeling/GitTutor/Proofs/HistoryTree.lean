import GitTutor.Proofs.AllCommits
import GitTutor.Proofs.Placement
import GitTutor.Proofs.WellFormed
import Mathlib.Data.List.Induction
import Mathlib.Data.List.Nodup

/-!
# Histories as trees

As long as every merge that changes something only moves a branch forward, logs
that share a commit share everything before it. The walk over all branches then
meets every commit after those that precede it, so the order of each log is kept
in the list of all commits.
-/

namespace GitTutor

open Repository Text

section Lists

variable {α : Type}

/-- Lists that hold the same item at an index agree up to that index. -/
def Agree (l m : List α) : Prop :=
  ∀ (i : Nat) (c : α), l[i]? = some c → m[i]? = some c → ∀ j ≤ i, l[j]? = m[j]?

theorem Agree.refl (l : List α) : Agree l l := fun _ _ _ _ _ _ => rfl

theorem Agree.symm {l m : List α} (h : Agree l m) : Agree m l :=
  fun i c hm hl j le => (h i c hl hm j le).symm

/-- An item that the other list does not hold can be put at the end. -/
theorem Agree.append_new {l m : List α} {new : α} (h : Agree l m) (fresh : new ∉ m) :
    Agree (l ++ [new]) m := by
  intro i c hl hm j le
  have other : c ≠ new := by
    rintro rfl
    exact fresh (List.mem_of_getElem? hm)
  rcases Nat.lt_or_ge i l.length with within | beyond
  · rw [List.getElem?_append_left within] at hl
    rw [List.getElem?_append_left (Nat.lt_of_le_of_lt le within)]
    exact h i c hl hm j le
  · rw [List.getElem?_append_right beyond] at hl
    exact absurd (List.mem_singleton.mp (List.mem_of_getElem? hl)) other

theorem getElem?_prefix_end {l earlier : List α} {c : α} (before : earlier ++ [c] <+: l) :
    l[earlier.length]? = some c := by
  obtain ⟨later, rfl⟩ := before
  rw [List.append_assoc, List.getElem?_append_right (Nat.le_refl _), Nat.sub_self]
  rfl

/-- What leads to an item in one list leads to it in the other. -/
theorem Agree.prefix_transfer {l m earlier : List α} {c : α} (h : Agree l m)
    (before : earlier ++ [c] <+: l) (found : m[earlier.length]? = some c) :
    earlier ++ [c] <+: m := by
  have same := h earlier.length c (getElem?_prefix_end before) found
  refine List.prefix_iff_getElem?.mpr fun j hj => ?_
  have le : j ≤ earlier.length := by
    rw [List.length_append, List.length_singleton] at hj
    omega
  rw [← same j le]
  exact List.prefix_iff_getElem?.mp before j hj

/-- One item stands before another in a list. -/
def Precedes (l : List α) (a b : α) : Prop :=
  [a, b].Sublist l

/-- In a list without repetitions no two items stand before each other. -/
theorem Precedes.asymm {l : List α} (distinct : l.Nodup) {a b : α} (h : Precedes l a b) :
    ¬ Precedes l b a := by
  intro back
  unfold Precedes at h back
  induction l with
  | nil => cases h
  | cons c rest ih =>
      obtain ⟨alone, distinct⟩ := List.nodup_cons.mp distinct
      rcases List.cons_sublist_cons'.mp h with later | ⟨rfl, hb⟩
      · rcases List.cons_sublist_cons'.mp back with later' | ⟨rfl, _⟩
        · exact ih distinct later later'
        · exact alone (later.subset (List.mem_cons_of_mem a (List.mem_singleton.mpr rfl)))
      · rcases List.cons_sublist_cons'.mp back with later' | ⟨rfl, _⟩
        · exact alone (later'.subset (List.mem_cons_of_mem b (List.mem_singleton.mpr rfl)))
        · exact alone (List.singleton_sublist.mp hb)

/-- A list is kept in order when a test takes some of its items from the back, and what leads
to any other item stands in front already. -/
theorem sublist_append_filter {p : α → Bool} {front l : List α}
    (h : ∀ earlier c, earlier ++ [c] <+: l → p c = false → (earlier ++ [c]).Sublist front) :
    l.Sublist (front ++ l.filter p) := by
  induction l using List.reverseRecOn with
  | nil => exact List.nil_sublist _
  | append_singleton l c ih =>
      cases test : p c with
      | false => exact (h l c List.prefix_rfl test).trans (List.sublist_append_left _ _)
      | true =>
          have kept : [c].filter p = [c] := by simp [test]
          rw [List.filter_append, kept, ← List.append_assoc]
          refine List.Sublist.append (ih fun earlier d before => ?_) (List.Sublist.refl [c])
          exact h earlier d (before.trans (List.prefix_append l [c]))

end Lists

namespace Repository

/-- Logs that share a commit at an index share all that precedes it. -/
def TreeShaped (r : Repository) : Prop :=
  ∀ a b, Agree (r.log a) (r.log b)

variable {r r' : Repository}

theorem TreeShaped.fresh (settings : Settings) : (Repository.fresh settings).TreeShaped := by
  have empty : ∀ l : List Commit, Agree [] l := by
    intro l i c none
    cases none
  intro a b
  rw [log_fresh, log_fresh]
  split
  · split
    · exact Agree.refl _
    · exact (empty _).symm
  · exact empty _

/-- Logs that are copies of the logs of a tree form a tree. -/
theorem TreeShaped.of_copies (h : r.TreeShaped)
    (copies : ∀ name, ∃ source, r'.log name = r.log source) : r'.TreeShaped := by
  intro a b
  obtain ⟨source, same⟩ := copies a
  obtain ⟨source', same'⟩ := copies b
  rw [same, same']
  exact h source source'

theorem TreeShaped.of_logs (h : r.TreeShaped) (same : r'.logs = r.logs) : r'.TreeShaped :=
  h.of_copies fun name => ⟨name, log_congr same name⟩

theorem TreeShaped.fork (h : r.TreeShaped) (name : String) : (r.fork name).TreeShaped := by
  refine h.of_copies fun other => ?_
  rw [log_fork]
  split
  · exact ⟨r.current, rfl⟩
  · exact ⟨other, rfl⟩

/-- A merge into a log that the merged one continues makes the two equal. -/
theorem append_incoming {branch : String} (forward : r.currentLog <+: r.log branch) :
    r.currentLog ++ r.incoming branch = r.log branch := by
  obtain ⟨more, same⟩ := forward
  rw [incoming, ← same, List.drop_left]

theorem TreeShaped.merge (h : r.TreeShaped) {branch : String}
    (forward : r.currentLog <+: r.log branch) :
    (r.append (r.incoming branch)).TreeShaped := by
  refine h.of_copies fun other => ?_
  rw [log_append]
  split
  · exact ⟨branch, append_incoming forward⟩
  · exact ⟨other, rfl⟩

/-- A commit that no log holds can be put at the end of the current log. -/
theorem TreeShaped.record (h : r.TreeShaped) {new : Commit} (fresh : ∀ name, new ∉ r.log name) :
    (r.append [new]).TreeShaped := by
  intro a b
  rw [log_append, log_append]
  split
  · split
    · exact Agree.refl _
    · exact (h r.current b).append_new (fresh b)
  · split
    · exact ((h r.current a).append_new (fresh a)).symm
    · exact h a b

/-- Where a hash names one commit at one index, no log holds a hash twice. -/
theorem nodup_hashes_log
    (unique : ∀ i j c d, r.Places i c → r.Places j d → c.hash = d.hash → i = j ∧ c = d)
    (name : String) : ((r.log name).map Commit.hash).Nodup := by
  refine List.pairwise_map.mpr (List.pairwise_iff_getElem.mpr ?_)
  intro i j hi hj less same
  have equal := unique i j _ _ ⟨name, List.getElem?_eq_getElem hi⟩
    ⟨name, List.getElem?_eq_getElem hj⟩ same
  omega

/-- In a tree where a hash names one commit at one index, the walk over all branches lists
the commits of each of them in the order of its log. -/
theorem log_sublist_allCommits (tree : r.TreeShaped)
    (unique : ∀ i j c d, r.Places i c → r.Places j d → c.hash = d.hash → i = j ∧ c = d)
    {branch : String} (h : branch ∈ r.branches) : (r.log branch).Sublist r.allCommits := by
  unfold allCommits
  generalize r.branches = branches at h
  -- One branch after the other: what the last log shares with an earlier one leads up to it.
  induction branches using List.reverseRecOn generalizing branch with
  | nil => cases h
  | append_singleton front last ih =>
      rw [List.flatMap_append, List.flatMap_singleton, firstWithHash_append, List.append_nil]
      rcases List.mem_append.mp h with old | new
      · exact (ih old).trans (List.sublist_append_left _ _)
      · obtain rfl := List.mem_singleton.mp new
        rw [firstWithHash_eq_filter (nodup_hashes_log unique branch)]
        refine sublist_append_filter fun earlier c before seen => ?_
        have shared : c.hash ∈ (front.flatMap r.log).map Commit.hash := by simpa using seen
        obtain ⟨d, walked, same⟩ := List.mem_map.mp shared
        obtain ⟨other, ho, hd⟩ := List.mem_flatMap.mp walked
        obtain ⟨j, found⟩ := List.mem_iff_getElem?.mp hd
        have here := getElem?_prefix_end before
        obtain ⟨rfl, rfl⟩ := unique j earlier.length d c ⟨other, found⟩ ⟨branch, here⟩ same
        exact ((tree branch other).prefix_transfer before found).sublist.trans (ih ho)

/-- What stands before a commit in a log is not shown above it, newest commits first. -/
theorem not_precedes_newest {branch : String} (limit : Nat)
    (kept : (r.log branch).Sublist r.allCommits) {c d : Commit}
    (before : Precedes (r.log branch) c d) : ¬ Precedes (newest limit r.allCommits) c d := by
  intro above
  have reversed : Precedes r.allCommits.reverse c d := above.trans (List.take_sublist limit _)
  have back : Precedes r.allCommits d c := List.reverse_sublist.mp reversed
  exact Precedes.asymm (List.Nodup.of_map _ (nodup_hashes_allCommits r)) (before.trans kept) back

end Repository

namespace Session

section Merges

variable {σ : Type} [Entropy σ]

/-- A step that merges a branch changes nothing, or the merged log continues the current
one. -/
def MergesForward (s : Session σ) (step : Step) : Prop :=
  ∀ branch, s.CarriesOut step (.merge branch) →
    (s.step step).repository = s.repository ∨
      s.repository.currentLog <+: s.repository.log branch

/-- Only lines that are read as a merge need a look at the logs. -/
theorem mergesForward_of_read {s : Session σ} {line : String} {command : Command}
    (read : Command.ofLine (trimmed line) = .ok command)
    (forward : ∀ branch, command = .merge branch →
      s.repository.currentLog <+: s.repository.log branch) :
    s.MergesForward (.execute line) := by
  intro branch done
  exact Or.inr (forward branch (done.command_eq read).symm)

/-- A line that asks for the log of all branches prints some of the newest of all commits. -/
theorem execute_logAll {s : Session σ} {line : String} {request : LogRequest}
    (read : Command.ofLine (trimmed line) = .ok (.log request)) (all : request.all = true)
    (known : request.branch.getD s.repository.current ∈ s.repository.branches) :
    ∃ limit, s.execute line = s.note ⟨trimmed line,
      (LogLayout.of request).page (newest limit s.repository.allCommits), false⟩ := by
  have found := hasBranch_iff.mpr known
  let limit := request.limit.getD (LogLayout.of request).defaultLimit
  have performed : s.perform (.log request) =
      .ok (s.shows ((LogLayout.of request).page (newest limit s.repository.allCommits))) := by
    simp only [perform, logReport, found, all, if_true, Except.map, limit]
  exact ⟨limit, execute_of_perform read performed⟩

end Merges

variable {seed : String} {s : Session Counter}

/-- A step keeps the tree, as long as drawn hashes are distinct and merges go forward. -/
theorem treeShaped_step {step : Step} (tree : s.repository.TreeShaped)
    (identified : s.Identified seed) (clear : Distinct seed (s.step step).entropy.hashes)
    (forward : s.MergesForward step) : (s.step step).repository.TreeShaped := by
  rcases step_logs s step with same | ⟨command, done, change⟩
  · exact tree.of_logs same
  cases change with
  | keep same => exact tree.of_logs same
  | fork name _ _ _ copied => exact (tree.fork name).of_logs copied
  | record new _ drawn after grown =>
      rw [after] at clear
      refine (tree.record fun name held => ?_).of_logs grown
      obtain ⟨i, found⟩ := List.mem_iff_getElem?.mp held
      exact identified.fresh clear ⟨name, found⟩ drawn
  | merge branch asked more grown =>
      subst asked
      rcases forward branch done with nothing | ahead
      · rw [nothing] at grown
        have longer := log_congr grown s.repository.current
        rw [log_append, if_pos rfl] at longer
        exact absurd (List.self_eq_append_right.mp longer) more
      · exact (tree.merge ahead).of_logs grown

theorem treeShaped_run (steps : List Step) (tree : s.repository.TreeShaped)
    (identified : s.Identified seed) (clear : Distinct seed (s.run steps).entropy.hashes)
    (forward : s.EveryStep steps MergesForward) : (s.run steps).repository.TreeShaped := by
  induction steps generalizing s with
  | nil => exact tree
  | cons first rest ih =>
      obtain ⟨now, later⟩ := everyStep_cons.mp forward
      have before : Distinct seed (s.step first).entropy.hashes :=
        clear.mono (hashes_le_run (s.step first) rest)
      exact ih (treeShaped_step tree identified before now) (identified.step first before)
        clear later

/-- With a counter that draws fewer hashes than there are and never the seed's, and merges
that only go forward, the logs form a tree. All commits are then listed once each and in the
order of every branch's log, and a log of all branches never shows a commit above one that
comes later in the log of a branch. -/
theorem history_tree (compile : PatternCompiler) (settings : Settings) (steps : List Step)
    (room : (startWith compile settings Counter.zero).drawsOfRun steps < 36 ^ 7)
    (apart : settings.seedHash ∉ Entropy.firstHashes
      ((startWith compile settings Counter.zero).drawsOfRun steps) Counter.zero)
    (forward : (startWith compile settings Counter.zero).EveryStep steps MergesForward) :
    let s := (startWith compile settings Counter.zero).run steps
    let r := s.repository
    (∀ a ∈ r.branches, ∀ b ∈ r.branches, ∀ (i : Nat) (c : Commit), (r.log a)[i]? = some c →
      (r.log b)[i]? = some c → ∀ j ≤ i, (r.log a)[j]? = (r.log b)[j]?) ∧
    (r.allCommits.map Commit.hash).Nodup ∧
    (∀ b ∈ r.branches, (r.log b).Sublist r.allCommits) ∧
    ∀ line request, Command.ofLine (trimmed line) = .ok (.log request) → request.all = true →
      request.branch.getD r.current ∈ r.branches →
      ∃ limit, s.execute line = s.note ⟨trimmed line,
          (LogLayout.of request).page (newest limit r.allCommits), false⟩ ∧
        ∀ b ∈ r.branches, ∀ c d, Precedes (r.log b) c d →
          ¬ Precedes (newest limit r.allCommits) c d := by
  intro s r
  have start := Identified.start compile settings
  have identified := identified_of_run room apart
  have clear : Distinct settings.seedHash s.entropy.hashes := distinct_of_run room apart
  have tree : r.TreeShaped := treeShaped_run steps (TreeShaped.fresh settings) start clear forward
  have kept : ∀ b ∈ r.branches, (r.log b).Sublist r.allCommits :=
    fun b => log_sublist_allCommits tree identified.unique
  refine ⟨fun a _ b _ => tree a b, nodup_hashes_allCommits r, kept, ?_⟩
  intro line request read all known
  obtain ⟨limit, printed⟩ := execute_logAll read all known
  exact ⟨limit, printed, fun b hb c d => not_precedes_newest limit (kept b hb)⟩

/-- After a merge that moves `main` forward to `dev`, and one more commit, the list of all
commits holds `main` in order, and the logs agree below the commit that they share. -/
theorem history_tree_forward :
    let s := startWith (fun _ => none) Settings.standard Counter.zero
    let steps := [.execute "git checkout -b dev", .execute "git cherry-pick f00d",
      .execute "git checkout main", .execute "git merge dev", .execute "git cherry-pick beef"]
    let r := (s.run steps).repository
    s.EveryStep steps MergesForward ∧ (r.log "main").Sublist r.allCommits ∧
      (r.log "dev")[1]? = (r.log "main")[1]? ∧ (r.log "dev")[0]? = (r.log "main")[0]? := by
  intro s steps r
  have forward : s.EveryStep steps MergesForward := by
    refine everyStep_cons.mpr ⟨mergesForward_of_read rfl (by rintro _ ⟨⟩), ?_⟩
    refine everyStep_cons.mpr ⟨mergesForward_of_read rfl (by rintro _ ⟨⟩), ?_⟩
    refine everyStep_cons.mpr ⟨mergesForward_of_read rfl (by rintro _ ⟨⟩), ?_⟩
    refine everyStep_cons.mpr ⟨mergesForward_of_read rfl (fun branch asked => ?_), ?_⟩
    · obtain rfl := Command.merge.inj asked
      decide +kernel
    exact everyStep_cons.mpr ⟨mergesForward_of_read rfl (by rintro _ ⟨⟩), everyStep_nil⟩
  have count : s.drawsOfRun steps = 2 := by decide +kernel
  have apart : Settings.standard.seedHash ∉
      Entropy.firstHashes (s.drawsOfRun steps) Counter.zero := by
    rw [count]
    decide +kernel
  have room : s.drawsOfRun steps < 36 ^ 7 := by
    rw [count]
    decide
  have facts : "main" ∈ r.branches ∧ "dev" ∈ r.branches ∧
      (r.log "dev")[1]? = some ⟨"0000001", "Cherry-picked commit f00d", "Unknown", []⟩ ∧
      (r.log "main")[1]? = some ⟨"0000001", "Cherry-picked commit f00d", "Unknown", []⟩ := by
    decide +kernel
  obtain ⟨main, dev, inDev, inMain⟩ := facts
  obtain ⟨agree, _, kept, _⟩ := history_tree (fun _ => none) Settings.standard steps room apart
    forward
  have listed : (r.log "main").Sublist r.allCommits := kept "main" main
  have shared : (r.log "dev")[1]? = (r.log "main")[1]? := inDev.trans inMain.symm
  exact ⟨forward, listed, shared, agree "dev" dev "main" main 1 _ inDev inMain 0 (Nat.zero_le 1)⟩

end Session

end GitTutor
