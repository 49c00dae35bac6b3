import GitTutor.Proofs.HistoryTree
import GitTutor.Proofs.LogSlices
import Mathlib.Data.Nat.Find

/-!
# The newest of all commits

A branch owns the commits of its log that no branch created before it has. The walk over all
branches ends with the newest commit that is owned by the last branch that owns any. That is
the newest commit of this branch, unless a merge has put a commit of an earlier branch behind
those that it owns. A merge that moves a branch forward never does so.
-/

namespace GitTutor

open Repository Text

namespace Repository

/-- The commits of a branch that none of the earlier branches has, oldest first. -/
def own (r : Repository) (earlier : List String) (branch : String) : List Commit :=
  (r.log branch).filter fun c => decide (∀ name ∈ earlier, c ∉ r.log name)

/-- The branch at an index in the order of creation has commits that no branch created before
it has. -/
structure Owner (r : Repository) (i : Nat) (branch : String) : Prop where
  found : r.branches[i]? = some branch
  owns : r.own (r.branches.take i) branch ≠ []

/-- An owner that was created after all others. -/
structure LastOwner (r : Repository) (i : Nat) (branch : String) : Prop
    extends r.Owner i branch where
  last : ∀ j later, i < j → ¬ r.Owner j later

variable {r : Repository} {earlier : List String} {branch : String} {i : Nat} {c : Commit}

theorem mem_own :
    c ∈ r.own earlier branch ↔ c ∈ r.log branch ∧ ∀ name ∈ earlier, c ∉ r.log name := by
  rw [own, List.mem_filter, decide_eq_true_iff]

/-- The first branch owns its whole log, so some branch is the last that owns commits. -/
theorem WellFormed.exists_lastOwner {seed : Commit} (w : r.WellFormed seed) :
    ∃ i branch, r.LastOwner i branch := by
  classical
  have first : ∃ branch, r.Owner 0 branch := by
    obtain ⟨name, rest, split⟩ := List.exists_cons_of_ne_nil (List.ne_nil_of_mem w.current_mem)
    have live : name ∈ r.branches := split ▸ List.mem_cons_self
    have seeded : (r.log name).head? = some seed := w.head?_log (w.logged name live)
    have owned : seed ∈ r.own (r.branches.take 0) name :=
      mem_own.mpr ⟨List.mem_of_mem_head? seeded, fun _ none => by cases none⟩
    exact ⟨name, by rw [split]; rfl, List.ne_nil_of_mem owned⟩
  have bound : ∀ j, (∃ branch, r.Owner j branch) → j ≤ r.branches.length := by
    rintro j ⟨later, owner⟩
    exact Nat.le_of_lt (List.getElem?_eq_some_iff.mp owner.found).1
  obtain ⟨branch, owner⟩ :=
    Nat.findGreatest_spec (P := fun j => ∃ branch, r.Owner j branch) (bound 0 first) first
  refine ⟨_, branch, owner, fun j later beyond more => ?_⟩
  exact Nat.findGreatest_is_greatest beyond (bound j ⟨later, more⟩) ⟨later, more⟩

/-- The branch that was created last is the last owner if it owns commits. -/
theorem lastOwner_of_last (split : r.branches = earlier ++ [branch])
    (owns : r.own earlier branch ≠ []) : r.LastOwner earlier.length branch where
  found := by rw [split, List.getElem?_concat_length]
  owns := by rwa [split, List.take_left]
  last := by
    intro j later beyond owner
    have bound := (List.getElem?_eq_some_iff.mp owner.found).1
    rw [split, List.length_append, List.length_singleton] at bound
    omega

/-- What any branch holds is held by one that is not created after the last owner. -/
theorem LastOwner.covered (h : r.LastOwner i branch) {j : Nat} {later : String}
    (found : r.branches[j]? = some later) (held : c ∈ r.log later) :
    ∃ name ∈ r.branches.take (i + 1), c ∈ r.log name := by
  induction j using Nat.strongRecOn generalizing later with
  | ind j ih =>
      rcases Nat.lt_or_ge i j with beyond | within
      · -- The branch owns nothing, so a branch before it holds the commit, too.
        have shared : ¬ ∀ name ∈ r.branches.take j, c ∉ r.log name := by
          intro new
          have owned := List.ne_nil_of_mem (mem_own.mpr ⟨held, new⟩)
          exact h.last j later beyond ⟨found, owned⟩
        push Not at shared
        obtain ⟨name, before, held'⟩ := shared
        obtain ⟨k, found'⟩ := List.mem_iff_getElem?.mp before
        have less : k < j := by
          have bound := (List.getElem?_eq_some_iff.mp found').1
          rw [List.length_take] at bound
          omega
        rw [List.getElem?_take_of_lt less] at found'
        exact ih k less found' held'
      · refine ⟨later, List.mem_iff_getElem?.mpr ⟨j, ?_⟩, held⟩
        rwa [List.getElem?_take_of_lt (Nat.lt_succ_of_le within)]

section Unique

variable (unique : ∀ i j c d, r.Places i c → r.Places j d → c.hash = d.hash → i = j ∧ c = d)
include unique

/-- Where a hash names one commit, what a walk keeps of the next log is what its branch owns. -/
theorem firstWithHash_log_eq_own (earlier : List String) (branch : String) :
    firstWithHash ((earlier.flatMap r.log).map Commit.hash) (r.log branch) =
      r.own earlier branch := by
  rw [firstWithHash_eq_filter (nodup_hashes_log unique branch), own]
  refine List.filter_congr fun c held => decide_eq_decide.mpr ?_
  constructor
  · intro new name h shared
    exact new (List.mem_map_of_mem (List.mem_flatMap.mpr ⟨name, h, shared⟩))
  · intro new walked
    obtain ⟨d, shown, same⟩ := List.mem_map.mp walked
    obtain ⟨name, h, shared⟩ := List.mem_flatMap.mp shown
    obtain ⟨i, here⟩ := List.mem_iff_getElem?.mp held
    obtain ⟨j, there⟩ := List.mem_iff_getElem?.mp shared
    obtain ⟨_, rfl⟩ := unique j i d c ⟨name, there⟩ ⟨branch, here⟩ same
    exact new name h shared

/-- The list of all commits ends with what the last owner owns. -/
theorem LastOwner.allCommits_eq (h : r.LastOwner i branch) :
    ∃ front, r.allCommits = front ++ r.own (r.branches.take i) branch := by
  have split : r.branches.take (i + 1) = r.branches.take i ++ [branch] := by
    rw [List.take_add_one, h.found, Option.toList_some]
  have nothing : firstWithHash (((r.branches.take (i + 1)).flatMap r.log).map Commit.hash)
      ((r.branches.drop (i + 1)).flatMap r.log) = [] := by
    refine firstWithHash_eq_nil fun c walked => ?_
    obtain ⟨later, behind, held⟩ := List.mem_flatMap.mp walked
    obtain ⟨j, found⟩ := List.mem_iff_getElem?.mp (List.mem_of_mem_drop behind)
    exact List.mem_map_of_mem (List.mem_flatMap.mpr (h.covered found held))
  refine ⟨firstWithHash [] ((r.branches.take i).flatMap r.log), ?_⟩
  calc r.allCommits
    _ = firstWithHash [] ((r.branches.take (i + 1)).flatMap r.log ++
          (r.branches.drop (i + 1)).flatMap r.log) := by
      rw [allCommits, ← List.flatMap_append, List.take_append_drop]
    _ = firstWithHash [] ((r.branches.take i).flatMap r.log ++ r.log branch) := by
      rw [firstWithHash_append, List.append_nil, nothing, List.append_nil, split,
        List.flatMap_append, List.flatMap_singleton]
    _ = _ := by
      rw [firstWithHash_append, List.append_nil, firstWithHash_log_eq_own unique]

theorem LastOwner.getLast?_allCommits (h : r.LastOwner i branch) :
    r.allCommits.getLast? = (r.own (r.branches.take i) branch).getLast? := by
  obtain ⟨front, all⟩ := h.allCommits_eq unique
  rw [all, List.getLast?_append_of_ne_nil front h.owns]

/-- In a tree a branch that owns commits owns its newest one. -/
theorem TreeShaped.owns_newest (tree : r.TreeShaped) (owns : r.own earlier branch ≠ [])
    (newest : (r.log branch).getLast? = some c) : ∀ name ∈ earlier, c ∉ r.log name := by
  intro name h shared
  obtain ⟨older, log⟩ := List.getLast?_eq_some_iff.mp newest
  have whole : older ++ [c] <+: r.log branch := log ▸ List.prefix_rfl
  have here := getElem?_prefix_end whole
  obtain ⟨j, there⟩ := List.mem_iff_getElem?.mp shared
  obtain ⟨rfl, _⟩ := unique j older.length c c ⟨name, there⟩ ⟨branch, here⟩ rfl
  obtain ⟨d, owned⟩ := List.exists_mem_of_ne_nil _ owns
  obtain ⟨held, new⟩ := mem_own.mp owned
  -- A shared newest commit makes the whole log a start of the earlier one.
  have start := (tree branch name).prefix_transfer whole there
  rw [← log] at start
  exact new name h (start.subset held)

end Unique

/-- The newest owned commit is the newest one exactly if that is owned. -/
theorem getLast?_own_eq_iff (owns : r.own earlier branch ≠ []) :
    (r.own earlier branch).getLast? = (r.log branch).getLast? ↔
      ∀ c, (r.log branch).getLast? = some c → ∀ name ∈ earlier, c ∉ r.log name := by
  constructor
  · intro same c newest
    rw [← same] at newest
    exact (mem_own.mp (List.mem_of_getLast? newest)).2
  · intro owned
    obtain ⟨d, within⟩ := List.exists_mem_of_ne_nil _ owns
    obtain ⟨older, c, log⟩ := (List.eq_nil_or_concat (r.log branch)).resolve_left
      (List.ne_nil_of_mem (mem_own.mp within).1)
    rw [List.concat_eq_append] at log
    have newest : (r.log branch).getLast? = some c := by rw [log, List.getLast?_concat]
    have kept := decide_eq_true (owned c newest)
    rw [newest, own, List.getLast?_filter, log, List.reverse_concat]
    exact List.find?_cons_of_pos kept

end Repository

namespace Session

/-- The one-line log of all branches starts with the last one of all commits. -/
theorem execute_log_oneline {σ : Type} [Entropy σ] {s : Session σ} {line : String}
    {request : LogRequest} {c : Commit}
    (read : Command.ofLine (trimmed line) = .ok (.log request)) (all : request.all = true)
    (oneline : request.oneline = true) (shown : request.limit ≠ some 0)
    (known : request.branch.getD s.repository.current ∈ s.repository.branches)
    (newest : s.repository.allCommits.getLast? = some c) :
    ∃ more, s.execute line = s.note ⟨trimmed line, c.hash ++ " " ++ c.message ++ more, false⟩ ∧
      (more = "" ∨ ∃ lines, more = "\n" ++ lines) := by
  obtain ⟨older, log⟩ := List.getLast?_eq_some_iff.mp newest
  have layout : LogLayout.of request = .oneline := if_pos oneline
  have report := logReport_eq known
  simp only [all, if_true, layout] at report
  generalize text : request.limit.getD _ = limit at report
  have positive : limit ≠ 0 := by
    cases asked : request.limit with
    | none =>
        rw [asked] at text
        rw [← text]
        decide
    | some n =>
        rw [asked] at text shown
        exact fun zero => shown (by rw [← zero, ← text]; rfl)
  obtain ⟨n, rfl⟩ := Nat.exists_eq_succ_of_ne_zero positive
  have first : Repository.newest (n + 1) s.repository.allCommits = c :: older.reverse.take n := by
    rw [log, Repository.newest, List.reverse_concat, List.take_succ_cons]
  obtain ⟨more, start, lines⟩ := LogLayout.joined_cons .oneline c (older.reverse.take n)
  refine ⟨more, ?_, lines⟩
  have performed : s.perform (.log request) =
      .ok (s.shows (c.hash ++ " " ++ c.message ++ more)) := by
    rw [perform, report, Nat.succ_eq_add_one, first, LogLayout.page_of_ne_full (by decide), start]
    rfl
  exact execute_of_perform read performed

/-- With a counter that draws fewer hashes than there are and never the seed's, some branch is
the last that owns commits, and the last of all commits is the newest one that it owns. This
one is at the top of a one-line log of all branches. It is the newest commit of the branch
exactly if no earlier branch has that one, and so it is if every merge goes forward. -/
theorem newest_of_all_commits (compile : PatternCompiler) (settings : Settings)
    (steps : List Step)
    (room : (startWith compile settings Counter.zero).drawsOfRun steps < 36 ^ 7)
    (apart : settings.seedHash ∉ Entropy.firstHashes
      ((startWith compile settings Counter.zero).drawsOfRun steps) Counter.zero) :
    let s := (startWith compile settings Counter.zero).run steps
    let r := s.repository
    (∃ i branch, r.LastOwner i branch) ∧
    ∀ i branch, r.LastOwner i branch →
      (∃ c, r.allCommits.getLast? = some c ∧
        (r.own (r.branches.take i) branch).getLast? = some c ∧
        ∀ line request, Command.ofLine (trimmed line) = .ok (.log request) →
          request.all = true → request.oneline = true → request.limit ≠ some 0 →
          request.branch.getD r.current ∈ r.branches →
          ∃ more, s.execute line =
              s.note ⟨trimmed line, c.hash ++ " " ++ c.message ++ more, false⟩ ∧
            (more = "" ∨ ∃ lines, more = "\n" ++ lines)) ∧
      (r.allCommits.getLast? = (r.log branch).getLast? ↔
        ∀ c, (r.log branch).getLast? = some c → ∀ name ∈ r.branches.take i, c ∉ r.log name) ∧
      ((startWith compile settings Counter.zero).EveryStep steps MergesForward →
        r.allCommits.getLast? = (r.log branch).getLast?) := by
  intro s r
  have w : r.WellFormed settings.seedCommit :=
    wellFormed_run compile settings Counter.zero steps
  have identified := identified_of_run room apart
  refine ⟨w.exists_lastOwner, fun i branch h => ?_⟩
  have last := h.getLast?_allCommits identified.unique
  have exact_if := getLast?_own_eq_iff h.owns
  rw [← last] at exact_if
  refine ⟨?_, exact_if, fun forward => exact_if.mpr fun c newest => ?_⟩
  · obtain ⟨c, owned⟩ := Option.isSome_iff_exists.mp (List.getLast?_isSome.mpr h.owns)
    have newest : r.allCommits.getLast? = some c := last.trans owned
    exact ⟨c, newest, owned, fun line request read all oneline shown known =>
      execute_log_oneline read all oneline shown known newest⟩
  · have tree : r.TreeShaped := treeShaped_run steps (TreeShaped.fresh settings)
      (Identified.start compile settings) (distinct_of_run room apart) forward
    exact tree.owns_newest identified.unique h.owns newest

/-- Without merges the newest commit of `dev` is listed last and shown first, although `main`
has a commit that was made later. -/
theorem newest_of_all_commits_diverged :
    let start := startWith (fun _ => none) Settings.standard Counter.zero
    let steps := [.execute "git checkout -b dev", .execute "git cherry-pick d1",
      .execute "git checkout main", .execute "git cherry-pick m1"]
    let s := start.run steps
    start.EveryStep steps MergesForward ∧ s.repository.LastOwner 1 "dev" ∧
      s.repository.allCommits.getLast? = (s.repository.log "dev").getLast? ∧
      ∃ more, s.execute "git log --all --oneline" =
        s.note ⟨"git log --all --oneline", "0000001 Cherry-picked commit d1" ++ more, false⟩ := by
  intro start steps s
  have forward : start.EveryStep steps MergesForward := by
    refine everyStep_cons.mpr ⟨mergesForward_of_read rfl (by rintro _ ⟨⟩), ?_⟩
    refine everyStep_cons.mpr ⟨mergesForward_of_read rfl (by rintro _ ⟨⟩), ?_⟩
    refine everyStep_cons.mpr ⟨mergesForward_of_read rfl (by rintro _ ⟨⟩), ?_⟩
    exact everyStep_cons.mpr ⟨mergesForward_of_read rfl (by rintro _ ⟨⟩), everyStep_nil⟩
  have count : start.drawsOfRun steps = 2 := by decide +kernel
  have room : start.drawsOfRun steps < 36 ^ 7 := by
    rw [count]
    decide
  have apart : Settings.standard.seedHash ∉
      Entropy.firstHashes (start.drawsOfRun steps) Counter.zero := by
    rw [count]
    decide +kernel
  have facts : s.repository.branches = ["main"] ++ ["dev"] ∧
      s.repository.current ∈ s.repository.branches ∧
      s.repository.own ["main"] "dev" = [⟨"0000001", "Cherry-picked commit d1", "Unknown", []⟩] := by
    decide +kernel
  obtain ⟨_, newest⟩ := newest_of_all_commits (fun _ => none) Settings.standard steps room apart
  have here : (startWith (fun _ => none) Settings.standard Counter.zero).run steps = s := rfl
  rw [here] at newest
  clear_value s
  obtain ⟨live, known, owned⟩ := facts
  have owner : s.repository.LastOwner 1 "dev" := by
    refine lastOwner_of_last live ?_
    rw [owned]
    exact List.cons_ne_nil _ _
  obtain ⟨⟨c, _, last, shown⟩, _, documented⟩ := newest 1 "dev" owner
  have front : (["main"] ++ ["dev"]).take 1 = ["main"] := rfl
  rw [live, front, owned] at last
  cases last
  obtain ⟨more, printed, _⟩ := shown "git log --all --oneline" ⟨true, false, true, none, none⟩
    (by decide +kernel) rfl rfl (by decide) known
  exact ⟨forward, owner, documented forward, more, printed⟩

/-- After a merge that puts a commit of `main` behind the one that `dev` owns, the last of all
commits is not the newest one of `dev`, and neither is the first that is shown. -/
theorem newest_commit_not_listed_last :
    let start := startWith (fun _ => none) Settings.standard Counter.zero
    let steps := [.execute "git checkout -b dev", .execute "git cherry-pick d1",
      .execute "git checkout main", .execute "git cherry-pick m1",
      .execute "git cherry-pick m2", .execute "git checkout dev", .execute "git merge main"]
    let s := start.run steps
    start.drawsOfRun steps < 36 ^ 7 ∧
      Settings.standard.seedHash ∉ Entropy.firstHashes (start.drawsOfRun steps) Counter.zero ∧
      s.repository.LastOwner 1 "dev" ∧
      (s.repository.log "dev").getLast? =
        some ⟨"0000003", "Cherry-picked commit m2", "Unknown", []⟩ ∧
      s.repository.allCommits.getLast? ≠ (s.repository.log "dev").getLast? ∧
      s.execute "git log --all --oneline -1" = s.note
        ⟨"git log --all --oneline -1", "0000001 Cherry-picked commit d1", false⟩ := by
  intro start steps s
  have count : start.drawsOfRun steps = 3 := by decide +kernel
  have facts : s.repository.branches = ["main"] ++ ["dev"] ∧
      s.repository.own ["main"] "dev" ≠ [] ∧
      (s.repository.log "dev").getLast? =
        some ⟨"0000003", "Cherry-picked commit m2", "Unknown", []⟩ ∧
      s.repository.allCommits.getLast? ≠ (s.repository.log "dev").getLast? ∧
      s.repository.logReport ⟨true, false, true, some 1, none⟩ =
        .ok "0000001 Cherry-picked commit d1" := by
    decide +kernel
  rw [count]
  clear_value s
  obtain ⟨live, owns, newest, other, report⟩ := facts
  have performed : s.perform (.log ⟨true, false, true, some 1, none⟩) =
      .ok (s.shows "0000001 Cherry-picked commit d1") := by
    rw [perform, report]
    rfl
  exact ⟨by decide, by decide +kernel, lastOwner_of_last live owns, newest, other,
    execute_of_perform (by decide +kernel) performed⟩

end Session

end GitTutor
