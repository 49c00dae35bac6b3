import GitTutor.Proofs.BranchNames
import GitTutor.Proofs.HistoryTree

/-!
# Work on a feature branch

As long as nothing else is checked out and no branch is deleted, all work goes to
the log of the branch that was created for it, and the branch that it was created
from waits with the log that it had. That log is then still the start of the other
one, which is all that a merge by position needs to make the two equal.
-/

namespace GitTutor

open Repository Text

/-- Whether a command checks out some branch or deletes one. -/
def Command.leaves : Command → Bool
  | .checkout _ => true
  | .branch (.delete _) => true
  | _ => false

/-- Whether a step is a line that is read as a command that checks out some branch or deletes
one. -/
def Session.Step.leaves : Session.Step → Bool
  | .execute line =>
      match Command.ofLine (trimmed line) with
      | .ok command => command.leaves
      | .error _ => false
  | _ => false

section Staying

variable {σ : Type} [Entropy σ] {compile : PatternCompiler} {r r' : Repository} {e e' : σ}
  {command : Command}

/-- Only a checkout changes which branch is the current one. -/
theorem Transition.current_eq (t : Transition compile r e command r' e')
    (stays : command.leaves = false) : r'.current = r.current := by
  cases t with
  | branchOff => cases stays
  | switch => cases stays
  | _ => rfl

/-- Only a deletion takes a branch away. -/
theorem Transition.branches_subset (t : Transition compile r e command r' e')
    (stays : command.leaves = false) : r.branches ⊆ r'.branches := by
  cases t with
  | create => exact List.subset_append_left _ _
  | branchOff => cases stays
  | delete => cases stays
  | _ => exact List.Subset.refl _

end Staying

/-- The line that creates a branch and checks it out. -/
def branchOffLine (name : String) : String :=
  joinWith " " ["git", "checkout", "-b", name]

/-- What merging a number of commits prints. -/
def mergeText (count : Nat) : String :=
  if count = 0 then "Already up to date."
  else "Merge made by the 'recursive' strategy.\n " ++ Nat.repr count ++ " commit(s) merged"

/-- Merging a branch whose log continues the current one makes the current log equal to it. -/
theorem Repository.merge_forward {r : Repository} {branch : String} (live : branch ∈ r.branches)
    (forward : r.currentLog <+: r.log branch) :
    ∃ answer, r.merge branch = .ok answer ∧
      answer.1.current = r.current ∧
      answer.1.log r.current = r.log branch ∧
      answer.1.log branch = r.log branch ∧
      answer.2 = mergeText ((r.log branch).length - r.currentLog.length) := by
  have count : (r.incoming branch).length = (r.log branch).length - r.currentLog.length :=
    List.length_drop
  have whole := append_incoming forward
  rw [Repository.merge, if_pos (hasBranch_iff.mpr live), ← count]
  by_cases nothing : r.incoming branch = []
  · rw [nothing, List.append_nil] at whole
    refine ⟨_, if_pos (Or.inr nothing), rfl, whole, rfl, ?_⟩
    rw [nothing]
    rfl
  · have other : branch ≠ r.current := by
      rintro rfl
      exact nothing (incoming_current r)
    have some : (r.incoming branch).length ≠ 0 := mt List.length_eq_zero_iff.mp nothing
    refine ⟨_, if_neg (not_or.mpr ⟨other, nothing⟩), rfl, ?_, ?_, ?_⟩
    · rw [log_append, if_pos rfl, whole]
    · rw [log_append, if_neg other]
    · rw [mergeText, if_neg some]

namespace Session

variable {σ : Type} [Entropy σ] {s : Session σ}

/-- A step that does not leave keeps the current branch and all branches. -/
theorem stays_step {step : Step} (stays : step.leaves = false) :
    (s.step step).repository.current = s.repository.current ∧
      s.repository.branches ⊆ (s.step step).repository.branches := by
  have moves := step_moves s step
  generalize (s.step step).repository = r' at moves ⊢
  generalize (s.step step).entropy = e' at moves
  cases moves with
  | command done change =>
      obtain ⟨line, _, rfl, read, _⟩ := done
      simp only [Step.leaves, read] at stays
      exact ⟨change.current_eq stays, change.branches_subset stays⟩
  | _ => exact ⟨rfl, List.Subset.refl _⟩

/-- Along steps that do not leave, one branch stays the current one and all branches stay. -/
theorem throughout_stays {steps : List Step} {here : String} {known : List String}
    (current : s.repository.current = here) (live : known ⊆ s.repository.branches)
    (stays : ∀ step ∈ steps, step.leaves = false) :
    s.Throughout steps fun s => s.repository.current = here ∧ known ⊆ s.repository.branches := by
  induction steps generalizing s with
  | nil => exact throughout_nil.mpr ⟨current, live⟩
  | cons first rest ih =>
      obtain ⟨same, more⟩ := stays_step (s := s) (stays first List.mem_cons_self)
      refine throughout_cons.mpr ⟨⟨current, live⟩, ih (same.trans current) ?_ ?_⟩
      · exact List.Subset.trans live more
      · exact fun step h => stays step (List.mem_cons_of_mem first h)

/-- While the steps of some work do not leave the branch `b`, the log of another branch waits and
the log of `b` is continued. -/
theorem work_on_branch {work : List Step} {m b : String} (apart : m ≠ b)
    (current : s.repository.current = b) (live : [m, b] ⊆ s.repository.branches)
    (stays : ∀ step ∈ work, step.leaves = false) :
    [m, b] ⊆ (s.run work).repository.branches ∧
      (s.run work).repository.log m = s.repository.log m ∧
      s.repository.log b <+: (s.run work).repository.log b := by
  have throughout := throughout_stays current live stays
  refine ⟨(throughout work List.prefix_rfl).2, log_kept_run ?_, log_prefix_run ?_⟩
  · intro before h
    obtain ⟨here, there⟩ := throughout before h
    exact ⟨there List.mem_cons_self, fun same => apart (same.trans here)⟩
  · intro before h
    exact (throughout before h).2 (List.mem_cons_of_mem m (List.mem_singleton.mpr rfl))

/-- Creating a branch and checking it out copies the current log for it. -/
theorem execute_branchOff {b : String} (word : IsWord b.toList) (new : b ∉ s.repository.branches) :
    s.Reports (branchOffLine b) false ∧
      (s.execute (branchOffLine b)).repository = { s.repository.fork b with current := b } := by
  have words : ∀ w ∈ ["git", "checkout", "-b", b], IsWord w.toList := by
    simp only [List.mem_cons, List.not_mem_nil, or_false]
    rintro w (rfl | rfl | rfl | rfl)
    · decide
    · decide
    · decide
    · exact word
  have read : Command.ofLine (trimmed (branchOffLine b)) = .ok (.checkout (.create b)) := by
    rw [Command.ofLine, wordsOf_trimmed, branchOffLine, wordsOf_joinWith words]
    rfl
  have performed : s.perform (.checkout (.create b)) =
      .ok (s.becomes ({ s.repository.fork b with current := b },
        "Switched to a new branch '" ++ b ++ "'")) := by
    rw [perform, checkoutNew, if_neg (mt hasBranch_iff.mp new)]
    rfl
  refine ⟨reports_of_perform read performed, ?_⟩
  rw [execute_of_perform read performed]
  rfl

/-- Merging a branch whose log continues the current one, by its line. -/
theorem execute_merge {b : String} (word : IsWord b.toList) (plain : isFlag b = false)
    (live : b ∈ s.repository.branches)
    (forward : s.repository.currentLog <+: s.repository.log b) :
    (s.execute (targetLine "merge" b)).repository.current = s.repository.current ∧
      (s.execute (targetLine "merge" b)).repository.log s.repository.current =
        s.repository.log b ∧
      (s.execute (targetLine "merge" b)).repository.log b = s.repository.log b ∧
      (s.execute (targetLine "merge" b)).transcript = s.transcript ++
        [⟨trimmed (targetLine "merge" b),
          mergeText ((s.repository.log b).length - s.repository.currentLog.length), false⟩] := by
  obtain ⟨answer, merged, current, here, there, text⟩ := merge_forward live forward
  have performed : s.perform (.merge b) = .ok (s.becomes answer) := by
    rw [perform, merged]
    rfl
  rw [execute_of_perform (read_merge word plain) performed, ← text]
  exact ⟨current, here, there, rfl⟩

/-- Work on a feature branch ends in a merge that makes the two branches equal. From any state
of a session, create the branch `b` from the current branch `m`, take any steps that neither
check out nor delete a branch, go back to `m` and merge `b`. Nothing of that fails, `m` has
waited with its log, and afterwards its log is the one of `b`, which the merge has left alone;
the merge reports as many commits as `b` was ahead. -/
theorem feature_branch_merges (compile : PatternCompiler) (settings : Settings) (entropy : σ)
    (earlier work : List Step) {m b : String}
    (here : ((startWith compile settings entropy).run earlier).repository.current = m)
    (new : b ∉ ((startWith compile settings entropy).run earlier).repository.branches)
    (nameM : IsWord m.toList ∧ isFlag m = false) (nameB : IsWord b.toList ∧ isFlag b = false)
    (stays : ∀ step ∈ work, step.leaves = false) :
    let s := (startWith compile settings entropy).run earlier
    let created := s.execute (branchOffLine b)
    let worked := created.run work
    let back := worked.execute (targetLine "checkout" m)
    let merged := back.execute (targetLine "merge" b)
    s.Reports (branchOffLine b) false ∧ created.repository.current = b ∧
      created.repository.log b = s.repository.log m ∧
      worked.Reports (targetLine "checkout" m) false ∧ back.repository.current = m ∧
      back.repository.log m = s.repository.log m ∧
      back.repository.log b = worked.repository.log b ∧
      merged.repository.current = m ∧
      merged.repository.log m = merged.repository.log b ∧
      merged.repository.log b = back.repository.log b ∧
      merged.transcript = back.transcript ++ [⟨trimmed (targetLine "merge" b),
        mergeText ((back.repository.log b).length - (back.repository.log m).length), false⟩] := by
  have known := (wellFormed_run compile settings entropy earlier).current_mem
  rw [here] at known
  intro s created worked back merged
  obtain ⟨wordM, plainM⟩ := nameM
  obtain ⟨wordB, plainB⟩ := nameB
  have apart : m ≠ b := by
    rintro rfl
    exact new known
  obtain ⟨starts, forked⟩ := execute_branchOff wordB new
  have current : created.repository.current = b := by rw [forked]
  have copied : created.repository.log b = s.repository.log m := by
    rw [forked, ← here]
    exact (log_fork s.repository b b).trans (if_pos rfl)
  have kept : created.repository.log m = s.repository.log m := by
    rw [forked]
    exact (log_fork s.repository b m).trans (if_neg apart)
  have both : [m, b] ⊆ created.repository.branches := by
    rw [forked]
    intro name h
    rcases List.mem_pair.mp h with rfl | rfl
    · exact List.mem_append_left _ known
    · exact List.mem_append_right _ (List.mem_singleton.mpr rfl)
  obtain ⟨live, waited, grown⟩ := work_on_branch apart current both stays
  obtain ⟨goesBack, returned⟩ := execute_checkout wordM plainM (live List.mem_cons_self)
  have at_m : back.repository.current = m := by rw [returned]
  have main : back.repository.log m = s.repository.log m := by
    rw [returned]
    exact waited.trans kept
  have feature : back.repository.log b = worked.repository.log b := by
    rw [returned]
    rfl
  have there : b ∈ back.repository.branches := by
    rw [returned]
    exact live (List.mem_cons_of_mem m (List.mem_singleton.mpr rfl))
  have forward : back.repository.currentLog <+: back.repository.log b := by
    rw [currentLog, at_m, main, feature, ← copied]
    exact grown
  obtain ⟨stayed, equal, alone, reported⟩ := execute_merge wordB plainB there forward
  have ends : merged = back.execute (targetLine "merge" b) := rfl
  rw [← ends] at stayed equal alone reported
  rw [currentLog, at_m] at reported
  rw [at_m] at equal
  exact ⟨starts, current, copied, goesBack, at_m, main, feature, stayed.trans at_m,
    equal.trans alone.symm, alone, reported⟩

/-- Two commits and a merge of a third branch, on a feature branch with a line that fails. -/
theorem feature_branch_merges_third :
    let earlier := [.execute "git checkout -b third", .execute "git cherry-pick f00d",
      .execute "git cherry-pick f00d", .execute "git checkout main"]
    let s := (startWith (fun _ => none) Settings.standard Counter.zero).run earlier
    let work := [.execute "git cherry-pick beef", .execute "git merge third",
      .execute "git branch later", .execute "git add", .touch none, .execute "git commit -am done"]
    let back := ((s.execute (branchOffLine "feature")).run work).execute
      (targetLine "checkout" "main")
    let merged := back.execute (targetLine "merge" "feature")
    merged.repository.log "main" = merged.repository.log "feature" ∧
      merged.transcript.getLast?.map Entry.output =
        some "Merge made by the 'recursive' strategy.\n 3 commit(s) merged" := by
  intro earlier s work back merged
  have facts : (back.repository.log "feature").length - (back.repository.log "main").length = 3 := by
    decide +kernel
  obtain ⟨_, _, _, _, _, _, _, _, equal, _, reported⟩ := feature_branch_merges (fun _ => none)
    Settings.standard Counter.zero earlier work (m := "main") (b := "feature") (by decide +kernel)
    (by decide +kernel) (by decide) (by decide) (by decide +kernel)
  refine ⟨equal, ?_⟩
  rw [reported, facts, List.getLast?_concat]
  decide +kernel

end Session

end GitTutor
