import GitTutor.Proofs.Staging
import GitTutor.Proofs.TidyText
import Mathlib.Data.List.DropRight

/-!
# Laws of the stash

The stash is a stack: a step puts one entry on top, takes the top one off, empties it or
leaves it alone, so entries that are never uncovered never change. What is shelved comes
back as modified files, without repetitions, and the listing starts with the entry that
the next command acts on.
-/

namespace GitTutor

open Repository Text

section Stacks

variable {α : Type}

/-- What one step does to a stack, its top first. -/
inductive StackStep : List α → List α → Prop
  | keep (stack : List α) : StackStep stack stack
  | push (top : α) (stack : List α) : StackStep stack (top :: stack)
  | pop (top : α) (stack : List α) : StackStep (top :: stack) stack
  | clear (stack : List α) : StackStep stack []

/-- The items that lie below the top are the lowest ones with it and without it. -/
theorem rtake_cons {stack : List α} {n : Nat} (low : n ≤ stack.length) (top : α) :
    (top :: stack).rtake n = stack.rtake n := by
  have above : (top :: stack).length - n = stack.length - n + 1 := by
    rw [List.length_cons]
    omega
  rw [List.rtake, above, List.drop_succ_cons, List.rtake]

/-- A step keeps the lowest items of a stack that is as high before and after it. -/
theorem StackStep.rtake_eq {before after : List α} (h : StackStep before after) {n : Nat}
    (high : n ≤ before.length) (high' : n ≤ after.length) : after.rtake n = before.rtake n := by
  cases h with
  | keep => rfl
  | push top => exact rtake_cons high top
  | pop top => exact (rtake_cons high' top).symm
  | clear =>
      have none : n = 0 := Nat.le_zero.mp high'
      rw [none, List.rtake_zero, List.rtake_zero]

end Stacks

/-- A command changes the stash as a stack. -/
theorem Transition.stackStep {σ : Type} [Entropy σ] {compile : PatternCompiler}
    {r r' : Repository} {e e' : σ} {command : Command}
    (t : Transition compile r e command r' e') : StackStep r.stash r'.stash := by
  cases t with
  | shelve => exact .push _ _
  | pop entry rest newest =>
      rw [newest]
      exact .pop entry rest
  | drop entry rest newest =>
      rw [newest]
      exact .pop entry rest
  | dropAll => exact .clear _
  | _ => exact .keep _

namespace Repository

variable {r : Repository}

/-- What is shelved comes back as modified files: those that were modified, and then the others
that were staged. -/
theorem stashPush_stashPop (unclean : r.isClean = false) (staged : r.staged.Nodup)
    (modified : r.modified.Nodup) (message : Option String) :
    ∃ text, (r.stashPush message).1.stashPop =
      .ok ({ r with
        staged := []
        modified := r.modified ++ r.staged.filter fun f => f ∉ r.modified }, text) := by
  have back : addAllUnique [] (addAllUnique r.modified r.staged) =
      r.modified ++ r.staged.filter fun f => f ∉ r.modified := by
    rw [nil_addAllUnique (nodup_addAllUnique modified r.staged), addAllUnique_of_nodup staged]
  rw [stashPush, if_neg (Bool.eq_false_iff.mp unclean)]
  simp only [stashPop, back]
  exact ⟨_, rfl⟩

/-- The line of `git stash list` for the entry at an index. -/
def stashLine (index : Nat) (entry : StashEntry) : String :=
  "stash@\x7b" ++ Nat.repr index ++ "\x7d: On " ++ entry.branch ++ ": " ++ entry.message

theorem stashLines_eq (index : Nat) (entries : List StashEntry) :
    stashLines index entries = entries.mapIdx fun i entry => stashLine (i + index) entry := by
  induction entries generalizing index with
  | nil => rfl
  | cons entry rest ih =>
      have later : ∀ i, i + (index + 1) = i + 1 + index := by omega
      rw [stashLines, ih, List.mapIdx_cons]
      simp only [later, Nat.zero_add]
      rfl

/-- A stash with entries is listed with one line for each. -/
theorem stashReport_eq (some : r.stash ≠ []) :
    r.stashReport = joinWith "\n" (r.stash.mapIdx stashLine) := by
  rw [stashReport, if_neg (mt List.isEmpty_iff.mp some), stashLines_eq]
  rfl

/-- The newest entry is listed first, and the others behind it. -/
theorem stashReport_of_newest {entry : StashEntry} {rest : List StashEntry}
    (newest : r.stash = entry :: rest) :
    r.stashReport = joinWith "\n"
      (stashLine 0 entry :: rest.mapIdx fun i older => stashLine (i + 1) older) := by
  have some : r.stash ≠ [] := by
    rw [newest]
    exact List.cons_ne_nil entry rest
  rw [stashReport_eq some, newest, List.mapIdx_cons]

/-- No line break stands in the name of a branch or in what is listed of a stash entry. -/
structure Unbroken (r : Repository) : Prop where
  branches : ∀ name ∈ r.branches, '\n' ∉ name.toList
  stash : ∀ entry ∈ r.stash, '\n' ∉ entry.branch.toList ∧ '\n' ∉ entry.message.toList

theorem notMem_of_isMessage {text : String} (message : IsMessage text) : '\n' ∉ text.toList := by
  intro within
  have space : '\n' = ' ' := message.phrase.spaced _ within (by decide)
  cases space

theorem notMem_stashLine (index : Nat) {entry : StashEntry}
    (branch : '\n' ∉ entry.branch.toList) (message : '\n' ∉ entry.message.toList) :
    '\n' ∉ (stashLine index entry).toList := by
  have number : '\n' ∉ Nat.toDigits 10 index := by
    rw [← Nat.toList_repr]
    exact notMem_of_isWord (isWord_repr index)
  simp [stashLine, number, branch, message]

namespace Unbroken

theorem fresh {settings : Settings} (first : '\n' ∉ settings.initialBranch.toList) :
    (Repository.fresh settings).Unbroken where
  branches := by
    intro name h
    rw [List.mem_singleton.mp h]
    exact first
  stash := by
    intro entry h
    cases h

theorem fork (whole : r.Unbroken) {name : String} (word : IsWord name.toList) :
    (r.fork name).Unbroken :=
  { whole with
    branches := by
      intro other h
      rcases List.mem_append.mp h with h | h
      · exact whole.branches other h
      · exact List.mem_singleton.mp h ▸ notMem_of_isWord word }

/-- Every transition of a tidy command keeps line breaks out. -/
theorem transition {σ : Type} [Entropy σ] {compile : PatternCompiler} {e e' : σ}
    {command : Command} {r' : Repository} (whole : r.Unbroken) (known : r.current ∈ r.branches)
    (asked : command.Tidy) (t : Transition compile r e command r' e') : r'.Unbroken := by
  cases t with
  | create name => exact whole.fork asked
  | branchOff name => exact { whole.fork asked with }
  | delete name =>
      exact { whole with branches := fun other h => whole.branches other (List.mem_of_mem_erase h) }
  | shelve message =>
      refine { whole with stash := fun entry h => ?_ }
      rcases List.mem_cons.mp h with rfl | h
      · exact ⟨whole.branches _ known, notMem_of_isMessage asked.isMessage_getD⟩
      · exact whole.stash entry h
  | pop entry rest newest | drop entry rest newest =>
      refine { whole with stash := fun older h => whole.stash older ?_ }
      rw [newest]
      exact List.mem_cons_of_mem entry h
  | dropAll => exact { whole with stash := fun _ h => absurd h List.not_mem_nil }
  | _ => exact { whole with }

/-- The lines of the listing are the lines that it shows. -/
theorem lines_stashReport (whole : r.Unbroken) (some : r.stash ≠ []) :
    pieces (· == '\n') r.stashReport.toList = (r.stash.mapIdx stashLine).map String.toList := by
  rw [stashReport_eq some]
  refine lines_joinWith ?_ ?_
  · rwa [ne_eq, List.mapIdx_eq_nil_iff]
  · intro line h
    obtain ⟨index, below, rfl⟩ := List.mem_mapIdx.mp h
    obtain ⟨branch, message⟩ := whole.stash _ (List.getElem_mem below)
    exact notMem_stashLine index branch message

end Unbroken

end Repository

namespace Handler

variable {r : Repository}

/-- Popping is applying and then dropping, with the two texts on lines of their own. -/
theorem restore_true_run (r : Repository) :
    (restore true).run r =
      (do
        let restored ← restore false
        let dropped ← stashDrop
        return restored ++ "\n" ++ dropped : Handler String).run r := by
  cases hs : r.stash with
  | nil => simp [restore_run, Repository.stashPop, Repository.stashApply, ending, hs]
  | cons entry rest =>
      simp [restore_run, stashDrop_run, Repository.stashPop, Repository.stashApply,
        Repository.stashDrop, ending, hs]

/-- A stash handler is refused exactly if the stash is empty. -/
theorem refused_iff_empty {h : Handler String}
    (within : h ∈ [restore true, restore false, stashDrop]) :
    (∃ cause, h.run r = .error cause r) ↔ r.stash = [] := by
  simp only [List.mem_cons, List.not_mem_nil, or_false] at within
  rcases within with rfl | rfl | rfl
  · cases hs : r.stash <;> simp [restore_run, Repository.stashPop, ending, hs]
  · cases hs : r.stash <;> simp [restore_run, Repository.stashApply, ending, hs]
  · cases hs : r.stash <;> simp [stashDrop_run, Repository.stashDrop, ending, hs]

/-- The three handlers act on the newest entry. -/
theorem runs_of_newest {entry : StashEntry} {rest : List StashEntry}
    (newest : r.stash = entry :: rest) :
    (restore false).run r = .ok (r.restoreText entry)
        { r with modified := addAllUnique r.modified entry.files } ∧
      (restore true).run r = .ok (r.restoreText entry ++ "\n" ++ dropText)
        { r with modified := addAllUnique r.modified entry.files, stash := rest } ∧
      stashDrop.run r = .ok dropText { r with stash := rest } := by
  refine ⟨?_, ?_, ?_⟩
  · simp [restore_run, Repository.stashApply, ending, newest]
  · simp [restore_run, Repository.stashPop, ending, newest]
  · simp [stashDrop_run, Repository.stashDrop, ending, newest]

/-- Applying the newest entry again changes nothing and prints the same. -/
theorem restore_false_twice {text : String} {after : Repository}
    (applied : (restore false).run r = .ok text after) :
    (restore false).run after = .ok text after := by
  cases hs : r.stash with
  | nil =>
      have refusal : ∃ cause, (restore false).run r = .error cause r :=
        (refused_iff_empty (by simp)).mpr hs
      obtain ⟨cause, refused⟩ := refusal
      rw [refused] at applied
      cases applied
  | cons entry rest =>
      rw [(runs_of_newest hs).1] at applied
      cases applied
      have again : ({ r with modified := addAllUnique r.modified entry.files } :
          Repository).stash = entry :: rest := hs
      rw [(runs_of_newest again).1, addAllUnique_twice]
      rfl

end Handler

namespace Session

variable {σ : Type} [Entropy σ]

/-- A step changes the stash as a stack. -/
theorem stackStep (s : Session σ) (step : Step) :
    StackStep s.repository.stash (s.step step).repository.stash := by
  have moves := step_moves s step
  generalize (s.step step).repository = r' at moves ⊢
  generalize (s.step step).entropy = e' at moves
  cases moves with
  | command _ change => exact change.stackStep
  | _ => exact .keep _

/-- Along a run on which the stash never has fewer than `n` entries, the oldest `n` stay as
they are. -/
theorem oldest_kept_run {s : Session σ} {steps : List Step} {n : Nat}
    (high : s.Throughout steps fun s => n ≤ s.repository.stash.length) :
    (s.run steps).repository.stash.rtake n = s.repository.stash.rtake n := by
  induction steps generalizing s with
  | nil => rfl
  | cons first rest ih =>
      obtain ⟨now, later⟩ := throughout_cons.mp high
      have next : n ≤ (s.step first).repository.stash.length := later [] List.nil_prefix
      calc
        ((s.step first).run rest).repository.stash.rtake n
            = (s.step first).repository.stash.rtake n := ih later
        _ = s.repository.stash.rtake n := (stackStep s first).rtake_eq now next

/-- Line breaks stay out of what is listed if the name of the first branch has none. -/
theorem unbroken_run (compile : PatternCompiler) {settings : Settings} (entropy : σ)
    (first : '\n' ∉ settings.initialBranch.toList) (steps : List Step) :
    ((startWith compile settings entropy).run steps).repository.Unbroken := by
  suffices both : ((startWith compile settings entropy).run steps).repository.Unbroken ∧
      ((startWith compile settings entropy).run steps).repository.WellFormed
        settings.seedCommit from both.1
  refine run_invariant (P := fun s => s.repository.Unbroken ∧
    s.repository.WellFormed settings.seedCommit) ?_ ⟨Unbroken.fresh first, .fresh settings⟩ steps
  rintro s step ⟨whole, w⟩
  refine ⟨?_, wellFormed_step s step w⟩
  have moves := step_moves s step
  generalize (s.step step).repository = r' at moves ⊢
  generalize (s.step step).entropy = e' at moves
  cases moves with
  | command done change =>
      obtain ⟨_, _, _, read, _⟩ := done
      exact whole.transition w.current_mem (Command.tidy_of_line read) change
  | touch => exact { whole with }
  | _ => exact whole

/-- The laws of the stash, in every state of a session. Shelving unclean changes and popping them
gives everything back, with the staged files behind the modified ones. Popping is applying and
then dropping; each of the three is refused exactly if the stash is empty. Applying twice comes
to the same as applying once. Entries that a run never uncovers stay as they are. The first
line of the listing is that of the entry which the commands act on, and once it is popped or
dropped the lines of the others are listed with every index one smaller; these are the lines
of the text unless the name of the first branch has a line break. -/
theorem stash_laws (compile : PatternCompiler) (settings : Settings) (entropy : σ)
    (earlier : List Step) (message : Option String) :
    let s := (startWith compile settings entropy).run earlier
    let r := s.repository
    (r.isClean = false → ∃ saved shelved restored,
      (Handler.update fun r => r.stashPush message).run r = .ok saved shelved ∧
      (Handler.restore true).run shelved = .ok restored { r with
        staged := []
        modified := r.modified ++ r.staged.filter fun f => f ∉ r.modified }) ∧
    (Handler.restore true).run r =
      (do
        let restored ← Handler.restore false
        let dropped ← Handler.stashDrop
        return restored ++ "\n" ++ dropped : Handler String).run r ∧
    (∀ h ∈ [Handler.restore true, Handler.restore false, Handler.stashDrop],
      (∃ cause, h.run r = .error cause r) ↔ r.stash = []) ∧
    (∀ text after, (Handler.restore false).run r = .ok text after →
      (Handler.restore false).run after = .ok text after) ∧
    (∀ later n, (s.Throughout later fun s => n ≤ s.repository.stash.length) →
      (s.run later).repository.stash.rtake n = r.stash.rtake n) ∧
    (∀ entry rest, r.stash = entry :: rest →
      r.stashReport = joinWith "\n"
        (stashLine 0 entry :: rest.mapIdx fun i older => stashLine (i + 1) older) ∧
      (Handler.restore false).run r = .ok (r.restoreText entry)
        { r with modified := addAllUnique r.modified entry.files } ∧
      (Handler.restore true).run r = .ok (r.restoreText entry ++ "\n" ++ dropText)
        { r with modified := addAllUnique r.modified entry.files, stash := rest } ∧
      Handler.stashDrop.run r = .ok dropText { r with stash := rest } ∧
      ∀ after : Repository, after.stash = rest → rest ≠ [] →
        after.stashReport = joinWith "\n" (rest.mapIdx stashLine)) ∧
    ('\n' ∉ settings.initialBranch.toList → r.stash ≠ [] →
      pieces (· == '\n') r.stashReport.toList =
        (r.stash.mapIdx stashLine).map String.toList) := by
  intro s r
  have w : r.WellFormed settings.seedCommit := wellFormed_run compile settings entropy earlier
  refine ⟨?_, Handler.restore_true_run r, fun h => Handler.refused_iff_empty, ?_,
    fun later n => oldest_kept_run, ?_, ?_⟩
  · intro unclean
    obtain ⟨text, back⟩ := stashPush_stashPop unclean w.staged_nodup w.modified_nodup message
    refine ⟨_, _, text, Handler.update_run _ r, ?_⟩
    rw [Handler.restore_run, if_pos rfl, back]
    rfl
  · exact fun text after => Handler.restore_false_twice
  · intro entry rest newest
    obtain ⟨applied, popped, dropped⟩ := Handler.runs_of_newest newest
    refine ⟨stashReport_of_newest newest, applied, popped, dropped, ?_⟩
    rintro after rfl some
    exact stashReport_eq some
  · intro first
    exact (unbroken_run compile entropy first earlier).lines_stashReport

/-- Two entries from different branches wait below a third one that comes and goes. -/
theorem stash_laws_two_entries :
    let s := (startWith (fun _ => none) Settings.standard Counter.zero).run
      [.touch (some "a"), .execute "git stash", .execute "git checkout -b dev", .touch (some "b"),
        .execute "git stash push second entry"]
    let later := [.touch (some "c"), .execute "git stash", .execute "git stash pop"]
    (s.run later).repository.stash.rtake 2 = s.repository.stash ∧
      pieces (· == '\n') s.repository.stashReport.toList =
        ["stash@\x7b0\x7d: On dev: second entry".toList, "stash@\x7b1\x7d: On main: WIP".toList] := by
  intro s later
  obtain ⟨_, _, _, _, oldest, _, lines⟩ := stash_laws (fun _ => none) Settings.standard
    Counter.zero [.touch (some "a"), .execute "git stash", .execute "git checkout -b dev",
      .touch (some "b"), .execute "git stash push second entry"] none
  have high : s.Throughout later fun s => 2 ≤ s.repository.stash.length := by
    simp only [later, throughout_cons, throughout_nil]
    refine ⟨?_, ?_, ?_, ?_⟩ <;> decide +kernel
  constructor
  · exact (oldest later 2 high).trans (by decide +kernel)
  · exact (lines (by decide) (by decide +kernel)).trans (by decide +kernel)

end Session

end GitTutor
