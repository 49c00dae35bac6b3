import GitTutor.Proofs.BranchNames
import GitTutor.Proofs.WellFormed
import Mathlib.Data.List.Nodup

/-!
# The list of branches

The list has one line for each branch, and from the lines the names can be read back: a mark
of two characters stands in front of each, and the mark of the current branch is another one.
A name is listed exactly if the session has created it once more than it has deleted it, the
first branch counting as created, and names stand in the order of their last creation.
-/

namespace GitTutor

open Repository Text

namespace Repository

variable {r : Repository}

/-- The mark in front of a name. -/
def branchMark (r : Repository) (name : String) : String :=
  if name = r.current then "* " else "  "

theorem branchLine_eq (r : Repository) (name : String) :
    r.branchLine name = r.branchMark name ++ name := by
  unfold branchLine branchMark
  split <;> rfl

/-- Behind the mark stands the name. -/
theorem drop_branchLine (r : Repository) (name : String) :
    (r.branchLine name).toList.drop 2 = name.toList := by
  have two : (r.branchMark name).toList.length = 2 := by
    unfold branchMark
    split <;> rfl
  rw [branchLine_eq, String.toList_append, ← two, List.drop_left]

/-- Only the line of the current branch has a star. -/
theorem star_prefix_branchLine (name : String) :
    "* ".toList <+: (r.branchLine name).toList ↔ name = r.current := by
  unfold branchLine
  split
  · rename_i here
    simp [here]
  · rename_i away
    simp [away]

theorem blank_prefix_branchLine {name : String} (away : name ≠ r.current) :
    "  ".toList <+: (r.branchLine name).toList := by
  rw [branchLine, if_neg away, String.toList_append]
  exact List.prefix_append _ _

/-- The lines of the list are those of the branches if no name has a line break. -/
theorem lines_branchReport (words : ∀ b ∈ r.branches, IsWord b.toList) (live : r.branches ≠ []) :
    (pieces (· == '\n') r.branchReport.toList).map String.ofList =
      r.branches.map r.branchLine := by
  have whole : ∀ line ∈ r.branches.map r.branchLine, '\n' ∉ line.toList := by
    intro line h
    obtain ⟨name, known, rfl⟩ := List.mem_map.mp h
    have mark : '\n' ∉ (r.branchMark name).toList := by
      unfold branchMark
      split <;> decide
    rw [branchLine_eq, String.toList_append, List.mem_append, not_or]
    exact ⟨mark, notMem_of_isWord (words name known)⟩
  rw [branchReport, lines_joinWith (mt List.map_eq_nil_iff.mp live) whole, map_ofList_toList]

/-- One line has the star, and it is that of the current branch. -/
theorem filter_star (distinct : r.branches.Nodup) (live : r.current ∈ r.branches) :
    (r.branches.map r.branchLine).filter (fun line => decide ("* ".toList <+: line.toList)) =
      ["* " ++ r.current] := by
  have only : (fun line : String => decide ("* ".toList <+: line.toList)) ∘ r.branchLine =
      fun name => name == r.current := by
    funext name
    rw [Function.comp_apply, Bool.eq_iff_iff, decide_eq_true_iff, star_prefix_branchLine,
      beq_iff_eq]
  rw [List.filter_map, only, List.filter_beq, List.count_eq_one_of_mem distinct live]
  simp [branchLine]

end Repository

/-- The name of the branch that a command deletes. -/
def Command.deletes : Command → Option String
  | .branch (.delete name) => some name
  | _ => none

/-- A report neither creates nor deletes a branch. -/
theorem Command.branches_of_isReport {command : Command} (quiet : command.isReport = true) :
    command.creates = none ∧ command.deletes = none := by
  cases command with
  | branch request =>
      cases request with
      | list => exact ⟨rfl, rfl⟩
      | create => cases quiet
      | delete => cases quiet
  | checkout => cases quiet
  | _ => exact ⟨rfl, rfl⟩

section Writing

variable {σ : Type} [Entropy σ] {compile : PatternCompiler} {r r' : Repository} {e e' : σ}
  {command : Command}

theorem count_erase_of_mem {names : List String} {old : String} (known : old ∈ names)
    (name : String) :
    (names.erase old).count name + (if old = name then 1 else 0) = names.count name := by
  rw [List.count_erase]
  by_cases same : old = name
  · have held : 0 < names.count name := List.count_pos_iff.mpr (same ▸ known)
    simp only [same, beq_self_eq_true, if_true]
    omega
  · simp [same]

/-- A command creates at most one branch or deletes at most one. -/
theorem Transition.count_branches (t : Transition compile r e command r' e') (name : String) :
    r'.branches.count name + (if command.deletes = some name then 1 else 0) =
      r.branches.count name + (if command.creates = some name then 1 else 0) := by
  cases t with
  | report quiet =>
      obtain ⟨creates, deletes⟩ := Command.branches_of_isReport quiet
      simp [creates, deletes]
  | create new => simp [fork, Command.creates, Command.deletes, List.count_singleton]
  | branchOff new => simp [fork, Command.creates, Command.deletes, List.count_singleton]
  | delete old other known =>
      simpa [Command.creates, Command.deletes] using count_erase_of_mem known name
  | _ => rfl

/-- A command puts a new branch at the end of the list, or the branches stay in order. -/
theorem Transition.branches_order (t : Transition compile r e command r' e') :
    r'.branches.Sublist r.branches ∨
      ∃ name, name ∉ r.branches ∧ r'.branches = r.branches ++ [name] := by
  cases t with
  | create name fresh => exact Or.inr ⟨name, fresh, rfl⟩
  | branchOff name fresh => exact Or.inr ⟨name, fresh, rfl⟩
  | delete name => exact Or.inl List.erase_sublist
  | _ => exact Or.inl (List.Sublist.refl _)

end Writing

namespace Session

variable {σ : Type} [Entropy σ]

/-- The command that a step carries out, if its line is read as one that is not refused. -/
def command? (s : Session σ) : Step → Option Command
  | .execute line =>
      match s.answer (trimmed line) with
      | .ok _ => (Command.ofLine (trimmed line)).toOption
      | .error _ => none
  | .touch _ => none
  | .clear => none

theorem command?_eq_some_iff {s : Session σ} {step : Step} {command : Command} :
    s.command? step = some command ↔ s.CarriesOut step command := by
  constructor
  · intro h
    cases step with
    | execute line =>
        rw [command?] at h
        cases answered : s.answer (trimmed line) with
        | error cause =>
            rw [answered] at h
            cases h
        | ok effect =>
            obtain ⟨other, read, performed⟩ := command_of_answer answered
            rw [answered, read] at h
            cases h
            refine ⟨line, effect.1.2, rfl, read, ?_⟩
            simp only [Session.step, execute_of_perform read performed]
            rfl
    | touch name => cases h
    | clear => cases h
  · rintro ⟨line, text, rfl, read, added⟩
    cases answered : s.answer (trimmed line) with
    | error cause => simp [Session.step, execute_eq, answered, note] at added
    | ok effect => rw [command?, answered, read]; rfl

/-- The commands that the steps of a run carry out, in order. -/
def commands (s : Session σ) : List Step → List Command
  | [] => []
  | first :: rest => (s.command? first).toList ++ commands (s.step first) rest

/-- How often a run creates a branch of a name. -/
def creations (s : Session σ) (steps : List Step) (name : String) : Nat :=
  (s.commands steps).countP fun command => command.creates = some name

/-- How often a run deletes the branch of a name. -/
def deletions (s : Session σ) (steps : List Step) (name : String) : Nat :=
  (s.commands steps).countP fun command => command.deletes = some name

/-- A step creates at most one branch or deletes at most one. -/
theorem count_branches_step (s : Session σ) (step : Step) (name : String) :
    (s.step step).repository.branches.count name +
        (s.command? step).toList.countP (fun command => command.deletes = some name) =
      s.repository.branches.count name +
        (s.command? step).toList.countP (fun command => command.creates = some name) := by
  cases carried : s.command? step with
  | some command =>
      have change := (command?_eq_some_iff.mp carried).transition
      simpa [List.countP_cons] using change.count_branches name
  | none =>
      have moves := step_moves s step
      generalize (s.step step).repository = r' at moves ⊢
      generalize (s.step step).entropy = e' at moves
      cases moves with
      | command done =>
          rw [command?_eq_some_iff.mpr done] at carried
          cases carried
      | _ => rfl

/-- A name is a branch as often as it is created more than it is deleted. -/
theorem count_branches_run (s : Session σ) (steps : List Step) (name : String) :
    (s.run steps).repository.branches.count name + s.deletions steps name =
      s.repository.branches.count name + s.creations steps name := by
  induction steps generalizing s with
  | nil => rfl
  | cons first rest ih =>
      have now := count_branches_step s first name
      have later := ih (s.step first)
      simp only [deletions, creations, commands, List.countP_append] at later ⊢
      rw [run_cons]
      omega

/-- A step puts a new branch at the end of the list, or the branches stay in order. -/
theorem branches_order_step (s : Session σ) (step : Step) :
    (s.step step).repository.branches.Sublist s.repository.branches ∨
      ∃ name, name ∉ s.repository.branches ∧
        (s.step step).repository.branches = s.repository.branches ++ [name] := by
  have moves := step_moves s step
  generalize (s.step step).repository = r' at moves ⊢
  generalize (s.step step).entropy = e' at moves
  cases moves with
  | command _ change => exact change.branches_order
  | _ => exact Or.inl (List.Sublist.refl _)

/-- Along a run, the first name has been that of a branch since before the branch of the second
name was created. -/
def CreatedBefore (s : Session σ) (steps : List Step) (first second : String) : Prop :=
  ∃ earlier later, steps = earlier ++ later ∧
    second ∉ (s.run earlier).repository.branches ∧
    (s.run earlier).Throughout later fun s => first ∈ s.repository.branches

theorem throughout_concat {s : Session σ} {steps : List Step} {last : Step}
    {P : Session σ → Prop} :
    s.Throughout (steps ++ [last]) P ↔ s.Throughout steps P ∧ P (s.run (steps ++ [last])) := by
  simp only [Throughout, List.prefix_concat_iff]
  constructor
  · intro h
    exact ⟨fun earlier before => h earlier (Or.inr before), h _ (Or.inl rfl)⟩
  · rintro ⟨before, now⟩ earlier (rfl | inner)
    · exact now
    · exact before earlier inner

/-- What was created before stays so while the first branch is kept. -/
theorem CreatedBefore.concat {s : Session σ} {steps : List Step} {first second : String}
    (before : s.CreatedBefore steps first second) {last : Step}
    (kept : first ∈ (s.run (steps ++ [last])).repository.branches) :
    s.CreatedBefore (steps ++ [last]) first second := by
  obtain ⟨earlier, later, rfl, absent, alive⟩ := before
  refine ⟨earlier, later ++ [last], List.append_assoc _ _ _, absent, ?_⟩
  refine throughout_concat.mpr ⟨alive, ?_⟩
  rwa [← run_append, ← List.append_assoc]

/-- Branches stand in the order of their creation. -/
theorem branches_createdBefore {s : Session σ}
    (single : s.repository.branches.Pairwise (s.CreatedBefore [])) (steps : List Step) :
    (s.run steps).repository.branches.Pairwise (s.CreatedBefore steps) := by
  induction steps using List.reverseRecOn with
  | nil => exact single
  | append_singleton steps last ih =>
      have after : s.run (steps ++ [last]) = (s.run steps).step last := run_append s steps [last]
      have old : ∀ {first second}, first ∈ (s.run (steps ++ [last])).repository.branches →
          s.CreatedBefore steps first second → s.CreatedBefore (steps ++ [last]) first second :=
        fun kept before => before.concat kept
      rw [after] at old ⊢
      rcases branches_order_step (s.run steps) last with fewer | ⟨name, fresh, grown⟩
      · exact (ih.sublist fewer).imp_of_mem fun kept _ before => old kept before
      · -- The new branch was absent until this step, and all others were present.
        rw [grown] at old ⊢
        refine List.pairwise_append.mpr ⟨?_, List.pairwise_singleton _ _, ?_⟩
        · exact ih.imp_of_mem fun kept _ before => old (List.mem_append_left _ kept) before
        · intro first kept second new
          rw [List.mem_singleton.mp new]
          refine ⟨steps, [last], rfl, fresh, ?_⟩
          refine throughout_cons.mpr ⟨kept, throughout_nil.mpr ?_⟩
          rw [grown]
          exact List.mem_append_left _ kept

/-- The list of branches, in every state of a session whose first branch has a word as its name.
It has one line for each branch, with a mark of two characters in front of the name: a star and
a space for the current branch, two spaces for the others. Branches are listed in the order in
which they were created, and a name is listed exactly if it has been created once more than
deleted, the first branch counting as created; it is never created more often than that. -/
theorem branch_list_exact (compile : PatternCompiler) {settings : Settings}
    (first : IsWord settings.initialBranch.toList) (entropy : σ) (steps : List Step) :
    let start := startWith compile settings entropy
    let s := start.run steps
    let r := s.repository
    let lines := (pieces (· == '\n') r.branchReport.toList).map String.ofList
    s.execute "git branch" = s.note ⟨"git branch", r.branchReport, false⟩ ∧
    lines.map (fun line => String.ofList (line.toList.drop 2)) = r.branches ∧
    r.branches.Pairwise (start.CreatedBefore steps) ∧
    lines.filter (fun line => "* ".toList <+: line.toList) = ["* " ++ r.current] ∧
    (∀ line ∈ lines, ¬ "* ".toList <+: line.toList → "  ".toList <+: line.toList) ∧
    ∀ name,
      (name ∈ r.branches ↔
        start.creations steps name + (if name = settings.initialBranch then 1 else 0) =
          start.deletions steps name + 1) ∧
      start.creations steps name + (if name = settings.initialBranch then 1 else 0) ≤
        start.deletions steps name + 1 := by
  intro start s r lines
  have w : r.WellFormed settings.seedCommit := wellFormed_run compile settings entropy steps
  have each : lines = r.branches.map r.branchLine :=
    lines_branchReport (isWord_branches_of_first compile first entropy steps)
      (List.ne_nil_of_mem w.current_mem)
  rw [each]
  refine ⟨execute_report rfl rfl rfl, ?_, ?_, filter_star w.branches_nodup w.current_mem, ?_,
    fun name => ?_⟩
  · rw [List.map_map]
    calc r.branches.map _
      _ = r.branches.map id := by
        refine List.map_congr_left fun name _ => ?_
        rw [Function.comp_apply, drop_branchLine, String.ofList_toList, id]
      _ = r.branches := List.map_id _
  · exact branches_createdBefore (List.pairwise_singleton _ _) steps
  · intro line h starless
    obtain ⟨name, _, rfl⟩ := List.mem_map.mp h
    exact blank_prefix_branchLine (mt (star_prefix_branchLine name).mpr starless)
  · have balance := count_branches_run start steps name
    have once : start.repository.branches.count name =
        if name = settings.initialBranch then 1 else 0 := by
      change [settings.initialBranch].count name = _
      rw [List.count_singleton]
      exact if_congr (beq_iff_eq.trans eq_comm) rfl rfl
    have held : r.branches.count name ≤ 1 := List.nodup_iff_count_le_one.mp w.branches_nodup name
    have listed : name ∈ r.branches ↔ r.branches.count name = 1 := by
      rw [← List.count_pos_iff]
      omega
    change r.branches.count name + _ = _ at balance
    rw [listed]
    omega

/-- A branch that is deleted and created again stands behind the one that was created between. -/
theorem branch_list_exact_again :
    let start := startWith (fun _ => none) Settings.standard Counter.zero
    let steps := [.execute "git branch a", .execute "git checkout -b b", .execute "git branch a",
      .touch none, .execute "git branch -d a", .execute "git branch a"]
    let s := start.run steps
    IsWord Settings.standard.initialBranch.toList ∧
      s.repository.branchReport = "  main\n* b\n  a" ∧ start.CreatedBefore steps "b" "a" ∧
      start.creations steps "a" + 0 = start.deletions steps "a" + 1 ∧
      start.deletions steps "a" = 1 := by
  intro start steps s
  have first : IsWord Settings.standard.initialBranch.toList := by decide
  have live : s.repository.branches = ["main", "b", "a"] := by decide +kernel
  obtain ⟨_, _, order, _, _, counts⟩ := branch_list_exact (fun _ => none) first Counter.zero steps
  change s.repository.branches.Pairwise _ at order
  have count := (counts "a").1.mp (by change "a" ∈ s.repository.branches; simp [live])
  rw [live] at order
  refine ⟨first, by decide +kernel, ?_, count, by decide +kernel⟩
  have later := (List.pairwise_cons.mp order).2
  exact (List.pairwise_cons.mp later).1 "a" List.mem_cons_self

end Session

end GitTutor
