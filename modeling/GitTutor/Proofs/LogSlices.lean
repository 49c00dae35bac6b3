import GitTutor.Proofs.Transition
import GitTutor.Proofs.Words

/-!
# Slices of the log

A log report shows the newest commits up to a limit, so a greater limit only adds to the end
of it. This holds in every layout, also in the one that drops the blanks at the end: what
is added starts with a character that is not blank.
-/

namespace GitTutor

open Repository Text

namespace Repository

/-- A greater limit shows the same commits and then older ones. -/
theorem newest_append {n m : Nat} (le : n ≤ m) (commits : List Commit) :
    ∃ older, newest m commits = newest n commits ++ older := by
  obtain ⟨older, whole⟩ := List.take_prefix_take_left (l := commits.reverse) le
  exact ⟨older, whole.symm⟩

/-- A limit that is not below the number of commits shows all of them. -/
theorem newest_of_length_le {n : Nat} {commits : List Commit} (le : commits.length ≤ n) :
    newest n commits = commits.reverse := by
  rw [newest, List.take_of_length_le]
  rwa [List.length_reverse]

theorem length_newest (n : Nat) (commits : List Commit) :
    (newest n commits).length = min n commits.length := by
  rw [newest, List.length_take, List.length_reverse]

theorem newest_eq_nil_iff {n : Nat} {commits : List Commit} :
    newest n commits = [] ↔ n = 0 ∨ commits = [] := by
  rw [newest, List.take_eq_nil_iff, List.reverse_eq_nil_iff]

namespace LogLayout

/-- The commits of a page as they are joined, before blanks at the end are dropped. -/
def joined (layout : LogLayout) (commits : List Commit) : String :=
  joinWith "\n" (commits.map layout.item)

theorem page_full (commits : List Commit) :
    LogLayout.full.page commits = trimmedEnd (LogLayout.full.joined commits) := rfl

/-- The layouts with one line for each commit drop nothing. -/
theorem page_of_ne_full {layout : LogLayout} (lined : layout ≠ .full) (commits : List Commit) :
    layout.page commits = layout.joined commits := by
  cases layout with
  | oneline => rfl
  | graph => rfl
  | full => exact absurd rfl lined

theorem joined_append (layout : LogLayout) {front back : List Commit} (some : front ≠ [])
    (some' : back ≠ []) :
    layout.joined (front ++ back) = layout.joined front ++ "\n" ++ layout.joined back := by
  rw [joined, List.map_append]
  exact joinWith_append "\n" (mt List.map_eq_nil_iff.mp some) (mt List.map_eq_nil_iff.mp some')

/-- The first commit starts the text, which ends after it or goes on with a line break. -/
theorem joined_cons (layout : LogLayout) (c : Commit) (rest : List Commit) :
    ∃ more, layout.joined (c :: rest) = layout.item c ++ more ∧
      (more = "" ∨ ∃ lines, more = "\n" ++ lines) := by
  by_cases last : rest = []
  · refine ⟨"", ?_, Or.inl rfl⟩
    rw [last, String.append_empty]
    rfl
  · have split := joined_append layout (List.cons_ne_nil c []) last
    refine ⟨"\n" ++ layout.joined rest, ?_, Or.inr ⟨_, rfl⟩⟩
    rw [← String.append_assoc]
    exact split

/-- Commits in the layout that drops blanks at the end are more than blanks. -/
theorem mem_joined_full {commits : List Commit} (some : commits ≠ []) :
    'c' ∈ (LogLayout.full.joined commits).toList := by
  cases commits with
  | nil => exact absurd rfl some
  | cons c rest =>
      obtain ⟨more, start, _⟩ := joined_cons .full c rest
      simp [start, item]

/-- More commits only add to the end of a page. -/
theorem page_append (layout : LogLayout) (front back : List Commit) :
    ∃ rest, layout.page (front ++ back) = layout.page front ++ rest := by
  by_cases none : front = []
  · have empty : layout.page [] = "" := by cases layout <;> rfl
    refine ⟨layout.page back, ?_⟩
    rw [none, empty, List.nil_append, String.empty_append]
  by_cases none' : back = []
  · refine ⟨"", ?_⟩
    rw [none', List.append_nil, String.append_empty]
  by_cases lined : layout = .full
  · -- Blanks that were dropped at the end of the front come back, and then all of the rest.
    subst lined
    have within : 'c' ∈ ("\n" ++ LogLayout.full.joined back).toList := by
      rw [String.toList_append]
      exact List.mem_append_right _ (mem_joined_full none')
    obtain ⟨blanks, dropped, _⟩ := exists_eq_trimmedEnd_append (LogLayout.full.joined front)
    refine ⟨blanks ++ trimmedEnd ("\n" ++ LogLayout.full.joined back), ?_⟩
    calc LogLayout.full.page (front ++ back)
      _ = trimmedEnd (LogLayout.full.joined front ++ ("\n" ++ LogLayout.full.joined back)) := by
        rw [page_full, joined_append _ none none', String.append_assoc]
      _ = LogLayout.full.joined front ++ trimmedEnd ("\n" ++ LogLayout.full.joined back) :=
        trimmedEnd_append _ within (by decide)
      _ = LogLayout.full.page front ++ blanks ++
          trimmedEnd ("\n" ++ LogLayout.full.joined back) := by
        rw [page_full, ← dropped]
      _ = _ := String.append_assoc
  · refine ⟨"\n" ++ layout.joined back, ?_⟩
    rw [page_of_ne_full lined, page_of_ne_full lined, joined_append _ none none',
      String.append_assoc]

/-- Only a page without commits is empty. -/
theorem page_eq_empty_iff {layout : LogLayout} {commits : List Commit} :
    layout.page commits = "" ↔ commits = [] := by
  constructor
  · intro empty
    cases commits with
    | nil => rfl
    | cons c rest =>
        exfalso
        by_cases lined : layout = .full
        · subst lined
          obtain ⟨blanks, dropped, blank⟩ :=
            exists_eq_trimmedEnd_append (LogLayout.full.joined (c :: rest))
          rw [← page_full, empty, String.empty_append] at dropped
          have shown := mem_joined_full (List.cons_ne_nil c rest)
          rw [dropped] at shown
          exact absurd (blank _ shown) (by decide)
        · obtain ⟨more, start, _⟩ := joined_cons layout c rest
          rw [page_of_ne_full lined, start] at empty
          cases layout with
          | oneline => simp [item] at empty
          | graph => simp [item] at empty
          | full => exact lined rfl
  · rintro rfl
    cases layout <;> rfl

/-- The lines of a page in a layout with one line for each commit. -/
theorem lines_page {layout : LogLayout} (lined : layout ≠ .full) {commits : List Commit}
    (some : commits ≠ [])
    (whole : ∀ c ∈ commits, '\n' ∉ c.hash.toList ∧ '\n' ∉ c.message.toList) :
    pieces (· == '\n') (layout.page commits).toList =
      commits.map fun c => (layout.item c).toList := by
  rw [page_of_ne_full lined, joined, lines_joinWith (mt List.map_eq_nil_iff.mp some), List.map_map]
  · rfl
  · intro text h
    obtain ⟨c, within, rfl⟩ := List.mem_map.mp h
    obtain ⟨hash, message⟩ := whole c within
    cases layout with
    | oneline => simp [item, hash, message]
    | graph => simp [item, hash, message]
    | full => exact absurd rfl lined

end LogLayout

/-- A log report of a branch that exists is a page of the newest commits. -/
theorem logReport_eq {r : Repository} {request : LogRequest}
    (known : request.branch.getD r.current ∈ r.branches) :
    let commits := if request.all then r.allCommits else r.log (request.branch.getD r.current)
    r.logReport request = .ok ((LogLayout.of request).page (newest
      (request.limit.getD (LogLayout.of request).defaultLimit) commits)) := by
  rw [logReport, if_pos (hasBranch_iff.mpr known)]

/-- Slices of the log, in every repository, for every branch that exists and all flags. A
report with a smaller limit is the start of the one with a greater limit, and from the number
of commits on the limit makes no difference. Without a limit it is the greatest number of 64 bits
in the one-line layout, which wins over the graph, 5 in the graph and 3 otherwise; the greatest
number shows the same as the number of commits, which also has 64 bits. Only a report of no
commits is empty, and if hashes and messages have no line breaks, the lines of any other
report in the one-line layout or the graph are the newest commits, one on each line. -/
theorem log_slices (r : Repository) (request : LogRequest)
    (known : request.branch.getD r.current ∈ r.branches) :
    let commits := if request.all then r.allCommits else r.log (request.branch.getD r.current)
    ∃ shown : Nat → String,
      (∀ n, r.logReport { request with limit := some n } = .ok (shown n)) ∧
      (∀ n m, n ≤ m → ∃ rest, shown m = shown n ++ rest) ∧
      (∀ n m, commits.length ≤ n → n ≤ m → shown m = shown n) ∧
      r.logReport { request with limit := none } = .ok (shown
        (if request.oneline then wordBound - 1 else if request.graph then 5 else 3)) ∧
      (commits.length < wordBound → shown (wordBound - 1) = shown commits.length) ∧
      (∀ n, shown n = "" ↔ n = 0 ∨ commits = []) ∧
      (request.oneline = true ∨ request.graph = true →
        (∀ c ∈ commits, '\n' ∉ c.hash.toList ∧ '\n' ∉ c.message.toList) →
        ∀ n, shown n ≠ "" →
          let lines := (pieces (· == '\n') (shown n).toList).map String.ofList
          lines.length = min n commits.length ∧
          ∀ i, i < lines.length → ∃ c, commits.reverse[i]? = some c ∧
            lines[i]? = some (if request.oneline then c.hash ++ " " ++ c.message
              else "* " ++ c.hash ++ " " ++ c.message)) := by
  intro commits
  let layout := LogLayout.of request
  refine ⟨fun n => layout.page (newest n commits), fun n => logReport_eq known, ?_, ?_, ?_, ?_,
    ?_, ?_⟩
  · intro n m le
    obtain ⟨older, more⟩ := newest_append le commits
    simp only [more]
    exact layout.page_append (newest n commits) older
  · intro n m whole le
    simp only [newest_of_length_le whole, newest_of_length_le (Nat.le_trans whole le)]
  · have limit : layout.defaultLimit =
        if request.oneline then wordBound - 1 else if request.graph then 5 else 3 := by
      simp only [layout, LogLayout.of]
      split
      · rfl
      · split <;> rfl
    simp only [← limit]
    exact logReport_eq known
  · intro fits
    simp only [newest_of_length_le (Nat.le_sub_one_of_lt fits), newest_of_length_le le_rfl]
  · intro n
    exact LogLayout.page_eq_empty_iff.trans newest_eq_nil_iff
  · intro flags whole n some lines
    have lined : layout ≠ .full ∧ ∀ c, layout.item c =
        if request.oneline then c.hash ++ " " ++ c.message
        else "* " ++ c.hash ++ " " ++ c.message := by
      by_cases one : request.oneline = true
      · simp [layout, LogLayout.of, LogLayout.item, one]
      · have graph := flags.resolve_left one
        simp [layout, LogLayout.of, LogLayout.item, one, graph]
    have each : lines = (newest n commits).map layout.item := by
      have cut := LogLayout.lines_page lined.1 (mt LogLayout.page_eq_empty_iff.mpr some)
        fun c h => whole c (List.mem_reverse.mp (List.mem_of_mem_take h))
      simp only [lines, cut, List.map_map]
      exact List.map_congr_left fun c _ => String.ofList_toList
    constructor
    · rw [each, List.length_map, length_newest]
    · intro i below
      rw [each, List.length_map] at below
      have shown : (newest n commits)[i]? = commits.reverse[i]? := by
        rw [newest, List.getElem?_take_of_lt]
        rw [length_newest] at below
        omega
      refine ⟨(newest n commits)[i], ?_, ?_⟩
      · rw [← shown, List.getElem?_eq_getElem below]
      · rw [each, List.getElem?_map, List.getElem?_eq_getElem below, Option.map_some, lined.2]

/-- The newest commit has a message of blanks, which are dropped where it stands alone. -/
theorem log_slices_blank :
    let log : List Commit := [⟨"a1b2c3d", "Initial commit", "System", []⟩,
      ⟨"0000001", "one", "Ann", []⟩, ⟨"0000002", "  ", "Ann", []⟩]
    let r := { Repository.fresh Settings.standard with logs := Table.empty.insert "main" log }
    (∃ short long rest,
      r.logReport ⟨false, false, false, some 1, none⟩ = .ok short ∧
      r.logReport ⟨false, false, false, some 2, none⟩ = .ok long ∧ long = short ++ rest ∧
      short = "commit 0000002\nAuthor: Ann") ∧
    ∃ text, r.logReport ⟨false, true, true, some 2, some "main"⟩ = .ok text ∧
      ((pieces (· == '\n') text.toList).map String.ofList)[1]? = some "* 0000001 one" := by
  intro log r
  constructor
  · obtain ⟨shown, reports, longer, _⟩ :=
      log_slices r ⟨false, false, false, none, none⟩ (by decide)
    obtain ⟨rest, more⟩ := longer 1 2 (by decide)
    have text : Except.ok (shown 1) = Except.ok "commit 0000002\nAuthor: Ann" :=
      (reports 1).symm.trans (by decide +kernel)
    exact ⟨shown 1, shown 2, rest, reports 1, reports 2, more, Except.ok.inj text⟩
  · obtain ⟨shown, reports, _, _, _, _, empty, lines⟩ :=
      log_slices r ⟨false, true, true, none, some "main"⟩ (by decide)
    have all : r.allCommits = log := by decide +kernel
    simp only [if_true, all] at empty lines
    have some : shown 2 ≠ "" := mt (empty 2).mp (by decide)
    obtain ⟨count, each⟩ := lines (Or.inr trivial) (by decide) 2 some
    obtain ⟨c, second, line⟩ := each 1 (by rw [count]; decide)
    cases second
    exact ⟨shown 2, reports 2, line⟩

end Repository

end GitTutor
