import GitTutor.Proofs.LawfulLibrary

/-!
# Overrides of single options

A library keeps overrides in a map, where the last one of each key counts, and takes them from
there in any order. When every override names one option, the order makes no difference: an option
has the text of the last override of it. The overrides are read from texts of their own, and all
of them are there if all can be read.
-/

namespace GitTutor.Config

open Value

section LastOf

variable {κ β : Type} [DecidableEq κ]

theorem mem_of_mem_lastOf {entry : κ × β} {entries : List (κ × β)} (h : entry ∈ lastOf entries) :
    entry ∈ entries := by
  induction entries with
  | nil => cases h
  | cons first rest ih =>
      rw [lastOf] at h
      split at h
      · exact List.mem_cons_of_mem first (ih h)
      · exact List.mem_cons.mpr ((List.mem_cons.mp h).imp id ih)

/-- In a map each key stands once. -/
theorem nodup_lastOf (entries : List (κ × β)) : ((lastOf entries).map Prod.fst).Nodup := by
  induction entries with
  | nil => exact List.nodup_nil
  | cons first rest ih =>
      rw [lastOf]
      split
      · exact ih
      · rename_i fresh
        refine List.nodup_cons.mpr ⟨fun within => ?_, ih⟩
        obtain ⟨entry, kept, same⟩ := List.mem_map.mp within
        exact fresh (List.mem_map.mpr ⟨entry, mem_of_mem_lastOf kept, same⟩)

end LastOf

/-- The text that an override gives to an option. -/
def textFor? (place key : String) (o : KeyPath × String) : Option String :=
  if o.1 = ⟨place, [.key key]⟩ then some o.2 else none

/-- The text that the last of some overrides gives to an option. -/
def lastText? (overrides : List (KeyPath × String)) (place key : String) : Option String :=
  (overrides.filterMap (textFor? place key)).getLast?

/-- Whether every override gives a text to one option. -/
def NameLeaves (overrides : List (KeyPath × String)) : Prop :=
  ∀ o ∈ overrides, ∃ place key, o.1 = ⟨place, [.key key]⟩

theorem NameLeaves.append {front back : List (KeyPath × String)} (h : NameLeaves front)
    (h' : NameLeaves back) : NameLeaves (front ++ back) := fun o among =>
  (List.mem_append.mp among).elim (h o) (h' o)

section Texts

variable {overrides : List (KeyPath × String)} {place key : String}

theorem lastText?_append (front back : List (KeyPath × String)) (place key : String) :
    lastText? (front ++ back) place key =
      (lastText? back place key).or (lastText? front place key) := by
  rw [lastText?, List.filterMap_append, List.getLast?_append]
  rfl

theorem lastText?_cons (o : KeyPath × String) (rest : List (KeyPath × String))
    (place key : String) :
    lastText? (o :: rest) place key =
      (lastText? rest place key).or (textFor? place key o) := by
  rw [← List.singleton_append, lastText?_append]
  congr 1
  rw [lastText?, List.filterMap_cons, List.filterMap_nil]
  cases textFor? place key o <;> rfl

theorem isSome_lastText?_iff : (lastText? overrides place key).isSome = true ↔
    ∃ o ∈ overrides, o.1 = ⟨place, [.key key]⟩ := by
  rw [lastText?, List.getLast?_isSome, ne_eq, List.filterMap_eq_nil_iff]
  simp [textFor?]

/-- Among overrides of distinct keys an option has the text of its own one. -/
theorem lastText?_eq_some_iff (distinct : (overrides.map Prod.fst).Nodup) {text : String} :
    lastText? overrides place key = some text ↔ (⟨place, [.key key]⟩, text) ∈ overrides := by
  induction overrides with
  | nil => simp [lastText?]
  | cons o rest ih =>
      obtain ⟨fresh, distinct⟩ := List.nodup_cons.mp distinct
      rw [lastText?_cons, Option.or_eq_some_iff, ih distinct, List.mem_cons, or_comm]
      refine or_congr_left ?_
      have missing : o.1 = ⟨place, [.key key]⟩ → lastText? rest place key = none := fun here => by
        rw [← Option.not_isSome_iff_eq_none, isSome_lastText?_iff]
        rintro ⟨other, within, same⟩
        exact fresh (List.mem_map.mpr ⟨other, within, same.trans here.symm⟩)
      rw [textFor?]
      constructor
      · rintro ⟨-, given⟩
        split at given
        · rename_i here
          exact Prod.ext here.symm (Option.some.inj given).symm
        · cases given
      · rintro rfl
        exact ⟨missing rfl, if_pos rfl⟩

/-- The order of overrides with distinct keys makes no difference. -/
theorem lastText?_perm {others : List (KeyPath × String)} (same : others.Perm overrides)
    (distinct : (overrides.map Prod.fst).Nodup) :
    lastText? others place key = lastText? overrides place key := by
  have distinct' : (others.map Prod.fst).Nodup := (same.map Prod.fst).nodup_iff.mpr distinct
  ext text
  rw [lastText?_eq_some_iff distinct, lastText?_eq_some_iff distinct', same.mem_iff]

/-- A map gives the same texts. -/
theorem lastText?_lastOf : lastText? (lastOf overrides) place key =
    lastText? overrides place key := by
  induction overrides with
  | nil => rfl
  | cons o rest ih =>
      rw [lastOf, lastText?_cons, ← ih]
      split
      · rename_i again
        rw [ih]
        by_cases here : o.1 = ⟨place, [.key key]⟩
        · obtain ⟨other, within, same⟩ := List.mem_map.mp again
          obtain ⟨text, given⟩ := Option.isSome_iff_exists.mp
            (isSome_lastText?_iff.mpr ⟨other, within, same.trans here⟩)
          rw [given]
          rfl
        · rw [textFor?, if_neg here, Option.or_none]
      · exact lastText?_cons o (lastOf rest) place key

/-- What an override of one option says about an option. -/
theorem verdict_leaf {root name text : String} :
    Write.verdict ⟨⟨root, [.key name]⟩, .text text⟩ place key =
      (textFor? place key (⟨root, [.key name]⟩, text)).elim .silent fun t => .gives (.text t) := by
  have alone : Write.alone ⟨⟨root, [.key name]⟩, .text text⟩ = .table [(name, .text text)] := by
    simp only [Write.alone_eq, change, Value.rows, Rows.assign, overlay]
  simp only [Write.verdict, alone, Verdict.ofRows, Rows.find?, textFor?, KeyPath.mk.injEq,
    List.cons.injEq, PathStep.key.injEq, and_true]
  by_cases here : root = place <;> by_cases named : name = key <;> simp [here, named]

/-- What overrides of single options say about an option. -/
theorem verdict_ofOverrides (leaves : NameLeaves overrides) :
    (Layer.ofOverrides overrides).verdict place key =
      (lastText? overrides place key).elim .silent fun t => .gives (.text t) := by
  induction overrides with
  | nil => rfl
  | cons o rest ih =>
      obtain ⟨root, name, path⟩ := leaves o List.mem_cons_self
      have first : Layer.verdict [⟨o.1, .text o.2⟩] place key =
          (textFor? place key o).elim .silent fun t => .gives (.text t) := by
        obtain ⟨_, text⟩ := o
        obtain rfl := path
        exact (Verdict.or_silent _).trans verdict_leaf
      have whole : Layer.ofOverrides (o :: rest) =
          [⟨o.1, .text o.2⟩] ++ Layer.ofOverrides rest := rfl
      rw [whole, Layer.verdict_append, first, lastText?_cons,
        ih fun other h => leaves other (List.mem_cons_of_mem o h)]
      cases lastText? rest place key <;> rfl

theorem endsAsList_ofOverrides (leaves : NameLeaves overrides) :
    (Layer.ofOverrides overrides).endsAsList place = false := by
  refine Layer.endsAsList_of_forall (fun w among => ?_) place
  obtain ⟨⟨_, text⟩, within, rfl⟩ := List.mem_map.mp among
  obtain ⟨root, name, rfl⟩ := leaves _ within
  rw [Write.alone_eq]
  rfl

theorem mentions_ofOverrides_iff (leaves : NameLeaves overrides) :
    (Layer.ofOverrides overrides).mentions place = true ↔
      ∃ key, (lastText? overrides place key).isSome = true := by
  simp only [Layer.mentions, Layer.ofOverrides, List.any_map, List.any_eq_true, Function.comp_apply,
    decide_eq_true_eq, isSome_lastText?_iff]
  constructor
  · rintro ⟨o, within, rfl⟩
    obtain ⟨root, name, path⟩ := leaves o within
    exact ⟨name, o, within, by rw [path]⟩
  · rintro ⟨key, o, within, path⟩
    exact ⟨o, within, by rw [path]⟩

end Texts

section Free

theorem readOverrides_append (front back : List String) :
    readOverrides (front ++ back) =
      (readOverrides front).bind fun os => (readOverrides back).map (os ++ ·) := by
  induction front with
  | nil => cases h : readOverrides back <;> simp [readOverrides, Except.bind, Except.map, h]
  | cons assignment rest ih =>
      rw [List.cons_append, readOverrides, readOverrides, ih]
      cases readOverride assignment with
      | error e => rfl
      | ok first =>
          cases readOverrides rest with
          | error e => rfl
          | ok others => cases readOverrides back <;> rfl

/-- Whether a free override is well-formed and names an option of a section. -/
def NamesLeaf (assignment : String) : Prop :=
  ∃ place key text, readOverride assignment = .ok (⟨place, [.key key]⟩, text)

/-- The text that the last of some free overrides gives to an option. -/
def chosen? (assignments : List String) (place key : String) : Option String :=
  lastText? (assignments.filterMap fun assignment => (readOverride assignment).toOption) place key

/-- Overrides that can be read are all there. -/
theorem filterMap_readOverride {assignments : List String} {os : List (KeyPath × String)}
    (read : readOverrides assignments = .ok os) :
    (assignments.filterMap fun assignment => (readOverride assignment).toOption) = os := by
  induction assignments generalizing os with
  | nil =>
      cases read
      rfl
  | cons assignment rest ih =>
      rw [readOverrides] at read
      split at read
      · cases read
      · rename_i first here
        split at read
        · cases read
        · rename_i others readRest
          cases read
          rw [List.filterMap_cons, here, ih readRest]
          rfl

theorem nameLeaves_of_namesLeaf {assignments : List String} {os : List (KeyPath × String)}
    (read : readOverrides assignments = .ok os)
    (named : ∀ assignment ∈ assignments, NamesLeaf assignment) : NameLeaves os := by
  intro o among
  rw [← filterMap_readOverride read] at among
  obtain ⟨assignment, within, here⟩ := List.mem_filterMap.mp among
  obtain ⟨place, key, text, shape⟩ := named assignment within
  rw [shape] at here
  cases here
  exact ⟨place, key, rfl⟩

end Free

section Taken

variable {lib : Library} (lawful : lib.Lawful) {overrides : List (KeyPath × String)}
  {place key : String}

include lawful

theorem nameLeaves_taken (leaves : NameLeaves overrides) :
    NameLeaves (lib.takenOverrides overrides) := fun o within =>
  leaves o (mem_of_mem_lastOf ((lawful.perm_overrides _).mem_iff.mp within))

theorem lastText?_taken : lastText? (lib.takenOverrides overrides) place key =
    lastText? overrides place key := by
  rw [Library.takenOverrides, lastText?_perm (lawful.perm_overrides _) (nodup_lastOf overrides),
    lastText?_lastOf]

end Taken

end GitTutor.Config
