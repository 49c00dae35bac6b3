import GitTutor.Config.Source

/-!
# What layers say about an option

A configuration is put together by writes, each of which lays a value over the
place that a path leads to. On its own a write says that an option has a value,
or that the section of the option has no options, or nothing. After all writes
an option has what the last of them says that says something.
-/

namespace GitTutor.Config

open Text Value

namespace Value

/-- A value without what lies below it. -/
def plain : Value → Value
  | table _ => table []
  | list _ => list []
  | v => v

/-- Whether a value is a list. -/
def isList : Value → Bool
  | list _ => true
  | _ => false

@[simp] theorem isList_plain (v : Value) : v.plain.isList = v.isList := by
  cases v <;> rfl

@[simp] theorem plain_overlay (base v : Value) : (overlay base v).plain = v.plain := by
  cases v <;> simp [overlay, plain]

/-- What is found at the top after a change shows the old value only through the
change that was made there. -/
theorem plain_change {f : Value → Value} (same : ∀ v w, (f v).plain = (f w).plain)
    (steps : List PathStep) (v w : Value) :
    (change f steps v).plain = (change f steps w).plain := by
  cases steps with
  | nil => exact same v w
  | cons step rest => cases step <;> simp [change, plain]

theorem look_assign (name other : String) (v : Value) (rows : Rows Value) :
    look (Rows.assign name v rows) other = if other = name then v else look rows other := by
  rw [look, Rows.find?_assign]
  split <;> rfl

theorem look_put (path : KeyPath) (v : Value) (rows : Rows Value) (place : String) :
    look (put path v rows) place =
      if place = path.root then change (overlay · v) path.steps (look rows path.root)
      else look rows place :=
  look_assign path.root place _ rows

/-- Laid over others, a table gives the names that it has itself. -/
theorem find?_overlayRows (key : String) (more : List (String × Value)) :
    ∀ base : Rows Value, (Rows.find? (overlayRows base more) key).map plain =
      ((Rows.find? (overlayRows [] more) key).map plain).or ((Rows.find? base key).map plain) := by
  induction more with
  | nil =>
      intro base
      simp [overlayRows]
  | cons row rest ih =>
      intro base
      rw [overlayRows, overlayRows, ih, ih (Rows.assign _ _ _), Rows.find?_assign,
        Rows.find?_assign]
      by_cases here : key = row.1
      · simp [here]
      · simp [here]

theorem nodup_overlayRows (more : List (String × Value)) :
    ∀ base : Rows Value, (base.map Prod.fst).Nodup →
      ((overlayRows base more).map Prod.fst).Nodup := by
  induction more with
  | nil =>
      intro base nodup
      rw [overlayRows]
      exact nodup
  | cons row rest ih =>
      intro base nodup
      rw [overlayRows]
      exact ih _ (Rows.nodup_assign _ _ nodup)

/-- A section in which no name stands twice stays one when a value is laid over a
place in it. -/
theorem nodup_change (v : Value) (steps : List PathStep) (old : Value)
    (nodup : (old.rows.map Prod.fst).Nodup) :
    ((change (overlay · v) steps old).rows.map Prod.fst).Nodup := by
  cases steps with
  | nil =>
      rw [change]
      cases v with
      | table more =>
          rw [overlay]
          exact nodup_overlayRows more old.rows nodup
      | _ => simp [overlay, Value.rows]
  | cons step rest =>
      cases step with
      | key name =>
          rw [change]
          exact Rows.nodup_assign _ _ nodup
      | position index => simp [change, Value.rows]

end Value

/-- A value that is laid over the place that a path leads to. -/
structure Write where
  path : KeyPath
  value : Value

/-- Writes in their order. -/
abbrev Layer := List Write

/-- What is said about an option. -/
inductive Verdict
  | silent
  | gives (value : Value)
  /-- Its section is something that has no options. -/
  | discards

namespace Verdict

/-- The value of an option after a verdict. -/
def amend (before : Option Value) : Verdict → Option Value
  | silent => before
  | gives v => some v.plain
  | discards => none

/-- A verdict that is not silent, and another one otherwise. -/
def or : Verdict → Verdict → Verdict
  | silent, other => other
  | verdict, _ => verdict

/-- The first verdict that is not silent. -/
def first : List Verdict → Verdict
  | [] => silent
  | verdict :: rest => verdict.or (first rest)

@[simp] theorem silent_or (v : Verdict) : silent.or v = v := rfl

@[simp] theorem or_silent (v : Verdict) : v.or silent = v := by
  cases v <;> rfl

theorem or_assoc (u v w : Verdict) : (u.or v).or w = u.or (v.or w) := by
  cases u <;> rfl

theorem amend_or (before : Option Value) (v w : Verdict) :
    (v.or w).amend before = v.amend (w.amend before) := by
  cases v <;> rfl

theorem first_append (newer older : List Verdict) :
    first (newer ++ older) = (first newer).or (first older) := by
  induction newer with
  | nil => rfl
  | cons v rest ih =>
      rw [List.cons_append, first, ih, first, or_assoc]

/-- What rows say about a name among them. -/
def ofRows (rows : Rows Value) (key : String) : Verdict :=
  match Rows.find? rows key with
  | some v => gives v
  | none => silent

theorem ofRows_amend (rows : Rows Value) (key : String) (before : Option Value) :
    (ofRows rows key).amend before = ((Rows.find? rows key).map plain).or before := by
  rw [ofRows]
  split <;> rename_i found <;> simp [found, amend]

end Verdict

/-- The value of an option among rows, without what lies below it. -/
def told (rows : Rows Value) (place key : String) : Option Value :=
  (Rows.find? (look rows place).rows key).map plain

namespace Write

/-- Carry out a write. -/
def onto (w : Write) (rows : Rows Value) : Rows Value :=
  put w.path w.value rows

/-- The section that a write leaves at the top when there was nothing before. -/
def alone (w : Write) : Value :=
  look (w.onto []) w.path.root

/-- What a write says about an option. -/
def verdict (w : Write) (place key : String) : Verdict :=
  if w.path.root = place then
    match w.alone with
    | .table rows => .ofRows rows key
    | _ => .discards
  else .silent

theorem alone_eq (w : Write) :
    w.alone = change (overlay · w.value) w.path.steps .unset := by
  rw [alone, onto, look_put, if_pos rfl]
  rfl

/-- Apart from what lies below it, a section is as the last write alone leaves
it. -/
theorem plain_look_onto (w : Write) (rows : Rows Value) (place : String) :
    (look (w.onto rows) place).plain =
      if place = w.path.root then w.alone.plain else (look rows place).plain := by
  rw [onto, look_put, alone_eq]
  split
  · exact plain_change (fun v v' => by simp) w.path.steps _ _
  · rfl

/-- An option has what the last write says about it. -/
theorem told_onto (w : Write) (rows : Rows Value) (place key : String) :
    told (w.onto rows) place key = (w.verdict place key).amend (told rows place key) := by
  rw [told, verdict, onto, look_put, alone_eq]
  by_cases here : place = w.path.root
  case neg =>
    rw [if_neg here, if_neg (Ne.symm here)]
    rfl
  rw [if_pos here, if_pos here.symm, ← here, told]
  generalize look rows place = old
  -- The verdict is read off the first step of the path, or off the value without one.
  cases w.path.steps with
  | nil =>
      simp only [change]
      cases w.value with
      | table more =>
          simp only [overlay, Value.rows, Verdict.ofRows_amend]
          exact find?_overlayRows key more old.rows
      | _ => rfl
  | cons step rest =>
      cases step with
      | key name =>
          simp only [change, Value.rows, Verdict.ofRows_amend, Rows.find?_assign, Rows.find?_nil]
          by_cases named : key = name
          · rw [if_pos named, if_pos named]
            exact congrArg some (plain_change (fun v v' => by simp) rest _ _)
          · rw [if_neg named, if_neg named]
            rfl
      | position index => rfl

end Write

namespace Layer

/-- Carry out writes in their order. -/
def onto (layer : Layer) (rows : Rows Value) : Rows Value :=
  layer.foldl (fun rows w => w.onto rows) rows

/-- The writes of a source, one for each of its rows. -/
def ofSource (rows : Rows Value) : Layer :=
  rows.map fun row => ⟨(KeyPath.ofText? row.1).getD ⟨row.1, []⟩, row.2⟩

/-- The writes of overrides. -/
def ofOverrides (overrides : List (KeyPath × String)) : Layer :=
  overrides.map fun o => ⟨o.1, .text o.2⟩

theorem putSource_eq (rows source : Rows Value) :
    putSource rows source = (ofSource source).onto rows := by
  rw [onto, ofSource, List.foldl_map]
  rfl

theorem applyOverrides_eq (rows : Rows Value) (overrides : List (KeyPath × String)) :
    applyOverrides rows overrides = (ofOverrides overrides).onto rows := by
  rw [onto, ofOverrides, List.foldl_map]
  rfl

/-- What the writes of a layer say about an option: the last one that says
something counts. -/
def verdict (layer : Layer) (place key : String) : Verdict :=
  .first (layer.reverse.map fun w => w.verdict place key)

/-- Whether a write of a layer concerns a place at the top. -/
def mentions (layer : Layer) (place : String) : Bool :=
  layer.any fun w => decide (w.path.root = place)

/-- Whether the last write of a layer that concerns a place makes it a list. -/
def endsAsList (layer : Layer) (place : String) : Bool :=
  (layer.reverse.find? fun w => decide (w.path.root = place)).any fun w => w.alone.isList

theorem verdict_append (older newer : Layer) (place key : String) :
    verdict (older ++ newer) place key =
      (newer.verdict place key).or (older.verdict place key) := by
  rw [verdict, List.reverse_append, List.map_append, Verdict.first_append]
  rfl

/-- Of layers in a row the last one that says something counts. -/
theorem verdict_flatten (layers : List Layer) (place key : String) :
    verdict layers.flatten place key =
      .first (layers.reverse.map fun layer => layer.verdict place key) := by
  induction layers with
  | nil => rfl
  | cons layer rest ih =>
      rw [List.flatten_cons, verdict_append, ih, List.reverse_cons, List.map_append,
        Verdict.first_append, List.map_singleton, Verdict.first, Verdict.first, Verdict.or_silent]

theorem onto_append (older newer : Layer) (rows : Rows Value) :
    onto (older ++ newer) rows = newer.onto (older.onto rows) :=
  List.foldl_append

/-- An option has what a layer says about it. -/
theorem told_onto (layer : Layer) (rows : Rows Value) (place key : String) :
    told (layer.onto rows) place key = (layer.verdict place key).amend (told rows place key) := by
  induction layer generalizing rows with
  | nil => rfl
  | cons w rest ih =>
      have one : verdict [w] place key = w.verdict place key := Verdict.or_silent _
      calc
        told (onto rest (w.onto rows)) place key
        _ = (verdict rest place key).amend (told (w.onto rows) place key) := ih (w.onto rows)
        _ = ((verdict rest place key).or (w.verdict place key)).amend (told rows place key) := by
            rw [Write.told_onto, Verdict.amend_or]
        _ = (verdict ([w] ++ rest) place key).amend (told rows place key) := by
            rw [verdict_append, one]

/-- Apart from what lies below it, a section is as the last write that concerns it
leaves it. -/
theorem plain_look_onto (layer : Layer) (rows : Rows Value) (place : String) :
    (look (layer.onto rows) place).plain =
      match layer.reverse.find? fun w => decide (w.path.root = place) with
      | some w => w.alone.plain
      | none => (look rows place).plain := by
  induction layer generalizing rows with
  | nil => rfl
  | cons w rest ih =>
      rw [List.reverse_cons, List.find?_append]
      refine (ih (w.onto rows)).trans ?_
      cases rest.reverse.find? fun w => decide (w.path.root = place) with
      | some last => rfl
      | none =>
          simp only [Write.plain_look_onto, Option.none_or, List.find?_singleton]
          by_cases here : place = w.path.root
          · simp [here]
          · simp [here, Ne.symm here]

/-- A place holds a list only if a layer makes it one in the end. -/
theorem isList_onto {layer : Layer} {place : String} (unlisted : layer.endsAsList place = false) :
    (look (layer.onto []) place).isList = false := by
  rw [← isList_plain, plain_look_onto]
  rw [endsAsList] at unlisted
  split <;> rename_i found
  · rw [found] at unlisted
    rw [isList_plain]
    exact unlisted
  · rfl

theorem endsAsList_of_forall {layer : Layer} (unlisted : ∀ w ∈ layer, w.alone.isList = false)
    (place : String) : layer.endsAsList place = false := by
  rw [endsAsList]
  cases found : layer.reverse.find? fun w => decide (w.path.root = place) with
  | none => rfl
  | some w => exact unlisted w (List.mem_reverse.mp (List.mem_of_find?_eq_some found))

theorem endsAsList_append (older newer : Layer) (place : String) :
    endsAsList (older ++ newer) place =
      if newer.mentions place then newer.endsAsList place else older.endsAsList place := by
  rw [endsAsList, List.reverse_append, List.find?_append, endsAsList, mentions, endsAsList]
  cases found : newer.reverse.find? fun w => decide (w.path.root = place) with
  | some w =>
      have here : decide (w.path.root = place) = true :=
        List.find?_some (p := fun w : Write => decide (w.path.root = place)) found
      have mentioned : newer.any (fun w => decide (w.path.root = place)) = true :=
        List.any_eq_true.mpr ⟨w, List.mem_reverse.mp (List.mem_of_find?_eq_some found), here⟩
      rw [if_pos mentioned]
      rfl
  | none =>
      have unmentioned : newer.any (fun w => decide (w.path.root = place)) = false := by
        simpa [List.find?_eq_none] using found
      rw [unmentioned]
      rfl

/-- A place at the top is there iff it was there before or a layer mentions it. -/
theorem isSome_find?_onto (layer : Layer) (rows : Rows Value) (place : String) :
    (Rows.find? (layer.onto rows) place).isSome =
      (layer.mentions place || (Rows.find? rows place).isSome) := by
  induction layer generalizing rows with
  | nil => rfl
  | cons w rest ih =>
      refine (ih (w.onto rows)).trans ?_
      rw [Write.onto, put, Rows.find?_assign, mentions, mentions, List.any_cons]
      by_cases here : place = w.path.root
      · simp [here]
      · simp [here, Ne.symm here]

/-- No name stands twice in a section. -/
theorem nodup_onto (layer : Layer) (rows : Rows Value) (place : String)
    (nodup : ((look rows place).rows.map Prod.fst).Nodup) :
    ((look (layer.onto rows) place).rows.map Prod.fst).Nodup := by
  induction layer generalizing rows with
  | nil => exact nodup
  | cons w rest ih =>
      refine ih (w.onto rows) ?_
      rw [Write.onto, look_put]
      split
      · rename_i here
        exact nodup_change w.value w.path.steps _ (here ▸ nodup)
      · exact nodup

end Layer

/-- Whether a text is a key that an override can have, for a path. -/
def IsKey (key : String) (path : KeyPath) : Prop :=
  key.toList.all (· != '=') = true ∧ trim key.toList = key.toList ∧ key.toList ≠ [] ∧
    KeyPath.ofText? key = some path

instance (key : String) (path : KeyPath) : Decidable (IsKey key path) :=
  inferInstanceAs (Decidable (_ ∧ _ ∧ _ ∧ _))

/-- An override is split behind its key, whatever its text is. -/
theorem readOverride_of_key {key : String} {path : KeyPath} (isKey : IsKey key path)
    (text : String) : readOverride (key ++ "=" ++ text) = .ok (path, text) := by
  obtain ⟨free, trimmed, given, read⟩ := isKey
  rw [List.all_eq_true] at free
  have split : splitOverride (key ++ "=" ++ text) = .ok (key, text) := by
    have chars : (key ++ "=" ++ text).toList = key.toList ++ '=' :: text.toList := by
      simp
    simp only [splitOverride, chars, List.takeWhile_append_of_pos free,
      List.dropWhile_append_of_pos free, List.takeWhile_cons_of_neg, List.dropWhile_cons_of_neg,
      bne_self_eq_false, Bool.false_eq_true, not_false_eq_true, List.append_nil, trimmed, given,
      if_false, String.ofList_toList]
  rw [readOverride, split]
  simp only [read]

end GitTutor.Config
