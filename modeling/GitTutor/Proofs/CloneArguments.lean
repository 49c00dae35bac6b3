import GitTutor.Command.Reader

/-!
# Arguments of a clone

The arguments of `git clone` begin with items. An item is an option that takes a value together
with the word behind it, whatever that is, or any other option alone. The first word that starts
no item is the address, and the words behind it are not read. No item begins with another one or
with an address, so the arguments can be divided in only one way.
-/

namespace GitTutor

namespace CloneArguments

/-- The options that take the word behind them as their value. -/
def valuedOptions : List String :=
  ["--depth", "--branch", "-b", "--origin", "-o"]

/-- A word that starts with a dash and is longer than the dash. -/
def IsDashed (word : String) : Prop :=
  word.toList.head? = some '-' ∧ 1 < word.length

/-- The words of one item. -/
inductive Item : List String → Prop
  | valued {option : String} (takes : option ∈ valuedOptions) (value : String) :
      Item [option, value]
  | alone {word : String} (dashed : IsDashed word) (other : word ∉ valuedOptions) : Item [word]

/-- A word that starts no item. -/
structure IsAddress (word : String) : Prop where
  unvalued : word ∉ valuedOptions
  undashed : ¬IsDashed word

/-- Arguments divided into items, an address and the words behind it. -/
structure Divided (args : List String) (items : List (List String)) (url : String)
    (post : List String) : Prop where
  each : ∀ item ∈ items, Item item
  address : IsAddress url
  whole : args = items.flatten ++ url :: post

theorem takesValue_iff {word : String} : takesValue word = true ↔ word ∈ valuedOptions := by
  simp [takesValue, valuedOptions, or_assoc]

theorem isFlag_iff {word : String} : isFlag word = true ↔ IsDashed word := by
  rw [isFlag, IsDashed, ← String.length_toList]
  split
  · rename_i c rest shape
    simp [shape]
  · rename_i short
    refine iff_of_false Bool.false_ne_true ?_
    rintro ⟨dash, more⟩
    obtain ⟨rest, shape⟩ := List.head?_eq_some_iff.mp dash
    cases rest with
    | nil =>
        rw [shape] at more
        exact absurd more (by decide)
    | cons c rest => exact short c rest shape

theorem isAddress_iff {word : String} :
    IsAddress word ↔ takesValue word = false ∧ isFlag word = false := by
  rw [Bool.eq_false_iff, Bool.eq_false_iff, ne_eq, ne_eq, takesValue_iff, isFlag_iff]
  constructor
  · rintro ⟨unvalued, undashed⟩
    exact ⟨unvalued, undashed⟩
  · rintro ⟨unvalued, undashed⟩
    exact ⟨unvalued, undashed⟩

/-- An option that takes a value is passed over with the word behind it. -/
theorem readUrl_valued {option : String} (takes : takesValue option = true) (value : String)
    (rest : List String) : readUrl (option :: value :: rest) = readUrl rest := by
  rw [readUrl, if_pos takes]

/-- Another option is passed over alone. -/
theorem readUrl_alone {word : String} (flag : isFlag word = true) (other : takesValue word = false)
    (rest : List String) : readUrl (word :: rest) = readUrl rest := by
  cases rest with
  | nil => simp [readUrl, flag]
  | cons next rest => simp [readUrl, flag, other]

/-- An address ends the reading, whatever is behind it. -/
theorem readUrl_address {url : String} (address : IsAddress url) (post : List String) :
    readUrl (url :: post) = .ok url := by
  obtain ⟨unvalued, plain⟩ := isAddress_iff.mp address
  cases post with
  | nil => simp [readUrl, unvalued, plain]
  | cons next rest => simp [readUrl, unvalued, plain]

/-- An item is passed over. -/
theorem readUrl_item {item : List String} (h : Item item) (rest : List String) :
    readUrl (item ++ rest) = readUrl rest := by
  cases h with
  | valued takes value => exact readUrl_valued (takesValue_iff.mpr takes) value rest
  | alone dashed other =>
      apply readUrl_alone (isFlag_iff.mpr dashed)
      rw [Bool.eq_false_iff, ne_eq, takesValue_iff]
      exact other

theorem readUrl_items {items : List (List String)} (h : ∀ item ∈ items, Item item)
    (rest : List String) : readUrl (items.flatten ++ rest) = readUrl rest := by
  induction items with
  | nil => rfl
  | cons item items ih =>
      rw [List.flatten_cons, List.append_assoc, readUrl_item (h item List.mem_cons_self)]
      exact ih fun other within => h other (List.mem_cons_of_mem item within)

theorem Divided.readUrl_eq {args : List String} {items : List (List String)} {url : String}
    {post : List String} (h : Divided args items url post) : readUrl args = .ok url := by
  rw [h.whole, readUrl_items h.each, readUrl_address h.address]

/-- An item in front of divided arguments is one more item. -/
theorem Divided.cons {args item : List String} {items : List (List String)} {url : String}
    {post : List String} (h : Divided args items url post) (first : Item item) :
    Divided (item ++ args) (item :: items) url post where
  each := List.forall_mem_cons.mpr ⟨first, h.each⟩
  address := h.address
  whole := by rw [h.whole, List.flatten_cons, List.append_assoc]

/-- Arguments are read as an address only if they can be divided at it. -/
theorem divided_of_readUrl {args : List String} {url : String} (read : readUrl args = .ok url) :
    ∃ items post, Divided args items url post := by
  fun_induction readUrl args with
  | case1 => cases read
  | case2 word option => cases read
  | case3 word plain =>
      obtain rfl := Except.ok.inj read
      rw [Bool.or_eq_true, not_or, Bool.not_eq_true, Bool.not_eq_true] at plain
      exact ⟨[], [], List.forall_mem_nil _, isAddress_iff.mpr plain, rfl⟩
  | case4 option value rest takes ih =>
      obtain ⟨items, post, divided⟩ := ih read
      exact ⟨_, post, divided.cons (.valued (takesValue_iff.mp takes) value)⟩
  | case5 word next rest other flag ih =>
      obtain ⟨items, post, divided⟩ := ih read
      rw [takesValue_iff] at other
      exact ⟨_, post, divided.cons (.alone (isFlag_iff.mp flag) other)⟩
  | case6 word next rest other plain =>
      obtain rfl := Except.ok.inj read
      rw [Bool.not_eq_true] at other plain
      exact ⟨[], next :: rest, List.forall_mem_nil _, isAddress_iff.mpr ⟨other, plain⟩, rfl⟩

theorem readUrl_eq_ok_iff {args : List String} {url : String} :
    readUrl args = .ok url ↔ ∃ items post, Divided args items url post := by
  constructor
  · exact divided_of_readUrl
  · rintro ⟨items, post, divided⟩
    exact divided.readUrl_eq

/-- Arguments without an address are refused for one cause only. -/
theorem readUrl_refused {args : List String} {cause : CommandError}
    (refused : readUrl args = .error cause) : cause = .missingUrl := by
  fun_induction readUrl args with
  | case1 => exact (Except.error.inj refused).symm
  | case2 word option => exact (Except.error.inj refused).symm
  | case3 word plain => cases refused
  | case4 option value rest takes ih => exact ih refused
  | case5 word next rest other flag ih => exact ih refused
  | case6 word next rest other plain => cases refused

theorem readUrl_missing_iff {args : List String} :
    readUrl args = .error .missingUrl ↔ ¬∃ items url post, Divided args items url post := by
  constructor
  · rintro missing ⟨items, url, post, divided⟩
    rw [divided.readUrl_eq] at missing
    cases missing
  · intro none
    cases read : readUrl args with
    | error cause => rw [readUrl_refused read]
    | ok url =>
        obtain ⟨items, post, divided⟩ := divided_of_readUrl read
        exact absurd ⟨items, url, post, divided⟩ none

/-- No words begin with two different items. -/
theorem Item.unique {first other rest rest' : List String} (h : Item first) (h' : Item other)
    (same : first ++ rest = other ++ rest') : first = other ∧ rest = rest' := by
  cases h with
  | valued takes value =>
      cases h' with
      | valued takes' value' =>
          simp only [List.cons_append, List.nil_append, List.cons.injEq] at same
          obtain ⟨rfl, rfl, rfl⟩ := same
          exact ⟨rfl, rfl⟩
      | alone dashed' other' =>
          obtain ⟨rfl, -⟩ := List.cons.inj same
          exact absurd takes other'
  | alone dashed other =>
      cases h' with
      | valued takes' value' =>
          obtain ⟨rfl, -⟩ := List.cons.inj same
          exact absurd takes' other
      | alone dashed' other' =>
          obtain ⟨rfl, rfl⟩ := List.cons.inj same
          exact ⟨rfl, rfl⟩

/-- No words begin with an item and with an address. -/
theorem Item.ne_address {item rest post : List String} {url : String} (h : Item item)
    (address : IsAddress url) : item ++ rest ≠ url :: post := by
  intro same
  cases h with
  | valued takes value =>
      obtain ⟨rfl, -⟩ := List.cons.inj same
      exact address.unvalued takes
  | alone dashed other =>
      obtain ⟨rfl, -⟩ := List.cons.inj same
      exact address.undashed dashed

/-- Arguments can be divided in only one way. -/
theorem Divided.unique {args : List String} {items items' : List (List String)} {url url' : String}
    {post post' : List String} (h : Divided args items url post)
    (h' : Divided args items' url' post') : items = items' ∧ url = url' ∧ post = post' := by
  -- The words alone decide whether an item stands in front and which one, so both begin alike.
  induction items generalizing args items' with
  | nil =>
      have same := h.whole.symm.trans h'.whole
      cases items' with
      | nil =>
          obtain ⟨rfl, rfl⟩ := List.cons.inj same
          exact ⟨rfl, rfl, rfl⟩
      | cons item' items' =>
          rw [List.flatten_cons, List.append_assoc] at same
          exact absurd same.symm ((h'.each item' List.mem_cons_self).ne_address h.address)
  | cons item items ih =>
      obtain ⟨first, own⟩ := List.forall_mem_cons.mp h.each
      have same := h.whole.symm.trans h'.whole
      rw [List.flatten_cons, List.append_assoc] at same
      cases items' with
      | nil => exact absurd same (first.ne_address h'.address)
      | cons item' items' =>
          obtain ⟨first', own'⟩ := List.forall_mem_cons.mp h'.each
          rw [List.flatten_cons, List.append_assoc] at same
          obtain ⟨rfl, rest⟩ := first.unique first' same
          obtain ⟨rfl, rfl, rfl⟩ := ih ⟨own, h.address, rfl⟩ ⟨own', h'.address, rest⟩
          exact ⟨rfl, rfl, rfl⟩

/-- How the arguments of a clone are read. They are read as an address exactly if they are some
items, then that address, then any words; there is no address exactly if they cannot be divided
so. They can be divided in only one way, the words behind the address count for nothing, and an
item may be put in at any border between items in front of the address. -/
theorem clone_arguments_divided (args : List String) :
    (∀ url, readUrl args = .ok url ↔ ∃ items post, Divided args items url post) ∧
    (readUrl args = .error .missingUrl ↔ ¬∃ items url post, Divided args items url post) ∧
    (∀ items url post items' url' post', Divided args items url post →
      Divided args items' url' post' → items = items' ∧ url = url' ∧ post = post') ∧
    (∀ items url post, Divided args items url post → ∀ post',
      readUrl (items.flatten ++ url :: post') = readUrl args) ∧
    ∀ (front : List (List String)) (item back : List String), (∀ other ∈ front, Item other) →
      Item item → args = front.flatten ++ back →
        readUrl (front.flatten ++ item ++ back) = readUrl args := by
  refine ⟨fun url => readUrl_eq_ok_iff, readUrl_missing_iff, ?_, ?_, ?_⟩
  · intro items url post items' url' post' divided divided'
    exact divided.unique divided'
  · intro items url post divided post'
    rw [divided.readUrl_eq, readUrl_items divided.each, readUrl_address divided.address]
  · rintro front item back own first rfl
    rw [List.append_assoc, readUrl_items own, readUrl_item first, readUrl_items own]

/-- A value that looks like an option, a value that looks like an address, an option behind the
address, and an option whose value is missing. -/
theorem clone_arguments_divided_values :
    readUrl ["-b", "--depth", "-q", "-", "-o"] = .ok "-" ∧
      readUrl ["-b", "--depth", "--origin", "u", "-q", "-", "-o"] = .ok "-" ∧
      readUrl ["-q", "--depth"] = .error .missingUrl := by
  have branch : Item ["-b", "--depth"] := .valued (by decide) "--depth"
  have quiet : Item ["-q"] := .alone ⟨by decide, by decide⟩ (by decide)
  have origin : Item ["--origin", "u"] := .valued (by decide) "u"
  obtain ⟨read, _, _, _, insert⟩ := clone_arguments_divided ["-b", "--depth", "-q", "-", "-o"]
  have divided :
      Divided ["-b", "--depth", "-q", "-", "-o"] [["-b", "--depth"], ["-q"]] "-" ["-o"] :=
    ⟨by simp [branch, quiet], ⟨by decide, fun dashed => absurd dashed.2 (by decide)⟩, rfl⟩
  have address := (read "-").mpr ⟨_, _, divided⟩
  refine ⟨address, ?_, rfl⟩
  exact (insert [["-b", "--depth"]] ["--origin", "u"] ["-q", "-", "-o"]
    (by simp [branch]) origin rfl).trans address

end CloneArguments

end GitTutor
