import GitTutor.Arguments

/-!
# Forms of arguments

A form lists the options that are understood at one place. Words are taken one by
one. An option whose value is the next word stays open until the word after it
comes, and only then is its value checked; a value in the same word is checked at
once.
-/

namespace GitTutor.Arguments

/-- How an option is used. -/
inductive Usage
  /-- Given at most once, without a value. -/
  | flag
  /-- Given at most once, with a value. -/
  | once
  /-- Given any number of times, with a value each. -/
  | many
  /-- Ends the reading with an outcome of its own. -/
  | stop (outcome : UsageError)
  deriving DecidableEq, Repr

/-- The options of one place. -/
structure Form (ι : Type) where
  /-- The option with a name, which is written after two dashes. -/
  named? : String → Option ι
  /-- The option with a letter, which is written after one dash. -/
  lettered? : Char → Option ι
  usage : ι → Usage
  /-- Check the value of an option. -/
  check : ι → String → Except UsageError Unit

/-- Options that were taken, with their values, in order. -/
abbrev Taken (ι : Type) := List (ι × String)

/-- How far the reading has come. -/
structure Progress (ι : Type) where
  taken : Taken ι
  /-- The option that is still open, and its value if that was given. -/
  pending : Option (ι × Option String)
  /-- The words that are no options. -/
  words : List String

/-- The kinds of words. -/
inductive Word
  /-- Two dashes alone: no options follow. -/
  | escape
  | long (body : List Char)
  | short (letters : List Char)
  | plain
  deriving DecidableEq, Repr

/-- The kind of a word. A single dash is a plain word. -/
def Word.of (word : String) : Word :=
  match word.toList with
  | ['-', '-'] => .escape
  | '-' :: '-' :: body => .long body
  | '-' :: c :: letters => .short (c :: letters)
  | _ => .plain

namespace Progress

variable {ι : Type} [DecidableEq ι]

/-- The reading before the first word. -/
def start : Progress ι := ⟨[], none, []⟩

/-- The values of an option. -/
def values (p : Progress ι) (i : ι) : List String :=
  (p.taken.filter (·.1 = i)).map Prod.snd

/-- The value of an option that is given at most once. -/
def value? (p : Progress ι) (i : ι) : Option String :=
  (p.values i).head?

/-- Whether a flag is set. -/
def isSet (p : Progress ι) (i : ι) : Bool :=
  (p.value? i).isSome

/-- Take an option with its value. -/
def enter (f : Form ι) (p : Progress ι) (i : ι) (value : String) :
    Except UsageError (Progress ι) :=
  if f.usage i ≠ .many ∧ p.isSet i then .error .argumentConflict
  else
    match f.check i value with
    | .error e => .error e
    | .ok () => .ok { p with taken := p.taken ++ [(i, value)] }

/-- Take the option that is still open. -/
def settle (f : Form ι) (p : Progress ι) : Except UsageError (Progress ι) :=
  match p.pending with
  | none => .ok p
  | some (_, none) => .error .invalidValue
  | some (i, some value) => enter f { p with pending := none } i value

/-- Take an option as it occurs, with the value in the same word if there is one. -/
def occur (f : Form ι) (p : Progress ι) (i : ι) (value : Option String) :
    Except UsageError (Progress ι) :=
  match settle f p with
  | .error e => .error e
  | .ok p =>
      match f.usage i, value with
      | .stop outcome, _ => .error outcome
      | .flag, _ => enter f p i ""
      | _, some value => enter f p i value
      | _, none => .ok { p with pending := some (i, none) }

/-- Whether an option takes a value. -/
def takesValue (f : Form ι) (i : ι) : Bool :=
  f.usage i == .once || f.usage i == .many

/-- Take a word after two dashes: a name, and a value after an equals sign. -/
def readLong (f : Form ι) (p : Progress ι) (body : List Char) :
    Except UsageError (Progress ι) :=
  match f.named? (String.ofList (body.takeWhile (· != '='))), body.dropWhile (· != '=') with
  | none, _ => .error .unknownArgument
  | some i, [] => occur f p i none
  | some i, _ :: value =>
      if takesValue f i then occur f p i (some (String.ofList value)) else .error .tooManyValues

/-- The value in the same word as the letter of its option; an equals sign in
between does not count. -/
def attached? : List Char → Option String
  | [] => none
  | '=' :: value => some (String.ofList value)
  | value => some (String.ofList value)

/-- Take the letters after one dash. What follows the letter of an option that
takes a value is that value. -/
def readShort (f : Form ι) (p : Progress ι) : List Char → Except UsageError (Progress ι)
  | [] => .ok p
  | c :: rest =>
      match f.lettered? c with
      | none => .error .unknownArgument
      | some i =>
          if takesValue f i then occur f p i (attached? rest)
          else
            match occur f p i none with
            | .error e => .error e
            | .ok p => readShort f p rest

/-- The reading after a plain word became the value of the option that waits for
one, if one does. -/
def fill? (p : Progress ι) (word : String) : Option (Progress ι) :=
  match p.pending with
  | some (i, none) => some { p with pending := some (i, some word) }
  | _ => none

/-- Take plain words, if the place has any. -/
def collect (f : Form ι) (takesWords : Bool) (p : Progress ι) (words : List String) :
    Except UsageError (Progress ι) :=
  match settle f p with
  | .error e => .error e
  | .ok p =>
      if takesWords ∨ words = [] then .ok { p with words := p.words ++ words }
      else .error .unknownArgument

/-- Take all words. -/
def readAll (f : Form ι) (takesWords : Bool) (p : Progress ι) :
    List String → Except UsageError (Progress ι)
  | [] => settle f p
  | word :: rest =>
      match Word.of word with
      | .escape => collect f takesWords p rest
      | .long body =>
          match readLong f p body with
          | .error e => .error e
          | .ok p => readAll f takesWords p rest
      | .short letters =>
          match readShort f p letters with
          | .error e => .error e
          | .ok p => readAll f takesWords p rest
      | .plain =>
          match p.fill? word with
          | some p => readAll f takesWords p rest
          | none =>
              match collect f takesWords p [word] with
              | .error e => .error e
              | .ok p => readAll f takesWords p rest

end Progress

end GitTutor.Arguments
