import GitTutor.Proofs.Layers
import GitTutor.Program

/-!
# What is assumed of the library

Loading is correct for every library that keeps to what its documentation says: no table or
list is read as a single value, a text is a text as it stands, the text of a variable is read as a
truth value or a number where possible, and maps lose none of their entries. The library that is
used does.
-/

namespace GitTutor.Config

open Text Value

/-- Whether a value has others below it. -/
def Value.isNested : Value → Bool
  | table _ => true
  | list _ => true
  | _ => false

/-- Every option of one value: its section and its name there. -/
def optionKeys : List (String × String) :=
  globalOptions.map ("global", ·) ++ simulatorOptions.map ("simulator", ·) ++
    userOptions.map ("user", ·) ++ terminalOptions.map ("terminal", ·)

/-- The name of the variable of an option. -/
def variableName (place key : String) : String :=
  Program.variableStart ++ "_" ++ place.toUpper ++ "__" ++ key.toUpper

/-- What is assumed of a library. -/
structure Library.Lawful (lib : Library) : Prop where
  text_nested : ∀ v : Value, v.isNested = true → lib.text? v = none
  count_nested : ∀ v : Value, v.isNested = true → lib.count? v = none
  byte_nested : ∀ v : Value, v.isNested = true → lib.byte? v = none
  truth_nested : ∀ v : Value, v.isNested = true → lib.truth? v = none
  /-- A text stays as it is; other values are written as they are usually written. -/
  text_text : ∀ s, lib.text? (.text s) = some s
  text_truth : ∀ b, lib.text? (.truth b) = some (if b then "true" else "false")
  text_integer : ∀ n, lib.text? (.integer n) = some (Int.repr n)
  text_number : ∀ x, lib.text? (.number x) = some x.text
  /-- The digit of a log level is read as its number. -/
  byte_level : ∀ level : LogLevel,
    lib.byte? (.text (Nat.repr level.toNat)) = some level.toNat
  truth_false : lib.truth? (.text "false") = some false
  /-- The text of a variable is a truth value, or else an integer, or else a number, or else a
  text. -/
  ofVariable : ∀ s, lib.ofVariable s = Value.ofVariable s
  variableKey?_name : ∀ option ∈ optionKeys,
    lib.variableKey? Program.variableStart (variableName option.1 option.2) =
      some (option.1 ++ "." ++ option.2)
  perm_rows : ∀ number rows, (lib.arrangeRows number rows).Perm rows
  perm_overrides : ∀ overrides, (lib.arrangeOverrides overrides).Perm overrides

theorem Value.asByte?_digit (level : LogLevel) :
    (Value.text (Nat.repr level.toNat)).asByte? = some level.toNat := by
  have all : ∀ rank : Fin 7, (Value.text (Nat.repr rank.val)).asByte? = some rank.val := by
    decide +kernel
  exact all level.rank

/-- The library that is used keeps to what is assumed. -/
theorem Library.lawful_standard : Library.standard.Lawful where
  text_nested v nested := by cases v <;> first | rfl | cases nested
  count_nested v nested := by cases v <;> first | rfl | cases nested
  byte_nested v nested := by cases v <;> first | rfl | cases nested
  truth_nested v nested := by cases v <;> first | rfl | cases nested
  text_text _ := rfl
  text_truth _ := rfl
  text_integer _ := rfl
  text_number _ := rfl
  byte_level := Value.asByte?_digit
  truth_false := by decide +kernel
  ofVariable _ := rfl
  variableKey?_name := by decide +kernel
  perm_rows _ rows := .refl rows
  perm_overrides overrides := .refl overrides

/-- What is read off a value only depends on its top if nothing is read off tables and lists. -/
theorem read_plain {α : Type} {read : Value → Option α}
    (nested : ∀ v : Value, v.isNested = true → read v = none) (v : Value) :
    read v.plain = read v := by
  cases v with
  | table rows => rw [nested (.table rows) rfl, plain, nested _ rfl]
  | list items => rw [nested (.list items) rfl, plain, nested _ rfl]
  | _ => rfl

theorem optionally?_nested {α : Type} {read : Value → Option α}
    (nested : ∀ v : Value, v.isNested = true → read v = none) (v : Value)
    (isNested : v.isNested = true) : optionally? read v = none := by
  cases v with
  | table rows => simp only [optionally?, nested _ isNested, Option.map_none]
  | list items => simp only [optionally?, nested _ isNested, Option.map_none]
  | _ => cases isNested

namespace Library.Lawful

variable {lib : Library} (lawful : lib.Lawful)

include lawful

theorem text?_plain : ∀ v : Value, lib.text? v.plain = lib.text? v :=
  read_plain lawful.text_nested

theorem level?_plain : ∀ v : Value, lib.level? v.plain = lib.level? v :=
  read_plain fun v nested => by rw [level?, lawful.byte_nested v nested, Option.bind_none]

theorem truth?_plain : ∀ v : Value, lib.truth? v.plain = lib.truth? v :=
  read_plain lawful.truth_nested

theorem optionalPath_plain : ∀ v : Value,
    optionally? lib.path? v.plain = optionally? lib.path? v :=
  read_plain (optionally?_nested fun v nested => by
    rw [path?, lawful.text_nested v nested, Option.map_none])

theorem optionalCount_plain : ∀ v : Value,
    optionally? lib.count? v.plain = optionally? lib.count? v :=
  read_plain (optionally?_nested lawful.count_nested)

/-- A value that is usually written as a text is written as it. -/
theorem text?_of_asText? {v : Value} {t : String} (isText : v.asText? = some t) :
    lib.text? v = some t := by
  cases v with
  | text s => exact (lawful.text_text s).trans isText
  | truth b => exact (lawful.text_truth b).trans isText
  | integer n => exact (lawful.text_integer n).trans isText
  | number x => exact (lawful.text_number x).trans isText
  | _ => cases isText

theorem level?_digit (level : LogLevel) :
    lib.level? (.text (Nat.repr level.toNat)) = some level := by
  rw [level?, lawful.byte_level, Option.bind_some, LogLevel.ofNat?_toNat]

/-- A map with at most one entry has one order. -/
theorem taken_nil (number : Nat) : lib.taken number [] = [] :=
  List.perm_nil.mp (lawful.perm_rows number [])

theorem taken_singleton (number : Nat) (row : String × Value) : lib.taken number [row] = [row] :=
  List.perm_singleton.mp (lawful.perm_rows number [row])

theorem takenOverrides_nil : lib.takenOverrides [] = [] :=
  List.perm_nil.mp (lawful.perm_overrides [])

theorem takenOverrides_singleton (o : KeyPath × String) : lib.takenOverrides [o] = [o] :=
  List.perm_singleton.mp (lawful.perm_overrides [o])

end Library.Lawful

end GitTutor.Config
