import GitTutor.Journal

/-!
# Log levels

A log level is a number from 0, which silences a log, to 6. A level lets through
every event that is no more detailed than it is. The directive of a level also
caps what other programs' parts may log at warnings.
-/

namespace GitTutor

/-- How detailed a log is. -/
structure LogLevel where
  rank : Fin 7
  deriving DecidableEq, Repr

namespace LogLevel

/-- Nothing is logged. -/
def silent : LogLevel := ⟨0⟩

/-- Warnings are logged. -/
def warning : LogLevel := ⟨2⟩

/-- Every change of a repository is logged. -/
def trace : LogLevel := ⟨5⟩

/-- The level with a given number. -/
def ofNat? (n : Nat) : Option LogLevel :=
  if h : n < 7 then some ⟨⟨n, h⟩⟩ else none

/-- The number of a level. -/
def toNat (level : LogLevel) : Nat := level.rank.val

@[simp] theorem ofNat?_toNat (level : LogLevel) : ofNat? level.toNat = some level := by
  simp [ofNat?, toNat]

/-- The name of a level. The two most detailed ones share a name. -/
def name (level : LogLevel) : String :=
  match level.toNat with
  | 0 => "off"
  | 1 => "error"
  | 2 => "warn"
  | 3 => "info"
  | 4 => "debug"
  | _ => "trace"

/-- The less detailed of two levels. -/
def capped (level cap : LogLevel) : LogLevel :=
  if level.toNat ≤ cap.toNat then level else cap

/-- The directive that selects a level. -/
def directive (level : LogLevel) : String :=
  if level = silent then "off"
  else (level.capped warning).name ++ ",gitsim=" ++ level.name

/-- The least level that lets events of a severity through. -/
def needed : Severity → Nat
  | .info => 3
  | .debug => 4
  | .trace => 5

/-- Whether a log of this level holds an event. -/
def admits (level : LogLevel) (event : Event) : Bool :=
  decide (needed event.severity ≤ level.toNat)

end LogLevel

end GitTutor
