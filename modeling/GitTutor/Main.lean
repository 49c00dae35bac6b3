import GitTutor.Program
import Std.Time.Format

/-!
# The command line

The outer layer: it collects the surroundings of an invocation, hands them to
`Program`, and prints what comes back.
-/

namespace GitTutor.CommandLine

open Text

/-- Why the system refused to read a file. -/
def failureOf : IO.Error → ReadFailure
  | .noFileOrDirectory _ _ _ => .missing
  | .inappropriateType _ code _ => if code = 20 then .notDirectory else .directory
  | .invalidArgument _ code text => if code = 36 then .nameTooLong else .other text
  | e => .other e.toString

/-- What is found at a path. -/
def look (path : FilePath) : IO (FilePath × Except ReadFailure (List UInt8)) := do
  if path.bytes.contains 0 then return (path, .error .nulInPath)
  try
    let bytes ← IO.FS.readBinFile path.display
    return (path, .ok bytes.toList)
  catch e => return (path, .error (failureOf e))

/-- The paths at which an invocation looks for its configuration. -/
def configPaths (a : Arguments) : List FilePath :=
  let configs := Program.localFile :: a.configs
  configs ++ configs.filterMap Config.withEnding?

/-- The paths at which an invocation looks for its script. -/
def scriptPaths (a : Arguments) : List FilePath :=
  match a.task with
  | some (.run r) => r.script.toList
  | _ => []

/-- Open a log file at its end. Its directory is made if it is missing. -/
def openLog (path : FilePath) : IO (Except LogFailure IO.FS.Handle) := do
  let directory := path.directory
  try
    if !directory.isEmpty then IO.FS.createDirAll directory.display
  catch _ => return .error (.directory directory)
  try
    return .ok (← IO.FS.Handle.mk path.display .append)
  catch _ => return .error (.file path)

/-- The environment variables of this process. -/
def readVariables : IO (List (String × String)) := do
  try
    let bytes ← IO.FS.readBinFile "/proc/self/environ"
    return (pieces (· == 0) bytes.toList).filterMap fun piece =>
      (decode? piece).bind fun text =>
        match text.toList.dropWhile (· != '=') with
        | _ :: value =>
            some (String.ofList (text.toList.takeWhile (· != '=')), String.ofList value)
        | [] => none
  catch _ => return []

/-- Append a text to a log file. -/
def append (path : FilePath) (text : String) : IO Unit := do
  match ← openLog path with
  | .ok handle => handle.putStr text
  | .error _ => pure ()

/-- Print an outcome and give its exit code. -/
def finish (o : Outcome) : IO UInt32 := do
  match o.log with
  | some (path, text) => append path text
  | none => pure ()
  (← IO.getStdout).putStr o.out
  (← IO.getStderr).putStr o.err
  return o.exit.toUInt32

/-- Print and log what one turn of a session brought, without ending it. -/
def emit (s : Surroundings) (c : Config) (out : String) (events : List Event) : IO Unit := do
  let _ ← finish (Program.conclude c s.stamp out events none)
  (← IO.getStdout).flush

/-- The bytes up to the next line end, which belongs to them, or to the end of the
input. -/
partial def readLine (input : IO.FS.Stream) (front : List UInt8) : IO (List UInt8) := do
  match (← input.read 1).toList with
  | [] => return front.reverse
  | byte :: _ =>
      if byte == 10 then return (byte :: front).reverse
      else readLine input (byte :: front)

/-- Handle lines until the input ends or a line asks to quit. The result is the
session, unless a line was no text. -/
partial def converse (s : Surroundings) (c : Config) (t : Terminal) (input : IO.FS.Stream)
    (session : Session Seeded) : IO (Option (Session Seeded)) := do
  emit s c t.prompt []
  let bytes ← readLine input []
  if bytes.isEmpty then
    emit s c "\n" []
    return some session
  match decode? bytes with
  | none => return none
  | some line =>
      let turn := Shell.handle t session line
      emit s c turn.out (Shell.events session line)
      if turn.quit then return some turn.session
      else converse s c t input turn.session

/-- Hold an interactive session. -/
def hold (s : Surroundings) (c : Config) (noBanner : Bool) : IO UInt32 := do
  let first := Program.session s c
  emit s c (Program.greeting noBanner) [Program.openingEvent first]
  match ← converse s c (Program.terminal s c) (← IO.getStdin) first with
  | some last => finish (Program.conclude c s.stamp "" [Program.closingEvent last] none)
  | none => finish (Program.conclude c s.stamp "" [] (some ReadFailure.notText.message))

/-- The surroundings of an invocation with given arguments. -/
def survey (words : List String) : IO Surroundings := do
  let bindings ← readVariables
  let now ← Std.Time.Timestamp.now
  let stamp := (Std.Time.DateTime.ofTimestamp now Std.Time.TimeZone.ZoneRules.UTC).format
    "uuuu-MM-dd'T'HH:mm:ss.SSSSSSSSS'Z'"
  let randomSeed := UInt64.ofNat (← IO.rand 0 (wordBound - 1))
  let onTerminal ← (← IO.getStdout).isTty
  let around := fun found opened =>
    Surroundings.mk bindings (Files.ofList found) .standard .standard (fun _ => opened) stamp
      randomSeed onTerminal
  match Arguments.ofWords words with
  | .error _ => return around [] (.ok (Files.ofList []))
  | .ok a =>
      let found ← (configPaths a).mapM look
      let first := around found (.ok (Files.ofList found))
      match Program.configuration? first a with
      | some (.ok c) =>
          let opened ← match c.logging.path with
            | none => pure (Except.ok ())
            | some path => (·.map fun _ => ()) <$> openLog path.displayed
          let all := found ++ (← (scriptPaths a).mapM look)
          return around all (opened.map fun _ => Files.ofList all)
      | _ => return first

/-- Carry out one invocation. -/
def invoke (words : List String) : IO UInt32 := do
  let s ← survey words
  match Program.start s words with
  | .done outcome => finish outcome
  | .session c noBanner => hold s c noBanner

end GitTutor.CommandLine

/-- The entry point. -/
def main (words : List String) : IO UInt32 :=
  GitTutor.CommandLine.invoke words
