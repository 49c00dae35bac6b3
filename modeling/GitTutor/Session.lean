import GitTutor.Command.Reader
import GitTutor.Pathspec.Matching
import GitTutor.Repository.Handler
import GitTutor.Repository.Report

/-!
# Sessions

A session is a practice repository with its source of arbitrary values and the
transcript of what was run. A line works on the session in place, and every
executed line adds exactly one entry to the transcript, whether it succeeds or
is refused.
-/

namespace GitTutor

open Text

/-- One line of work and what it printed. -/
structure Entry where
  command : String
  output : String
  isError : Bool
  deriving DecidableEq, Repr

/-- A repository at work, with its transcript, oldest entry first. -/
structure Session (σ : Type) where
  settings : Settings
  compile : Repository.PatternCompiler
  repository : Repository
  transcript : List Entry
  entropy : σ

/-- How many entries of a transcript report an error. -/
def errorCount (transcript : List Entry) : Nat :=
  (transcript.filter Entry.isError).length

namespace Session

section Parts

variable {σ : Type}

/-- A session before its first line that reads patterns in a given way. -/
def startWith (compile : Repository.PatternCompiler) (settings : Settings) (entropy : σ) :
    Session σ where
  settings := settings
  compile := compile
  repository := Repository.fresh settings
  transcript := []
  entropy := entropy

/-- A session before its first line. -/
def start (settings : Settings) (entropy : σ) : Session σ :=
  startWith Pathspec.compile? settings entropy

/-- Add an entry to the transcript. -/
def note (s : Session σ) (entry : Entry) : Session σ :=
  { s with transcript := s.transcript ++ [entry] }

/-- Forget the transcript; the repository stays. -/
def clear (s : Session σ) : Session σ :=
  { s with transcript := [] }

/-- Print a report. -/
def reporting (report : Session σ → String) : InPlace (Session σ) String := do
  return report (← get)

/-- Print a report that may be refused. -/
def tryReporting (report : Session σ → Except CommandError String) :
    InPlace (Session σ) String := do
  match report (← get) with
  | .ok text => return text
  | .error cause => throw cause

/-- The ending of a session whose repository a handler has worked on. -/
def afterHandler (s : Session σ) :
    EStateM.Result CommandError Repository String →
      EStateM.Result CommandError (Session σ) String
  | .ok text r => .ok text { s with repository := r }
  | .error cause r => .error cause { s with repository := r }

/-- Let a handler work on the repository. -/
def handling (h : Handler String) : InPlace (Session σ) String :=
  fun s => s.afterHandler (h.run s.repository)

/-- Carry out an update that may draw from the source. -/
def drawing (f : Repository → σ → Repository.Answer × σ) : InPlace (Session σ) String :=
  modifyGet fun s =>
    let ((r, text), e) := f s.repository s.entropy
    (text, { s with repository := r, entropy := e })

end Parts

variable {σ : Type} [Entropy σ]

/-- Draw a hash. -/
def drawHash : InPlace (Session σ) String :=
  modifyGet fun s =>
    let (hash, e) := Entropy.hash s.entropy
    (hash, { s with entropy := e })

/-- Carry out a command. -/
def dispatch : Command → InPlace (Session σ) String
  | .version => reporting fun s => s.settings.versionReport
  | .config (.set key value) => handling (.update fun r => r.setIdentity key value)
  | .config request => reporting fun s => s.repository.configReport request
  | .init => reporting fun s => s.settings.initReport
  | .status => reporting fun s => s.repository.statusReport
  | .branch .list => reporting fun s => s.repository.branchReport
  | .branch (.create name) => handling (Handler.createBranch name)
  | .branch (.delete name) => handling (Handler.deleteBranch name)
  | .checkout (.create name) => handling (Handler.checkoutNew name)
  | .checkout (.switch name) => handling (Handler.checkout name)
  | .add request => do handling (Handler.add (← get).compile request)
  | .commit request => drawing fun r e => r.commit request e
  | .log request => tryReporting fun s => s.repository.logReport request
  | .merge branch => handling (Handler.merge branch)
  | .pull request => reporting fun s => s.repository.pullReport request
  | .push request => do
      let old ← drawHash
      let new ← drawHash
      reporting fun s => s.repository.pushReport request old new
  | .clone url => reporting fun _ => Repository.cloneReport url
  | .stash (.push message) => handling (.update fun r => r.stashPush message)
  | .stash .list => reporting fun s => s.repository.stashReport
  | .stash .apply => handling (Handler.restore false)
  | .stash .pop => handling (Handler.restore true)
  | .stash .drop => handling Handler.stashDrop
  | .stash .clear => handling (.update Repository.stashClear)
  | .rebase branch => tryReporting fun s => s.repository.rebaseReport branch
  | .cherryPick hash => drawing fun r e => r.cherryPick hash e

/-- Read a line and carry it out. -/
def respond (line : String) : InPlace (Session σ) String := do
  match Command.ofLine line with
  | .error cause => throw cause
  | .ok command => dispatch command

/-- Execute a line: its outcome becomes one entry of the transcript. -/
def execute (s : Session σ) (line : String) : Session σ :=
  let command := trimmed line
  match (respond command).run s with
  | .error cause after => after.note ⟨command, cause.message, true⟩
  | .ok text after => after.note ⟨command, text, false⟩

/-- The command under which the transcript lists a file put into the tree. -/
def touchCommand : String := "# System: Created mock file"

/-- The name of a file to put into the tree: the one given, or one with a drawn number. -/
def chooseFile (e : σ) : Option String → String × σ
  | some file => (file, e)
  | none =>
      let (number, e) := Entropy.fileNumber e
      ("file" ++ Nat.repr number ++ ".txt", e)

/-- Put a file into the working tree; without a name, one with a drawn number. -/
def touch (s : Session σ) (name : Option String) : Session σ :=
  let (file, e) := chooseFile s.entropy name
  let (r, text) := s.repository.touch file
  { s with repository := r, entropy := e }.note ⟨touchCommand, text, false⟩

/-- What can be done to a session. -/
inductive Step
  | execute (line : String)
  | touch (name : Option String)
  | clear
  deriving DecidableEq, Repr

/-- The session after one step. -/
def step (s : Session σ) : Step → Session σ
  | .execute line => s.execute line
  | .touch name => s.touch name
  | .clear => s.clear

/-- The session after a list of steps. -/
def run (s : Session σ) (steps : List Step) : Session σ :=
  steps.foldl step s

@[simp] theorem run_nil (s : Session σ) : s.run [] = s := rfl

@[simp] theorem run_cons (s : Session σ) (first : Step) (rest : List Step) :
    s.run (first :: rest) = (s.step first).run rest := rfl

end Session

end GitTutor
