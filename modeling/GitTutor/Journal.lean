import GitTutor.Session
import GitTutor.Text.Quoted

/-!
# The journal of a session

While lines are executed, events are noted for the log. An event is read off
the repository before and after a command, so that noting it cannot change what
the command does.
-/

namespace GitTutor

open Text

/-- How detailed a log must be to hold an event. -/
inductive Severity
  | info
  | debug
  | trace
  deriving DecidableEq, Repr

/-- The parts of the program that note events. -/
inductive Origin
  | session
  | operations
  | run
  | shell
  deriving DecidableEq, Repr

/-- The name of a part in a log file. -/
def Origin.text : Origin → String
  | .session => "gitsim::git"
  | .operations => "gitsim::git::ops"
  | .run => "gitsim::cmd::run"
  | .shell => "gitsim::cmd::repl"

/-- Something that happened: where, what, and the values that belong to it. -/
structure Event where
  severity : Severity
  origin : Origin
  message : String
  fields : List (String × String)
  deriving DecidableEq, Repr

namespace Journal

/-- A detailed event of an operation. -/
def traced (message : String) (fields : List (String × String)) : Event :=
  ⟨.trace, .operations, message, fields⟩

/-- A number as the value of a field. -/
def number (n : Nat) : String := Nat.repr n

/-- A truth value as the value of a field. -/
def truth (b : Bool) : String := if b then "true" else "false"

/-- The hash of the newest commit of the current log. -/
def newestHash (r : Repository) : String :=
  (r.currentLog.getLast?.map Commit.hash).getD ""

/-- The events of a command that turned one repository into another. -/
def ofCommand (before after : Repository) : Command → List Event
  | .config (.set key value) =>
      [traced "set config" [("key", quotedForLog key.text), ("value", value)]]
  | .branch (.create name) =>
      [traced "created branch" [("branch", quotedForLog name), ("from", before.current)]]
  | .branch (.delete name) => [traced "deleted branch" [("branch", quotedForLog name)]]
  | .checkout (.create name) =>
      [traced "switched to new branch" [("branch", quotedForLog name)]]
  | .checkout (.switch name) =>
      if name = before.current then []
      else [traced "switched branch" [("branch", quotedForLog name)]]
  | .add _ => [traced "updated index" [("staged", number after.staged.length)]]
  | .commit request =>
      if before.nothingToCommit request.all then []
      else [traced "created commit" [("hash", newestHash after), ("branch", before.current)]]
  | .merge branch =>
      if branch = before.current ∨ before.incoming branch = [] then []
      else [traced "merged branch"
        [("from", quotedForLog branch), ("into", before.current),
         ("merged", number (before.incoming branch).length)]]
  | .stash (.push _) =>
      if before.isClean then []
      else [traced "stashed changes" [("entries", number after.stash.length)]]
  | .stash .apply =>
      [traced "restored stash" [("pop", truth false), ("entries", number after.stash.length)]]
  | .stash .pop =>
      [traced "restored stash" [("pop", truth true), ("entries", number after.stash.length)]]
  | .cherryPick hash =>
      [traced "cherry-picked commit"
        [("source", quotedForLog hash), ("hash", newestHash after)]]
  | _ => []

/-- The events of executing a line. -/
def ofLine {σ : Type} [Entropy σ] (s : Session σ) (line : String) : List Event :=
  let command := trimmed line
  let executed := fun (isError : Bool) (r : Repository) =>
    Event.mk .debug .session "executed command"
      [("command", quotedForLog command), ("is_error", truth isError), ("branch", r.current)]
  match Command.ofLine command with
  | .error _ => [executed true s.repository]
  | .ok request =>
      match (Session.dispatch request).run s with
      | .error _ after => [executed true after.repository]
      | .ok _ after =>
          ofCommand s.repository after.repository request ++ [executed false after.repository]

end Journal

end GitTutor
