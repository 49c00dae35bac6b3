/-!
# Commands

A command line that is understood becomes a command. Each subcommand has a
request of its own shape, so that carrying it out never looks at words again.
-/

namespace GitTutor

/-- The two parts of the identity that commits are made under. -/
inductive IdentityKey
  | name
  | email
  deriving DecidableEq, Repr

/-- The key as it is written on a command line. -/
def IdentityKey.text : IdentityKey → String
  | .name => "user.name"
  | .email => "user.email"

/-- Requests of `git config`. -/
inductive ConfigRequest
  /-- The values that are set. -/
  | summary
  /-- Every key, with a placeholder for values that are not set. -/
  | listing
  | get (key : IdentityKey)
  | set (key : IdentityKey) (value : String)
  deriving DecidableEq, Repr

/-- Requests of `git branch`. -/
inductive BranchRequest
  | list
  | create (name : String)
  | delete (name : String)
  deriving DecidableEq, Repr

/-- Requests of `git checkout`. -/
inductive CheckoutRequest
  /-- Create a branch and switch to it. -/
  | create (name : String)
  | switch (name : String)
  deriving DecidableEq, Repr

/-- Requests of `git add`. -/
inductive AddRequest
  /-- Every modified file. -/
  | all
  | paths (pathspecs : List String)
  deriving DecidableEq, Repr

/-- A request of `git commit`; with `all`, modified files are staged first. -/
structure CommitRequest where
  message : String
  all : Bool
  deriving DecidableEq, Repr

/-- A request of `git log`. -/
structure LogRequest where
  oneline : Bool
  graph : Bool
  all : Bool
  limit : Option Nat
  branch : Option String
  deriving DecidableEq, Repr

/-- The request of `git log` without arguments. -/
def LogRequest.plain : LogRequest := ⟨false, false, false, none, none⟩

/-- A request of `git pull` or `git push`. -/
structure RemoteRequest where
  remote : Option String
  branch : Option String
  deriving DecidableEq, Repr

/-- Requests of `git stash`. -/
inductive StashRequest
  | push (message : Option String)
  | list
  | apply
  | pop
  | drop
  | clear
  deriving DecidableEq, Repr

/-- What one command line asks for. -/
inductive Command
  | version
  | config (request : ConfigRequest)
  | init
  | status
  | branch (request : BranchRequest)
  | checkout (request : CheckoutRequest)
  | add (request : AddRequest)
  | commit (request : CommitRequest)
  | log (request : LogRequest)
  | merge (branch : String)
  | pull (request : RemoteRequest)
  | push (request : RemoteRequest)
  | clone (url : String)
  | stash (request : StashRequest)
  | rebase (branch : String)
  | cherryPick (hash : String)
  deriving DecidableEq, Repr

end GitTutor
