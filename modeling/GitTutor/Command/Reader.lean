import GitTutor.Command
import GitTutor.CommandError
import GitTutor.Text.Count
import GitTutor.Text.Lead

/-!
# Reading command lines

A line is cut into words and read as a command. The first word must be `git`
and the second one names the subcommand, which reads the remaining words. A
line that cannot be read is refused with its cause.
-/

namespace GitTutor

open Text

/-- Whether a word is an option: a dash and at least one more character. -/
def isFlag (word : String) : Bool :=
  match word.toList with
  | '-' :: _ :: _ => true
  | _ => false

/-- Words as free text: joined by single spaces, without double quotes. -/
def freeText (words : List String) : String :=
  String.ofList ((joinWith " " words).toList.filter fun c => c != '"')

/-- The first word as a target; an option is refused. -/
def readTarget (missing : CommandError) : List String → Except CommandError String
  | [] => .error missing
  | word :: _ => if isFlag word then .error (.unknownOption word) else .ok word

/-- The key that a word names. -/
def IdentityKey.ofWord (word : String) : Except CommandError IdentityKey :=
  if word = IdentityKey.name.text then .ok .name
  else if word = IdentityKey.email.text then .ok .email
  else .error (.unsupportedConfigKey word)

/-- The value that the words after a key give it: all of them for the name, and
the first one for the address. -/
def IdentityKey.valueOf : IdentityKey → String → List String → String
  | .name, word, rest => freeText (word :: rest)
  | .email, word, _ => freeText [word]

/-- Read a key and the words after it. -/
def ConfigRequest.ofKeyed : List String → Except CommandError ConfigRequest
  | [] => .error .missingConfigKey
  | word :: values =>
      if isFlag word then .error (.unknownOption word)
      else match IdentityKey.ofWord word with
        | .error cause => .error cause
        | .ok key =>
            match values with
            | [] => .ok (.get key)
            | value :: rest => .ok (.set key (key.valueOf value rest))

/-- Read the arguments of `git config`. -/
def ConfigRequest.ofWords : List String → Except CommandError ConfigRequest
  | [] => .ok .summary
  | word :: rest =>
      if word = "--list" ∨ word = "-l" then .ok .listing
      else if word = "--global" ∨ word = "--local" then ofKeyed rest
      else ofKeyed (word :: rest)

/-- Whether a word asks `git branch` for its list. -/
def BranchRequest.asksList (word : String) : Bool :=
  word = "--list" || word = "-l" || word = "-a" || word = "--all"

/-- Whether a word asks `git branch` for a deletion. -/
def BranchRequest.asksDelete (word : String) : Bool :=
  word = "-d" || word = "-D" || word = "--delete"

/-- Read the arguments of `git branch`. -/
def BranchRequest.ofWords : List String → Except CommandError BranchRequest
  | [] => .ok .list
  | word :: rest =>
      if asksList word then .ok .list
      else if asksDelete word then
        match rest with
        | [] => .error .missingBranchName
        | name :: _ => .ok (.delete name)
      else if isFlag word then .error (.unknownOption word)
      else .ok (.create word)

/-- Read the arguments of `git checkout`. -/
def CheckoutRequest.ofWords : List String → Except CommandError CheckoutRequest
  | [] => .error .missingBranchName
  | word :: rest =>
      if word = "-b" then
        match rest with
        | [] => .error .missingBranchName
        | name :: _ => .ok (.create name)
      else if isFlag word then .error (.unknownOption word)
      else .ok (.switch word)

/-- Whether a word asks `git add` for every modified file. -/
def AddRequest.asksAll (word : String) : Bool :=
  word = "." || word = "-A" || word = "--all"

/-- Read the arguments of `git add`. -/
def AddRequest.ofWords : List String → Except CommandError AddRequest
  | [] => .error .nothingSpecified
  | word :: rest =>
      if asksAll word then .ok .all
      else match (word :: rest).find? isFlag with
        | some flag => .error (.unknownOption flag)
        | none => .ok (.paths (word :: rest))

/-- Whether a word starts the message of `git commit`. -/
def CommitRequest.startsMessage (word : String) : Bool :=
  word = "-m" || word = "--message" || word = "-am"

/-- Whether a word asks `git commit` to stage modified files. -/
def CommitRequest.asksAll (word : String) : Bool :=
  word = "-a" || word = "--all"

/-- Read the arguments of `git commit`, where `all` tells whether an earlier
word asked to stage modified files. -/
def CommitRequest.scan (all : Bool) : List String → Except CommandError CommitRequest
  | [] => .error .missingCommitMessage
  | word :: rest =>
      if startsMessage word then
        let message := freeText rest
        if isAllBlank message then .error .emptyCommitMessage
        else .ok ⟨message, all || word = "-am"⟩
      else scan (all || asksAll word) rest

/-- Read the arguments of `git commit`. -/
def CommitRequest.ofWords (words : List String) : Except CommandError CommitRequest :=
  scan false words

/-- Read a limit of `git log`. -/
def LogRequest.readLimit (value : String) : Except CommandError Nat :=
  match readCount? wordBound value.toList with
  | some n => .ok n
  | none => .error (.invalidLogLimit value)

/-- The limit text that a single word carries: after `--max-count=`, after `-n`,
or the digits after a dash. -/
def LogRequest.limitIn? (word : String) : Option String :=
  match dropLead? "--max-count=".toList word.toList with
  | some value => some (String.ofList value)
  | none =>
      match dropLead? "-n".toList word.toList with
      | some value => some (String.ofList value)
      | none =>
          match word.toList with
          | '-' :: value =>
              if value ≠ [] ∧ value.all isDecimal then some (String.ofList value) else none
          | _ => none

/-- Add what a single word says to a request. -/
def LogRequest.addWord (request : LogRequest) (word : String) :
    Except CommandError LogRequest :=
  if word = "--oneline" then .ok { request with oneline := true }
  else if word = "--graph" then .ok { request with graph := true }
  else if word = "--all" then .ok { request with all := true }
  else match limitIn? word with
    | some value =>
        match readLimit value with
        | .error cause => .error cause
        | .ok limit => .ok { request with limit := some limit }
    | none =>
        if isFlag word then .error (.unknownOption word)
        else .ok { request with branch := some word }

/-- Add what the arguments of `git log` say to a request, from left to right. A
later limit or branch replaces an earlier one. -/
def LogRequest.addWords (request : LogRequest) : List String → Except CommandError LogRequest
  | [] => .ok request
  | [word] => if word = "-n" then .error (.invalidLogLimit "") else request.addWord word
  | word :: value :: rest =>
      if word = "-n" then
        match readLimit value with
        | .error cause => .error cause
        | .ok limit => addWords { request with limit := some limit } rest
      else match request.addWord word with
        | .error cause => .error cause
        | .ok request => addWords request (value :: rest)

/-- Read the arguments of `git log`. -/
def LogRequest.ofWords (words : List String) : Except CommandError LogRequest :=
  LogRequest.plain.addWords words

/-- Read the arguments of `git pull` and `git push`; options are ignored. -/
def RemoteRequest.ofWords (words : List String) : RemoteRequest :=
  let positional := words.filter fun word => !isFlag word
  ⟨positional[0]?, positional[1]?⟩

/-- Whether an option of `git clone` is followed by a value. -/
def takesValue (word : String) : Bool :=
  word = "--depth" || word = "--branch" || word = "-b" || word = "--origin" || word = "-o"

/-- Read the arguments of `git clone`: the first word that is neither an option
nor the value of one. -/
def readUrl : List String → Except CommandError String
  | [] => .error .missingUrl
  | [word] => if takesValue word || isFlag word then .error .missingUrl else .ok word
  | word :: next :: rest =>
      if takesValue word then readUrl rest
      else if isFlag word then readUrl (next :: rest)
      else .ok word

/-- The message that the words after `git stash push` give, if it is not blank. -/
def StashRequest.messageOf (words : List String) : Option String :=
  let message := freeText words
  if isAllBlank message then none else some message

/-- Read the arguments of `git stash`. -/
def StashRequest.ofWords : List String → Except CommandError StashRequest
  | [] => .ok (.push none)
  | word :: rest =>
      if word = "save" ∨ word = "push" then
        match rest with
        | [] => .ok (.push none)
        | first :: more =>
            if first = "-m" ∨ first = "--message" then .ok (.push (messageOf more))
            else .ok (.push (messageOf (first :: more)))
      else if word = "list" then .ok .list
      else if word = "apply" then .ok .apply
      else if word = "pop" then .ok .pop
      else if word = "drop" then .ok .drop
      else if word = "clear" then .ok .clear
      else .error (.unknownStashCommand word)

/-- Read the arguments of a subcommand. -/
def Command.ofSubcommand (name : String) (words : List String) : Except CommandError Command :=
  match name with
  | "--version" => .ok .version
  | "config" => Command.config <$> ConfigRequest.ofWords words
  | "init" => .ok .init
  | "status" => .ok .status
  | "branch" => Command.branch <$> BranchRequest.ofWords words
  | "checkout" => Command.checkout <$> CheckoutRequest.ofWords words
  | "add" => Command.add <$> AddRequest.ofWords words
  | "commit" => Command.commit <$> CommitRequest.ofWords words
  | "log" => Command.log <$> LogRequest.ofWords words
  | "merge" => Command.merge <$> readTarget .missingBranchName words
  | "pull" => .ok (.pull (RemoteRequest.ofWords words))
  | "push" => .ok (.push (RemoteRequest.ofWords words))
  | "clone" => Command.clone <$> readUrl words
  | "stash" => Command.stash <$> StashRequest.ofWords words
  | "rebase" => Command.rebase <$> readTarget .missingBranchName words
  | "cherry-pick" => Command.cherryPick <$> readTarget .missingCommitHash words
  | other => .error (.unknownSubcommand other)

/-- Read the words of a line. -/
def Command.ofWords : List String → Except CommandError Command
  | [] => .error (.commandNotFound "")
  | word :: rest =>
      if word = "git" then
        match rest with
        | [] => .error .missingSubcommand
        | name :: arguments => Command.ofSubcommand name arguments
      else .error (.commandNotFound word)

/-- Read a command line. -/
def Command.ofLine (line : String) : Except CommandError Command :=
  Command.ofWords (wordsOf line)

end GitTutor
