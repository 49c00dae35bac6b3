import GitTutor.FileTree
import GitTutor.Main
import GitTutor.Repository.Handler
import GitTutor.Proofs.Effect
import GitTutor.Proofs.Transition
import GitTutor.Proofs.WellFormed
import GitTutor.Proofs.Atomicity
import GitTutor.Proofs.Draws
import GitTutor.Proofs.Placement
import GitTutor.Proofs.HistoryTree
import GitTutor.Proofs.FilesKept
import GitTutor.Proofs.Transcript
import GitTutor.Proofs.EncodedLines
import GitTutor.Proofs.ScriptShell
import GitTutor.Proofs.WithoutHashes
import GitTutor.Proofs.Words
import GitTutor.Proofs.BranchNames
import GitTutor.Proofs.Layers
import GitTutor.Proofs.Leaves
import GitTutor.Proofs.VariableText
import GitTutor.Proofs.Precedence
import GitTutor.Proofs.FeatureBranch
import GitTutor.Proofs.LostCommits
import GitTutor.Proofs.ShellTurns
import GitTutor.Proofs.TidyText
import GitTutor.Proofs.FrameTable
import GitTutor.Proofs.Staging
import GitTutor.Proofs.StashLaws
import GitTutor.Proofs.MergeLaws
import GitTutor.Proofs.LogSlices
import GitTutor.Proofs.CommitWalk
import GitTutor.Proofs.NewestCommit
import GitTutor.Proofs.StatusLines
import GitTutor.Proofs.BranchList
import GitTutor.Proofs.LineClasses
import GitTutor.Proofs.LogRequests
import GitTutor.Proofs.CommitArguments
import GitTutor.Proofs.Spacing
import GitTutor.Proofs.ConfigWrites
import GitTutor.Proofs.PromptedEntries
import GitTutor.Proofs.ColorSequences
import GitTutor.Proofs.ScriptLines
import GitTutor.Proofs.OptionListing
import GitTutor.Proofs.CloneArguments
import GitTutor.Proofs.CloneDirectory
import GitTutor.Proofs.HashNumbers
