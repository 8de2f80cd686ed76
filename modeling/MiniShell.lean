import MiniShell.FileTree
import MiniShell.Main
import MiniShell.Proofs.Aggregation
import MiniShell.Proofs.Agreement
import MiniShell.Proofs.ErrorStream
import MiniShell.Proofs.PathRuleIndependence
import MiniShell.Proofs.Rendering
import MiniShell.Proofs.Transcript
import MiniShell.Proofs.Truncation
import MiniShell.Proofs.Components
import MiniShell.Proofs.FailedCommands
import MiniShell.Proofs.OneLine
import MiniShell.Proofs.IdleLines
import MiniShell.Proofs.Decoding
import MiniShell.Proofs.ConcatenationLines
import MiniShell.Proofs.CopiedInput
import MiniShell.Proofs.TrackedDirectory
import MiniShell.Proofs.WordCompletion
import MiniShell.Proofs.Numerals
import MiniShell.Proofs.ExitCodes
import MiniShell.Proofs.PrintedDirectory
import MiniShell.Proofs.Registration
import MiniShell.Proofs.VerbatimWords
import MiniShell.Proofs.CompletedLine
import MiniShell.Proofs.FaultReasons
import MiniShell.Proofs.OptionGrammar
import MiniShell.Proofs.KnownCommands
import MiniShell.Proofs.AskedPaths
import MiniShell.Proofs.PathWalk
import MiniShell.Proofs.TreeBuilding
import MiniShell.Proofs.TreeView
