import CompilerHost.Main
import CompilerHost.Proofs.Sequencing
import CompilerHost.Proofs.Speech
import CompilerHost.Proofs.Turn
import CompilerHost.Proofs.Halting
import CompilerHost.Proofs.Hearing
import CompilerHost.Proofs.Run
import CompilerHost.Proofs.Conservation
import CompilerHost.Proofs.Result
import CompilerHost.Proofs.Delivery
import CompilerHost.Proofs.Contents
import CompilerHost.Proofs.Encoding
import CompilerHost.Proofs.Placing
import CompilerHost.Proofs.Input
import CompilerHost.Proofs.Entering
import CompilerHost.Proofs.Machine
import CompilerHost.Proofs.Bump
import CompilerHost.Proofs.Heap
import CompilerHost.Proofs.StandIn
import CompilerHost.Proofs.RoundTrip
import CompilerHost.Proofs.History
import CompilerHost.Proofs.Cutting
import CompilerHost.Proofs.Escaping
import CompilerHost.Proofs.Files
import CompilerHost.Proofs.Outputs
import CompilerHost.Proofs.Inspection
import CompilerHost.Proofs.Linking
import CompilerHost.Proofs.Reporting
import CompilerHost.Proofs.Milestones
import CompilerHost.Proofs.Deposits
import CompilerHost.Proofs.CommandLine
import CompilerHost.Proofs.JsonTexts
import CompilerHost.Proofs.OptionLists
import CompilerHost.Proofs.BinaryForms
import CompilerHost.Proofs.Framing
import CompilerHost.Proofs.Recovering
import CompilerHost.Proofs.Surfaces
import CompilerHost.Proofs.Attaching
import CompilerHost.Proofs.EntryForms
import CompilerHost.Proofs.Resolving
import CompilerHost.Proofs.Ignoring
import CompilerHost.Proofs.Stepping
import CompilerHost.Proofs.Spending
import CompilerHost.Proofs.Budget
import CompilerHost.Proofs.Frugality
import CompilerHost.Proofs.Ways
import CompilerHost.Proofs.Layout
import CompilerHost.Proofs.Workable
import CompilerHost.Proofs.ResultFormat
import CompilerHost.Proofs.Terminated
import CompilerHost.Proofs.HostCalls
import CompilerHost.Proofs.Silence
import CompilerHost.Proofs.LogUse
import CompilerHost.Proofs.Readable
import CompilerHost.Proofs.LossyReading
import CompilerHost.Proofs.Naming
import CompilerHost.Proofs.Blaming
import CompilerHost.Proofs.TerminalText
import CompilerHost.Proofs.Settling
