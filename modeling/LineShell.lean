import LineShell.Main
import LineShell.Abi
import LineShell.Backend.Scripted
import LineShell.Proofs.Payload
import LineShell.Proofs.Wording
import LineShell.Proofs.Interchange
import LineShell.Proofs.Delivery
import LineShell.Proofs.Background
import LineShell.Proofs.CaptureMode
import LineShell.Proofs.LastError
import LineShell.Proofs.Joining
import LineShell.Proofs.Transparency
import LineShell.Proofs.Leftovers
import LineShell.Proofs.Holding
import LineShell.Proofs.Verdict
import LineShell.Proofs.Separation
import LineShell.Proofs.Writable
import LineShell.Proofs.FirstFault
import LineShell.Proofs.Cutoff
import LineShell.Proofs.Buffering
import LineShell.Proofs.Sinks
import LineShell.Proofs.Jobs
import LineShell.Proofs.Alone
import LineShell.Proofs.Transfers
import LineShell.Proofs.Places
import LineShell.Proofs.Reaping
import LineShell.Proofs.Readers
import LineShell.Proofs.Builtins
import LineShell.Proofs.Resolution
import LineShell.Proofs.Directories
import LineShell.Proofs.BelowHome
