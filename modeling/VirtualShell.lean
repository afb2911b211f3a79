import VirtualShell.Main
import VirtualShell.Settings.Written
import VirtualShell.Shell.Buffer
import VirtualShell.Shell.Concurrent
import VirtualShell.Proofs.Run.Consistency
import VirtualShell.Proofs.Run.Cursor
import VirtualShell.Proofs.Run.Recall
import VirtualShell.Proofs.Session.Atomicity
import VirtualShell.Proofs.Shell.Crowd
import VirtualShell.Proofs.Shell.Schedule
import VirtualShell.Proofs.Run.Backends
import VirtualShell.Proofs.Run.Quota
import VirtualShell.Proofs.Run.FirstStart
import VirtualShell.Proofs.Routine.Output
import VirtualShell.Proofs.Shell.Traceless
import VirtualShell.Proofs.Shell.Erasure
import VirtualShell.Proofs.Text.Decoding
import VirtualShell.Proofs.Shell.InputLines
import VirtualShell.Proofs.Shell.Dialogue
import VirtualShell.Proofs.Node.Fields
import VirtualShell.Proofs.Node.Spelling
import VirtualShell.Proofs.Run.Timestamps
import VirtualShell.Proofs.Run.Commuting
import VirtualShell.Proofs.Shell.Listing
import VirtualShell.Proofs.Shell.Colours
import VirtualShell.Proofs.Session.Deletion
import VirtualShell.Proofs.Session.Creation
import VirtualShell.Proofs.Path.Composition
import VirtualShell.Proofs.Session.Travel
import VirtualShell.Proofs.Run.Refusal
import VirtualShell.Proofs.Session.Freeing
import VirtualShell.Proofs.Path.Ancestry
import VirtualShell.Proofs.Settings.Variables
import VirtualShell.Proofs.Settings.Trimmed
import VirtualShell.Proofs.Decimal.Rounding
import VirtualShell.Proofs.Log.Setup
import VirtualShell.Proofs.Shell.ByteSize
import VirtualShell.Proofs.Shell.Handles
import VirtualShell.Proofs.Store.Subtree
