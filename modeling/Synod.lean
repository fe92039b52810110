import Synod.Acceptor
import Synod.Bytes
import Synod.Client
import Synod.Decimal.Binary64
import Synod.Decimal.Shortest
import Synod.Drill.Acceptor
import Synod.Drill.Launch
import Synod.Drill.Node
import Synod.Drill.Outcome
import Synod.Drill.Shell
import Synod.Drill.Store
import Synod.Error
import Synod.Frame
import Synod.Json.Error
import Synod.Json.Layout
import Synod.Json.Number
import Synod.Json.Skip
import Synod.Json.Text
import Synod.Layout
import Synod.Main
import Synod.Message
import Synod.Node
import Synod.Options
import Synod.Path
import Synod.Peer
import Synod.Rank
import Synod.Record
import Synod.Record.Checksum
import Synod.Rules
import Synod.Shell.Command
import Synod.Shell.Session
import Synod.State
import Synod.Store.Basic
import Synod.Store.Directory
import Synod.Store.File
import Synod.Store.Tamper
import Synod.Text.Blank
import Synod.Text.Decimal
import Synod.Text.Printable
import Synod.Text.Shown
import Synod.Text.Utf8
import Synod.Wire.Basic
import Synod.Wire.Message
import Synod.Workspace
import Synod.Proofs.Grant
import Synod.Proofs.History
import Synod.Proofs.Round
import Synod.Proofs.Agreement
import Synod.Proofs.Utf8
import Synod.Proofs.Codec
import Synod.Proofs.Disk
import Synod.Proofs.Record
import Synod.Proofs.Restart
import Synod.Proofs.Schedule
import Synod.Proofs.Line
import Synod.Proofs.Linearization
import Synod.Proofs.Coherence
import Synod.Proofs.Epoch
import Synod.Proofs.Canonical
import Synod.Proofs.Replay
import Synod.Proofs.Refusal
import Synod.Proofs.Atomic
import Synod.Proofs.Conversation
import Synod.Proofs.Deletion
import Synod.Proofs.Size
import Synod.Proofs.Checksum
import Synod.Proofs.Fault
import Synod.Proofs.Intact
import Synod.Proofs.Damage
import Synod.Proofs.Readable
import Synod.Proofs.Outbid
import Synod.Proofs.Reliable
import Synod.Proofs.Progress
import Synod.Proofs.Highest
import Synod.Proofs.Confluence
import Synod.Proofs.Session
import Synod.Proofs.Retry
import Synod.Proofs.Startup
import Synod.Proofs.Command
import Synod.Proofs.Json.Grammar
import Synod.Proofs.Json.Skipping
import Synod.Proofs.Json.Strings
import Synod.Proofs.Json.Integers
import Synod.Proofs.Json.Lists
import Synod.Proofs.Json.Members
import Synod.Proofs.Json.Loading
import Synod.Proofs.Errand
