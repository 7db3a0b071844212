import Rollout.Channel.Error
import Rollout.Channel.Machine
import Rollout.Channel.Outcome
import Rollout.Channel.Reading
import Rollout.Channel.Shell
import Rollout.Channel.Signal
import Rollout.Channel.Ssh
import Rollout.Cli.Arguments
import Rollout.Cli.Programs
import Rollout.Config.Basic
import Rollout.Config.Check
import Rollout.Config.Error
import Rollout.Config.File
import Rollout.Config.Shape
import Rollout.Config.Spelling
import Rollout.Config.Text
import Rollout.Context
import Rollout.Control.Client
import Rollout.Control.History
import Rollout.Control.Request
import Rollout.Control.Router
import Rollout.Deploy.Basic
import Rollout.Deploy.Conclusion
import Rollout.Deploy.Course
import Rollout.Digest.Sha256
import Rollout.Document.Decode
import Rollout.Document.Edit
import Rollout.Document.Json
import Rollout.Document.Json.Number
import Rollout.Document.Json.Reader
import Rollout.Document.Json.Strings
import Rollout.Document.Json.Writer
import Rollout.Document.Node
import Rollout.Document.Toml.Reader
import Rollout.Document.Toml.Scalars
import Rollout.Document.Toml.Spelling
import Rollout.Document.Toml.Strings
import Rollout.Document.Toml.Tree
import Rollout.Document.Value
import Rollout.Files.Basic
import Rollout.Files.IoError
import Rollout.Files.Programs
import Rollout.Fleet.Basic
import Rollout.Fleet.Bulk
import Rollout.Fleet.Care
import Rollout.Fleet.Clock
import Rollout.Fleet.Course
import Rollout.Fleet.Error
import Rollout.Fleet.Gate
import Rollout.Fleet.Pass
import Rollout.Fleet.Prompt
import Rollout.Fleet.Retry
import Rollout.Fleet.Run
import Rollout.Health.Probe
import Rollout.Health.Round
import Rollout.Health.Schedule
import Rollout.Health.Station
import Rollout.Health.Target
import Rollout.Health.Watch
import Rollout.Http.MediaType
import Rollout.Http.Message
import Rollout.Main
import Rollout.Net.Backend
import Rollout.Net.HostAddress
import Rollout.Net.Ip
import Rollout.Net.Socket
import Rollout.Net.Spelling
import Rollout.Pool.Basic
import Rollout.Pool.Shape
import Rollout.Pool.Table
import Rollout.Pool.Text
import Rollout.Proofs.Channel.Lookup
import Rollout.Proofs.Channel.Words
import Rollout.Proofs.Config.File
import Rollout.Proofs.Config.Port
import Rollout.Proofs.Config.Text
import Rollout.Proofs.Control.Atomic
import Rollout.Proofs.Control.History
import Rollout.Proofs.Control.Transparent
import Rollout.Proofs.Deploy.Crash
import Rollout.Proofs.Deploy.Limits
import Rollout.Proofs.Deploy.Outcome
import Rollout.Proofs.Document.Decode
import Rollout.Proofs.Document.Edit
import Rollout.Proofs.Document.Json.Strings
import Rollout.Proofs.Document.Json.Values
import Rollout.Proofs.Document.Record
import Rollout.Proofs.Document.Toml.Numbers
import Rollout.Proofs.Document.Toml.Reader
import Rollout.Proofs.Document.Toml.Strings
import Rollout.Proofs.Fleet.Admission
import Rollout.Proofs.Fleet.Away
import Rollout.Proofs.Fleet.Budget
import Rollout.Proofs.Fleet.Canaries
import Rollout.Proofs.Fleet.Care
import Rollout.Proofs.Fleet.Cleanup
import Rollout.Proofs.Fleet.Count
import Rollout.Proofs.Fleet.Drain
import Rollout.Proofs.Fleet.Exclusive
import Rollout.Proofs.Fleet.Gate
import Rollout.Proofs.Fleet.Ledger
import Rollout.Proofs.Fleet.Length
import Rollout.Proofs.Fleet.Order
import Rollout.Proofs.Fleet.Passes
import Rollout.Proofs.Fleet.Progress
import Rollout.Proofs.Fleet.Prompt
import Rollout.Proofs.Fleet.Returns
import Rollout.Proofs.Fleet.Steps
import Rollout.Proofs.Fleet.Turns
import Rollout.Proofs.Health.Round
import Rollout.Proofs.Health.Schedule
import Rollout.Proofs.Net.Backend
import Rollout.Proofs.Net.Ip
import Rollout.Proofs.Net.Socket
import Rollout.Proofs.Pool.Edits
import Rollout.Proofs.Pool.Table
import Rollout.Proofs.Pool.Text
import Rollout.Proofs.Text.Blank
import Rollout.Proofs.Text.Decimal
import Rollout.Proofs.Text.Path
import Rollout.Proofs.Text.Utf8
import Rollout.Proofs.Time
import Rollout.Proofs.Upgrade.HealthWait
import Rollout.Proofs.Upgrade.Instant
import Rollout.Proofs.Upgrade.KillSequence
import Rollout.Proofs.Upgrade.LostReply
import Rollout.Proofs.Upgrade.Pool
import Rollout.Proofs.Upgrade.Resume
import Rollout.Proofs.Upgrade.Rounds
import Rollout.Proofs.Upgrade.Steps
import Rollout.Proofs.Upgrade.Stint
import Rollout.Proofs.Upgrade.Stop
import Rollout.Rehearsal.Journal
import Rollout.Rehearsal.Play
import Rollout.Rehearsal.Process
import Rollout.Rehearsal.Rule
import Rollout.Rehearsal.Timeline
import Rollout.Rehearsal.World
import Rollout.Text.Blank
import Rollout.Text.Combining
import Rollout.Text.Decimal
import Rollout.Text.Path
import Rollout.Text.Position
import Rollout.Text.Quoted
import Rollout.Text.Ranges
import Rollout.Text.Shortest
import Rollout.Text.Terminal
import Rollout.Text.Unprintable
import Rollout.Text.Utf8
import Rollout.Time
import Rollout.Upgrade.Basic
import Rollout.Upgrade.Call
import Rollout.Upgrade.Error
import Rollout.Upgrade.History
import Rollout.Upgrade.Position
import Rollout.Upgrade.Run
import Rollout.Upgrade.Stage
import Rollout.Upgrade.Stint
import Rollout.Upgrade.Timed
