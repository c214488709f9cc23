import RemoteDeck.Transport.Delivery
import RemoteDeck.Terminal.Input
import RemoteDeck.Terminal.Screen
import RemoteDeck.Lib.Stream
import RemoteDeck.Lib.Broadcast
import RemoteDeck.Lib.Machine
import RemoteDeck.Lib.Newest
import RemoteDeck.Lib.Notify
import RemoteDeck.Lib.Text
import RemoteDeck.Latch
import RemoteDeck.Keys.Base64
import RemoteDeck.Keys.Deploy
import RemoteDeck.Ssh.Pins
import RemoteDeck.Ssh.Patterns
import RemoteDeck.Session.Bounds
import RemoteDeck.Session.Closing
import RemoteDeck.Session.Generations
import RemoteDeck.Sftp.Transitions
import RemoteDeck.Tunnel.Stop
import RemoteDeck.Tunnel.Published
import RemoteDeck.Tunnel.Logged
import RemoteDeck.Store.JumpFrame
import RemoteDeck.Store.Deletion
import RemoteDeck.Store.Reload
import RemoteDeck.Store.Accepted
import RemoteDeck.Store.Batch
import RemoteDeck.Command.Programs
import RemoteDeck.Command.Confirmation
import RemoteDeck.Client.Merging
import RemoteDeck.Client.Settled
import RemoteDeck.Server.Finality
import RemoteDeck.Server.Idempotence
import RemoteDeck.Telemetry.Escalation
import RemoteDeck.Telemetry.Lines
import RemoteDeck.Telemetry.Agreement
import RemoteDeck.Telemetry.Budgets
import RemoteDeck.Sftp.Retirement
import RemoteDeck.Sftp.Committed
import RemoteDeck.Server.Revisions
import RemoteDeck.Server.Grants
import RemoteDeck.Command.Lifecycle
import RemoteDeck.Migration.Previewed
import RemoteDeck.Telemetry.Orphans
import RemoteDeck.Telemetry.Printed
import RemoteDeck.Session.Decoder
import RemoteDeck.Session.Handshake
import RemoteDeck.Command.Capture
import RemoteDeck.Command.Destructive
import RemoteDeck.Command.Directory
import RemoteDeck.Sftp.LongFormat
import RemoteDeck.Sftp.Confined
import RemoteDeck.Sftp.Destructive
import RemoteDeck.Ssh.Arguments
import RemoteDeck.Keys.Verify
import RemoteDeck.Lib.Tokens
import RemoteDeck.Agent.Plan
import RemoteDeck.Keys.Config
import RemoteDeck.Keys.Scoping
import RemoteDeck.Keys.Generate
import RemoteDeck.Keys.Progress
import RemoteDeck.Keys.Publish
import RemoteDeck.Agent.Words
import RemoteDeck.Server.Starts
import RemoteDeck.Diagnostics
import RemoteDeck.Agent.Service
