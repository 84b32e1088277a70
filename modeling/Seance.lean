import Seance.Lib.Table
import Seance.Lib.Register
import Seance.Lib.Replica
import Seance.Lib.Program
import Seance.Vault.Model
import Seance.Vault.Text
import Seance.Vault.Primitives
import Seance.Lib.Select
import Seance.Vault.Storage
import Seance.Vault.Store
import Seance.Vault.Records
import Seance.Vault.Calls
import Seance.Vault.Sample
import Seance.Vault.Effects
import Seance.Vault.Merging
import Seance.Vault.Bootstrap
import Seance.Vault.Convergence
import Seance.Vault.Keying
import Seance.Vault.Wrapping
import Seance.Vault.Sync
import Seance.Vault.Exchange
import Seance.Vault.Pulls
import Seance.Vault.Clock
import Seance.Vault.Headroom
import Seance.Vault.Crash
import Seance.Vault.Keys
import Seance.Vault.Agreement
import Seance.Vault.Snapshot
import Seance.Vault.Atomicity
import Seance.Vault.Kinds
import Seance.Vault.Opening
import Seance.Vault.Edits
import Seance.Vault.Local
import Seance.Vault.Locked
import Seance.Lib.Code
import Seance.Vault.Substitution
import Seance.Vault.References
import Seance.Vault.ReadBack
import Seance.Vault.Endpoints
import Seance.Sync.Head
import Seance.Sync.Paging
import Seance.Sync.Stream
import Seance.Sync.Serial
import Seance.Sync.Retry
import Seance.Lib.Alone
import Seance.Lib.Base64
import Seance.Lib.Json
import Seance.Lib.History
import Seance.Lib.Trace
import Seance.Sync.Bootstrap
import Seance.Sync.Pointer
import Seance.Sync.Access
import Seance.Sync.Replay
import Seance.Sync.Uploads
import Seance.Auth.TokenClasses
import Seance.Auth.SingleUse
import Seance.Auth.Rotation
import Seance.Lib.Clamp
import Seance.Terminal.Model
import Seance.Terminal.Ghostty
import Seance.Terminal.Viewport
import Seance.Terminal.Render
import Seance.Terminal.Commands
import Seance.Terminal.Scroll
import Seance.Terminal.Compaction
import Seance.Terminal.Refresh
import Seance.Terminal.AtBottom
import Seance.Ssh.Session
import Seance.Ssh.ExitStatus
import Seance.Ssh.Reported
import Seance.Ssh.Model
import Seance.Ssh.HalfClose
import Seance.Lib.Broadcast
import Seance.Ssh.Tunnel
import Seance.Lib.Tenancy
import Seance.Ssh.Forward
import Seance.Ssh.Running
import Seance.Ssh.Isolation
import Seance.Ssh.Isolated
import Seance.Config.Storage
import Seance.Core.Atomic
import Seance.Core.Indexed
import Seance.Core.Listed
import Seance.Terminal.Delivered
import Seance.Terminal.Incremental
import Seance.Terminal.Sequences
import Seance.Terminal.TurnBounds
import Seance.Ssh.InOrder
import Seance.Ui.Repainted
import Seance.Ssh.Released
import Seance.Terminal.Paste
import Seance.Terminal.TurnRows
import Seance.Updater.Runs
import Seance.Ui.Sftp
import Seance.Ui.Confirmed
import Seance.Core.Transcript
import Seance.Core.Published
import Seance.Core.Rebuilt
import Seance.Ui.FramePacer
import Seance.Ui.Paced
import Seance.Terminal.Mouse
import Seance.Terminal.Rows
import Seance.Lib.Columns
import Seance.Terminal.Selection
import Seance.Terminal.Copied
import Seance.Ui.Fragments
import Seance.Ui.Painted
import Seance.Lib.Serde
import Seance.Config.Format
import Seance.Config.Persistence
import Seance.Ui.Conflicts
import Seance.Core.BatchImport
import Seance.Ui.AuthIndices
import Seance.Ui.Quads
import Seance.Ui.Stranded
import Seance.Ui.WheelRoutes
import Seance.Ui.Scrollbar
import Seance.Ui.Ime
import Seance.Ui.Palette
import Seance.Ui.TokenSpan
import Seance.Ui.Coalescing
import Seance.Core.Sessions
import Seance.Ui.Attempts
import Seance.Platform.Ipc
import Seance.Platform.Instance
import Seance.Platform.Delivery
import Seance.Ui.Wakeups
import Seance.Core.Requests
