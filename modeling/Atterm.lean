import Atterm.Foundation.Guard
import Atterm.Foundation.JsonText
import Atterm.Foundation.Frontier
import Atterm.Foundation.TreeMapFold
import Atterm.Foundation.Runs
import Atterm.Foundation.Champion
import Atterm.Foundation.CausalHistory
import Atterm.Foundation.Base64
import Atterm.Foundation.Earliest
import Atterm.Foundation.Registry
import Atterm.Foundation.Descent
import Atterm.Foundation.BigEndian
import Atterm.Foundation.Fragments
import Atterm.Foundation.Simulation
import Atterm.ConfigSync.Vector
import Atterm.ConfigSync.Clock
import Atterm.ConfigSync.Op
import Atterm.ConfigSync.OpEncoding
import Atterm.ConfigSync.Replica
import Atterm.ConfigSync.Snapshot
import Atterm.ConfigSync.ReplicaInvariant
import Atterm.ConfigSync.Compaction
import Atterm.ConfigSync.Durable
import Atterm.ConfigSync.DurableLoad
import Atterm.ConfigSync.DurableSteps
import Atterm.ConfigSync.DurableRuns
import Atterm.ConfigSync.DurableClock
import Atterm.ConfigSync.Rebase
import Atterm.ConfigSync.Skew
import Atterm.ConfigSync.Winners
import Atterm.ConfigSync.Convergence
import Atterm.ConfigSync.World
import Atterm.ConfigSync.Fleet
import Atterm.ConfigSync.Display
import Atterm.ConfigSync.Pruning
import Atterm.ConfigSync.Space
import Atterm.ConfigSync.RelayCompat
import Atterm.ConfigSync.SetBack
import Atterm.ConfigSync.Batch
import Atterm.Transport.Route
import Atterm.Transport.Record
import Atterm.Transport.Fragment
import Atterm.Transport.DirectRoute
import Atterm.Transport.Transcript
import Atterm.Transport.Handshake
import Atterm.Peer.Documents
import Atterm.Peer.GrantRules
import Atterm.Peer.Attenuation
import Atterm.Peer.Web
import Atterm.Peer.Revocation
import Atterm.Peer.Store
import Atterm.Peer.Denials
import Atterm.Peer.Directory
import Atterm.Peer.Invitations
import Atterm.Peer.Validity
import Atterm.Peer.Renewal
import Atterm.Peer.WebAgreement
import Atterm.Peer.WebDirectory
import Atterm.Desktop.ShellQuote
import Atterm.Desktop.Shortcuts
import Atterm.Foundation.Paging
import Atterm.Desktop.PromptPaging
import Atterm.Desktop.PromptDraft
import Atterm.Desktop.DraftChunks
import Atterm.Epoch.Rotation
import Atterm.Epoch.AssociatedData
import Atterm.Epoch.Resolver
import Atterm.Prefs.Engine
import Atterm.Prefs.Relay
import Atterm.Prefs.Setters
import Atterm.Prefs.SingleWriter
import Atterm.Prefs.Devices
import Atterm.Prefs.Mirror
import Atterm.Prefs.Desktop
import Atterm.Prefs.DesktopPush
import Atterm.Prefs.Adoption
import Atterm.Foundation.Ledger
import Atterm.Foundation.Reports
import Atterm.Foundation.Exclusive
import Atterm.Session.FallbackReason
import Atterm.Session.PeerConnection
import Atterm.Session.PeerRouting
import Atterm.Session.PeerLiveness
import Atterm.Relay.Session
import Atterm.Relay.MetaMerge
import Atterm.Relay.Driver
import Atterm.Relay.Viewers
import Atterm.Relay.LocalDriver
import Atterm.Relay.Streaming
import Atterm.Relay.Reconnect
import Atterm.Relay.Envelope
import Atterm.Relay.Inbound
import Atterm.Relay.FileRequest
import Atterm.Relay.Frames
import Atterm.Relay.Limits
import Atterm.Foundation.Parts
import Atterm.Foundation.Places
import Atterm.Rendezvous.Broker
import Atterm.Rendezvous.Custody
import Atterm.Rendezvous.Mailbox
import Atterm.Rendezvous.Signals
import Atterm.Rendezvous.Views
import Atterm.Foundation.Tally
import Atterm.Rendezvous.Tables
import Atterm.Rendezvous.Accounts
import Atterm.Service.Codec
import Atterm.Service.Lease
import Atterm.Service.LeaseIsolation
import Atterm.Service.Message
import Atterm.Service.Preview
import Atterm.Service.PreviewSurvival
import Atterm.Session.TerminalInput
import Atterm.Transport.Signal
import Atterm.Transport.SignalSwitch
import Atterm.Transport.SwitchFlow
import Atterm.Transport.SwitchSafety
import Atterm.Foundation.Sequences
import Atterm.Foundation.Latest
import Atterm.Terminal.Osc133
import Atterm.Terminal.AnsiStrip
import Atterm.Terminal.AltScreen
import Atterm.Terminal.Command
import Atterm.Terminal.OscTitle
import Atterm.Terminal.Session
import Atterm.Terminal.Silence
import Atterm.Foundation.Passes
import Atterm.Relay.Replay
import Atterm.Relay.RingHistory
import Atterm.Relay.ReplayContent
import Atterm.Foundation.Unfolding
import Atterm.Hosts.Saved
import Atterm.Hosts.Jump
import Atterm.Socks5.Server
import Atterm.SSHConfig.Scoping
import Atterm.HookInstall.Preservation
import Atterm.Foundation.JsonWritten
import Atterm.Transport.SignalLimits
import Atterm.Relay.Ringbuf
import Atterm.Foundation.Json
import Atterm.Foundation.JsonFields
import Atterm.ConfigSync.RelaySchema
import Atterm.Foundation.Base64Std
import Atterm.ConfigSync.RelayRecords
import Atterm.ConfigImport.Additive
import Atterm.ConfigImport.Privacy
import Atterm.Terminal.Inbound
