import Sismatic.Lib.Run
import Sismatic.Lib.OrderedSet
import Sismatic.Lib.Lanes
import Sismatic.ApiTypes
import Sismatic.Store
import Sismatic.StoreMemory.Outbox
import Sismatic.StoreMemory.Clock
import Sismatic.Core.Protocol
import Sismatic.Core.Instructions
import Sismatic.IntentRelay.Translate
import Sismatic.IntentRelay.Relay
import Sismatic.Proof.Heads
import Sismatic.Proof.Steps
import Sismatic.Proof.Conserved
import Sismatic.Proof.Table
import Sismatic.Proof.Fifo
import Sismatic.Proof.Barrier
import Sismatic.Proof.BarrierSafety
import Sismatic.Proof.Progress
import Sismatic.Proof.Wedge
import Sismatic.Proof.Replay
import Sismatic.Proof.Desired
import Sismatic.Proof.Freeze
import Sismatic.Proof.Line
import Sismatic.Proof.Recorder
import Sismatic.Proof.Framing
import Sismatic.Proof.Dispatch
import Sismatic.Proof.AllOrNothing
import Sismatic.Proof.Admitted
import Sismatic.Proof.Sequential
import Sismatic.Proof.Epoch
import Sismatic.Proof.Keyed
import Sismatic.Proof.Held
import Sismatic.Proof.Recovery
import Sismatic.Proof.Handover
import Sismatic.Lib.Bytes
import Sismatic.Core.Query
import Sismatic.Core.Config
import Sismatic.Core.Registry
import Sismatic.StoreMemory.Catalog
import Sismatic.Server.Fleet
import Sismatic.Proof.Identity
import Sismatic.Proof.Coherence
import Sismatic.Proof.Undisturbed
import Sismatic.HttpApi.Writes
import Sismatic.Proof.GroupRequest
import Sismatic.Server.Verbs
import Sismatic.Proof.Frame
import Sismatic.Proof.Expectations
import Sismatic.StoreMemory.Reads
import Sismatic.Proof.Removal
import Sismatic.Proof.Echo
import Sismatic.Lib.Lexicographic
import Sismatic.HttpApi.Reads
import Sismatic.Proof.Chronology
import Sismatic.Lib.Totals
import Sismatic.StoreMemory.Calls
import Sismatic.Proof.Filing
import Sismatic.Proof.Journal
import Sismatic.Proof.Traffic
import Sismatic.Proof.Writers
import Sismatic.Core.Controller
import Sismatic.Core.Device
import Sismatic.Proof.Replies
import Sismatic.Proof.Attribution
import Sismatic.Proof.Idle
import Sismatic.ApiTypes.Config
import Sismatic.Server.Units
import Sismatic.Server.Configuration
import Sismatic.Server.Dynamic
import Sismatic.Proof.Digits
import Sismatic.Proof.Settings
import Sismatic.Proof.Schedule
import Sismatic.Proof.Reload
import Sismatic.Server.Export
import Sismatic.Proof.Exported
import Sismatic.Server.Exporting
import Sismatic.Proof.Snapshot
import Sismatic.Proof.Fragments
import Sismatic.Proof.Alarms
import Sismatic.Proof.Decoding
import Sismatic.Proof.Refusals
import Sismatic.Store.Group
import Sismatic.Proof.Obeyed
import Sismatic.Proof.Respelled
import Sismatic.Core.AutoDisabled
import Sismatic.Proof.Deadlines
import Sismatic.Core.Learned
import Sismatic.Proof.Reconciled
import Sismatic.Proof.Tokens
import Sismatic.Proof.Folded
import Sismatic.Proof.Rewritten
import Sismatic.Proof.Addressed
import Sismatic.Proof.Vetoes
import Sismatic.Proof.Healing
import Sismatic.Proof.Turns
import Sismatic.Proof.Gate
import Sismatic.HttpApi.GroupReads
import Sismatic.HttpUi.DeviceView
import Sismatic.Proof.RollUp
import Sismatic.HttpUi.RegisterDrafts
import Sismatic.Proof.Drafts
import Sismatic.Proof.Spellings
import Sismatic.Sync.Driver
import Sismatic.Proof.PollLoops
import Sismatic.Lib.Paging
import Sismatic.HttpApi.FleetReads
import Sismatic.Proof.FleetPages
import Sismatic.Lib.Watch
import Sismatic.Lib.Roster
import Sismatic.Sync.Supervisor
import Sismatic.Proof.Supervised
import Sismatic.Core.SisKeepalive
import Sismatic.IntentRelay.Handle
import Sismatic.Server.Reconcile
import Sismatic.Proof.Reconciler
import Sismatic.Sync.PollLoop
import Sismatic.Proof.Polled
import Sismatic.Proof.Restraint
import Sismatic.Server.Sweeper
import Sismatic.Proof.Swept
import Sismatic.Proof.Tuned
import Sismatic.Lib.SelfKeyed
import Sismatic.Lib.LastWord
import Sismatic.StoreMemory.GroupState
import Sismatic.Proof.Told
import Sismatic.HttpApi.Fields
import Sismatic.Proof.Histories
import Sismatic.Proof.Fields
import Sismatic.Lib.Walk
import Sismatic.HttpApi.FleetGroupReads
import Sismatic.Proof.GroupPages
import Sismatic.Proof.Served
import Sismatic.HttpUi.Queries
import Sismatic.Proof.Overview
import Sismatic.Lib.Narrowest
import Sismatic.HttpUi.FleetFilters
import Sismatic.Proof.Filtered
