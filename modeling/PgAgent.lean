import PgAgent.Agent.ColdStart
import PgAgent.Agent.Health
import PgAgent.Agent.StartPrimary
import PgAgent.Agent.Startup
import PgAgent.Agent.Status
import PgAgent.Agent.Verdict
import PgAgent.Cluster.Drain
import PgAgent.Cluster.FanOut
import PgAgent.Cluster.View
import PgAgent.Config.Load
import PgAgent.Config.Pool
import PgAgent.Config.Raft
import PgAgent.Consensus.Command
import PgAgent.Consensus.Fencing
import PgAgent.Consensus.InMemory
import PgAgent.Consensus.RaftStore
import PgAgent.Consensus.Vacancy
import PgAgent.Ctl.Pgpool
import PgAgent.Ctl.StatusTable
import PgAgent.Ha.Candidacy
import PgAgent.Ha.Freeze
import PgAgent.Ha.Run
import PgAgent.Ha.Spec
import PgAgent.Ha.Tick
import PgAgent.Ha.Timing
import PgAgent.Hook.Agent
import PgAgent.Hook.Dispatch
import PgAgent.Hook.HumanTime
import PgAgent.Hook.RestoreCommand
import PgAgent.Hook.Schema
import PgAgent.Library.CommandLine
import PgAgent.Library.Compensation
import PgAgent.Library.ConfFile
import PgAgent.Library.ConfInclude
import PgAgent.Library.Conninfo
import PgAgent.Library.Decimal
import PgAgent.Library.Duration
import PgAgent.Library.FileTree
import PgAgent.Library.Framing
import PgAgent.Library.Hexadecimal
import PgAgent.Library.OrderedTable
import PgAgent.Library.Overflow
import PgAgent.Library.Periodic
import PgAgent.Library.Polling
import PgAgent.Library.Resumable
import PgAgent.Library.ServerStream
import PgAgent.Library.SharedRecord
import PgAgent.Library.Spacing
import PgAgent.Library.Tasks
import PgAgent.Library.Text
import PgAgent.Library.Trace
import PgAgent.Library.Utf8
import PgAgent.Library.Worklist
import PgAgent.Ops.CleanupIntents
import PgAgent.Ops.Drivers
import PgAgent.Ops.Exclusive
import PgAgent.Ops.FailedDial
import PgAgent.Ops.Failover
import PgAgent.Ops.FollowCrash
import PgAgent.Ops.FollowPrimary
import PgAgent.Ops.Handoff
import PgAgent.Ops.HandoffCrash
import PgAgent.Ops.HandoffReplay
import PgAgent.Ops.Journal
import PgAgent.Ops.JournalEntry
import PgAgent.Ops.JournalStore
import PgAgent.Ops.LadderSlots
import PgAgent.Ops.Maintenance
import PgAgent.Ops.Ownership
import PgAgent.Ops.Rebuild
import PgAgent.Ops.Recover
import PgAgent.Ops.RecoveryDedup
import PgAgent.Ops.Resume
import PgAgent.Ops.SlotDrivers
import PgAgent.Ops.SlotNames
import PgAgent.Ops.SlotRaces
import PgAgent.Ops.SlotSites
import PgAgent.Ops.SlotTasks
import PgAgent.Peer.Progress
import PgAgent.Pgpool.Pcp
import PgAgent.Pgpool.Supervisor
import PgAgent.Preflight.Directive
import PgAgent.Preflight.Include
import PgAgent.Raft.LogStore
import PgAgent.Raft.Snapshot
import PgAgent.Raft.StateMachine
import PgAgent.Raft.Storage
import PgAgent.RoleExec.Apply
import PgAgent.RoleExec.MemberSlots
import PgAgent.RoleExec.Pause
import PgAgent.RoleExec.Quorum
import PgAgent.RoleExec.StalePrimary
import PgAgent.RoleExec.Upstream
import PgAgent.Standby.Conninfo
import PgAgent.Standby.Options
import PgAgent.Standby.RecoveryConf
import PgAgent.Standby.Stderr
import PgAgent.System.Authority
import PgAgent.System.Cluster
import PgAgent.System.Durability
import PgAgent.System.Handoff
import PgAgent.System.Step
import PgAgent.System.World
import PgAgent.Timeline.History
import PgAgent.Timeline.Lsn
import PgAgent.Wal.Fetch
import PgAgent.Wal.Restore
import PgAgent.Wal.RestoreWal
