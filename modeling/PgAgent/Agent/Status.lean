import PgAgent.Cluster.View

/-!
# A node's own status

`Agent::get_status`: every probe of the local PostgreSQL and of systemd is made
independently, and a probe that fails leaves a default in the answer.  A probe's
result is an `Option` here, `none` for a failure; the error text is only logged.

The defaults are where the answer can say more than the probes did: a failed
`is_in_recovery` answers `false`, a failed `replication_lag` answers the empty
state, and a failed position probe answers `0`, which readers take as unknown.
-/

namespace PgAgent

open Rust

/-- `pg_stat_wal_receiver` as the agent reads it; the empty state means that there
is no receiver. -/
structure ReplicationLag where
  bytes : ℤ
  state : String
  deriving DecidableEq, Repr

protected def ReplicationLag.default : ReplicationLag := ⟨0, ""⟩

/-- The outcomes of the local database queries. -/
structure DbProbes where
  isInRecovery : Option Bool
  replicationLag : Option ReplicationLag
  timelineId : Option ℤ
  currentWalLsn : Option ℕ
  flushLsn : Option ℕ
  deriving DecidableEq, Repr

/-- Everything `get_status` asks: the database, systemd, and the control file. -/
structure StatusProbes where
  db : DbProbes
  statusPostgres : Option Bool
  statusPgpool : Option Bool
  controlTimeline : Option ℤ
  deriving DecidableEq, Repr

/-- The timeline of an answer: the live one, else the control file's, else `0`. -/
def reportedTimeline (p : StatusProbes) : ℤ :=
  let timeline := p.db.timelineId.getD 0
  if timeline = 0 then
    match p.controlTimeline with
    | some tl => if tl > 0 then tl else timeline
    | none => timeline
  else timeline

/-- `Agent::get_status`. -/
def getStatus (p : StatusProbes) (ages : NodeMap UInt64) : NodeStatus :=
  let pgRunning := p.statusPostgres.getD false
  let lag := p.db.replicationLag.getD ReplicationLag.default
  { isRunning := pgRunning
    isInRecovery := p.db.isInRecovery.getD false
    isReady := p.db.isInRecovery.isSome && p.db.replicationLag.isSome &&
      p.statusPostgres.isSome && p.statusPgpool.isSome
    replicationLagBytes := lag.bytes
    replicationState := lag.state
    isPostgresRunning := pgRunning
    isPgpoolRunning := p.statusPgpool.getD false
    isPostgresStatusOk := p.statusPostgres.isSome
    isPgpoolStatusOk := p.statusPgpool.isSome
    timelineId := reportedTimeline p
    currentWalLsn := p.db.currentWalLsn.getD 0
    lastFlushLsn := p.db.flushLsn.getD 0
    peerPrimarySeenAgeMs := ages }

end PgAgent
