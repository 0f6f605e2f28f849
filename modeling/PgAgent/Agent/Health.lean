import PgAgent.Agent.Status
import PgAgent.Library.Duration
import PgAgent.Library.Periodic
import PgAgent.Ops.Journal
import PgAgent.Pgpool.Pcp

/-!
# The health endpoint

`healthz.rs`.  A loop probes PostgreSQL and pgpool, each call under a deadline, and keeps the last
result; a request is answered from what is kept, without a call of its own.  The answer is `200` if
the result is fresh and shows a backend that pgpool routes to.

* `elapsed_buildSnapshot_le` --- a round takes at most four deadlines, whatever hangs;
* `computeHealth_ok_iff` --- when a result is answered with `200`;
* `healthz_tells` --- once the first round is over, the endpoint answers with what pgpool reported
  to a call made a few seconds ago at the most, and never because the result has gone stale.

The loop is one that waits between its rounds, so its timing is that of `Periodic`.
-/

namespace PgAgent

open Rust

/-! ## Calls under a deadline -/

/-- A call: its answer, and how long it takes to come, if it comes. -/
structure TimedCall (α : Type) where
  answer : Except String α
  takes : Option ℕ

/-- `tokio::time::timeout`: the answer, if it comes in time, and the time that has passed. -/
def TimedCall.timeout {α : Type} (deadline : ℕ) (call : TimedCall α) :
    Option (Except String α) × ℕ :=
  match call.takes with
  | some t => if t ≤ deadline then (some call.answer, t) else (none, deadline)
  | none => (none, deadline)

theorem TimedCall.timeout_le {α : Type} (deadline : ℕ) (call : TimedCall α) :
    (call.timeout deadline).2 ≤ deadline := by
  unfold timeout
  rcases call.takes with _ | t
  · exact le_rfl
  · dsimp only
    split
    · assumption
    · exact le_rfl

/-! ## Snapshots -/

def pollInterval : ℕ := Duration.fromSecs 1

def probeTimeout : ℕ := Duration.fromMillis 500

def staleAfter : ℕ := Duration.fromSecs 30

inductive HealthRole where
  | unknown
  | primary
  | replica
  deriving DecidableEq, Repr

structure PostgresProbe where
  reachable : Bool
  inRecovery : Bool
  deriving DecidableEq, Repr

/-- The part of a backend's report that goes into the answer. -/
structure BackendStatus where
  id : NodeId
  hostname : List Char
  role : List Char
  status : List Char
  replicationState : List Char
  deriving DecidableEq, Repr

def BackendStatus.fromNodeInfo {F : Type} (n : NodeInfo F) : BackendStatus :=
  ⟨n.id, n.hostname, n.role, n.statusName, n.replicationState⟩

structure PgpoolProbe where
  reachable : Bool
  backends : List BackendStatus
  deriving DecidableEq, Repr

structure ReplicationProbe where
  lagBytes : ℤ
  walReceiverState : String
  deriving DecidableEq, Repr

/-- What an acknowledged commit on a primary is worth. -/
inductive SyncCommitState where
  | notApplicable
  | disarmed
  | armed
  | blocked
  deriving DecidableEq, Repr

structure HealthSnapshot where
  timestamp : UtcNanos
  role : HealthRole
  postgres : PostgresProbe
  pgpool : PgpoolProbe
  replication : ReplicationProbe
  syncCommit : SyncCommitState
  followWedged : Bool
  deriving DecidableEq, Repr

/-! ## Probes -/

/-- The calls of one round, as far as it makes them. -/
structure ProbeCalls (F : Type) where
  isInRecovery : TimedCall Bool
  replicationLag : TimedCall ReplicationLag
  nodeInfoAll : TimedCall (List (NodeInfo F))
  synchronousStandbyNames : TimedCall (List Char)
  connectedStandbyNames : TimedCall (List (List Char))

section Probes

variable {F : Type} (deadline : ℕ) (calls : ProbeCalls F)

def noReplication : ReplicationProbe := ⟨0, ""⟩

/-- `probe_postgres`, with the time it takes. -/
def probePostgres : (HealthRole × PostgresProbe × ReplicationProbe) × ℕ :=
  match calls.isInRecovery.timeout deadline with
  | (some (.ok inRecovery), t) =>
      let role := if inRecovery then HealthRole.replica else HealthRole.primary
      let (answer, t') := calls.replicationLag.timeout deadline
      let lag :=
        match answer with
        | some (.ok lag) => lag
        | _ => ReplicationLag.default
      ((role, ⟨true, inRecovery⟩, ⟨lag.bytes, lag.state⟩), t + t')
  | (_, t) => ((.unknown, ⟨false, false⟩, noReplication), t)

def probePgpool : PgpoolProbe × ℕ :=
  match calls.nodeInfoAll.timeout deadline with
  | (some (.ok nodes), t) => (⟨true, nodes.map BackendStatus.fromNodeInfo⟩, t)
  | (_, t) => (⟨false, []⟩, t)

def probeSyncCommit : SyncCommitState × ℕ :=
  match calls.synchronousStandbyNames.timeout deadline with
  | (some (.ok names), t) =>
      if trim names = [] then (.disarmed, t)
      else
        let (answer, t') := calls.connectedStandbyNames.timeout deadline
        let state :=
          match answer with
          | some (.ok connected) => if connected.isEmpty then SyncCommitState.blocked else .armed
          | _ => .notApplicable
        (state, t + t')
  | (_, t) => (.notApplicable, t)

/-- `build_snapshot`: the two probes side by side, then the one that only a primary makes.  The
clock is read at the end. -/
def buildSnapshot (followWedged : Bool) (clockAfter : ℕ → UtcNanos) : HealthSnapshot × ℕ :=
  let ((role, postgres, replication), t) := probePostgres deadline calls
  let (pgpool, t') := probePgpool deadline calls
  let (syncCommit, t'') :=
    if role = .primary then probeSyncCommit deadline calls else (.notApplicable, 0)
  let elapsed := max t t' + t''
  (⟨clockAfter elapsed, role, postgres, pgpool, replication, syncCommit, followWedged⟩, elapsed)

theorem elapsed_probePostgres_le : (probePostgres deadline calls).2 ≤ 2 * deadline := by
  have hfirst := calls.isInRecovery.timeout_le deadline
  have hsecond := calls.replicationLag.timeout_le deadline
  unfold probePostgres
  split
  · rename_i inRecovery t heq
    rw [heq] at hfirst
    dsimp only at hfirst ⊢
    omega
  · rename_i answer t hno heq
    rw [heq] at hfirst
    dsimp only at hfirst ⊢
    omega

theorem elapsed_probePgpool_le : (probePgpool deadline calls).2 ≤ deadline := by
  have hle := calls.nodeInfoAll.timeout_le deadline
  unfold probePgpool
  split
  · rename_i nodes t heq
    rw [heq] at hle
    exact hle
  · rename_i answer t hno heq
    rw [heq] at hle
    exact hle

theorem elapsed_probeSyncCommit_le : (probeSyncCommit deadline calls).2 ≤ 2 * deadline := by
  have hfirst := calls.synchronousStandbyNames.timeout_le deadline
  have hsecond := calls.connectedStandbyNames.timeout_le deadline
  unfold probeSyncCommit
  split
  · rename_i names t heq
    rw [heq] at hfirst
    dsimp only at hfirst ⊢
    split
    · dsimp only
      omega
    · dsimp only
      omega
  · rename_i answer t hno heq
    rw [heq] at hfirst
    dsimp only at hfirst ⊢
    omega

/-- No call that hangs holds up a round for longer. -/
theorem elapsed_buildSnapshot_le (followWedged : Bool) (clockAfter : ℕ → UtcNanos) :
    (buildSnapshot deadline calls followWedged clockAfter).2 ≤ 4 * deadline := by
  have hpostgres := elapsed_probePostgres_le deadline calls
  have hpgpool := elapsed_probePgpool_le deadline calls
  have hsync := elapsed_probeSyncCommit_le deadline calls
  unfold buildSnapshot
  dsimp only
  split
  · omega
  · dsimp only
    omega

end Probes

/-! ## The answer -/

inductive StatusCode where
  | ok
  | serviceUnavailable
  deriving DecidableEq, Repr

structure HealthBody where
  ready : Bool
  snapshotAgeMs : ℤ
  role : HealthRole
  postgres : PostgresProbe
  pgpool : PgpoolProbe
  replication : ReplicationProbe
  syncCommit : SyncCommitState
  followWedged : Bool
  deriving DecidableEq, Repr

/-- The body where there is nothing to tell. -/
def emptyBody : HealthBody :=
  ⟨false, 0, .unknown, ⟨false, false⟩, ⟨false, []⟩, noReplication,
    .notApplicable, false⟩

/-- `backend_is_up`. -/
def backendIsUp (status : List Char) : Bool :=
  status == "up".toList || status == "waiting".toList

/-- `chrono::Duration::from_std`: the milliseconds of the result are an `i64`. -/
def chronoFromStd (d : ℕ) : Option ℤ :=
  if d ≤ (2 ^ 63 - 1) * 10 ^ 6 then some d else none

def PgpoolProbe.anyUp (pgpool : PgpoolProbe) : Bool :=
  pgpool.reachable && pgpool.backends.any fun b => backendIsUp b.status

def computeHealth (snap : Option HealthSnapshot) (staleAfter : ℕ) (now : UtcNanos) :
    StatusCode × HealthBody :=
  match snap with
  | none => (.serviceUnavailable, emptyBody)
  | some s =>
      let age := now - s.timestamp
      let ageMs := max (age.tdiv (10 ^ 6)) 0
      let stale := (chronoFromStd staleAfter).getD (30 * 10 ^ 9)
      let ready := decide (age < stale) && s.pgpool.anyUp
      (if ready then .ok else .serviceUnavailable,
        ⟨ready, ageMs, s.role, s.postgres, s.pgpool, s.replication, s.syncCommit,
          s.followWedged⟩)

/-- `handle_healthz`; nothing is told before the role of the node has been verified. -/
def handleHealthz (startupVerified : Bool) (snap : Option HealthSnapshot) (staleAfter : ℕ)
    (now : UtcNanos) : StatusCode × HealthBody :=
  if startupVerified then computeHealth snap staleAfter now else (.serviceUnavailable, emptyBody)

theorem computeHealth_ok_iff {snap : Option HealthSnapshot} {now : UtcNanos} :
    (computeHealth snap staleAfter now).1 = .ok ↔
      ∃ s, snap = some s ∧ now - s.timestamp < (staleAfter : ℤ) ∧
        s.pgpool.anyUp = true := by
  rcases snap with _ | s
  · simp [computeHealth]
  · have hstale : (chronoFromStd staleAfter).getD (30 * 10 ^ 9) = (staleAfter : ℤ) := by decide
    simp only [computeHealth, hstale, Option.some.injEq, exists_eq_left']
    rcases hready : decide (now - s.timestamp < (staleAfter : ℤ)) && s.pgpool.anyUp with _ | _
    · rw [Bool.and_eq_false_iff, decide_eq_false_iff_not] at hready
      simp only [Bool.false_eq_true, if_false, reduceCtorEq, false_iff, not_and,
        Bool.not_eq_true]
      intro hfresh
      exact hready.resolve_left fun h => h hfresh
    · rw [Bool.and_eq_true, decide_eq_true_eq] at hready
      simp only [if_true, true_iff]
      exact hready

/-- What a round keeps of pgpool: a report that came in time, and shows a backend that is routed
to. -/
theorem anyUp_probePgpool_iff {F : Type} {deadline : ℕ} {calls : ProbeCalls F} :
    (probePgpool deadline calls).1.anyUp = true ↔
      ∃ nodes t, calls.nodeInfoAll = ⟨.ok nodes, some t⟩ ∧ t ≤ deadline ∧
        ∃ n ∈ nodes, backendIsUp n.statusName = true := by
  unfold probePgpool TimedCall.timeout
  rcases hcall : calls.nodeInfoAll with ⟨answer, takes⟩
  rcases takes with _ | t
  · simp [PgpoolProbe.anyUp]
  · by_cases ht : t ≤ deadline
    · rcases answer with e | nodes
      · simp [ht, PgpoolProbe.anyUp]
      · simp [ht, PgpoolProbe.anyUp, BackendStatus.fromNodeInfo]
    · simp [ht, PgpoolProbe.anyUp]

/-! ## The loop -/

/-- A run of the loop: when its first round starts, the calls of each round, what it reads of the
executor's flag, and the wall clock by the monotonic one. -/
structure HealthRun (F : Type) where
  first : ℕ
  calls : ℕ → ProbeCalls F
  followWedged : ℕ → Bool
  wall : ℕ → UtcNanos

namespace HealthRun

variable {F : Type} (run : HealthRun F)

/-- Round `k`, if it starts at this time: what it stores, and how long it takes. -/
def round (k start : ℕ) : HealthSnapshot × ℕ :=
  buildSnapshot probeTimeout (run.calls k) (run.followWedged k) fun elapsed =>
    run.wall (start + elapsed)

def busy (k : ℕ) : ℕ := (run.round k 0).2

/-- The rounds follow one another after a sleep. -/
def startOf (k : ℕ) : ℕ := Periodic.startsFrom run.first pollInterval run.busy k

/-- When round `k` stores its result. -/
def endOf (k : ℕ) : ℕ := run.startOf k + run.busy k

def snapshot (k : ℕ) : HealthSnapshot := (run.round k (run.startOf k)).1

/-- At this time the result of round `k` is the one that is kept. -/
def Keeps (t k : ℕ) : Prop := run.endOf k ≤ t ∧ t < run.endOf (k + 1)

theorem periodic : Periodic pollInterval (4 * probeTimeout) run.startOf run.busy :=
  Periodic.of_wait (fun k => elapsed_buildSnapshot_le probeTimeout (run.calls k) _ _) (by decide)

theorem timestamp_snapshot (k : ℕ) : (run.snapshot k).timestamp = run.wall (run.endOf k) := rfl

theorem pgpool_snapshot (k : ℕ) :
    (run.snapshot k).pgpool = (probePgpool probeTimeout (run.calls k)).1 := rfl

/-- The result that is kept is no older than a sleep and a round. -/
theorem age_le {t k : ℕ} (h : run.Keeps t k) :
    t < run.endOf k + (pollInterval + 4 * probeTimeout) ∧
      t < run.startOf k + (pollInterval + 8 * probeTimeout) := by
  have hnext := run.periodic.next k
  have hbusy := run.periodic.busy_le k
  have hbusy' := run.periodic.busy_le (k + 1)
  obtain ⟨-, hlt⟩ := h
  unfold endOf at hlt ⊢
  omega

/-- Every round ends within four deadlines, and once the loop has ended one the endpoint **tells
what pgpool has reported to a call of the last few seconds**: it answers `200` exactly if the role
of the node has been verified and that report, which came in time, shows a backend that pgpool
routes to.  No answer is a `503` because the result has gone stale, as long as the wall clock does
not run ahead by more than is left. -/
theorem healthz_tells {drift : ℕ} (hdrift : pollInterval + 4 * probeTimeout + drift < staleAfter)
    (hwall : ∀ t t', t ≤ t' → run.wall t' - run.wall t ≤ ((t' - t + drift : ℕ) : ℤ))
    {t : ℕ} (ht : run.endOf 0 ≤ t) :
    (∀ j, run.endOf j ≤ run.startOf j + 4 * probeTimeout) ∧
    ∃ k, run.Keeps t k ∧ t < run.startOf k + (pollInterval + 8 * probeTimeout) ∧
      ∀ verified, (handleHealthz verified (some (run.snapshot k)) staleAfter (run.wall t)).1 =
        .ok ↔
        verified = true ∧ ∃ nodes d, (run.calls k).nodeInfoAll = ⟨.ok nodes, some d⟩ ∧
          d ≤ probeTimeout ∧ ∃ n ∈ nodes, backendIsUp n.statusName = true := by
  obtain ⟨k, -, hended, hlt⟩ := run.periodic.exists_ended ht
  have hkeeps : run.Keeps t k := ⟨hended, hlt⟩
  obtain ⟨hage, hrecent⟩ := run.age_le hkeeps
  refine ⟨fun j => Nat.add_le_add_left (run.periodic.busy_le j) _, k, hkeeps, hrecent,
    fun verified => ?_⟩
  have hfresh : run.wall t - (run.snapshot k).timestamp < (staleAfter : ℤ) := by
    rw [timestamp_snapshot]
    have hclock := hwall (run.endOf k) t hended
    have hsmall : t - run.endOf k + drift < staleAfter := by omega
    exact lt_of_le_of_lt hclock (by exact_mod_cast hsmall)
  rcases verified with _ | _
  · simp [handleHealthz]
  · simp only [handleHealthz, if_true, true_and]
    rw [computeHealth_ok_iff, ← anyUp_probePgpool_iff, ← pgpool_snapshot]
    constructor
    · rintro ⟨s, hs, -, hup⟩
      obtain rfl := Option.some.inj hs
      exact hup
    · exact fun hup => ⟨_, rfl, hfresh, hup⟩

/-- A node whose pgpool always reports one backend that waits for connections, and whose PostgreSQL
hangs. -/
def hangingRun : HealthRun Unit :=
  ⟨0, fun _ => ⟨⟨.ok false, none⟩, ⟨.ok ReplicationLag.default, none⟩,
      ⟨.ok [⟨0, [], 5432, 1, (), "waiting".toList, [], [], [], [], [], []⟩], some 1⟩,
      ⟨.ok [], none⟩, ⟨.ok [], none⟩⟩,
    fun _ => false, fun t => (t : ℤ)⟩

/-- Its rounds end all the same, and after a minute it answers `200`. -/
theorem healthz_tells_hanging :
    (∀ j, hangingRun.endOf j ≤ hangingRun.startOf j + 4 * probeTimeout) ∧
      ∃ k, hangingRun.Keeps (60 * 10 ^ 9) k ∧
        (handleHealthz true (some (hangingRun.snapshot k)) staleAfter
          (hangingRun.wall (60 * 10 ^ 9))).1 = .ok := by
  have hwall : ∀ t t', t ≤ t' →
      hangingRun.wall t' - hangingRun.wall t ≤ ((t' - t + 0 : ℕ) : ℤ) := by
    intro t t' h
    show (t' : ℤ) - (t : ℤ) ≤ ((t' - t + 0 : ℕ) : ℤ)
    omega
  obtain ⟨hrounds, k, hkeeps, -, hiff⟩ := healthz_tells hangingRun (by decide) hwall
    (t := 60 * 10 ^ 9) (by decide)
  exact ⟨hrounds, k, hkeeps,
    (hiff true).mpr ⟨rfl, _, _, rfl, by decide, _, List.mem_cons_self, by decide⟩⟩

end HealthRun

end PgAgent
