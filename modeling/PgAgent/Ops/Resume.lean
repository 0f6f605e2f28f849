import PgAgent.Ops.FollowPrimary

/-!
# Resuming an operation

`resume_inflight_op` of `localserver.rs`: the operator asks for an entry of the journal to be
driven on.  The entry has to be in progress.  A handoff is resumed if the cluster is still
in the state that the recorded phase implies, which `verify_handoff_state` finds out; the
re-pointing of a standby is resumed if the pool still has its two nodes.  The other kinds
have nothing to resume.
-/

namespace PgAgent

/-- What a resumption learns from its collaborators: the connection to the target and the
target's status, whether the local PostgreSQL runs, and its role. -/
structure ResumeProbes where
  client : Except String Unit
  targetStatus : Except String NodeStatus
  statusPostgres : Except String Bool
  isInRecovery : Except String Bool

/-- A collaborator's error, answered with `internal`. -/
def internally {α : Type} (what : String) : Except String α → Except OpReply α
  | .ok a => .ok a
  | .error e => .error (OpReply.internal (what ++ ": " ++ e))

/-- What the local PostgreSQL says against a phase behind the promotion. -/
def localDivergence (recordedPhase : Option HandoffPhase) (pgRunning : Bool) (p : ResumeProbes) :
    Except OpReply (Option String) :=
  match recordedPhase with
  | some .targetPromoted | some .slotCreated =>
      .ok (if pgRunning then none
        else some ("local PG is stopped but recorded phase is pre-stop; someone else stopped " ++
          "the old primary"))
  | some .localStopped | some .dataCopied | some .recoveryConfWritten =>
      .ok (if pgRunning then
          some ("local PG is running but recorded phase is post-stop; someone else started the " ++
            "old primary")
        else none)
  | some .localStarted | some .attached =>
      if pgRunning then do
        let inRecovery ← internally "verify_handoff_state: is_in_recovery" p.isInRecovery
        .ok (if inRecovery then none
          else some "local PG is a primary but recorded phase implies standby")
      else .ok (some "local PG is stopped but recorded phase is post-start")
  | _ => .ok none

/-- `verify_handoff_state`: a reason why the recorded phase is not the cluster's. -/
def verifyHandoffState (recordedPhase : Option HandoffPhase) (target : NodeConfig)
    (p : ResumeProbes) : Except OpReply (Option String) := do
  let status ← internally ("verify_handoff_state: peer get_status " ++ target.hostname)
    p.targetStatus
  if recordedPhase = some .preflightDone then
    .ok (if status.isInRecovery then none
      else some ("target " ++ target.hostname ++ " is already a primary; the original handoff " ++
        "was about to promote it but someone else promoted it first"))
  else if !status.isPostgresRunning then
    .ok (some ("target " ++ target.hostname ++
      " has postgres stopped; original handoff had promoted it"))
  else if status.isInRecovery then
    .ok (some ("target " ++ target.hostname ++
      " is back in recovery; original handoff had promoted it to primary"))
  else do
    let pgRunning ← internally "verify_handoff_state: status_postgres" p.statusPostgres
    localDivergence recordedPhase pgRunning p

/-- `resume_handoff` up to its driver: a reply, or the phase to drive on from. -/
def resumeHandoff (pool : NodePool) (op : InflightOp) (p : ResumeProbes) :
    Except OpReply (HandoffOp × HandoffPhase) :=
  match op.payload with
  | .handoff fromNodeId toNodeId toHostname slotName _ => do
      let localNode ← internally "resume_handoff: resolve local"
        (pool.localNode.mapError AgentError.display)
      requires (localNode.id == fromNodeId) (OpReply.refused
        ("resume_handoff: op recorded from_node_id=" ++ toString fromNodeId ++
          " but local is node " ++ toString localNode.id ++
          "; pool topology has changed since the op began"))
      let target ← recordedNode "resume_handoff" "to_hostname" "target" " since the op began" pool
        toNodeId toHostname
      internally ("resume_handoff: dial peer " ++ target.hostname) p.client
      let diverged ← verifyHandoffState (HandoffPhase.ofName op.phase) target p
      answering (diverged.map fun reason => OpReply.refused
        ("resume_handoff: cluster state diverged from recorded phase " ++ debugStr op.phase ++
          ": " ++ reason ++ "; run `pg_agentctl ops abandon " ++ op.id ++
          "` if this op is unrecoverable"))
      match HandoffPhase.ofName op.phase with
      | some phase => .ok (⟨op.id, localNode, target, slotName⟩, phase)
      | none =>
          .error (OpReply.invalidArgument ("cluster_handoff: unknown phase " ++ debugStr op.phase))
  | _ => .error (.error ⟨.failedPrecondition, "resume_handoff: payload is not a handoff"⟩)

/-- A driver that a resumption starts. -/
inductive ResumedDriver where
  | handoff (op : HandoffOp) (phase : HandoffPhase)
  | follow (op : FollowOp) (pos : FollowPosition)
  deriving DecidableEq, Repr

/-- `resume_inflight_op`, on what the journal has for the id. -/
def resumeInflightOp (pool : NodePool) (id : String) (entry : Except String InflightOp)
    (p : ResumeProbes) : Except OpReply ResumedDriver :=
  if id = "" then .error (OpReply.invalidArgument "resume_inflight_op: id is required")
  else match entry with
    | .error e => .error (.error ⟨.notFound, "resume_inflight_op: " ++ e⟩)
    | .ok op =>
        if op.status ≠ .inProgress then
          .error (OpReply.refused ("resume_inflight_op: op " ++ op.id ++ " is in status " ++
            op.status.asWire ++ "; only in-progress ops can be resumed"))
        else match op.payload with
          | .handoff _ _ _ _ _ =>
              (resumeHandoff pool op p).map fun r => ResumedDriver.handoff r.1 r.2
          | .followPrimary _ _ _ _ =>
              (resumeFollowPrimary pool op).map fun r => ResumedDriver.follow r.1 r.2
          | .promote _ _ =>
              .error (OpReply.refused ("op " ++ op.id ++
                " is a promotion; nothing to resume — " ++
                "the HA loop re-issues it while the lease is held"))
          | .allowAsync _ =>
              .error (OpReply.refused ("op " ++ op.id ++ " is an allow-async disarm; nothing to " ++
                "resume — the executor re-arms quorum commit when a standby attaches"))
          | .recovery _ standbyNodeId _ _ =>
              .error (OpReply.refused ("resume_inflight_op: op " ++ op.id ++ " is a recovery, " ++
                "which has no resume driver. Abandon it (`pg_agentctl ops abandon " ++ op.id ++
                "`) and re-run `pg_agentctl cluster recover --target " ++ toString standbyNodeId ++
                " --stop-target-pg`, which restarts the orchestration from a known state."))

/-! ## What a resumption comes to -/

theorem internally_eq_ok_iff {α : Type} {what : String} {y : Except String α} {a : α} :
    internally what y = .ok a ↔ y = .ok a := by
  cases y <;> simp [internally]

theorem recordedNode_eq_ok_iff {handler field what suffix : String} {pool : NodePool}
    {id : NodeId} {hostname : String} {n : NodeConfig} :
    recordedNode handler field what suffix pool id hostname = .ok n ↔
      pool.nodeById id = .ok n ∧ n.hostname = hostname := by
  unfold recordedNode
  cases pool.nodeById id with
  | error e => simp
  | ok m =>
    by_cases hname : m.hostname = hostname
    · simp only [hname, if_true, Except.ok.injEq]
      constructor
      · rintro rfl
        exact ⟨rfl, hname⟩
      · exact fun h => h.1
    · simp only [hname, if_false, Except.ok.injEq, reduceCtorEq, false_iff, not_and]
      rintro rfl
      exact hname

section Dispatch

variable (pool : NodePool) {id : String} {op : InflightOp} (p : ResumeProbes)

/-- Only an entry in progress is resumed. -/
theorem resumeInflightOp_of_not_inProgress (id : String) (hstatus : op.status ≠ .inProgress) :
    ∃ reply, resumeInflightOp pool id (.ok op) p = .error reply := by
  unfold resumeInflightOp
  by_cases hid : id = ""
  · exact ⟨_, if_pos hid⟩
  · rw [if_neg hid]
    exact ⟨_, if_pos hstatus⟩

theorem resumeInflightOp_handoff (hid : id ≠ "") (hstatus : op.status = .inProgress)
    {fromNodeId toNodeId : NodeId} {toHostname slotName : String} {allowLag : Bool}
    (hpayload : op.payload = .handoff fromNodeId toNodeId toHostname slotName allowLag) :
    resumeInflightOp pool id (.ok op) p =
      (resumeHandoff pool op p).map fun r => .handoff r.1 r.2 := by
  unfold resumeInflightOp
  rw [if_neg hid]
  dsimp only
  rw [if_neg (not_not_intro hstatus), hpayload]

theorem resumeInflightOp_followPrimary (hid : id ≠ "") (hstatus : op.status = .inProgress)
    {detachedNodeId newPrimaryNodeId : NodeId} {detachedHostname newPrimaryHostname : String}
    (hpayload : op.payload =
      .followPrimary detachedNodeId detachedHostname newPrimaryNodeId newPrimaryHostname) :
    resumeInflightOp pool id (.ok op) p =
      (resumeFollowPrimary pool op).map fun r => .follow r.1 r.2 := by
  unfold resumeInflightOp
  rw [if_neg hid]
  dsimp only
  rw [if_neg (not_not_intro hstatus), hpayload]

end Dispatch

end PgAgent
