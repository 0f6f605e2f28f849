import PgAgent.Ops.Handoff

/-!
# Following a new primary

After a handoff every other standby is re-pointed at the new primary, each by a driver of
its own: `drive_follow_primary` of `localserver.rs`, started by `fan_out_follow_primary`
and started again by `resume_follow_primary`.

As with the handoff the driver is given by what it does next: a position on its ladder, and
where the ladder goes from there by the outcome of the call.  The two ends of the drivers'
callers --- `complete` and `abandon` --- are calls of the ladder too.
-/

namespace PgAgent

inductive FollowPhase where
  | queued
  | dialing
  | detachedStopped
  | slotCreated
  | dataCopied
  | recoveryConfWritten
  | detachedStarted
  | attached
  deriving DecidableEq, Repr

namespace FollowPhase

def name : FollowPhase → String
  | queued => "queued"
  | dialing => "dialing"
  | detachedStopped => "detached_stopped"
  | slotCreated => "slot_created"
  | dataCopied => "data_copied"
  | recoveryConfWritten => "recovery_conf_written"
  | detachedStarted => "detached_started"
  | attached => "attached"

/-- `fp_phase_index`: the phase of a name. -/
def ofName (name : String) : Option FollowPhase :=
  [queued, dialing, detachedStopped, slotCreated, dataCopied, recoveryConfWritten,
    detachedStarted, attached].find? fun phase => phase.name == name

theorem ofName_name (phase : FollowPhase) : ofName phase.name = some phase := by
  cases phase <;> decide

end FollowPhase

structure FollowOp where
  opId : String
  detached : NodeConfig
  newPrimary : NodeConfig
  deriving DecidableEq, Repr

/-- The calls of the driver.  Those that clean up keep the error they clean up after. -/
inductive FollowCall where
  | updatePhase (phase : FollowPhase)
  | dialDetached
  | dialNewPrimary
  | getStatus
  | stop
  | createSlot
  | rewind
  | basebackup
  | configureStandby
  | start
  | attachNode
  | dropSlot (cause error : String)
  | queueCleanup (cause dropError error : String)
  | complete
  | abandon (error : String)
  deriving DecidableEq, Repr

/-- A call of the ladder, and the phase the driver was started with. -/
structure FollowPosition where
  call : FollowCall
  startPhase : FollowPhase
  deriving DecidableEq, Repr

/-- The first call after a recorded phase, once both peers are dialed. -/
def FollowPhase.firstCall : FollowPhase → FollowCall
  | queued => .getStatus
  | dialing => .getStatus
  | detachedStopped => .createSlot
  | slotCreated => .rewind
  | dataCopied => .configureStandby
  | recoveryConfWritten => .start
  | detachedStarted => .attachNode
  | attached => .complete

/-- Where `drive_follow_primary` starts. -/
def FollowPhase.start (phase : FollowPhase) : FollowPosition :=
  match phase with
  | queued => ⟨.updatePhase .dialing, queued⟩
  | phase => ⟨.dialDetached, phase⟩

namespace FollowOp

/-- Where the ladder goes from a call, by the call's outcome and, for the status of the detached
node, by whether its PostgreSQL runs.  The replies are those of a resumed driver; a spawned one
only logs them. -/
def next (op : FollowOp) (pos : FollowPosition) (running : Bool) (outcome : Except String Unit) :
    FollowPosition ⊕ OpReply :=
  let goto (call : FollowCall) : FollowPosition ⊕ OpReply := .inl { pos with call := call }
  let fails (what e : String) : FollowPosition ⊕ OpReply :=
    goto (.abandon ("follow_primary: " ++ what ++ ": " ++ e))
  match pos.call, outcome with
  | .updatePhase .dialing, .ok _ => goto .dialDetached
  | .updatePhase phase, .ok _ => goto phase.firstCall
  | .updatePhase phase, .error e => fails ("journal " ++ phase.name) e
  | .dialDetached, .ok _ => goto .dialNewPrimary
  | .dialDetached, .error e => fails ("dial detached " ++ op.detached.hostname) e
  | .dialNewPrimary, .ok _ => goto pos.startPhase.firstCall
  | .dialNewPrimary, .error e => fails ("dial new_primary " ++ op.newPrimary.hostname) e
  -- a standby that is not running is the operator's
  | .getStatus, .ok _ => goto (if running then .stop else .complete)
  | .getStatus, .error e => fails ("get_status " ++ op.detached.hostname) e
  | .stop, .ok _ => goto (.updatePhase .detachedStopped)
  | .stop, .error e => fails ("stop " ++ op.detached.hostname) e
  | .createSlot, .ok _ => goto (.updatePhase .slotCreated)
  | .createSlot, .error e =>
      fails ("create_slot " ++ op.detached.slotName ++ " on " ++ op.newPrimary.hostname) e
  | .rewind, .ok _ => goto (.updatePhase .dataCopied)
  | .rewind, .error _ => goto .basebackup
  | .basebackup, .ok _ => goto (.updatePhase .dataCopied)
  | .basebackup, .error e =>
      goto (.dropSlot "follow_primary_basebackup_failed"
        ("follow_primary: basebackup " ++ op.detached.hostname ++ ": " ++ e))
  | .configureStandby, .ok _ => goto (.updatePhase .recoveryConfWritten)
  | .configureStandby, .error e =>
      goto (.dropSlot "follow_primary_configure_standby_failed"
        ("follow_primary: configure_standby " ++ op.detached.hostname ++ ": " ++ e))
  | .start, .ok _ => goto (.updatePhase .detachedStarted)
  | .start, .error e =>
      goto (.dropSlot "follow_primary_start_failed"
        ("follow_primary: start " ++ op.detached.hostname ++ ": " ++ e))
  | .attachNode, .ok _ => goto (.updatePhase .attached)
  | .attachNode, .error e => fails ("pcp_attach_node " ++ toString op.detached.id) e
  -- `cleanup_peer_slot_after_failure`
  | .dropSlot _ e, .ok _ => goto (.abandon e)
  | .dropSlot cause e, .error dropError => goto (.queueCleanup cause dropError e)
  | .queueCleanup _ _ e, _ => goto (.abandon e)
  | .complete, .ok _ =>
      .inr (OpReply.accepted ("follow_primary complete for " ++ op.detached.hostname ++
        " (resumed)"))
  | .complete, .error e =>
      .inr (OpReply.internal ("resume_follow_primary: complete journal: " ++ e))
  | .abandon reason, _ =>
      .inr (OpReply.refused ("resume_follow_primary: driver failed: " ++ reason ++
        "; op marked abandoned"))

end FollowOp

/-! ## Fan-out and resumption -/

/-- The members `fan_out_follow_primary` begins an operation for. -/
def followers (pool : NodePool) (localNode newPrimary : NodeConfig) : List NodeConfig :=
  pool.members.filter fun member => !(member.id == localNode.id || member.id == newPrimary.id)

/-- A node as an entry has recorded it, if the pool still has it so. -/
def recordedNode (handler field what suffix : String) (pool : NodePool) (id : NodeId)
    (hostname : String) : Except OpReply NodeConfig :=
  match pool.nodeById id with
  | .error e =>
      .error (OpReply.refused (handler ++ ": " ++ what ++ " node " ++ toString id ++
        " not in current pool: " ++ e.display))
  | .ok n =>
      if n.hostname = hostname then .ok n
      else .error (OpReply.refused (handler ++ ": op recorded " ++ field ++ "=" ++
        debugStr hostname ++ " but current pool has node " ++ toString id ++ " as " ++
        debugStr n.hostname ++ "; pool topology has changed" ++ suffix))

/-- `resume_follow_primary` up to its driver: a reply, or where the driver starts. -/
def resumeFollowPrimary (pool : NodePool) (op : InflightOp) :
    Except OpReply (FollowOp × FollowPosition) :=
  match op.payload with
  | .followPrimary detachedNodeId detachedHostname newPrimaryNodeId newPrimaryHostname => do
      let detached ← recordedNode "resume_follow_primary" "detached_hostname" "detached" "" pool
        detachedNodeId detachedHostname
      let newPrimary ← recordedNode "resume_follow_primary" "new_primary_hostname"
        "new_primary" "" pool newPrimaryNodeId newPrimaryHostname
      let pos : FollowPosition := match FollowPhase.ofName op.phase with
        | some phase => phase.start
        | none => ⟨.abandon ("follow_primary: unknown phase " ++ debugStr op.phase), .queued⟩
      .ok (⟨op.id, detached, newPrimary⟩, pos)
  | _ =>
      .error (.error ⟨.failedPrecondition,
        "resume_follow_primary: payload is not a follow_primary"⟩)

end PgAgent
