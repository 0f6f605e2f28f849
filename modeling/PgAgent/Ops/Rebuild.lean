import PgAgent.Library.Compensation
import PgAgent.Ops.Failover

/-!
# Rebuilding a standby from the local primary

Three handlers of `localserver.rs` rebuild a standby from the primary they run on:

* `follow_primary`, pgpool's hook after a failover, which prefers a rewind and starts the
  standby;
* `recovery_first_stage`, which has an entry in the journal, takes a base backup and leaves the
  start to pgpool's second stage;
* `init_standby`, once for each standby of a `cluster_init`.

Each creates the standby's replication slot on the primary, and a failure before the standby is
there drops the slot again, or puts the drop in the maintenance queue.  The handlers differ in
the order of their calls and in which failures clean up, so each of them is given by its list of
calls with what becomes of each failure.

`rebuild_leakFree`: no handler leaves a slot behind that nobody uses, and none drops a slot that
its standby uses.
-/

namespace PgAgent

open Compensation Resumable

/-! ## The calls -/

inductive RecoveryPhase where
  | started
  | slotCreated
  | dataCopied
  | standbyConfigured
  deriving DecidableEq, Repr

def RecoveryPhase.name : RecoveryPhase → String
  | started => "started"
  | slotCreated => "slot_created"
  | dataCopied => "data_copied"
  | standbyConfigured => "standby_configured"

inductive RebuildCall where
  | begin (payload : InflightPayload)
  | dial
  | getStatus
  | stop
  | checkpoint
  | createSlot
  | rewind
  | basebackup
  | configureStandby
  | start
  | attachNode
  | markDone (replayKey : String)
  | updatePhase (phase : RecoveryPhase)
  | complete
  deriving DecidableEq, Repr

/-- The name of a step, as the cause of a cleanup has it, and how the text of its error
begins. -/
structure Stage where
  name : String
  what : String
  deriving DecidableEq, Repr

abbrev RebuildRung := Rung RebuildCall Stage

/-- Where a handler is. -/
abbrev RebuildAt := At RebuildCall Stage String

/-- A handler whose request has been admitted, on the nodes it has resolved. -/
inductive Rebuild where
  | followPrimary (detached newPrimary : NodeConfig) (replayKey : String)
  | recovery (primary standby : NodeConfig)
  | initStandby (standby primary : NodeConfig)
  deriving DecidableEq, Repr

namespace Rebuild

/-- The node that is rebuilt. -/
def standby : Rebuild → NodeConfig
  | followPrimary detached _ _ => detached
  | recovery _ standby => standby
  | initStandby standby _ => standby

/-- The node it is rebuilt from. -/
def primary : Rebuild → NodeConfig
  | followPrimary _ newPrimary _ => newPrimary
  | recovery primary _ => primary
  | initStandby _ primary => primary

def slotName (r : Rebuild) : String := r.standby.slotName

/-- How the causes of a handler's cleanups begin. -/
def handlerName : Rebuild → String
  | followPrimary _ _ _ => "follow_primary"
  | recovery _ _ => "recovery_1st_stage"
  | initStandby _ _ => "cluster_init"

/-- `follow_primary`, from the dial on. -/
def followPrimaryRungs (detached : NodeConfig) (replayKey : String) : List RebuildRung :=
  let host := detached.hostname
  let stage (name what : String) : Stage := ⟨name, "follow_primary: " ++ what⟩
  [⟨.dial, .answers (stage "peer_dial" ("peer client for " ++ host))⟩,
    ⟨.getStatus, .answers (stage "get_status" ("get_status " ++ host))⟩,
    ⟨.stop, .answers (stage "stop" ("stop " ++ host))⟩,
    ⟨.checkpoint, .answers (stage "checkpoint" "checkpoint")⟩,
    ⟨.createSlot, .answers (stage "create_slot" ("create slot " ++ detached.slotName))⟩,
    ⟨.rewind, .fallsBack .basebackup (stage "basebackup" ("basebackup " ++ host))⟩,
    ⟨.configureStandby, .cleansUp (stage "configure_standby" ("configure_standby " ++ host))⟩,
    ⟨.start, .cleansUp (stage "start" ("start " ++ host))⟩,
    ⟨.attachNode, .answers (stage "attach" ("pcp_attach_node " ++ toString detached.id))⟩,
    ⟨.markDone replayKey, .answers (stage "marker" "idempotency marker write")⟩]

/-- `recovery_first_stage`, from the journal entry on. -/
def recoveryRungs (primary standby : NodeConfig) : List RebuildRung :=
  let host := standby.hostname
  let stage (name what : String) : Stage := ⟨name, "recovery_1st_stage: " ++ what⟩
  let payload := InflightPayload.recovery primary.id standby.id host standby.slotName
  [⟨.begin payload, .answers (stage "begin" "journal begin")⟩,
    ⟨.checkpoint, .givesUp (stage "checkpoint" "checkpoint")⟩,
    ⟨.createSlot, .givesUp (stage "create_slot" ("create slot " ++ standby.slotName))⟩,
    -- a phase that could not be written is only logged
    ⟨.updatePhase .slotCreated, .goesOn⟩,
    ⟨.dial, .cleansUp (stage "peer_dial" ("peer client for " ++ host))⟩,
    ⟨.basebackup, .cleansUp (stage "basebackup" ("basebackup " ++ host))⟩,
    ⟨.updatePhase .dataCopied, .goesOn⟩,
    ⟨.configureStandby, .cleansUp (stage "configure_standby" ("configure_standby " ++ host))⟩,
    ⟨.updatePhase .standbyConfigured, .goesOn⟩,
    ⟨.complete, .answers (stage "complete" "journal complete")⟩]

/-- `init_standby`. -/
def initStandbyRungs (standby : NodeConfig) : List RebuildRung :=
  [⟨.createSlot, .answers ⟨"create_slot", "create slot " ++ standby.slotName⟩⟩,
    ⟨.dial, .cleansUp ⟨"peer_client", "peer_client"⟩⟩,
    ⟨.stop, .cleansUp ⟨"stop", "stop"⟩⟩,
    ⟨.basebackup, .cleansUp ⟨"basebackup", "basebackup"⟩⟩,
    ⟨.configureStandby, .cleansUp ⟨"configure_standby", "configure_standby"⟩⟩,
    ⟨.start, .cleansUp ⟨"start", "start"⟩⟩]

def rungs : Rebuild → List RebuildRung
  | followPrimary detached _ replayKey => followPrimaryRungs detached replayKey
  | recovery primary standby => recoveryRungs primary standby
  | initStandby standby _ => initStandbyRungs standby

/-- Only a recovery has a journal entry, which it abandons. -/
def journaled : Rebuild → Bool
  | recovery _ _ => true
  | _ => false

end Rebuild

/-- What the caller of a rebuild gets. -/
inductive RebuildReply where
  | op (reply : OpReply)
  | standbyResult (nodeId : NodeId) (hostname : String) (ok : Bool) (message : String)
  deriving DecidableEq, Repr

/-- The text of an error. -/
def Stage.text (stage : Stage) (e : String) : String := stage.what ++ ": " ++ e

/-- The reply of a handler that has ended. -/
def Rebuild.reply (r : Rebuild) (ending : Ending Stage String) : RebuildReply :=
  match r, ending with
  | followPrimary detached _ _, .done =>
      .op (OpReply.accepted ("follow_primary complete for " ++ detached.hostname))
  | recovery _ standby, .done =>
      .op (OpReply.accepted ("recovery complete for " ++ standby.hostname))
  | initStandby standby _, .done => .standbyResult standby.id standby.hostname true "initialised"
  | _, .skipped => .op (OpReply.accepted "detached node is stopped, skipping")
  | initStandby standby _, .failed stage e =>
      .standbyResult standby.id standby.hostname false (stage.text e)
  | _, .failed stage e => .op (OpReply.internal (stage.text e))

/-! ## What the calls do -/

/-- The agent's world, and the journal entry of the handler, once it has one. -/
structure RebuildWorld where
  hook : HookState
  opId : String

/-- The outcome of a call, whether the standby's PostgreSQL runs, and the clock of the store. -/
structure RebuildInput where
  outcome : Except String Unit
  running : Bool
  now : UtcNanos

namespace HookState

/-- `MaintenanceStore::append`. -/
def append (s : HookState) (payload : MaintenancePayload) (now : UtcNanos)
    (outcome : Except String Unit) : HookState :=
  let intent := MaintenanceIntent.append payload now s.queueSeq
  match outcome with
  | .ok _ =>
      { s with
        queue := s.queue.filter (fun i => i.id != intent.id) ++ [intent]
        queueSeq := s.queueSeq + 1 }
  | .error _ => { s with queueSeq := s.queueSeq + 1 }

/-- The hook of `failover` appends in the same way. -/
theorem queueDropSlotCleanup_fst (s : HookState) (slotName targetHostname cause dropErr : String)
    (p : FailoverProbes) :
    (s.queueDropSlotCleanup slotName targetHostname cause dropErr p).1 =
      s.append (.dropSlotCleanup slotName targetHostname cause dropErr) p.appendedAt
        p.appended := by
  unfold queueDropSlotCleanup append
  cases p.appended <;> rfl

/-- `create_slot`: an existing slot is as good. -/
def createSlot (s : HookState) (slotName : String) : HookState :=
  { s with slots := s.slots.filter (fun slot => slot != slotName) ++ [slotName] }

/-- `pg_drop_replication_slot`. -/
def removeSlot (s : HookState) (slotName : String) : HookState :=
  { s with slots := s.slots.filter fun slot => slot != slotName }

end HookState

/-- The cause that goes into the queue. -/
def Rebuild.cause (r : Rebuild) (stage : Stage) : String :=
  r.handlerName ++ "_" ++ stage.name ++ "_failed"

/-- A call of the store on the handler's entry. -/
def RebuildWorld.journalCall (w : RebuildWorld) (call : JournalCall) (input : RebuildInput) :
    RebuildWorld × Except String Bool :=
  let (journal, answer) := w.hook.journal.change w.opId call input.now input.outcome
  ({ w with hook := { w.hook with journal := journal } }, answer.map fun _ => true)

/-- A call of the ladder. -/
def RebuildWorld.climb (digest : String → String) (r : Rebuild) (w : RebuildWorld)
    (call : RebuildCall) (input : RebuildInput) : RebuildWorld × Except String Bool :=
  match call with
  | .begin payload =>
      match w.hook.journal.begin payload RecoveryPhase.started.name false input.now
          input.outcome with
      | (journal, .ok op) => (⟨{ w.hook with journal := journal }, op.id⟩, .ok true)
      | (journal, .error e) => ({ w with hook := { w.hook with journal := journal } }, .error e)
  | .updatePhase phase => w.journalCall (.updatePhase phase.name none) input
  | .complete => w.journalCall .complete input
  | .createSlot =>
      match input.outcome with
      | .ok _ => ({ w with hook := w.hook.createSlot r.slotName }, .ok true)
      | .error e => (w, .error e)
  | .markDone replayKey =>
      match input.outcome with
      | .ok _ =>
          ({ w with
              hook := { w.hook with
                markers := markDone digest w.hook.markers "follow_primary" replayKey input.now } },
            .ok true)
      | .error e => (w, .error e)
  -- a standby that does not run is the operator's
  | .getStatus => (w, input.outcome.map fun _ => input.running)
  | _ => (w, input.outcome.map fun _ => true)

/-- The calls of a rebuild; the cleanup is `cleanup_slot_after_failure`. -/
def Rebuild.site (digest : String → String) (r : Rebuild) :
    Site RebuildWorld RebuildCall Stage String RebuildInput where
  perform w pos input :=
    match pos with
    | .climbing rung _ => w.climb digest r rung.call input
    | .releasing _ _ =>
        match input.outcome with
        | .ok _ => ({ w with hook := w.hook.removeSlot r.slotName }, .ok true)
        | .error e => (w, .error e)
    | .deferring stage _ dropErr =>
        ({ w with
            hook := w.hook.append
              (.dropSlotCleanup r.slotName r.primary.hostname (r.cause stage) dropErr) input.now
              input.outcome },
          input.outcome.map fun _ => true)
    | .givingUp stage e => w.journalCall (.abandon (stage.text e)) input

/-- The handler on its own. -/
def Rebuild.program (digest : String → String) (r : Rebuild) :
    Program (Run RebuildWorld RebuildCall Stage String) RebuildAt RebuildInput Unit :=
  Compensation.program (r.site digest) r.journaled

/-! ## No slot is left behind -/

/-- Once this call has succeeded the standby is there and uses its slot: it has been started, or
for a recovery it has been configured. -/
def Rebuild.commits : Rebuild → RebuildCall → Bool
  | recovery _ _, call => call == .configureStandby
  | _, call => call == .start

/-- The slot is gone, or its drop on the primary's host is pending in the queue. -/
def Rebuild.SlotSettled (r : Rebuild) (w : RebuildWorld) : Prop :=
  r.slotName ∉ w.hook.slots ∨ ∃ i ∈ w.hook.queue, i.status = .pending ∧
    ∃ cause initialError,
      i.payload = .dropSlotCleanup r.slotName r.primary.hostname cause initialError

/-- A run that has created the slot, and has not come to the point where the standby is there, has
settled it, as far as the queue has taken what was appended; a run that has come there, or has
been successful, has made no attempt to drop it. -/
def Rebuild.LeakFree (r : Rebuild) (run : Run RebuildWorld RebuildCall Stage String) : Prop :=
  Accounted (fun call => call == .createSlot) r.commits r.SlotSettled run

/-- The ladders clean up from the creation of the slot to the standby, and nowhere else. -/
theorem Rebuild.guarded (r : Rebuild) :
    Guarded (fun call => call == .createSlot) r.commits (fun call => call == .getStatus) false false
      r.rungs = true := by
  cases r with
  | followPrimary detached newPrimary replayKey => rfl
  | recovery primary standby => rfl
  | initStandby standby primary => rfl

theorem map_true_ne_false (outcome : Except String Unit) :
    (outcome.map fun _ => true) ≠ .ok false := by
  rcases outcome with e | u
  · intro h
    cases h
  · intro h
    cases h

/-- Only the status of the standby says that there is nothing to do. -/
theorem RebuildWorld.climb_skips {digest : String → String} {r : Rebuild} {w : RebuildWorld}
    {call : RebuildCall} {input : RebuildInput} (h : (w.climb digest r call input).2 = .ok false) :
    call = .getStatus := by
  cases call with
  | getStatus => rfl
  | begin payload =>
    unfold climb at h
    dsimp only at h
    split at h <;> cases h
  | updatePhase phase => exact absurd h (map_true_ne_false _)
  | complete => exact absurd h (map_true_ne_false _)
  | createSlot =>
    unfold climb at h
    dsimp only at h
    split at h <;> cases h
  | markDone replayKey =>
    unfold climb at h
    dsimp only at h
    split at h <;> cases h
  | dial => exact absurd h (map_true_ne_false _)
  | stop => exact absurd h (map_true_ne_false _)
  | checkpoint => exact absurd h (map_true_ne_false _)
  | rewind => exact absurd h (map_true_ne_false _)
  | basebackup => exact absurd h (map_true_ne_false _)
  | configureStandby => exact absurd h (map_true_ne_false _)
  | start => exact absurd h (map_true_ne_false _)
  | attachNode => exact absurd h (map_true_ne_false _)

/-- The cleanup settles the slot. -/
theorem Rebuild.settles (digest : String → String) (r : Rebuild) :
    Settles (r.site digest) (fun call => call == .getStatus) r.SlotSettled where
  skips w rung rest input h := by
    rw [beq_iff_eq]
    exact RebuildWorld.climb_skips h
  released w stage e input more h := by
    left
    simp only [site] at h ⊢
    rcases houtcome : input.outcome with e' | u
    · rw [houtcome] at h
      cases h
    · simp [HookState.removeSlot]
  deferred w stage e dropErr input more h := by
    right
    simp only [site] at h ⊢
    rcases houtcome : input.outcome with e' | u
    · rw [houtcome] at h
      cases h
    · exact ⟨_, List.mem_append_right _ List.mem_cons_self, rfl, _, _, rfl⟩
  givenUp w stage e input h := h

/-! ## The requests -/

structure FollowPrimaryRequest where
  detached : Option NodeRef
  newPrimary : Option NodeRef
  deriving DecidableEq, Repr

structure RecoveryRequest where
  primary : Option NodeRef
  standby : Option NodeRef
  bypassReplayMarker : Bool
  deriving DecidableEq, Repr

/-- The requests that start rebuilds. -/
inductive RebuildRequest where
  | followPrimary (req : FollowPrimaryRequest)
  | recovery (req : RecoveryRequest)
  | clusterInit (onlyNodeId : Option NodeId)
  deriving DecidableEq, Repr

/-- What a request meets before the rebuild starts: whether the marker, or the journal, could be
looked up, at which time, and for a `cluster_init` the role of the local database, and whether
the replication role of the configured user could be created. -/
structure RebuildProbes where
  lookup : Except String Unit
  now : UtcNanos
  isInRecovery : Except String Bool
  replUser : String
  createReplicationRole : Except String Unit

/-- `RECOVERY_DEDUP_WINDOW`, a day, in nanoseconds. -/
def recoveryDedupWindow : ℤ := 24 * 3600 * 10 ^ 9

def FollowPrimaryRequest.replayKey (detached newPrimary : NodeRef) : String :=
  "detached=" ++ toString detached.id ++ ",new_primary=" ++ toString newPrimary.id

/-- The key a recovery is looked up by: the ids of the request. -/
def RecoveryRequest.dedupKey (primary standby : NodeRef) : String :=
  "primary=" ++ toString primary.id ++ ",standby=" ++ toString standby.id

/-- The entry is a completion within the window. -/
def InflightOp.recentlyDone (op : InflightOp) (now : UtcNanos) : Bool :=
  op.status == .done && op.completedAt.any fun t => decide (now - t < recoveryDedupWindow)

/-- A node of a request. -/
def resolveRef (handler field : String) (node : Except AgentError NodeConfig) :
    Except OpReply NodeConfig :=
  node.mapError fun e => OpReply.invalidArgument (handler ++ ": " ++ field ++ ": " ++ e.display)

/-- A required field of a request. -/
def requiredRef (handler field : String) (ref : Option NodeRef) : Except OpReply NodeRef :=
  match ref with
  | some ref => .ok ref
  | none => .error (OpReply.invalidArgument (handler ++ ": " ++ field ++ " is required"))

/-- `follow_primary` up to its first call: a reply, or the rebuild. -/
def FollowPrimaryRequest.admitted (digest : String → String) (pool : NodePool) (s : HookState)
    (req : FollowPrimaryRequest) (p : RebuildProbes) : Except OpReply Rebuild := do
  let detachedRef ← requiredRef "follow_primary" "detached" req.detached
  let newPrimaryRef ← requiredRef "follow_primary" "new_primary" req.newPrimary
  let key := replayKey detachedRef newPrimaryRef
  p.lookup.mapError fun e =>
    OpReply.internal ("follow_primary: idempotency marker check: " ++ e)
  answering (if hasMarker digest s.markers "follow_primary" key then
    some (OpReply.accepted "follow_primary: already processed; skipping duplicate") else none)
  let detached ← resolveRef "follow_primary" "detached" (pool.resolveNode detachedRef)
  let newPrimary ← resolveRef "follow_primary" "new_primary" (pool.resolveNode newPrimaryRef)
  .ok (.followPrimary detached newPrimary key)

/-- What a recent completion answers. -/
def skipsRecovery (now : UtcNanos) : Option InflightOp → Option OpReply
  | some op =>
      if op.recentlyDone now then
        some (OpReply.accepted
          ("recovery_1st_stage: skipped — an identical recovery completed " ++
          "within the last 24h (op " ++ op.id ++
            "); pass --stop-target-pg via `cluster recover` " ++
          "to force a fresh one"))
      else none
  | none => none

/-- The lookup of `recovery_first_stage`, unless it is bypassed. -/
def RecoveryRequest.dedup (s : HookState) (req : RecoveryRequest) (primary standby : NodeRef)
    (p : RebuildProbes) : Except OpReply Unit :=
  if req.bypassReplayMarker then .ok ()
  else do
    p.lookup.mapError fun e => OpReply.internal ("recovery_1st_stage: inflight lookup: " ++ e)
    answering (skipsRecovery p.now
      (InflightOp.find s.journal.ops "recovery" (dedupKey primary standby)))

/-- `recovery_first_stage` up to its journal entry. -/
def RecoveryRequest.admitted (pool : NodePool) (s : HookState) (req : RecoveryRequest)
    (p : RebuildProbes) : Except OpReply Rebuild := do
  let primaryRef ← requiredRef "recovery_1st_stage" "primary" req.primary
  let standbyRef ← requiredRef "recovery_1st_stage" "standby" req.standby
  dedup s req primaryRef standbyRef p
  let primary ← resolveRef "recovery_1st_stage" "primary" (pool.resolveLocalNode primaryRef)
  let standby ← resolveRef "recovery_1st_stage" "standby" (pool.resolveNode standbyRef)
  .ok (.recovery primary standby)

/-- The standbys of a `cluster_init`. -/
def clusterInitStandbys (pool : NodePool) (primary : NodeConfig) (onlyNodeId : Option NodeId) :
    List NodeConfig :=
  pool.members.filter fun node =>
    node.id != primary.id && onlyNodeId.all fun only => only == node.id

/-- `cluster_init` up to the rebuilds of its standbys, which follow one another. -/
def clusterInitAdmit (pool : NodePool) (onlyNodeId : Option NodeId) (p : RebuildProbes) :
    Except OpReply (List Rebuild) := do
  let inRecovery ← p.isInRecovery.mapError fun e =>
    OpReply.internal ("cluster_init: check primary status: " ++ e)
  requires (!inRecovery)
    (OpReply.refused "cluster_init: local node is not the primary (in recovery)")
  let primary ← pool.localNode.mapError fun e =>
    OpReply.internal ("cluster_init: resolve local node: " ++ e.display)
  p.createReplicationRole.mapError fun e =>
    OpReply.internal ("cluster_init: create replication role " ++ debugStr p.replUser ++ ": " ++ e)
  .ok ((clusterInitStandbys pool primary onlyNodeId).map fun standby =>
    .initStandby standby primary)

/-- What a request starts. -/
def RebuildRequest.admitted (digest : String → String) (pool : NodePool) (s : HookState)
    (req : RebuildRequest) (p : RebuildProbes) : Except OpReply (List Rebuild) :=
  match req with
  | .followPrimary req => (req.admitted digest pool s p).map fun r => [r]
  | .recovery req => (req.admitted pool s p).map fun r => [r]
  | .clusterInit onlyNodeId => clusterInitAdmit pool onlyNodeId p

theorem Rebuild.rungs_ne_nil (r : Rebuild) : r.rungs ≠ [] := by
  cases r <;> exact List.cons_ne_nil _ _

/-- The first call of a rebuild. -/
def Rebuild.first (r : Rebuild) : RebuildAt := .climbing (r.rungs.head r.rungs_ne_nil) r.rungs.tail

/-- The node is the primary that the request names; for a recovery and a `cluster_init` this is
the local node. -/
def RebuildRequest.NamesPrimary (pool : NodePool) (n : NodeConfig) : RebuildRequest → Prop
  | .followPrimary req => ∃ ref, req.newPrimary = some ref ∧ pool.resolveNode ref = .ok n
  | .recovery req => ∃ ref, req.primary = some ref ∧ pool.resolveNode ref = .ok n ∧
      pool.isLocal n = true
  | .clusterInit _ => pool.localNode = .ok n

theorem requiredRef_eq_ok_iff {handler field : String} {ref : Option NodeRef} {n : NodeRef} :
    requiredRef handler field ref = .ok n ↔ ref = some n := by
  cases ref <;> simp [requiredRef]

theorem resolveLocalNode_eq_ok_iff {pool : NodePool} {ref : NodeRef} {n : NodeConfig} :
    pool.resolveLocalNode ref = .ok n ↔
      pool.resolveNode ref = .ok n ∧ pool.isLocal n = true := by
  unfold NodePool.resolveLocalNode
  cases pool.resolveNode ref with
  | error e => simp [Except.bind]
  | ok node =>
    by_cases hlocal : pool.isLocal node = true
    · simp only [Except.bind, hlocal, if_true, Except.ok.injEq]
      constructor
      · rintro rfl
        exact ⟨rfl, hlocal⟩
      · exact fun h => h.1
    · simp only [Except.bind, hlocal, Bool.false_eq_true, if_false, reduceCtorEq, false_iff,
        Except.ok.injEq, not_and]
      rintro rfl
      exact hlocal

/-- The hooks of `follow_primary` that are admitted. -/
theorem FollowPrimaryRequest.admitted_eq_ok_iff {digest : String → String} {pool : NodePool}
    {s : HookState} {req : FollowPrimaryRequest} {p : RebuildProbes} {r : Rebuild} :
    req.admitted digest pool s p = .ok r ↔
      ∃ detachedRef newPrimaryRef detached newPrimary, req.detached = some detachedRef ∧
        req.newPrimary = some newPrimaryRef ∧ p.lookup = .ok () ∧
        hasMarker digest s.markers "follow_primary" (replayKey detachedRef newPrimaryRef) =
          false ∧
        pool.resolveNode detachedRef = .ok detached ∧
        pool.resolveNode newPrimaryRef = .ok newPrimary ∧
        r = .followPrimary detached newPrimary (replayKey detachedRef newPrimaryRef) := by
  unfold admitted
  simp only [bind_eq_ok_iff, requiredRef_eq_ok_iff, mapError_eq_ok_iff, answering_eq_ok_iff,
    resolveRef, ite_eq_right_iff, reduceCtorEq, imp_false, Bool.not_eq_true, Except.ok.injEq]
  constructor
  · rintro ⟨detachedRef, hdetachedRef, newPrimaryRef, hnewPrimaryRef, _, hlookup, _, hmarker,
      detached, hdetached, newPrimary, hnewPrimary, rfl⟩
    exact ⟨detachedRef, newPrimaryRef, detached, newPrimary, hdetachedRef,
      hnewPrimaryRef, hlookup,
      hmarker, hdetached, hnewPrimary, rfl⟩
  · rintro ⟨detachedRef, newPrimaryRef, detached, newPrimary, hdetachedRef,
      hnewPrimaryRef, hlookup,
      hmarker, hdetached, hnewPrimary, rfl⟩
    exact ⟨detachedRef, hdetachedRef, newPrimaryRef, hnewPrimaryRef, (), hlookup, (), hmarker,
      detached, hdetached, newPrimary, hnewPrimary, rfl⟩

theorem skipsRecovery_eq_none_iff {now : UtcNanos} {found : Option InflightOp} :
    skipsRecovery now found = none ↔ ∀ op, found = some op → op.recentlyDone now = false := by
  cases found with
  | none => exact iff_of_true rfl fun _ h => by cases h
  | some op =>
    simp only [skipsRecovery, ite_eq_right_iff, reduceCtorEq, imp_false, Bool.not_eq_true,
      Option.some.injEq, forall_eq']

/-- The lookup lets the request pass: no completion of the last day is recorded under the ids of
the request. -/
def RecoveryRequest.NotRecent (s : HookState) (req : RecoveryRequest) (primary standby : NodeRef)
    (p : RebuildProbes) : Prop :=
  req.bypassReplayMarker = false → p.lookup = .ok () ∧
    ∀ op, InflightOp.find s.journal.ops "recovery" (dedupKey primary standby) = some op →
      op.recentlyDone p.now = false

theorem RecoveryRequest.dedup_eq_ok_iff {s : HookState} {req : RecoveryRequest}
    {primary standby : NodeRef} {p : RebuildProbes} {u : Unit} :
    dedup s req primary standby p = .ok u ↔ req.NotRecent s primary standby p := by
  unfold dedup NotRecent
  cases req.bypassReplayMarker with
  | true => simp
  | false =>
    simp only [Bool.false_eq_true, if_false, bind_eq_ok_iff, mapError_eq_ok_iff,
      answering_eq_ok_iff, skipsRecovery_eq_none_iff, forall_const]
    exact ⟨fun ⟨_, hlookup, hfound⟩ => ⟨hlookup, hfound⟩,
      fun ⟨hlookup, hfound⟩ => ⟨(), hlookup, hfound⟩⟩

/-- The recoveries that are admitted. -/
theorem RecoveryRequest.admitted_eq_ok_iff {pool : NodePool} {s : HookState} {req : RecoveryRequest}
    {p : RebuildProbes} {r : Rebuild} :
    req.admitted pool s p = .ok r ↔
      ∃ primaryRef standbyRef primary standby, req.primary = some primaryRef ∧
        req.standby = some standbyRef ∧ req.NotRecent s primaryRef standbyRef p ∧
        pool.resolveNode primaryRef = .ok primary ∧ pool.isLocal primary = true ∧
        pool.resolveNode standbyRef = .ok standby ∧ r = .recovery primary standby := by
  unfold admitted
  simp only [bind_eq_ok_iff, requiredRef_eq_ok_iff, mapError_eq_ok_iff, resolveRef,
    dedup_eq_ok_iff, resolveLocalNode_eq_ok_iff, Except.ok.injEq]
  constructor
  · rintro ⟨primaryRef, hprimaryRef, standbyRef, hstandbyRef, _, hfree, primary,
      ⟨hprimary, hlocal⟩, standby, hstandby, rfl⟩
    exact ⟨primaryRef, standbyRef, primary, standby, hprimaryRef, hstandbyRef, hfree, hprimary,
      hlocal, hstandby, rfl⟩
  · rintro ⟨primaryRef, standbyRef, primary, standby, hprimaryRef, hstandbyRef, hfree, hprimary,
      hlocal, hstandby, rfl⟩
    exact ⟨primaryRef, hprimaryRef, standbyRef, hstandbyRef, (), hfree, primary,
      ⟨hprimary, hlocal⟩, standby, hstandby, rfl⟩

theorem mem_map_singleton {x : Except OpReply Rebuild} {rs : List Rebuild} {r : Rebuild}
    (h : (x.map fun r => [r]) = .ok rs) (hr : r ∈ rs) : x = .ok r := by
  cases x with
  | error e => cases h
  | ok r' =>
    obtain rfl := Except.ok.inj h
    rw [List.mem_singleton.mp hr]

/-- A rebuild is from the primary that the request names. -/
theorem RebuildRequest.namesPrimary {digest : String → String} {pool : NodePool} {s : HookState}
    {req : RebuildRequest} {p : RebuildProbes} {rs : List Rebuild}
    (h : req.admitted digest pool s p = .ok rs) {r : Rebuild} (hr : r ∈ rs) :
    req.NamesPrimary pool r.primary := by
  cases req with
  | followPrimary req =>
    obtain ⟨_, ref, _, _, -, href, -, -, -, hresolved, rfl⟩ :=
      FollowPrimaryRequest.admitted_eq_ok_iff.mp (mem_map_singleton h hr)
    exact ⟨ref, href, hresolved⟩
  | recovery req =>
    obtain ⟨ref, _, _, _, href, -, -, hresolved, hlocal, -, rfl⟩ :=
      RecoveryRequest.admitted_eq_ok_iff.mp (mem_map_singleton h hr)
    exact ⟨ref, href, hresolved, hlocal⟩
  | clusterInit onlyNodeId =>
    unfold admitted clusterInitAdmit at h
    simp only [bind_eq_ok_iff, mapError_eq_ok_iff, Except.ok.injEq] at h
    obtain ⟨-, -, -, -, primary, hlocal, -, -, rfl⟩ := h
    obtain ⟨standby, -, rfl⟩ := List.mem_map.mp hr
    exact hlocal

/-- Every rebuild that a request starts **comes to its end, and leaves no slot behind that nobody
uses: it has dropped the slot, or has its drop on the host of the primary in the queue; and it has
not tried to drop the slot of a standby that is there**. -/
theorem rebuild_leakFree {digest : String → String} {pool : NodePool} {s : HookState}
    {req : RebuildRequest} {p : RebuildProbes} {rs : List Rebuild}
    (h : req.admitted digest pool s p = .ok rs) :
    ∀ r ∈ rs, req.NamesPrimary pool r.primary ∧
      ∀ w, EndsIn (r.program digest) (Run.start w) r.first r.LeakFree := by
  intro r hr
  refine ⟨RebuildRequest.namesPrimary h hr, fun w => ?_⟩
  refine endsIn_accounted (r.settles digest) ?_ w
  rw [List.cons_head_tail]
  exact r.guarded

/-! ### A recovery of node 2 -/

def rebuildPool : NodePool := ⟨[⟨0, "db0"⟩, ⟨1, "db1"⟩, ⟨2, "db2"⟩], 0⟩

/-- An agent that has done nothing yet. -/
def idleHook : HookState := ⟨Journal.empty, [], 0, [], []⟩

/-- A lookup at time `0` that goes through. -/
def freeProbes : RebuildProbes := ⟨.ok (), 0, .ok false, "repl", .ok ()⟩

/-- The request of pgpool's hook, which has no id for the primary. -/
def hookRecovery : RecoveryRequest := ⟨some ⟨-1, "db0"⟩, some ⟨2, "db2"⟩, false⟩

/-- A recovery of node `2` accounts for the slot `node2`. -/
theorem recovery_leakFree :
    EndsIn ((Rebuild.recovery ⟨0, "db0"⟩ ⟨2, "db2"⟩).program id)
      (Run.start ⟨idleHook, ""⟩) (Rebuild.recovery ⟨0, "db0"⟩ ⟨2, "db2"⟩).first
      (Rebuild.recovery ⟨0, "db0"⟩ ⟨2, "db2"⟩).LeakFree := by
  have hadmitted : RebuildRequest.admitted id rebuildPool idleHook (.recovery hookRecovery)
      freeProbes = .ok [.recovery ⟨0, "db0"⟩ ⟨2, "db2"⟩] := by rfl
  exact (rebuild_leakFree hadmitted _ List.mem_cons_self).2 _

end PgAgent
