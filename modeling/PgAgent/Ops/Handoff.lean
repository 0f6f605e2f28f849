import PgAgent.Cluster.View
import PgAgent.Ops.Journal

/-!
# The planned handoff

`cluster_handoff` of `localserver.rs`, run by the agent of the primary: preflight checks,
then a ladder of journaled phases that promotes the target and rebuilds the local node as
its standby.

The preflight (`handoffPreflight`) either answers the request or admits the operation.
The ladder is a machine over the calls it makes: at each call it stands still until the
call has come back, and `HandoffOp.next` says where it goes from there --- to the next
call, or to the reply.  A phase is written to the journal after its work is done, so to
enter the ladder at a phase is to stand at the first call that follows it.
-/

namespace PgAgent

/-! ## Replies -/

/-- The gRPC codes the handler answers with. -/
inductive RpcCode where
  | invalidArgument
  | internal
  | notFound
  | failedPrecondition
  deriving DecidableEq, Repr

structure RpcStatus where
  code : RpcCode
  message : String
  deriving DecidableEq, Repr

structure OpResult where
  ok : Bool
  message : String
  deriving DecidableEq, Repr

/-- What the caller of a handler gets. -/
abbrev OpReply := Except RpcStatus OpResult

namespace OpReply

def internal (message : String) : OpReply := .error ⟨.internal, message⟩

def invalidArgument (message : String) : OpReply := .error ⟨.invalidArgument, message⟩

def refused (message : String) : OpReply := .ok ⟨false, message⟩

def accepted (message : String) : OpReply := .ok ⟨true, message⟩

/-- The caller was told `ok = true`. -/
def isAccepted : OpReply → Bool
  | .ok result => result.ok
  | .error _ => false

end OpReply

/-- The text of an error, as the messages quote it. -/
def AgentError.display : AgentError → String
  | nodeNotFound what => "config: node not found: " ++ what
  | noLocalNode =>
      "config: local node not found in pool (no node_id configured and no hostname match)"
  | raftConfig message => "config: [raft]: " ++ message
  | nodeRefUnresolvable id hostname =>
      "unknown node: id=" ++ toString id ++ " hostname=" ++ debugStr hostname
  | nodeRefNotLocal id hostname =>
      "node id=" ++ toString id ++ " (" ++ hostname ++ ") is not the local node"

/-! ## The phases -/

inductive HandoffPhase where
  | preflightDone
  | targetPromoted
  | slotCreated
  | localStopped
  | dataCopied
  | recoveryConfWritten
  | localStarted
  | attached
  deriving DecidableEq, Repr

def HandoffPhase.name : HandoffPhase → String
  | preflightDone => "preflight_done"
  | targetPromoted => "target_promoted"
  | slotCreated => "slot_created"
  | localStopped => "local_stopped"
  | dataCopied => "data_copied"
  | recoveryConfWritten => "recovery_conf_written"
  | localStarted => "local_started"
  | attached => "attached"

/-- `handoff_phase_index`: the phase of a name. -/
def HandoffPhase.ofName (name : String) : Option HandoffPhase :=
  [preflightDone, targetPromoted, slotCreated, localStopped, dataCopied, recoveryConfWritten,
    localStarted, attached].find? fun phase => phase.name == name

theorem HandoffPhase.ofName_name (phase : HandoffPhase) : ofName phase.name = some phase := by
  cases phase <;> decide

/-! ## Preflight -/

/-- How far a target may be behind without `allow_lag`: one WAL segment. -/
def maxHandoffLagBytes : ℕ := 16 * 1024 * 1024

structure ClusterHandoffRequest where
  targetNodeId : NodeId
  allowLag : Bool
  deriving DecidableEq, Repr

/-- What the preflight learns from its collaborators, in the order it asks: the role of the
local database, the journal, the connection to the target and the target's status, the
local WAL position, and for `begin` the journal again, whether the entry could be written,
the clock and the store's sequence number. -/
structure PreflightProbes where
  isInRecovery : Except String Bool
  journal : Except String (List InflightOp)
  client : Except String Unit
  targetStatus : Except String NodeStatus
  currentWalLsn : Except String ℕ
  journalAtBegin : Except String (List InflightOp)
  written : Except String Unit
  now : UtcNanos
  seq : ℕ

/-- An operation the preflight admitted. -/
structure HandoffOp where
  opId : String
  localNode : NodeConfig
  target : NodeConfig
  slotName : String
  deriving DecidableEq, Repr

/-- An LSN as the messages print it, `{:X}/{:08X}`. -/
def lsnText (lsn : ℕ) : String :=
  let hex (n : ℕ) : List Char := (Nat.toDigits 16 n).map Char.toUpper
  String.ofList (hex (lsn / 2 ^ 32) ++ '/' :: (hex (lsn % 2 ^ 32)).leftpad 8 '0')

/-- A collaborator's error is answered with `internal`, under the name of the call. -/
def orInternal {α : Type} (call : String) : Except String α → Except OpReply α
  | .ok a => .ok a
  | .error e => .error (OpReply.internal ("cluster_handoff: " ++ call ++ ": " ++ e))

/-- The lag check: what the target has replayed against what the local primary has
written. -/
def lagRefusal (target : NodeConfig) (localLsn targetReplayLsn : ℕ) : Option OpReply :=
  if localLsn = 0 ∨ targetReplayLsn = 0 then
    some (OpReply.refused ("cluster_handoff: cannot measure lag — local current_wal_lsn=" ++
      toString localLsn ++ " target last_replay_lsn=" ++ toString targetReplayLsn ++
      " (a 0 value means the LSN probe failed or the peer is on a pre-0.4.0 build); rerun with " ++
      "--allow-lag to override (will accept unknown data loss)"))
  else
    let lag := localLsn - targetReplayLsn
    if lag > maxHandoffLagBytes then
      some (OpReply.refused ("cluster_handoff: target " ++ target.hostname ++ " is " ++
        toString lag ++ " bytes behind local primary (local LSN " ++ lsnText localLsn ++
        ", target replay LSN " ++ lsnText targetReplayLsn ++ "); exceeds threshold " ++
        toString maxHandoffLagBytes ++ " bytes (one WAL segment); rerun with --allow-lag to " ++
        "override (will accept data loss for writes between the standby's replay LSN and the " ++
        "primary's current LSN)"))
    else none

/-- The latest journal entry of a handoff between the two nodes. -/
def earlierHandoff (ops : List InflightOp) (fromId toId : NodeId) : Option InflightOp :=
  InflightOp.find ops "handoff" ("from=" ++ toString fromId ++ ",to=" ++ toString toId)

/-- What an earlier entry for the same handoff answers. -/
def replayReply : Option InflightOp → Option OpReply
  | none => none
  | some op =>
      match op.status with
      | .done =>
          some (OpReply.accepted "cluster_handoff: already processed; skipping duplicate")
      | .inProgress =>
          some (OpReply.refused ("cluster_handoff: handoff already in flight (id=" ++ op.id ++
            ", phase=" ++ op.phase ++ "); resume with `pg_agentctl ops resume " ++ op.id ++
            "` or abandon with `pg_agentctl ops abandon " ++ op.id ++ "`"))
      | .abandoned => none

/-- Answer, if there is something to answer. -/
def answering : Option OpReply → Except OpReply Unit
  | some reply => .error reply
  | none => .ok ()

/-- Answer when the check fails. -/
def requires (passes : Bool) (reply : OpReply) : Except OpReply Unit :=
  answering (if passes then none else some reply)

/-- The lag check as the request asks for it. -/
def checkLag (req : ClusterHandoffRequest) (target : NodeConfig) (p : PreflightProbes)
    (targetReplayLsn : ℕ) : Except OpReply Unit :=
  if req.allowLag then .ok ()
  else do
    let localLsn ← orInternal "local current_wal_lsn" p.currentWalLsn
    answering (lagRefusal target localLsn targetReplayLsn)

/-- The journal entry of an admitted handoff; a refusal of the journal is an answer. -/
def beginHandoff (req : ClusterHandoffRequest) (p : PreflightProbes)
    (localNode target : NodeConfig) : Except OpReply HandoffOp :=
  let slotName := localNode.slotName
  let payload :=
    InflightPayload.handoff localNode.id target.id target.hostname slotName req.allowLag
  match InflightOp.begin p.journalAtBegin p.written payload HandoffPhase.preflightDone.name true
      p.now p.seq with
  | .error e => .error (OpReply.refused ("cluster_handoff: " ++ e))
  | .ok op => .ok ⟨op.id, localNode, target, slotName⟩

/-- The target of a request. -/
def resolveTarget (pool : NodePool) (req : ClusterHandoffRequest) : Except OpReply NodeConfig :=
  (pool.nodeById req.targetNodeId).mapError fun e =>
    OpReply.invalidArgument ("cluster_handoff: target node " ++ toString req.targetNodeId ++
      ": " ++ e.display)

/-- The preflight of `cluster_handoff`: a reply, or the operation to drive. -/
def handoffPreflight (pool : NodePool) (req : ClusterHandoffRequest) (p : PreflightProbes) :
    Except OpReply HandoffOp := do
  let inRecovery ← orInternal "is_in_recovery" p.isInRecovery
  requires (!inRecovery) (OpReply.refused ("cluster_handoff: local node is not the primary (in " ++
    "recovery); run this on the current primary"))
  let localNode ← orInternal "resolve local" (pool.localNode.mapError AgentError.display)
  let target ← resolveTarget pool req
  requires (!(decide (pool.localNodeId ≥ 0) && target.id == pool.localNodeId))
    (OpReply.invalidArgument
      "cluster_handoff: target is the local node — handoff target must be a peer")
  let ops ← orInternal "inflight lookup" p.journal
  answering (replayReply (earlierHandoff ops localNode.id target.id))
  orInternal ("dial peer " ++ target.hostname) p.client
  let targetStatus ← orInternal ("peer get_status " ++ target.hostname) p.targetStatus
  requires targetStatus.isPostgresRunning (OpReply.refused ("cluster_handoff: target " ++
    target.hostname ++ " has postgres stopped; start it first or pick a different target"))
  requires targetStatus.isInRecovery (OpReply.refused ("cluster_handoff: target " ++
    target.hostname ++ " is not a standby (already primary); pick a standby as the handoff target"))
  checkLag req target p targetStatus.currentWalLsn
  beginHandoff req p localNode target

/-! ## The ladder -/

/-- The calls of `run_handoff_from_phase`.  The two that clean up after a failed copy keep
the error they clean up after. -/
inductive HandoffCall where
  | checkpoint
  | promote
  | updatePhase (phase : HandoffPhase)
  | createSlot
  | stopPostgres
  | rewind
  | basebackup
  | dropSlot (copyError : String)
  | abandon (copyError : String)
  | writeRecoveryConf
  | startPostgres
  | attachNode
  | complete
  deriving DecidableEq, Repr

/-- A call of the ladder, and what the reply will say of the steps behind it. -/
structure LadderPosition where
  call : HandoffCall
  basebackupRan : Bool
  attachNote : String
  deriving DecidableEq, Repr

/-- The first call after a recorded phase. -/
def HandoffPhase.firstCall : HandoffPhase → HandoffCall
  | preflightDone => .checkpoint
  | targetPromoted => .createSlot
  | slotCreated => .stopPostgres
  | localStopped => .rewind
  | dataCopied => .writeRecoveryConf
  | recoveryConfWritten => .startPostgres
  | localStarted => .attachNode
  | attached => .complete

/-- Where `run_handoff_from_phase` starts. -/
def HandoffPhase.start (phase : HandoffPhase) : LadderPosition := ⟨phase.firstCall, false, ""⟩

namespace HandoffOp

/-- A call that failed with nothing to clean up. -/
def failed (call e : String) : LadderPosition ⊕ OpReply :=
  .inr (OpReply.internal ("cluster_handoff: " ++ call ++ ": " ++ e))

/-- Where the ladder goes from a call, by the call's outcome. -/
def next (op : HandoffOp) (pos : LadderPosition) (outcome : Except String Unit) :
    LadderPosition ⊕ OpReply :=
  let goto (call : HandoffCall) : LadderPosition ⊕ OpReply := .inl { pos with call := call }
  match pos.call, outcome with
  | .checkpoint, .ok _ => goto .promote
  | .checkpoint, .error e => failed "checkpoint" e
  | .promote, .ok _ => goto (.updatePhase .targetPromoted)
  | .promote, .error e => failed ("promote " ++ op.target.hostname) e
  | .updatePhase phase, .ok _ => goto phase.firstCall
  | .updatePhase _, .error e => failed "journal" e
  | .createSlot, .ok _ => goto (.updatePhase .slotCreated)
  | .createSlot, .error e => failed ("create_slot on " ++ op.target.hostname) e
  | .stopPostgres, .ok _ => goto (.updatePhase .localStopped)
  | .stopPostgres, .error e => failed "stop_postgres" e
  | .rewind, .ok _ => goto (.updatePhase .dataCopied)
  | .rewind, .error _ => goto .basebackup
  | .basebackup, .ok _ => .inl { pos with call := .updatePhase .dataCopied, basebackupRan := true }
  | .basebackup, .error e => goto (.dropSlot e)
  -- the cleanup of a failed copy is best effort
  | .dropSlot e, _ => goto (.abandon e)
  | .abandon e, _ =>
      .inr (OpReply.refused ("cluster_handoff: rewind and basebackup both failed against " ++
        op.target.hostname ++ ": " ++ e ++ "; local PG is stopped, target is now the primary; " ++
        "run `pg_agentctl cluster recover --target " ++ toString op.localNode.id ++
        " --stop-target-pg` from the new primary to finish converging the local node"))
  | .writeRecoveryConf, .ok _ => goto (.updatePhase .recoveryConfWritten)
  | .writeRecoveryConf, .error e => failed "write_recovery_conf" e
  | .startPostgres, .ok _ => goto (.updatePhase .localStarted)
  | .startPostgres, .error e => failed "start_postgres" e
  | .attachNode, .ok _ => goto (.updatePhase .attached)
  | .attachNode, .error e =>
      .inl { pos with
        call := .updatePhase .attached, attachNote := "; pgpool attach failed: " ++ e }
  | .complete, .ok _ =>
      .inr (OpReply.accepted ("handoff complete: primary is now " ++ op.target.hostname ++
        "; local demoted to standby via " ++
          (if pos.basebackupRan then "basebackup" else "rewind") ++
        pos.attachNote))
  | .complete, .error e => failed "complete journal" e

end HandoffOp

/-! ## What a reply says of the way to it -/

/-- The calls the ladder makes once the promotion of the target has been acknowledged. -/
def HandoffCall.afterPromotion : HandoffCall → Bool
  | .checkpoint => false
  | .promote => false
  | .updatePhase .preflightDone => false
  | _ => true

/-- The ladder passes the promotion by the call itself. -/
theorem HandoffOp.afterPromotion_of_next {op : HandoffOp} {pos pos' : LadderPosition}
    {outcome : Except String Unit} (h : op.next pos outcome = .inl pos')
    (hafter : pos'.call.afterPromotion = true) :
    pos.call = .promote ∨ pos.call.afterPromotion = true := by
  obtain ⟨call, ran, note⟩ := pos
  cases call with
  | checkpoint =>
    cases outcome with
    | ok _ =>
      obtain rfl := Sum.inl.inj h
      cases hafter
    | error _ => cases h
  | promote => exact Or.inl rfl
  | updatePhase phase =>
    cases outcome with
    | ok _ =>
      obtain rfl := Sum.inl.inj h
      cases phase with
      | preflightDone => cases hafter
      | _ => exact Or.inr rfl
    | error _ => cases h
  | _ => exact Or.inr rfl

/-- Only the last call of the ladder is answered with `ok = true`. -/
theorem HandoffOp.complete_of_accepted {op : HandoffOp} {pos : LadderPosition}
    {outcome : Except String Unit} {reply : OpReply} (h : op.next pos outcome = .inr reply)
    (hok : reply.isAccepted = true) : pos.call = .complete := by
  obtain ⟨call, ran, note⟩ := pos
  cases call with
  | complete => rfl
  | _ =>
    cases outcome <;> simp only [next, failed, Sum.inr.injEq, reduceCtorEq] at h <;> subst h <;>
      cases hok

section Preflight

variable {α β : Type} {x : Except OpReply α} {f : α → Except OpReply β} {reply : OpReply}

/-- An answer comes from the first part, or from the rest after it. -/
theorem answer_cases (h : (x >>= f) = .error reply) :
    x = .error reply ∨ ∃ a, x = .ok a ∧ f a = .error reply := by
  cases x with
  | error r => exact Or.inl (congrArg _ (Except.error.inj h))
  | ok a => exact Or.inr ⟨a, rfl, h⟩

/-- Without an answer both parts have gone through. -/
theorem bind_eq_ok_iff {b : β} : (x >>= f) = .ok b ↔ ∃ a, x = .ok a ∧ f a = .ok b := by
  cases x with
  | ok a =>
    constructor
    · intro h
      exact ⟨a, rfl, h⟩
    · rintro ⟨_, ha, h⟩
      obtain rfl := Except.ok.inj ha
      exact h
  | error reply =>
    constructor
    · intro h
      cases h
    · rintro ⟨_, ha, -⟩
      cases ha

theorem map_eq_ok_iff {g : α → β} : (∃ b, x.map g = .ok b) ↔ ∃ a, x = .ok a := by
  cases x <;> simp [Except.map]

theorem mapError_eq_ok_iff {ε ε' : Type} {g : ε → ε'} {y : Except ε α} {a : α} :
    y.mapError g = .ok a ↔ y = .ok a := by
  cases y <;> simp [Except.mapError]

theorem answering_eq_ok_iff {answer : Option OpReply} {u : Unit} :
    answering answer = .ok u ↔ answer = none := by
  cases answer <;> simp [answering]

theorem requires_eq_ok_iff {passes : Bool} {u : Unit} :
    requires passes reply = .ok u ↔ passes = true := by
  cases passes <;> simp [requires, answering]

/-- `x` never answers `ok = true`. -/
def NeverAccepts (x : Except OpReply α) : Prop :=
  ∀ reply, x = .error reply → reply.isAccepted = false

theorem neverAccepts_bind (hx : NeverAccepts x) (hf : ∀ a, NeverAccepts (f a)) :
    NeverAccepts (x >>= f) := by
  intro reply h
  rcases answer_cases h with h | ⟨a, -, h⟩
  · exact hx reply h
  · exact hf a reply h

theorem neverAccepts_orInternal (call : String) (y : Except String α) :
    NeverAccepts (orInternal call y) := by
  rintro reply h
  cases y with
  | ok _ => cases h
  | error e =>
    obtain rfl := Except.error.inj h
    rfl

theorem ok_of_orInternal {call : String} {y : Except String α} {a : α}
    (h : orInternal call y = .ok a) : y = .ok a := by
  cases y with
  | ok b => exact congrArg _ (Except.ok.inj h)
  | error _ => cases h

theorem neverAccepts_requires {passes : Bool} (hr : reply.isAccepted = false) :
    NeverAccepts (requires passes reply) := by
  rintro reply' h
  cases passes with
  | true => cases h
  | false =>
    obtain rfl := Except.error.inj h
    exact hr

theorem neverAccepts_checkLag (req : ClusterHandoffRequest) (target : NodeConfig)
    (p : PreflightProbes) (lsn : ℕ) : NeverAccepts (checkLag req target p lsn) := by
  unfold checkLag
  split
  · rintro reply h
    cases h
  · refine neverAccepts_bind (neverAccepts_orInternal _ _) fun localLsn reply h => ?_
    unfold lagRefusal at h
    split at h
    · obtain rfl := Except.error.inj h
      rfl
    · dsimp only at h
      split at h
      · obtain rfl := Except.error.inj h
        rfl
      · cases h

theorem neverAccepts_beginHandoff (req : ClusterHandoffRequest) (p : PreflightProbes)
    (localNode target : NodeConfig) : NeverAccepts (beginHandoff req p localNode target) := by
  intro reply h
  unfold beginHandoff at h
  dsimp only at h
  split at h
  · obtain rfl := Except.error.inj h
    rfl
  · cases h

theorem neverAccepts_resolveTarget (pool : NodePool) (req : ClusterHandoffRequest) :
    NeverAccepts (resolveTarget pool req) := by
  intro reply h
  unfold resolveTarget at h
  cases hn : pool.nodeById req.targetNodeId with
  | ok n =>
    rw [hn] at h
    cases h
  | error e =>
    rw [hn] at h
    obtain rfl := Except.error.inj h
    rfl

/-- An earlier entry answers `ok = true` only if it is done. -/
theorem done_of_replayReply {found : Option InflightOp} (h : replayReply found = some reply)
    (hok : reply.isAccepted = true) : ∃ op, found = some op ∧ op.status = .done := by
  cases found with
  | none => cases h
  | some op =>
    refine ⟨op, rfl, ?_⟩
    cases hs : op.status with
    | done => rfl
    | inProgress =>
      simp only [replayReply, hs, Option.some.injEq] at h
      subst h
      cases hok
    | abandoned => simp [replayReply, hs] at h

theorem NodePool.id_of_nodeById {pool : NodePool} {id : NodeId} {n : NodeConfig}
    (h : pool.nodeById id = .ok n) : n.id = id := by
  unfold NodePool.nodeById at h
  split at h
  · rename_i m hm
    obtain rfl := Except.ok.inj h
    simpa using List.find?_some hm
  · cases h

theorem NodePool.mem_of_nodeById {pool : NodePool} {id : NodeId} {n : NodeConfig}
    (h : pool.nodeById id = .ok n) : n ∈ pool.members := by
  unfold NodePool.nodeById at h
  split at h
  · rename_i m hm
    obtain rfl := Except.ok.inj h
    exact List.mem_of_find?_eq_some hm
  · cases h

theorem id_of_resolveTarget {pool : NodePool} {req : ClusterHandoffRequest} {n : NodeConfig}
    (h : resolveTarget pool req = .ok n) : n.id = req.targetNodeId := by
  unfold resolveTarget at h
  cases hn : pool.nodeById req.targetNodeId with
  | ok m =>
    rw [hn] at h
    obtain rfl := Except.ok.inj h
    exact NodePool.id_of_nodeById hn
  | error e =>
    rw [hn] at h
    cases h

theorem id_of_localNode {pool : NodePool} {call : String} {n : NodeConfig}
    (h : orInternal call (pool.localNode.mapError AgentError.display) = .ok n) :
    n.id = pool.localNodeId := by
  unfold NodePool.localNode at h
  split at h
  · cases h
  · cases hn : pool.nodeById pool.localNodeId with
    | ok m =>
      rw [hn] at h
      obtain rfl := Except.ok.inj h
      exact NodePool.id_of_nodeById hn
    | error e =>
      rw [hn] at h
      cases h

/-- The preflight answers the request from the journal: the local node is a primary, the target
is a peer, and the latest entry of the pair is done. -/
structure AnsweredFromJournal (pool : NodePool) (req : ClusterHandoffRequest)
    (p : PreflightProbes) : Prop where
  primary : p.isInRecovery = .ok false
  localNode : ∃ n, pool.localNode = .ok n
  target : ∃ n, pool.nodeById req.targetNodeId = .ok n
  peer : ¬ (0 ≤ pool.localNodeId ∧ req.targetNodeId = pool.localNodeId)
  entry : ∃ ops op, p.journal = .ok ops ∧
    earlierHandoff ops pool.localNodeId req.targetNodeId = some op ∧ op.status = .done

/-- The preflight accepts a request only from the journal. -/
theorem answeredFromJournal_of_accepted {pool : NodePool} {req : ClusterHandoffRequest}
    {p : PreflightProbes} (h : handoffPreflight pool req p = .error reply)
    (hok : reply.isAccepted = true) : AnsweredFromJournal pool req p := by
  have hnot : ∀ {γ : Type} {y : Except OpReply γ}, NeverAccepts y → y ≠ .error reply := by
    intro γ y hy heq
    rw [hy reply heq] at hok
    cases hok
  unfold handoffPreflight at h
  rcases answer_cases h with h | ⟨inRecovery, hrecovery, h⟩
  · exact absurd h (hnot (neverAccepts_orInternal _ _))
  rcases answer_cases h with h | ⟨_, hprimary, h⟩
  · exact absurd h (hnot (neverAccepts_requires rfl))
  rcases answer_cases h with h | ⟨localNode, hlocal, h⟩
  · exact absurd h (hnot (neverAccepts_orInternal _ _))
  rcases answer_cases h with h | ⟨target, htarget, h⟩
  · exact absurd h (hnot (neverAccepts_resolveTarget _ _))
  rcases answer_cases h with h | ⟨_, hpeer, h⟩
  · exact absurd h (hnot (neverAccepts_requires rfl))
  rcases answer_cases h with h | ⟨ops, hops, h⟩
  · exact absurd h (hnot (neverAccepts_orInternal _ _))
  rcases answer_cases h with h | ⟨-, -, h⟩
  · have hreply : replayReply (earlierHandoff ops localNode.id target.id) = some reply := by
      cases hr : replayReply (earlierHandoff ops localNode.id target.id) with
      | none =>
        rw [hr] at h
        cases h
      | some r =>
        rw [hr] at h
        exact congrArg some (Except.error.inj h)
    obtain ⟨op, hfound, hdone⟩ := done_of_replayReply hreply hok
    rw [id_of_localNode hlocal, id_of_resolveTarget htarget] at hfound
    have hrole : inRecovery = false := by simpa using requires_eq_ok_iff.mp hprimary
    have hother := requires_eq_ok_iff.mp hpeer
    rw [id_of_resolveTarget htarget] at hother
    refine ⟨?_, ⟨_, mapError_eq_ok_iff.mp (ok_of_orInternal hlocal)⟩,
      ⟨_, mapError_eq_ok_iff.mp htarget⟩, ?_, ops, op, ok_of_orInternal hops, hfound, hdone⟩
    · rw [ok_of_orInternal hrecovery, hrole]
    · rintro ⟨hle, heq⟩
      simp [hle, heq] at hother
  · -- behind the journal's answer nothing accepts any more
    refine absurd h (hnot (neverAccepts_bind (neverAccepts_orInternal _ _) fun _ => ?_))
    refine neverAccepts_bind (neverAccepts_orInternal _ _) fun targetStatus => ?_
    refine neverAccepts_bind (neverAccepts_requires rfl) fun _ => ?_
    refine neverAccepts_bind (neverAccepts_requires rfl) fun _ => ?_
    exact neverAccepts_bind (neverAccepts_checkLag _ _ _ _) fun _ =>
      neverAccepts_beginHandoff _ _ _ _

/-- Conversely, that answer is given. -/
theorem preflight_of_answeredFromJournal {pool : NodePool} {req : ClusterHandoffRequest}
    {p : PreflightProbes} (h : AnsweredFromJournal pool req p) :
    handoffPreflight pool req p = .error
      (OpReply.accepted "cluster_handoff: already processed; skipping duplicate") := by
  obtain ⟨hprimary, ⟨localNode, hlocal⟩, ⟨target, htarget⟩, hpeer, ops, op, hops,
      hfound, hdone⟩ := h
  have hlocalId : localNode.id = pool.localNodeId := by
    unfold NodePool.localNode at hlocal
    split at hlocal
    · cases hlocal
    · exact NodePool.id_of_nodeById hlocal
  have htargetId := NodePool.id_of_nodeById htarget
  have hother : (!(decide (pool.localNodeId ≥ 0) && target.id == pool.localNodeId)) = true := by
    by_cases hle : 0 ≤ pool.localNodeId
    · have hne : req.targetNodeId ≠ pool.localNodeId := fun heq => hpeer ⟨hle, heq⟩
      simp [htargetId, hne]
    · simp [hle]
  have hreply : replayReply (earlierHandoff ops localNode.id target.id) = some
      (OpReply.accepted "cluster_handoff: already processed; skipping duplicate") := by
    rw [hlocalId, htargetId, hfound, replayReply, hdone]
  unfold handoffPreflight resolveTarget
  rw [hprimary, hlocal, htarget, hops]
  simp only [orInternal, Except.mapError, bind, Except.bind, requires, hother, hreply, answering,
    Bool.not_false, if_true]

end Preflight

end PgAgent
