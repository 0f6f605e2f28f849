import PgAgent.Ops.Rebuild
import PgAgent.Pgpool.Pcp

/-!
# Recovering a node by hand

`cluster_recover` of `localserver.rs` rebuilds a node from the local primary, starts it, and puts
it back into rotation: on the pgpool of the local node, and through the peers' `AttachNode`
(`peerserver.rs`) on the pgpool of every other member.  The rebuild is `recovery_first_stage`, run
past its check for a recent recovery.

* `attachNode_spec` --- a peer attaches only what its own pgpool holds down, the primary first;
* `rebuilt_of_accepted` --- a first stage that answers `ok` has copied the data in this run,
  whatever the journal says of earlier ones;
* `clusterRecover_routes` --- no pgpool is told of the node before it has been rebuilt and started,
  and a recovery answers `ok` exactly if it has come so far;
* `clusterRecover_fansOut` --- what a recovery that answers `ok` has done on each member.
-/

namespace PgAgent

open Compensation Resumable

/-! ## `AttachNode` on a peer -/

/-- What the pgpool of a node answers. -/
structure PcpAnswers (F : Type) where
  nodeInfoAll : Except String (List (NodeInfo F))
  attachNode : NodeId → Except String Unit

/-- The report shows the backend, and shows it down. -/
def isDown {F : Type} (infos : List (NodeInfo F)) (id : NodeId) : Bool :=
  infos.any fun n => n.id == id && !n.isUp

/-- `attach_node` of `peerserver.rs`: the backends it attaches, in this order, and the answer. -/
def PcpAnswers.serveAttach {F : Type} (pcp : PcpAnswers F) (nodeId primaryNodeId : NodeId) :
    List NodeId × OpResult :=
  match pcp.nodeInfoAll with
  | .error e => ([], ⟨false, "attach_node: local pgpool map unavailable: " ++ e⟩)
  | .ok infos =>
      let attach (before : List NodeId) : List NodeId × OpResult :=
        if !isDown infos nodeId then
          (before, ⟨true, "attach_node: backend " ++ toString nodeId ++
            " already up (or absent) on this instance; no action"⟩)
        else
          match pcp.attachNode nodeId with
          | .ok _ => (before ++ [nodeId],
              ⟨true, "attach_node: backend " ++ toString nodeId ++ " attached"⟩)
          | .error e => (before ++ [nodeId],
              ⟨false, "attach_node: pcp_attach_node(" ++ toString nodeId ++ "): " ++ e⟩)
      if primaryNodeId != nodeId && isDown infos primaryNodeId then
        match pcp.attachNode primaryNodeId with
        | .error e => ([primaryNodeId],
            ⟨false, "attach_node: refusing to attach node " ++ toString nodeId ++
              " into a primary-less map — attaching primary backend " ++ toString primaryNodeId ++
              " first failed: " ++ e⟩)
        | .ok _ => attach [primaryNodeId]
      else attach []

/-- Of these attaches, a backend is not left down on this pgpool, as far as pgpool has said: its
report does not show it down, or the attach was made and pgpool has taken it. -/
def PcpAnswers.Serves {F : Type} (pcp : PcpAnswers F) (infos : List (NodeInfo F))
    (made : List NodeId) (id : NodeId) : Prop :=
  isDown infos id = true → id ∈ made ∧ pcp.attachNode id = .ok ()

/-- A peer attaches backends that its own report shows down, and no other, and the primary before
the node; it answers `ok` exactly if neither of the two is left down. -/
theorem attachNode_spec {F : Type} (pcp : PcpAnswers F) (nodeId primaryNodeId : NodeId) :
    (∀ infos, pcp.nodeInfoAll = .ok infos →
      List.Sublist (pcp.serveAttach nodeId primaryNodeId).1
        ((if primaryNodeId = nodeId then [nodeId] else [primaryNodeId, nodeId]).filter
          (isDown infos)) ∧
      (nodeId ∈ (pcp.serveAttach nodeId primaryNodeId).1 →
        pcp.Serves infos (pcp.serveAttach nodeId primaryNodeId).1 primaryNodeId ∨
          primaryNodeId = nodeId) ∧
      ((pcp.serveAttach nodeId primaryNodeId).2.ok = true ↔
        pcp.Serves infos (pcp.serveAttach nodeId primaryNodeId).1 nodeId ∧
          (primaryNodeId = nodeId ∨
            pcp.Serves infos (pcp.serveAttach nodeId primaryNodeId).1 primaryNodeId))) ∧
    ∀ e, pcp.nodeInfoAll = .error e →
      (pcp.serveAttach nodeId primaryNodeId).1 = [] ∧
        (pcp.serveAttach nodeId primaryNodeId).2.ok = false := by
  constructor
  · intro infos hinfos
    unfold PcpAnswers.serveAttach PcpAnswers.Serves
    simp only [hinfos]
    by_cases hsame : primaryNodeId = nodeId
    · subst hsame
      rcases hnode : isDown infos primaryNodeId with _ | _
      · simp
      · rcases hattach : pcp.attachNode primaryNodeId with e | u
        · simp [hnode]
        · simp [hnode]
    · rcases hprimary : isDown infos primaryNodeId with _ | _
      · rcases hnode : isDown infos nodeId with _ | _
        · simp [hsame]
        · rcases hattach : pcp.attachNode nodeId with e | u
          · simp [hsame, hnode, hprimary]
          · simp [hsame, hnode, hprimary]
      · rcases hfirst : pcp.attachNode primaryNodeId with e | u
        · simp [hsame, hprimary, Ne.symm hsame]
        · rcases hnode : isDown infos nodeId with _ | _
          · simp [hsame, hprimary]
          · rcases hattach : pcp.attachNode nodeId with e | u
            · simp [hsame, hnode, hprimary]
            · simp [hsame, hnode, hprimary]
  · intro e he
    unfold PcpAnswers.serveAttach
    simp only [he]
    exact ⟨trivial, trivial⟩

/-! ## The first stage, run to its end -/

/-- The rebuild alone, with these answers. -/
def Rebuild.finish (digest : String → String) (r : Rebuild) (w : RebuildWorld)
    (inputs : ℕ → RebuildInput) : Run RebuildWorld RebuildCall Stage String :=
  (drive (r.program digest) r.first.rank (Run.start w) r.first inputs).1

theorem Rebuild.drive_finish (digest : String → String) (r : Rebuild) (w : RebuildWorld)
    (inputs : ℕ → RebuildInput) :
    drive (r.program digest) r.first.rank (Run.start w) r.first inputs =
      (r.finish digest w inputs, none) :=
  Prod.ext rfl (drive_of_rank_le le_rfl _ _)

/-- The answer of a handler that has ended. -/
def RebuildReply.opReply : RebuildReply → OpReply
  | op reply => reply
  | standbyResult _ _ ok message => .ok ⟨ok, message⟩

/-- What has come of a first stage: its answer, its calls in their order, and the agent's
world. -/
structure FirstStage where
  reply : OpReply
  calls : List (RebuildAt × Except String Bool)
  hook : HookState

/-- `recovery_first_stage`. -/
def recoveryFirstStage (digest : String → String) (pool : NodePool) (s : HookState)
    (req : RecoveryRequest) (p : RebuildProbes) (inputs : ℕ → RebuildInput) : FirstStage :=
  match req.admitted pool s p with
  | .error reply => ⟨reply, [], s⟩
  | .ok r =>
      let run := r.finish digest ⟨s, ""⟩ inputs
      -- the handler has ended after so many calls
      let ending := run.ending.getD .skipped
      ⟨(r.reply ending).opReply, run.calls.reverse, run.world.hook⟩

/-- The calls a rebuild from the local primary cannot do without. -/
def rebuildCalls : List RebuildCall :=
  [.checkpoint, .createSlot, .dial, .basebackup, .configureStandby, .complete]

/-- Each of these calls was made, and succeeded. -/
def RebuildsStandby (calls : List (RebuildAt × Except String Bool)) : Prop :=
  ∀ call ∈ rebuildCalls, ∃ rung rest, rung.call = call ∧
    (At.climbing rung rest, .ok true) ∈ calls

section FirstStage

variable {digest : String → String} {pool : NodePool} {s : HookState} {req : RecoveryRequest}
  {p : RebuildProbes} {inputs : ℕ → RebuildInput}

theorem bind_eq_error_iff {ε α β : Type} {x : Except ε α} {f : α → Except ε β} {e : ε} :
    (x >>= f) = .error e ↔ x = .error e ∨ ∃ a, x = .ok a ∧ f a = .error e := by
  rcases x with e' | a
  · show Except.error e' = _ ↔ _
    simp
  · show f a = _ ↔ _
    simp

theorem requiredRef_error {handler field : String} {ref : Option NodeRef} {reply : OpReply}
    (h : requiredRef handler field ref = .error reply) : reply.isAccepted = false := by
  rcases ref with _ | ref
  · obtain rfl := Except.error.inj h
    rfl
  · cases h

theorem resolveRef_error {handler field : String} {node : Except AgentError NodeConfig}
    {reply : OpReply} (h : resolveRef handler field node = .error reply) :
    reply.isAccepted = false := by
  rcases node with e | node
  · obtain rfl := Except.error.inj h
    rfl
  · cases h

/-- Past the check for a recent recovery, what is not admitted is refused. -/
theorem RecoveryRequest.not_accepted_of_bypass {reply : OpReply}
    (hbypass : req.bypassReplayMarker = true) (h : req.admitted pool s p = .error reply) :
    reply.isAccepted = false := by
  unfold RecoveryRequest.admitted RecoveryRequest.dedup at h
  simp only [hbypass, if_true, bind_eq_error_iff, reduceCtorEq, false_or,
    and_false, exists_false, or_false] at h
  rcases h with h | ⟨_, -, h | ⟨_, -, _, -, h | ⟨_, -, h⟩⟩⟩
  · exact requiredRef_error h
  · exact requiredRef_error h
  · exact resolveRef_error h
  · exact resolveRef_error h

/-- A recovery never finds that there is nothing to do. -/
theorem recovery_busy (primary standby : NodeConfig) :
    BusyAhead (fun call => call ≠ RebuildCall.getStatus)
      (Rebuild.recovery primary standby).first := by
  intro r hr
  simp only [Rebuild.rungs, Rebuild.recoveryRungs, List.head_cons, List.tail_cons, List.mem_cons,
    List.not_mem_nil, or_false] at hr
  rcases hr with rfl | rfl | rfl | rfl | rfl | rfl | rfl | rfl | rfl | rfl
  all_goals exact ⟨by simp, fun call label h => by cases h⟩

/-- A recovery whose answer is `ok` is done. -/
theorem recovery_done_of_accepted {primary standby : NodeConfig} {w : RebuildWorld}
    (h : ((Rebuild.recovery primary standby).reply
      (((Rebuild.recovery primary standby).finish digest w inputs).ending.getD
        .skipped)).opReply.isAccepted = true) :
    ((Rebuild.recovery primary standby).finish digest w inputs).ending = some .done := by
  have hdrive := (Rebuild.recovery primary standby).drive_finish digest w inputs
  have hskip := ending_ne_skipped (fun call => call ≠ RebuildCall.getStatus)
    (fun w rung rest input hne hfalse => hne (RebuildWorld.climb_skips hfalse)) hdrive
    (recovery_busy primary standby)
  obtain ⟨ending, hending⟩ := ending_of_drive hdrive
  rw [hending] at h hskip ⊢
  rcases ending with _ | _ | ⟨stage, e⟩
  · rfl
  · exact absurd rfl hskip
  · cases h

/-- A first stage that does not look for earlier ones, and answers `ok`, **has copied the data and
configured the standby in this very run**. -/
theorem rebuilt_of_accepted (hbypass : req.bypassReplayMarker = true)
    (h : (recoveryFirstStage digest pool s req p inputs).reply.isAccepted = true) :
    RebuildsStandby (recoveryFirstStage digest pool s req p inputs).calls := by
  rcases hadmitted : req.admitted pool s p with reply | r
  · have hrefused := RecoveryRequest.not_accepted_of_bypass hbypass hadmitted
    simp only [recoveryFirstStage, hadmitted] at h
    rw [hrefused] at h
    cases h
  · obtain ⟨-, -, primary, standby, -, -, -, -, -, -, rfl⟩ :=
      RecoveryRequest.admitted_eq_ok_iff.mp hadmitted
    simp only [recoveryFirstStage, hadmitted] at h ⊢
    have hdone := recovery_done_of_accepted h
    have hclimbed := climbed_of_done
      ((Rebuild.recovery primary standby).drive_finish digest ⟨s, ""⟩ inputs) hdone
    intro call hcall
    have hrung : ∃ rung ∈ (Rebuild.recovery primary standby).rungs, rung.call = call ∧
        rung.onError.tolerates = false := by
      simp only [rebuildCalls, List.mem_cons, List.not_mem_nil, or_false] at hcall
      rcases hcall with rfl | rfl | rfl | rfl | rfl | rfl <;>
        simp [Rebuild.rungs, Rebuild.recoveryRungs, OnError.tolerates]
    obtain ⟨rung, hmem, hcall', hstrict⟩ := hrung
    obtain ⟨rest, hmade⟩ := hclimbed rung hmem hstrict
    exact ⟨rung, rest, hcall', List.mem_reverse.mpr hmade⟩

end FirstStage

/-! ## `cluster_recover` -/

structure ClusterRecoverRequest where
  targetNodeId : NodeId
  stopTargetPg : Bool
  deriving DecidableEq, Repr

/-- What becomes of an `AttachNode` sent to a member: it does not get there, or the member serves
it and the answer may be lost. -/
inductive AttachFanOut (F : Type) where
  | unreachable (e : String)
  | served (pcp : PcpAnswers F) (lost : Option String)

/-- What a recovery meets: the role of the local database, the connection to the target, whether
PostgreSQL runs there, the stop; the first stage; the start of PostgreSQL and of pgpool on the
target, the attach on the local pgpool, and the fan-out to each member. -/
structure RecoverProbes (F : Type) where
  isInRecovery : Except String Bool
  client : Except String Unit
  isPostgresRunning : Except String Bool
  stop : Except String Unit
  firstStage : RebuildProbes
  inputs : ℕ → RebuildInput
  start : Except String Unit
  startPgpool : Except String Unit
  attachNode : Except String Unit
  member : NodeConfig → AttachFanOut F

/-- The calls that change something: on the target, in the first stage, and each
`pcp_attach_node` with the node whose pgpool it is made on. -/
inductive RecoverCall where
  | stop
  | rebuild (pos : RebuildAt) (answer : Except String Bool)
  | start (answer : Except String Unit)
  | startPgpool
  | attach (pgpool backend : NodeId)

/-- The call brings the target into rotation. -/
def RecoverCall.routes : RecoverCall → Bool
  | startPgpool => true
  | attach _ _ => true
  | _ => false

/-- A call of the first stage, with its answer. -/
def RecoverCall.rebuild? : RecoverCall → Option (RebuildAt × Except String Bool)
  | rebuild pos answer => some (pos, answer)
  | _ => none

/-- An attach: the node whose pgpool it is made on, and the backend. -/
def RecoverCall.attach? : RecoverCall → Option (NodeId × NodeId)
  | attach pgpool backend => some (pgpool, backend)
  | _ => none

/-- What has come of a recovery: its calls in their order, its answer, and the agent's world. -/
structure Recovered where
  calls : List RecoverCall
  reply : OpReply
  hook : HookState

/-- The local node, the target, and whether PostgreSQL runs there; or an answer. -/
def recoverPreflight {F : Type} (pool : NodePool) (req : ClusterRecoverRequest)
    (p : RecoverProbes F) : Except OpReply (NodeConfig × NodeConfig × Bool) := do
  let inRecovery ← p.isInRecovery.mapError fun e =>
    OpReply.internal ("cluster_recover: check primary status: " ++ e)
  requires (!inRecovery) (OpReply.refused ("cluster_recover: local node is not the primary (in " ++
    "recovery); run this on the current primary"))
  let primary ← pool.localNode.mapError fun e =>
    OpReply.internal ("cluster_recover: resolve local node: " ++ e.display)
  let standby ← (pool.nodeById req.targetNodeId).mapError fun e =>
    OpReply.invalidArgument ("cluster_recover: target node " ++ toString req.targetNodeId ++ ": " ++
      e.display)
  requires (!pool.isLocal standby) (OpReply.invalidArgument
    "cluster_recover: target is the local node — reclone target must be a peer")
  p.client.mapError fun e =>
    OpReply.internal ("cluster_recover: dial peer " ++ standby.hostname ++ ": " ++ e)
  let running ← p.isPostgresRunning.mapError fun e =>
    OpReply.internal ("cluster_recover: peer get_status " ++ standby.hostname ++ ": " ++ e)
  requires (!running || req.stopTargetPg) (OpReply.refused
    ("cluster_recover: postgres is running on target " ++ standby.hostname ++
      "; rerun with --stop-target-pg to stop it before reclone, or stop it manually on that " ++
      "host first"))
  .ok (primary, standby, running)

/-- The request of the first stage: both nodes by id and name, past the check for a recent
recovery. -/
def recoverRequest (primary standby : NodeConfig) : RecoveryRequest :=
  ⟨some ⟨primary.id, primary.hostname⟩, some ⟨standby.id, standby.hostname⟩, true⟩

/-- The fan-out to one member: the attaches on its pgpool, and what the client returns. -/
def AttachFanOut.run {F : Type} (member : NodeConfig) (nodeId primaryNodeId : NodeId) :
    AttachFanOut F → List RecoverCall × Except String Unit
  | unreachable e => ([], .error e)
  | served pcp lost =>
      let (backends, result) := pcp.serveAttach nodeId primaryNodeId
      let outcome : Except String Unit :=
        match lost with
        | some e => .error e
        | none => if result.ok then .ok () else .error ("peer attach_node: " ++ result.message)
      (backends.map (.attach member.id), outcome)

/-- The backends that are attached on the member's pgpool. -/
def AttachFanOut.made {F : Type} (nodeId primaryNodeId : NodeId) : AttachFanOut F → List NodeId
  | unreachable _ => []
  | served pcp _ => (pcp.serveAttach nodeId primaryNodeId).1

/-- One entry of the final message. -/
def stepNote (outcome : Except String Unit) (done failed : String) : String :=
  match outcome with
  | .ok _ => done
  | .error e => failed ++ e

/-- From the start of PostgreSQL on, which is the gate to everything behind it. -/
def recoverTail {F : Type} (pool : NodePool) (p : RecoverProbes F) (standby : NodeConfig) :
    List RecoverCall × OpReply :=
  match p.start with
  | .error e =>
      ([.start (.error e)], OpReply.refused ("cluster_recover: reclone of " ++ standby.hostname ++
        " completed but PostgreSQL failed to start there: " ++ e ++ ". The target has NOT been " ++
        "attached in pgpool (a backend whose PostgreSQL is down must not take traffic). Fix the " ++
        "start failure on that host — `systemctl status` / `journalctl` name the cause — " ++
        "then re-run `pg_agentctl cluster recover --target " ++ toString standby.id ++ "`."))
  | .ok _ =>
      let fanOut (member : NodeConfig) :=
        (p.member member).run member standby.id pool.localNodeId
      let notes :=
        ["postgres started",
          stepNote p.startPgpool "pgpool started" "pgpool start failed: ",
          stepNote p.attachNode ("attached node " ++ toString standby.id ++ " in pgpool")
            "pgpool attach failed: "] ++
        pool.others.map fun member =>
          stepNote (fanOut member).2 ("attach fanned out to " ++ member.hostname)
            ("attach fan-out to " ++ member.hostname ++ " failed: ")
      ([.start (.ok ()), .startPgpool, .attach pool.localNodeId standby.id] ++
          pool.others.flatMap fun member => (fanOut member).1,
        OpReply.accepted ("recovery complete for " ++ standby.hostname ++ "; " ++
          "; ".intercalate notes))

/-- From the first stage on, with the calls made before it. -/
def recoverRebuild {F : Type} (digest : String → String) (pool : NodePool) (s : HookState)
    (p : RecoverProbes F) (primary standby : NodeConfig) (before : List RecoverCall) : Recovered :=
  let first :=
    recoveryFirstStage digest pool s (recoverRequest primary standby) p.firstStage p.inputs
  let rebuild := before ++ first.calls.map fun call => .rebuild call.1 call.2
  if first.reply.isAccepted then
    let (calls, reply) := recoverTail pool p standby
    ⟨rebuild ++ calls, reply, first.hook⟩
  else ⟨rebuild, first.reply, first.hook⟩

def clusterRecover {F : Type} (digest : String → String) (pool : NodePool) (s : HookState)
    (req : ClusterRecoverRequest) (p : RecoverProbes F) : Recovered :=
  match recoverPreflight pool req p with
  | .error reply => ⟨[], reply, s⟩
  | .ok (primary, standby, running) =>
      if running then
        match p.stop with
        | .error e =>
            ⟨[.stop], OpReply.internal ("cluster_recover: stop postgres on " ++
              standby.hostname ++
              ": " ++ e), s⟩
        | .ok _ => recoverRebuild digest pool s p primary standby [.stop]
      else recoverRebuild digest pool s p primary standby []

/-! ## What a recovery has done -/

section Recovery

variable {F : Type} {digest : String → String} {pool : NodePool} {s : HookState}
  {req : ClusterRecoverRequest} {p : RecoverProbes F}

/-- The target of a recovery that got past the checks. -/
structure Targets (pool : NodePool) (req : ClusterRecoverRequest) (p : RecoverProbes F)
    (primary standby : NodeConfig) (running : Bool) : Prop where
  isPrimary : p.isInRecovery = .ok false
  localNode : pool.localNode = .ok primary
  nodeById : pool.nodeById req.targetNodeId = .ok standby
  notLocal : pool.isLocal standby = false
  status : p.isPostgresRunning = .ok running
  mayStop : running = true → req.stopTargetPg = true

theorem recoverPreflight_ok {primary standby : NodeConfig} {running : Bool}
    (h : recoverPreflight pool req p = .ok (primary, standby, running)) :
    Targets pool req p primary standby running := by
  unfold recoverPreflight at h
  simp only [bind_eq_ok_iff, mapError_eq_ok_iff, requires, answering_eq_ok_iff, Except.ok.injEq,
    Prod.mk.injEq] at h
  obtain ⟨inRecovery, hrole, _, hprimary, primary', hlocal, standby', hstandby, _, hpeer, _, -,
    running', hstatus, _, hflag, rfl, rfl, rfl⟩ := h
  rcases inRecovery with _ | _
  · refine ⟨hrole, hlocal, hstandby, ?_, hstatus, ?_⟩
    · simpa using hpeer
    · rintro rfl
      simpa using hflag
  · simp at hprimary

theorem mapError_not_accepted {α ε : Type} {x : Except ε α} {g : ε → OpReply}
    {reply : OpReply} (hg : ∀ e, (g e).isAccepted = false) (h : x.mapError g = .error reply) :
    reply.isAccepted = false := by
  rcases x with e | a
  · obtain rfl : g e = reply := Except.error.inj h
    exact hg e
  · cases h

theorem requires_not_accepted {passes : Bool} {answer reply : OpReply}
    (hanswer : answer.isAccepted = false) (h : requires passes answer = .error reply) :
    reply.isAccepted = false := by
  rcases passes with _ | _
  · obtain rfl : answer = reply := Except.error.inj h
    exact hanswer
  · cases h

theorem recoverPreflight_error {reply : OpReply} (h : recoverPreflight pool req p = .error reply) :
    reply.isAccepted = false := by
  unfold recoverPreflight at h
  simp only [bind_eq_error_iff, reduceCtorEq, and_false, exists_false, or_false] at h
  rcases h with h | ⟨_, -, h | ⟨_, -, h | ⟨_, -, h | ⟨_, -, h | ⟨_, -, h | ⟨_, -, h |
    ⟨_, -, h⟩⟩⟩⟩⟩⟩⟩
  · exact mapError_not_accepted (fun _ => rfl) h
  · exact requires_not_accepted rfl h
  · exact mapError_not_accepted (fun _ => rfl) h
  · exact mapError_not_accepted (fun _ => rfl) h
  · exact requires_not_accepted rfl h
  · exact mapError_not_accepted (fun _ => rfl) h
  · exact mapError_not_accepted (fun _ => rfl) h
  · exact requires_not_accepted rfl h

/-- The log of a recovery in two parts: the rebuild, and what brings the target into rotation. -/
structure Staged (out : Recovered) (rebuild routing : List RecoverCall) : Prop where
  calls : out.calls = rebuild ++ routing
  rebuilds : ∀ call ∈ rebuild, call.routes = false
  accepted : out.reply.isAccepted = true ↔ routing ≠ []
  rebuilt : routing ≠ [] →
    RebuildsStandby (rebuild.filterMap RecoverCall.rebuild?) ∧ .start (.ok ()) ∈ rebuild

theorem filterMap_rebuild? (calls : List (RebuildAt × Except String Bool)) :
    (calls.map fun call => RecoverCall.rebuild call.1 call.2).filterMap RecoverCall.rebuild? =
      calls := by
  induction calls with
  | nil => rfl
  | cons call calls ih =>
    rw [List.map_cons, List.filterMap_cons, ih]
    rfl

theorem staged_recoverRebuild (digest : String → String) (pool : NodePool) (s : HookState)
    (p : RecoverProbes F) (primary standby : NodeConfig) {before : List RecoverCall}
    (hbefore : ∀ call ∈ before, call = .stop) :
    ∃ rebuild routing,
      Staged (recoverRebuild digest pool s p primary standby before) rebuild routing ∧
        (.stop ∈ rebuild → .stop ∈ before) ∧ .stop ∉ routing := by
  have hnone : before.filterMap RecoverCall.rebuild? = [] := by
    rw [List.filterMap_eq_nil_iff]
    intro call hcall
    rw [hbefore call hcall]
    rfl
  obtain ⟨first, hfirst⟩ : ∃ first, first = recoveryFirstStage digest pool s
    (recoverRequest primary standby) p.firstStage p.inputs := ⟨_, rfl⟩
  obtain ⟨calls, hcalls⟩ : ∃ calls, calls =
    before ++ first.calls.map fun call => RecoverCall.rebuild call.1 call.2 := ⟨_, rfl⟩
  have hlog : calls.filterMap RecoverCall.rebuild? = first.calls := by
    rw [hcalls, List.filterMap_append, hnone, List.nil_append, filterMap_rebuild?]
  have hroutes : ∀ call ∈ calls, call.routes = false ∧
      (call = .stop → .stop ∈ before) := by
    intro call hcall
    rw [hcalls] at hcall
    rcases List.mem_append.mp hcall with hcall | hcall
    · obtain rfl := hbefore call hcall
      exact ⟨rfl, fun _ => hcall⟩
    · obtain ⟨made, -, rfl⟩ := List.mem_map.mp hcall
      exact ⟨rfl, fun h => by cases h⟩
  unfold recoverRebuild
  rw [← hfirst]
  dsimp only
  rw [← hcalls]
  split
  · rename_i haccepted
    have hrebuilt : RebuildsStandby first.calls := by
      rw [hfirst] at haccepted ⊢
      exact rebuilt_of_accepted rfl haccepted
    unfold recoverTail
    rcases p.start with e | u
    · refine ⟨calls ++ [.start (.error e)], [], ⟨?_, ?_, ?_, ?_⟩, ?_, List.not_mem_nil⟩
      · rw [List.append_nil]
      · intro call hcall
        rcases List.mem_append.mp hcall with hcall | hcall
        · exact (hroutes call hcall).1
        · obtain rfl := List.mem_singleton.mp hcall
          rfl
      · exact ⟨fun h => (Bool.false_ne_true h).elim, fun h => absurd rfl h⟩
      · exact fun h => absurd rfl h
      · intro hstop
        rcases List.mem_append.mp hstop with hstop | hstop
        · exact (hroutes _ hstop).2 rfl
        · cases List.mem_singleton.mp hstop
    · refine ⟨calls ++ [.start (.ok ())], .startPgpool :: .attach pool.localNodeId standby.id ::
        pool.others.flatMap fun member =>
          ((p.member member).run member standby.id pool.localNodeId).1,
            ⟨?_, ?_, ?_, ?_⟩, ?_, ?_⟩
      · simp
      · intro call hcall
        rcases List.mem_append.mp hcall with hcall | hcall
        · exact (hroutes call hcall).1
        · obtain rfl := List.mem_singleton.mp hcall
          rfl
      · exact ⟨fun _ => List.cons_ne_nil _ _, fun _ => rfl⟩
      · refine fun _ => ⟨?_, List.mem_append_right _ List.mem_cons_self⟩
        have hstart : [RecoverCall.start (.ok ())].filterMap RecoverCall.rebuild? = [] := rfl
        rw [List.filterMap_append, hlog, hstart, List.append_nil]
        exact hrebuilt
      · intro hstop
        rcases List.mem_append.mp hstop with hstop | hstop
        · exact (hroutes _ hstop).2 rfl
        · cases List.mem_singleton.mp hstop
      · simp only [List.mem_cons, reduceCtorEq, false_or, List.mem_flatMap, not_exists, not_and]
        intro member _
        rcases p.member member with e | ⟨pcp, lost⟩
        · exact List.not_mem_nil
        · simp [AttachFanOut.run]
  · rename_i hrefused
    refine ⟨calls, [],
      ⟨(List.append_nil calls).symm, fun call hcall => (hroutes call hcall).1, ?_,
      fun h => absurd rfl h⟩, fun hstop => (hroutes _ hstop).2 rfl, List.not_mem_nil⟩
    exact ⟨fun h => absurd h hrefused, fun h => absurd rfl h⟩

/-- No pgpool is told of the target before **it has been rebuilt in this run and its PostgreSQL has
started**; a recovery answers `ok` exactly if it has come so far, and PostgreSQL is stopped on the
target only if it runs there and the operator has asked for it. -/
theorem clusterRecover_routes :
    ∃ rebuild routing, Staged (clusterRecover digest pool s req p) rebuild routing ∧
      (.stop ∈ rebuild ++ routing →
        req.stopTargetPg = true ∧ p.isPostgresRunning = .ok true) := by
  unfold clusterRecover
  rcases hpreflight : recoverPreflight pool req p with reply | ⟨primary, standby, running⟩
  · have hrefused := recoverPreflight_error hpreflight
    refine ⟨[], [], ⟨rfl, fun call hcall => absurd hcall List.not_mem_nil, ?_,
      fun h => absurd rfl h⟩, fun h => absurd h List.not_mem_nil⟩
    dsimp only
    rw [hrefused]
    exact ⟨fun h => (Bool.false_ne_true h).elim, fun h => absurd rfl h⟩
  · have htargets := recoverPreflight_ok hpreflight
    rcases running with _ | _
    · obtain ⟨rebuild, routing, hstaged, hstop, hno⟩ :=
        staged_recoverRebuild digest pool s p primary standby fun call hcall =>
          absurd hcall List.not_mem_nil
      refine ⟨rebuild, routing, hstaged, fun h => ?_⟩
      rcases List.mem_append.mp h with h | h
      · exact absurd (hstop h) List.not_mem_nil
      · exact absurd h hno
    · have hmay : req.stopTargetPg = true ∧ p.isPostgresRunning = .ok true :=
        ⟨htargets.mayStop rfl, htargets.status⟩
      rcases p.stop with e | u
      · refine ⟨[.stop], [], ⟨rfl, ?_, ?_, fun h => absurd rfl h⟩, fun _ => hmay⟩
        · intro call hcall
          obtain rfl := List.mem_singleton.mp hcall
          rfl
        · exact ⟨fun h => (Bool.false_ne_true h).elim, fun h => absurd rfl h⟩
      · obtain ⟨rebuild, routing, hstaged, -, -⟩ :=
          staged_recoverRebuild digest pool s p primary standby fun call hcall =>
            List.mem_singleton.mp hcall
        exact ⟨rebuild, routing, hstaged, fun _ => hmay⟩

/-- The attaches of a recovery that answers `ok`, in their order: the target on the local pgpool,
and then on each member's what the member makes of it. -/
theorem attaches_recoverRebuild {primary standby : NodeConfig} {before : List RecoverCall}
    (hbefore : ∀ call ∈ before, call = .stop)
    (h : (recoverRebuild digest pool s p primary standby before).reply.isAccepted = true) :
    (recoverRebuild digest pool s p primary standby before).calls.filterMap RecoverCall.attach? =
      (pool.localNodeId, standby.id) :: pool.others.flatMap fun member =>
        ((p.member member).made standby.id pool.localNodeId).map fun b => (member.id, b) := by
  have hstops : before.filterMap RecoverCall.attach? = [] := by
    rw [List.filterMap_eq_nil_iff]
    intro call hcall
    rw [hbefore call hcall]
    rfl
  have hrebuild : ∀ calls : List (RebuildAt × Except String Bool),
      (calls.map fun call => RecoverCall.rebuild call.1 call.2).filterMap RecoverCall.attach? =
        [] := by
    intro calls
    rw [List.filterMap_eq_nil_iff]
    intro call hcall
    obtain ⟨made, -, rfl⟩ := List.mem_map.mp hcall
    rfl
  have hmember : ∀ member : NodeConfig,
      ((p.member member).run member standby.id pool.localNodeId).1.filterMap
          RecoverCall.attach? =
        ((p.member member).made standby.id pool.localNodeId).map fun b => (member.id, b) := by
    intro member
    rcases p.member member with e | ⟨pcp, lost⟩
    · rfl
    · simp only [AttachFanOut.run, AttachFanOut.made, List.filterMap_map]
      exact congrFun List.filterMap_eq_map _
  unfold recoverRebuild at h ⊢
  dsimp only at h ⊢
  split at h
  · rename_i haccepted
    rw [if_pos haccepted]
    unfold recoverTail at h ⊢
    rcases hstart : p.start with e | u
    · simp only [hstart] at h
      cases h
    · dsimp only
      rw [List.filterMap_append, List.filterMap_append, hstops, hrebuild, List.filterMap_append,
        List.filterMap_flatMap]
      simp only [hmember]
      rfl
  · rename_i hrefused
    exact absurd h hrefused

/-- What an attach fan-out makes on one member: only of backends that its pgpool holds down, the
primary in front of the node, and the node only if the primary is not left down; and when it is
reported as done neither is. -/
structure FannedOut (fanOut : AttachFanOut F) (nodeId primaryNodeId : NodeId) (made : List NodeId)
    (outcome : Except String Unit) : Prop where
  attached : made ≠ [] → ∃ pcp lost infos, fanOut = .served pcp lost ∧
    pcp.nodeInfoAll = .ok infos ∧
    made.Sublist ([primaryNodeId, nodeId].filter (isDown infos)) ∧
    (nodeId ∈ made → pcp.Serves infos made primaryNodeId)
  done : outcome = .ok () → ∃ pcp infos, fanOut = .served pcp none ∧
    pcp.nodeInfoAll = .ok infos ∧
    pcp.Serves infos made nodeId ∧ pcp.Serves infos made primaryNodeId

theorem fannedOut_run (member : NodeConfig) (fanOut : AttachFanOut F)
    {nodeId primaryNodeId : NodeId} (hne : primaryNodeId ≠ nodeId) :
    FannedOut fanOut nodeId primaryNodeId (fanOut.made nodeId primaryNodeId)
      (fanOut.run member nodeId primaryNodeId).2 := by
  rcases fanOut with e | ⟨pcp, lost⟩
  · exact ⟨fun h => absurd rfl h, fun h => (by cases h)⟩
  rcases hinfos : pcp.nodeInfoAll with e | infos
  · obtain ⟨hnone, hrefused⟩ := (attachNode_spec pcp nodeId primaryNodeId).2 e hinfos
    refine ⟨fun h => absurd hnone h, fun h => ?_⟩
    simp only [AttachFanOut.run, hrefused] at h
    rcases lost with _ | e <;> cases h
  · obtain ⟨hsub, hfirst, hanswer⟩ := (attachNode_spec pcp nodeId primaryNodeId).1 infos hinfos
    rw [if_neg hne] at hsub
    refine ⟨fun _ => ⟨pcp, lost, infos, rfl, hinfos, hsub, fun hmem =>
      (hfirst hmem).resolve_right hne⟩, fun h => ?_⟩
    rcases lost with _ | e
    · have hok : (pcp.serveAttach nodeId primaryNodeId).2.ok = true := by
        by_contra hno
        simp only [AttachFanOut.run, hno] at h
        cases h
      obtain ⟨hnode, hprimary⟩ := hanswer.mp hok
      exact ⟨pcp, infos, rfl, hinfos, hnode, hprimary.resolve_left hne⟩
    · cases h

/-- What a recovery that answers `ok` **has done in the fleet**.  On the local pgpool it has made
one attach, of the target.  On the pgpool of another member it has attached only what this pgpool
holds down --- the local primary, which comes first, and the target --- and a member whose fan-out
is reported as done is left with neither of them down. -/
theorem clusterRecover_fansOut
    (h : (clusterRecover digest pool s req p).reply.isAccepted = true) :
    ∃ standby, pool.nodeById req.targetNodeId = .ok standby ∧
      standby.id ≠ pool.localNodeId ∧
      (((clusterRecover digest pool s req p).calls.filterMap RecoverCall.attach?).filter fun a =>
        a.1 == pool.localNodeId) = [(pool.localNodeId, standby.id)] ∧
      ∃ made : NodeConfig → List NodeId,
        (clusterRecover digest pool s req p).calls.filterMap RecoverCall.attach? =
          (pool.localNodeId, standby.id) :: pool.others.flatMap (fun member =>
            (made member).map fun b => (member.id, b)) ∧
        ∀ member ∈ pool.others, FannedOut (p.member member) standby.id pool.localNodeId
          (made member) ((p.member member).run member standby.id pool.localNodeId).2 := by
  obtain ⟨primary, standby, running, htargets, hattaches⟩ : ∃ primary standby running,
      Targets pool req p primary standby running ∧
      (clusterRecover digest pool s req p).calls.filterMap RecoverCall.attach? =
        (pool.localNodeId, standby.id) :: pool.others.flatMap fun member =>
          ((p.member member).made standby.id pool.localNodeId).map fun b => (member.id, b) := by
    unfold clusterRecover at h ⊢
    rcases hpreflight : recoverPreflight pool req p with reply | ⟨primary, standby, running⟩
    · rw [hpreflight] at h
      have hreply : reply.isAccepted = true := h
      rw [recoverPreflight_error hpreflight] at hreply
      cases hreply
    · rw [hpreflight] at h
      refine ⟨primary, standby, running, recoverPreflight_ok hpreflight, ?_⟩
      rcases running with _ | _
      · exact attaches_recoverRebuild (fun call hcall => absurd hcall List.not_mem_nil) h
      · rcases hstop : p.stop with e | u
        · simp only [hstop, if_true] at h
          cases h
        · simp only [hstop, if_true] at h ⊢
          exact attaches_recoverRebuild (fun call hcall => List.mem_singleton.mp hcall) h
  have hne : standby.id ≠ pool.localNodeId := by
    have hlocal := htargets.notLocal
    have hself := htargets.localNode
    unfold NodePool.localNode at hself
    split at hself
    · cases hself
    · rename_i hnonneg
      simp only [NodePool.isLocal, Bool.and_eq_false_iff, decide_eq_false_iff_not,
        beq_eq_false_iff_ne] at hlocal
      exact hlocal.resolve_left fun h => h (not_lt.mp hnonneg)
  refine ⟨standby, htargets.nodeById, hne, ?_, _, hattaches,
    fun member _ => fannedOut_run member _ hne.symm⟩
  rw [hattaches, List.filter_cons_of_pos (by simp), List.filter_eq_nil_iff.mpr]
  intro a ha
  obtain ⟨member, hothers, ha⟩ := List.mem_flatMap.mp ha
  obtain ⟨b, -, rfl⟩ := List.mem_map.mp ha
  simpa using NodePool.id_ne_of_mem_others hothers

end Recovery

/-! ### A recovery of node 2 that node 1 still holds down -/

/-- A backend of a report. -/
def reportedBackend (id : NodeId) (statusCode : ℕ) : NodeInfo Unit :=
  ⟨id, [], 5432, statusCode, (), [], [], [], [], [], [], []⟩

/-- The pgpool of node `1` holds the primary and node `2` down. -/
def staleMap : PcpAnswers Unit :=
  ⟨.ok [reportedBackend 0 3, reportedBackend 1 2, reportedBackend 2 3], fun _ => .ok ()⟩

/-- Everything answers, and node `2` has no pgpool. -/
def recoverProbes : RecoverProbes Unit :=
  ⟨.ok false, .ok (), .ok true, .ok (), freeProbes, fun _ => ⟨.ok (), true, 0⟩, .ok (),
    .ok (), .ok (),
    fun member => if member.id = 1 then .served staleMap none else .unreachable "refused"⟩

/-- Node `1` attaches the primary and then node `2`, and is left with neither of them down. -/
theorem recover_attaches_primary_first :
    (clusterRecover id rebuildPool idleHook ⟨2, true⟩ recoverProbes).calls.filterMap
        RecoverCall.attach? = [(0, 2), (1, 0), (1, 2)] ∧
      ∃ infos, staleMap.nodeInfoAll = .ok infos ∧ isDown infos 0 = true ∧
        isDown infos 2 = true ∧
        staleMap.Serves infos [0, 2] 0 ∧ staleMap.Serves infos [0, 2] 2 := by
  have haccepted :
      (clusterRecover id rebuildPool idleHook ⟨2, true⟩ recoverProbes).reply.isAccepted =
      true := by rfl
  have hlog : (clusterRecover id rebuildPool idleHook ⟨2, true⟩ recoverProbes).calls.filterMap
      RecoverCall.attach? = [(0, 2), (1, 0), (1, 2)] := by rfl
  obtain ⟨standby, hstandby, -, -, made, hmade, hfanned⟩ := clusterRecover_fansOut haccepted
  obtain rfl : (⟨2, "db2"⟩ : NodeConfig) = standby := Except.ok.inj hstandby
  have hone : made ⟨1, "db1"⟩ = [0, 2] := by
    have hon := congrArg (List.filterMap fun a : NodeId × NodeId =>
      if a.1 = 1 then some a.2 else none) (hlog.symm.trans hmade)
    simpa [NodePool.others, rebuildPool, List.filterMap_map, Function.comp_def] using hon.symm
  have hdone := hfanned ⟨1, "db1"⟩ (by decide)
  rw [hone] at hdone
  obtain ⟨pcp, infos, hserved, hinfos, htarget, hprimary⟩ := hdone.done rfl
  obtain ⟨rfl, -⟩ := AttachFanOut.served.inj hserved
  obtain rfl := Except.ok.inj hinfos
  exact ⟨hlog, _, rfl, rfl, rfl, hprimary, htarget⟩

end PgAgent
