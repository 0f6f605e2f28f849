import PgAgent.Config.Load
import PgAgent.Hook.Dispatch
import PgAgent.Ops.Rebuild

/-!
# The hooks at the agent

What the agent makes of the requests of its hook client: the client and the handlers of the agent as
one, from the values that pgpool and its extension put in to what becomes of them.

* `recovery_link_rebuilds` --- from the link in the data directory to the rebuild of the standby;
* `failover_command_advisory` --- a report of a lost primary changes nothing at the agent.
-/

namespace PgAgent

/-! ## Recoveries -/

/-- The request as the agent's handler of recoveries takes it. -/
def HookRequest.recoveryRequest : HookRequest → Option RecoveryRequest
  | .recoveryFirstStage primary standby bypass =>
      some ⟨some primary.ref, some standby.ref, bypass⟩
  | _ => none

/-- The extension's values are about this node and another member, by their host names. -/
structure RecoveryValues (pool : ClusterPool) (v : FixedArg → String)
    (primary standby : NodeConfig) : Prop where
  primary_mem : primary ∈ pool.members
  primary_local : primary.id = pool.localNodeId
  primary_host : v .primaryHost = primary.hostname ∧ primary.hostname ≠ ""
  standby_mem : standby ∈ pool.members
  standby_host : v .standbyHost = standby.hostname ∧ standby.hostname ≠ ""

/-- **What the extension runs for a recovery rebuilds the standby it names.**  It is run by the name
of the link in the data directory, wherever that is, with whatever a later version passes behind
the seven arguments.  The agent takes the two nodes by their host names; the standby's id decides
only whether there is a request.  A recovery that was completed not long ago, or a journal in which
it cannot be looked up, keeps the agent from it. -/
theorem recovery_link_rebuilds (w : ClientWorld) (hready : w.Ready) (pool : ClusterPool)
    (v : FixedArg → String) {primary standby : NodeConfig}
    (hvalues : RecoveryValues pool v primary standby) {id : NodeId}
    (hid : hookId (v .standbyId) = some id) (dir : List Char) (extra : List String)
    (s : HookState) (p : RebuildProbes) :
    ∃ req recovery,
      dispatch w (String.ofList (dir ++ '/' :: hookRecovery1stStage.toList) ::
          (recoverySchema.params.map (fun p => v p.key) ++ extra)) =
        some ⟨finish req (w.answer req), true, some req⟩ ∧
      req.recoveryRequest = some recovery ∧
      (recovery.NotRecent s ⟨-1, primary.hostname⟩ ⟨id, standby.hostname⟩ p →
        recovery.admitted pool.toNodePool s p = .ok (.recovery primary standby)) := by
  have hof : recoveryOf v = some (.recoveryFirstStage
      ⟨-1, v .primaryHost, hookPort (v .primaryPort), v .primaryData⟩
      ⟨id, v .standbyHost, hookPort (v .standbyPort), v .standbyData⟩ false) := by
    unfold recoveryOf namedNode
    rw [hid]
    rfl
  have hlocal : pool.isLocal primary = true := by
    unfold NodePool.isLocal
    rw [← hvalues.primary_local, beq_self_eq_true, Bool.and_true]
    exact decide_eq_true (pool.ids_nonneg primary hvalues.primary_mem)
  refine ⟨.recoveryFirstStage ⟨-1, v .primaryHost, hookPort (v .primaryPort), v .primaryData⟩
    ⟨id, v .standbyHost, hookPort (v .standbyPort), v .standbyData⟩ false,
    ⟨some ⟨-1, v .primaryHost⟩, some ⟨id, v .standbyHost⟩, false⟩, ?_, rfl, ?_⟩
  · rw [dispatch_of_ready hready (parseInvocation_link (by decide) dir _) (by decide)]
    have hrequest := handleRecovery1stStage_values v extra
    rw [hof] at hrequest
    exact congrArg (fun req => some (w.ends req)) hrequest
  · intro hrecent
    rw [hvalues.primary_host.1, hvalues.standby_host.1]
    exact RecoveryRequest.admitted_eq_ok_iff.mpr ⟨_, _, primary, standby, rfl, rfl, hrecent,
      pool.resolveNode_hostname hvalues.primary_mem hvalues.primary_host.2 (-1), hlocal,
      pool.resolveNode_hostname hvalues.standby_mem hvalues.standby_host.2 id, rfl⟩

def basebackupPool : ClusterPool where
  members := [⟨0, "db0"⟩, ⟨1, "db1"⟩]
  localNodeId := 0
  ids_nonneg := by decide
  ids_nodup := by decide
  hosts_nodup := by decide
  local_mem := by decide

/-- The values of the extension on `db0`, for a standby that has its number in `pgpool.conf`. -/
def lostStandby : FixedArg → String
  | .primaryData => "/var/lib/pgsql/data"
  | .standbyHost => "db1"
  | .standbyData => "/var/lib/pgsql/data"
  | .primaryPort => "5432"
  | .standbyId => "1"
  | .standbyPort => "5432"
  | .primaryHost => "db0"
  | .remoteHost => ""
  | .remoteData => ""

theorem recovery_link_rebuilds_lostStandby :
    ∃ req recovery,
      dispatch willingWorld (String.ofList ("/var/lib/pgsql/data".toList ++
          '/' :: hookRecovery1stStage.toList) ::
          (recoverySchema.params.map (fun p => lostStandby p.key) ++ ["16"])) =
        some ⟨finish req (willingWorld.answer req), true, some req⟩ ∧
      req.recoveryRequest = some recovery ∧
      recovery.admitted basebackupPool.toNodePool ⟨Journal.empty, [], 0, [], []⟩
        ⟨.ok (), 0, .ok false, "repl", .ok ()⟩ =
          .ok (.recovery ⟨0, "db0"⟩ ⟨1, "db1"⟩) := by
  have hvalues : RecoveryValues basebackupPool lostStandby ⟨0, "db0"⟩ ⟨1, "db1"⟩ :=
    ⟨by decide, rfl, ⟨rfl, by decide⟩, by decide, rfl, by decide⟩
  obtain ⟨req, recovery, hdispatch, hreq, hadmitted⟩ :=
    recovery_link_rebuilds willingWorld willingWorld_ready basebackupPool lostStandby hvalues
      (by decide +kernel : hookId (lostStandby .standbyId) = some 1) "/var/lib/pgsql/data".toList
      ["16"] ⟨Journal.empty, [], 0, [], []⟩ ⟨.ok (), 0, .ok false, "repl", .ok ()⟩
  exact ⟨req, recovery, hdispatch, hreq,
    hadmitted fun _ => ⟨rfl, fun op hop => by cases hop⟩⟩

/-! ## Failures -/

/-- The request as the agent's handler of failures takes it. -/
def HookRequest.failoverRequest : HookRequest → Option FailoverRequest
  | .failover detached newMain _ oldPrimary =>
      some ⟨some detached.ref, some newMain.ref, some oldPrimary.ref⟩
  | _ => none

/-- The answer of a handler, as the client gets it. -/
def OpReply.callEnd : OpReply → CallEnd
  | .ok result => .reply result.ok result.message
  | .error _ => .status

/-- The values of a report that can be made are four numbers, or nothing, in the places of ids. -/
theorem failoverOf_eq_some {v : Token → String} {req : HookRequest}
    (h : failoverOf v = some req) :
    ∃ detached newMain oldMain oldPrimary,
      hookId (v .detachedId) = some detached ∧ hookId (v .newMainId) = some newMain ∧
      hookId (v .oldPrimaryId) = some oldPrimary ∧
      req = .failover ⟨detached, v .detachedHost, hookPort (v .detachedPort), v .detachedData⟩
        ⟨newMain, v .newMainHost, hookPort (v .newMainPort), v .newMainData⟩ oldMain
        ⟨oldPrimary, v .oldPrimaryHost, hookPort (v .oldPrimaryPort), ""⟩ := by
  unfold failoverOf namedNode at h
  simp only [Option.bind_eq_bind, Option.bind_eq_some_iff, Option.map_eq_some_iff,
    Option.pure_def, Option.some.injEq] at h
  obtain ⟨_, ⟨detached, hdetached, rfl⟩, _, ⟨newMain, hnewMain, rfl⟩, oldMain, -, _,
    ⟨oldPrimary, holdPrimary, rfl⟩, rfl⟩ := h
  exact ⟨detached, newMain, oldMain, oldPrimary, hdetached, hnewMain, holdPrimary, rfl⟩

/-- **pgpool's word promotes nobody.**  The agent that is told that the primary is gone, or that
there is no node to take over, leaves its journal, its queue, its markers and its slots as they are.
The command ends with 0 exactly if pgpool has named a node to take over. -/
theorem failover_command_advisory {pgpool : CommandLine.Filler} (hpgpool : pgpool.Fills)
    {shell : CommandLine.Shell} (hshell : shell.Splits) (w : ClientWorld) (hready : w.Ready)
    (v : Token → String)
    (hv : ∀ k, ∀ c ∈ (v k).toList, CommandLine.isPlain c = true) (extra : List String)
    (hextra : ∀ word ∈ extra, word ≠ "" ∧
      ∀ c ∈ word.toList, CommandLine.isPlain c = true)
    {req : HookRequest} (hreq : failoverOf v = some req)
    (hnews : hookId (v .detachedId) = hookId (v .oldPrimaryId) ∨
      hookId (v .newMainId) = some (-1))
    (digest : String → String) (pool : NodePool) (s : HookState) (p : FailoverProbes)
    (hanswer : ∀ f, req.failoverRequest = some f →
      w.answer req = OpReply.callEnd (s.failoverHook digest pool f p).2) :
    ∃ words f run, shell (pgpool (failoverSchema.puts v)
        (commandLine hookFailover failoverSchema.tokens extra).toList) = some words ∧
      dispatch w (words.map String.ofList) = some run ∧ run.sent = some req ∧
      req.failoverRequest = some f ∧ (s.failoverHook digest pool f p).1 = s ∧
      (run.code = 0 ↔ hookId (v .newMainId) ≠ some (-1)) := by
  obtain ⟨words, hwords, hdispatch⟩ :=
    HookSchema.command_dispatches directives_failoverSchema hpgpool hshell hready
      (by decide : hookFailover ∈ hookNames) hv hextra
  have hrun : dispatch w (words.map String.ofList) = some (w.ends (some req)) := by
    rw [← hreq]
    exact hdispatch.trans (congrArg (fun r => some (w.ends r)) (handleFailover_values v extra))
  obtain ⟨detached, newMain, oldMain, oldPrimary, hdetached, hnewMain, holdPrimary, rfl⟩ :=
    failoverOf_eq_some hreq
  refine ⟨words, _, _, hwords, hrun, rfl, rfl, ?_⟩
  have hanswer := hanswer _ rfl
  rw [hdetached, holdPrimary, hnewMain, Option.some.injEq, Option.some.injEq] at hnews
  rw [hnewMain, ne_eq, Option.some.injEq]
  unfold HookState.failoverHook HookState.failover at hanswer ⊢
  dsimp only [ClientWorld.ends, HookNode.ref] at hanswer ⊢
  by_cases hnone : newMain = -1
  · rw [if_pos hnone] at hanswer ⊢
    refine ⟨rfl, iff_of_false ?_ (not_not_intro hnone)⟩
    rw [hanswer]
    exact Nat.one_ne_zero
  · rw [if_neg hnone, if_pos (hnews.resolve_right hnone)] at hanswer ⊢
    refine ⟨rfl, iff_of_true ?_ hnone⟩
    rw [hanswer]
    rfl

/-- The agent that is told of `lostPrimary`. -/
def advisedWorld : ClientWorld where
  profile := .release
  timeoutEnv := none
  dials := true
  answer := fun _ => .reply true ("failover: advisory — lease-driven roles; pgpool announced " ++
    "db0" ++ " down (pick " ++ "db1" ++ "), promotion is the HA loop's decision")

theorem failover_command_advisory_lostPrimary : ∃ words f run,
    CommandLine.shellWords (CommandLine.expand (failoverSchema.puts lostPrimary)
      (commandLine hookFailover failoverSchema.tokens []).toList) = some words ∧
    dispatch advisedWorld (words.map String.ofList) = some run ∧ run.code = 0 ∧
    (HookState.failoverHook id basebackupPool.toNodePool ⟨Journal.empty, [], 0, [], ["node1"]⟩ f
      HookState.dropsAtOnce).1 = ⟨Journal.empty, [], 0, [], ["node1"]⟩ := by
  have hplain : ∀ k, ∀ c ∈ (lostPrimary k).toList, CommandLine.isPlain c = true := by
    intro k
    cases k <;> exact List.all_eq_true.mp (by decide +kernel)
  have hreq : failoverOf lostPrimary = some (.failover ⟨0, "db0", 5432, "/var/lib/pgsql/data"⟩
      ⟨1, "db1", 5432, ""⟩ ⟨0, "", 0, ""⟩ ⟨0, "db0", 5432, ""⟩) := by
    decide +kernel
  obtain ⟨words, f, run, hwords, hdispatch, -, -, hsame, hcode⟩ :=
    failover_command_advisory CommandLine.expand_fills CommandLine.shellWords_splits advisedWorld
      ⟨⟨defaultHookTimeout, rfl⟩, rfl⟩ lostPrimary hplain []
      (fun _ h => absurd h List.not_mem_nil) hreq (Or.inl rfl) id basebackupPool.toNodePool
      ⟨Journal.empty, [], 0, [], ["node1"]⟩ HookState.dropsAtOnce fun f hf => by
        cases hf
        rfl
  exact ⟨words, f, run, hwords, hdispatch, hcode.mpr (by decide +kernel), hsame⟩

end PgAgent
