import PgAgent.Ops.LadderSlots
import PgAgent.Ops.Rebuild

/-!
# Where a slot is created, and where it is looked for

Five orchestrations point a standby at an upstream with a slot. Two of them have the upstream as a
peer: the driver of a re-pointing and a handoff create the slot through the peer's client, and take
the name for the recovery configuration from the same node. The other three run on the upstream
itself: they create the slot in their own database, and name the upstream by what the request has
been resolved to.

So the three are right as long as the request names the node they run on. A recovery checks this
(`resolve_local_node`), and a `cluster_init` takes the local node itself. The hook `follow_primary`
resolves the new primary like any other node.

* `eq_localNode_of_isLocal` --- what `resolve_local_node` lets pass is the local node;
* `slotSites_agree_iff` --- the orchestrations whose calls are all for one node.
-/

namespace PgAgent

open Compensation Resumable

/-- What a call does about a slot: it creates or drops it in the database of a node, or it names a
host, in the recovery configuration of the standby or in the intent to drop the slot there. -/
inductive SlotAim where
  | creates (node : NodeConfig) (slot : String)
  | points (primaryHost slot : String)
  | drops (node : NodeConfig) (slot : String)
  | queues (targetHostname slot : String)
  deriving DecidableEq, Repr

/-- The call is about this slot on this node. -/
def SlotAim.IsAt (n : NodeConfig) (slot : String) : SlotAim → Prop
  | creates node slot' => node = n ∧ slot' = slot
  | points primaryHost slot' => primaryHost = n.hostname ∧ slot' = slot
  | drops node slot' => node = n ∧ slot' = slot
  | queues targetHostname slot' => targetHostname = n.hostname ∧ slot' = slot

/-- All calls are about one slot on one node. -/
def OneSite (aims : List SlotAim) : Prop :=
  ∃ n slot, ∀ aim ∈ aims, aim.IsAt n slot

/-- A rebuild that runs on a node: its database is the node's own. -/
def Rebuild.aim (localNode : NodeConfig) (r : Rebuild) : RebuildAt → Option SlotAim
  | .climbing ⟨.createSlot, _⟩ _ => some (.creates localNode r.slotName)
  | .climbing ⟨.configureStandby, _⟩ _ => some (.points r.primary.hostname r.slotName)
  | .climbing _ _ => none
  | .releasing _ _ => some (.drops localNode r.slotName)
  | .deferring _ _ _ => some (.queues r.primary.hostname r.slotName)
  | .givingUp _ _ => none

/-- `drive_follow_primary`: the slot is the new primary's, through its client. -/
def FollowOp.aim (op : FollowOp) : FollowCall → Option SlotAim
  | .createSlot => some (.creates op.newPrimary op.detached.slotName)
  | .configureStandby => some (.points op.newPrimary.hostname op.detached.slotName)
  | .dropSlot _ _ => some (.drops op.newPrimary op.detached.slotName)
  | .queueCleanup _ _ _ => some (.queues op.newPrimary.hostname op.detached.slotName)
  | _ => none

/-- `run_handoff_from_phase`: the slot is the target's, through its client. -/
def HandoffOp.aim (op : HandoffOp) : HandoffCall → Option SlotAim
  | .createSlot => some (.creates op.target op.slotName)
  | .writeRecoveryConf => some (.points op.target.hostname op.slotName)
  | .dropSlot _ => some (.drops op.target op.slotName)
  | _ => none

section

variable {α : Type}

/-- Calls that are all for one site, wherever the run has gone. -/
theorem oneSite_filterMap {aim : α → Option SlotAim} {n : NodeConfig} {slot : String}
    (h : ∀ a x, aim a = some x → x.IsAt n slot) (calls : List α) :
    OneSite (calls.filterMap aim) := by
  refine ⟨n, slot, fun x hx => ?_⟩
  obtain ⟨a, -, ha⟩ := List.mem_filterMap.mp hx
  exact h a x ha

end

theorem FollowOp.isAt_aim (op : FollowOp) {call : FollowCall} {x : SlotAim}
    (h : op.aim call = some x) : x.IsAt op.newPrimary op.detached.slotName := by
  cases call with
  | createSlot => exact Option.some.inj h ▸ ⟨rfl, rfl⟩
  | configureStandby => exact Option.some.inj h ▸ ⟨rfl, rfl⟩
  | dropSlot cause error => exact Option.some.inj h ▸ ⟨rfl, rfl⟩
  | queueCleanup cause dropError error => exact Option.some.inj h ▸ ⟨rfl, rfl⟩
  | _ => cases h

theorem HandoffOp.isAt_aim (op : HandoffOp) {call : HandoffCall} {x : SlotAim}
    (h : op.aim call = some x) : x.IsAt op.target op.slotName := by
  cases call with
  | createSlot => exact Option.some.inj h ▸ ⟨rfl, rfl⟩
  | writeRecoveryConf => exact Option.some.inj h ▸ ⟨rfl, rfl⟩
  | dropSlot copyError => exact Option.some.inj h ▸ ⟨rfl, rfl⟩
  | _ => cases h

/-- A rebuild on the node that it names. -/
theorem Rebuild.isAt_aim {localNode : NodeConfig} {r : Rebuild}
    (hhost : r.primary.hostname = localNode.hostname) {pos : RebuildAt} {x : SlotAim}
    (h : r.aim localNode pos = some x) : x.IsAt localNode r.slotName := by
  unfold Rebuild.aim at h
  split at h
  · exact Option.some.inj h ▸ ⟨rfl, rfl⟩
  · exact Option.some.inj h ▸ ⟨hhost, rfl⟩
  · cases h
  · exact Option.some.inj h ▸ ⟨rfl, rfl⟩
  · exact Option.some.inj h ▸ ⟨hhost, rfl⟩
  · cases h

/-! ## Which node a request names -/

/-- What `resolve_local_node` lets pass is the local node. -/
theorem eq_localNode_of_isLocal {pool : NodePool} {localNode n : NodeConfig}
    (hids : (pool.members.map NodeConfig.id).Nodup) (hlocal : pool.localNode = .ok localNode)
    (hmem : n ∈ pool.members) (h : pool.isLocal n = true) : n = localNode := by
  unfold NodePool.localNode at hlocal
  split at hlocal
  · cases hlocal
  · have hid : n.id = pool.localNodeId := by
      simpa using (Bool.and_eq_true_iff.mp h).2
    refine List.inj_on_of_nodup_map hids hmem (NodePool.mem_of_nodeById hlocal) ?_
    rw [hid, NodePool.id_of_nodeById hlocal]

/-- A rebuild that is no hook is on the node that it names. -/
theorem primary_eq_localNode {digest : String → String} {pool : NodePool} {localNode : NodeConfig}
    {s : HookState} {req : RebuildRequest} {p : RebuildProbes} {rs : List Rebuild} {r : Rebuild}
    (hids : (pool.members.map NodeConfig.id).Nodup) (hlocal : pool.localNode = .ok localNode)
    (h : req.admitted digest pool s p = .ok rs) (hr : r ∈ rs)
    (hhook : ∀ detached newPrimary key, r ≠ .followPrimary detached newPrimary key) :
    r.primary = localNode := by
  have hnames := RebuildRequest.namesPrimary h hr
  cases req with
  | followPrimary req =>
    obtain ⟨_, _, _, _, -, -, -, -, -, -, rfl⟩ :=
      FollowPrimaryRequest.admitted_eq_ok_iff.mp (mem_map_singleton h hr)
    exact absurd rfl (hhook _ _ _)
  | recovery req =>
    obtain ⟨ref, -, hresolved, hisLocal⟩ := hnames
    exact eq_localNode_of_isLocal hids hlocal (HookState.mem_of_resolveNode hresolved) hisLocal
  | clusterInit onlyNodeId => exact Except.ok.inj (Eq.trans hnames.symm hlocal)

/-! ## The orchestrations -/

/-- What a rebuild has done about slots, in its first `n` calls. -/
def Rebuild.aims (digest : String → String) (localNode : NodeConfig) (r : Rebuild) (n : ℕ)
    (w : RebuildWorld) (inputs : ℕ → RebuildInput) : List SlotAim :=
  (Resumable.drive (r.program digest) n (Run.start w) r.first inputs).1.calls.filterMap fun call =>
    r.aim localNode call.1

/-- What the driver of a re-pointing has done about slots. -/
def FollowOp.aims (op : FollowOp) (n : ℕ) (site : LadderSite) (pos : FollowPosition)
    (inputs : ℕ → LadderInput) : List SlotAim :=
  (Resumable.drive (logged op.ladder) n (site, []) pos inputs).1.2.filterMap fun call =>
    op.aim call.2.1.call

/-- What a handoff has done about slots. -/
def HandoffOp.aims (op : HandoffOp) (n : ℕ) (site : LadderSite) (pos : LadderPosition)
    (inputs : ℕ → LadderInput) : List SlotAim :=
  (Resumable.drive (logged op.ladder) n (site, []) pos inputs).1.2.filterMap fun call =>
    op.aim call.2.1.call

def everyCallOk : ℕ → RebuildInput := fun _ => ⟨.ok (), true, 0⟩

/-- The hook, with nothing in its way. -/
theorem aims_followPrimary (digest : String → String) (localNode detached newPrimary : NodeConfig)
    (key : String) (w : RebuildWorld) :
    (Rebuild.followPrimary detached newPrimary key).aims digest localNode 7 w everyCallOk =
      [.points newPrimary.hostname detached.slotName, .creates localNode detached.slotName] :=
  rfl

/-- **Each of the five orchestrations creates and drops its slot on the node that it names, with the
exception of the hook `follow_primary`: there it is so exactly if the new primary has the host name
of the node that the hook runs on.** -/
theorem slotSites_agree_iff {digest : String → String} {pool : NodePool} {localNode : NodeConfig}
    (hids : (pool.members.map NodeConfig.id).Nodup) (hlocal : pool.localNode = .ok localNode) :
    (∀ s req p rs, RebuildRequest.admitted digest pool s req p = .ok rs → ∀ r ∈ rs,
      ((∀ n w inputs, OneSite (r.aims digest localNode n w inputs)) ↔
        ∀ detached newPrimary key, r = .followPrimary detached newPrimary key →
          newPrimary.hostname = localNode.hostname)) ∧
    (∀ (op : FollowOp) n site pos inputs, OneSite (op.aims n site pos inputs)) ∧
    (∀ (op : HandoffOp) n site pos inputs, OneSite (op.aims n site pos inputs)) := by
  refine ⟨fun s req p rs hadmitted r hr => ⟨?_, ?_⟩, fun op n site pos inputs => ?_,
    fun op n site pos inputs => ?_⟩
  · rintro hall detached newPrimary key rfl
    obtain ⟨n, slot, hat⟩ := hall 7 ⟨s, ""⟩ everyCallOk
    rw [aims_followPrimary] at hat
    obtain ⟨hpoints, -⟩ := hat _ List.mem_cons_self
    obtain ⟨hcreates, -⟩ := hat _ (List.mem_cons_of_mem _ List.mem_cons_self)
    rw [hpoints, hcreates]
  · intro hhook n w inputs
    have hhost : r.primary.hostname = localNode.hostname := by
      by_cases h : ∃ detached newPrimary key, r = .followPrimary detached newPrimary key
      · obtain ⟨detached, newPrimary, key, rfl⟩ := h
        exact hhook detached newPrimary key rfl
      · rw [primary_eq_localNode hids hlocal hadmitted hr fun detached newPrimary key heq =>
          h ⟨detached, newPrimary, key, heq⟩]
    exact oneSite_filterMap (fun call x hx => Rebuild.isAt_aim hhost hx) _
  · exact oneSite_filterMap (fun call x hx => op.isAt_aim hx) _
  · exact oneSite_filterMap (fun call x hx => op.isAt_aim hx) _

/-! ### Node 2 follows a new primary -/

/-- The request of the hook that tells node `2` to follow the given node. -/
def followRequest (newPrimary : NodeRef) : RebuildRequest :=
  .followPrimary ⟨some ⟨2, "db2"⟩, some newPrimary⟩

/-- Delivered to the agent of the new primary, the hook has one site. -/
theorem followPrimary_oneSite :
    OneSite ((Rebuild.followPrimary ⟨2, "db2"⟩ ⟨0, "db0"⟩ "detached=2,new_primary=0").aims
      id
      ⟨0, "db0"⟩ 7 ⟨idleHook, ""⟩ everyCallOk) := by
  have hadmitted : RebuildRequest.admitted id rebuildPool idleHook (followRequest ⟨0, "db0"⟩)
      freeProbes = .ok [.followPrimary ⟨2, "db2"⟩ ⟨0, "db0"⟩ "detached=2,new_primary=0"] :=
        by rfl
  refine ((slotSites_agree_iff (by decide) (by rfl)).1 idleHook _ freeProbes _ hadmitted _
    List.mem_cons_self).mpr (fun detached newPrimary key heq => ?_) 7 ⟨idleHook, ""⟩ everyCallOk
  obtain ⟨-, rfl, -⟩ := Rebuild.followPrimary.inj heq
  rfl

/-- Delivered to the agent of node `0`, the hook of node `1` is accepted; it creates the slot on
node `0`, and points node `2` at `db1`. -/
theorem followPrimary_twoSites :
    RebuildRequest.admitted id rebuildPool idleHook (followRequest ⟨1, "db1"⟩) freeProbes =
        .ok [.followPrimary ⟨2, "db2"⟩ ⟨1, "db1"⟩ "detached=2,new_primary=1"] ∧
      (Rebuild.followPrimary ⟨2, "db2"⟩ ⟨1, "db1"⟩ "detached=2,new_primary=1").aims
        id ⟨0, "db0"⟩ 7
          ⟨idleHook, ""⟩ everyCallOk =
        [.points "db1" "node2", .creates ⟨0, "db0"⟩ "node2"] ∧
      ¬ OneSite ((Rebuild.followPrimary ⟨2, "db2"⟩ ⟨1, "db1"⟩
        "detached=2,new_primary=1").aims id
        ⟨0, "db0"⟩ 7 ⟨idleHook, ""⟩ everyCallOk) := by
  refine ⟨by rfl, by decide, ?_⟩
  rintro ⟨n, slot, hat⟩
  rw [aims_followPrimary] at hat
  obtain ⟨hpoints, -⟩ := hat _ List.mem_cons_self
  obtain ⟨hcreates, -⟩ := hat _ (List.mem_cons_of_mem _ List.mem_cons_self)
  rw [← hcreates] at hpoints
  exact absurd hpoints (by decide)

end PgAgent
