import PgAgent.Ops.Ownership

/-!
# The slot of an orchestration

Each of the three orchestrations that rebuild a node creates a replication slot for it, and
the queries for an owner find the orchestration by that slot: the slot's name has a node id in
it, and the payload has a target.  The slot is named in `localserver.rs`, where the node it is
for is at hand; the target is chosen in `inflight_ops.rs`, by the kind of the payload.

A recovery and a re-pointing have the node that is rebuilt as their target.  A handoff rebuilds
the node it comes from, and has the node it goes to as its target.

* `nodeIdFromSlot_slotName` --- the id in the name of a node's slot is the node's;
* `slotNamesInverse_iff` --- the names that lead to the node whose slot they are, or to none;
* `ownsItsSlot_iff` --- which orchestrations own the slot they create.
-/

namespace PgAgent

/-- The orchestrations that create a slot, by their nodes. -/
inductive Orchestration where
  | handoff (localNode target : NodeConfig) (allowLag : Bool)
  | recovery (primary standby : NodeConfig)
  | followPrimary (detached newPrimary : NodeConfig)
  deriving DecidableEq, Repr

namespace Orchestration

/-- What `begin` is given: by `cluster_handoff`, `recovery_first_stage` and
`fan_out_follow_primary`. -/
def payload : Orchestration → InflightPayload
  | handoff localNode target allowLag =>
      .handoff localNode.id target.id target.hostname localNode.slotName allowLag
  | recovery primary standby =>
      .recovery primary.id standby.id standby.hostname standby.slotName
  | followPrimary detached newPrimary =>
      .followPrimary detached.id detached.hostname newPrimary.id newPrimary.hostname

/-- The slot that is created. -/
def slot : Orchestration → String
  | handoff localNode _ _ => localNode.slotName
  | recovery _ standby => standby.slotName
  | followPrimary detached _ => detached.slotName

/-- The node that is rebuilt. -/
def rebuilt : Orchestration → NodeConfig
  | handoff localNode _ _ => localNode
  | recovery _ standby => standby
  | followPrimary detached _ => detached

end Orchestration

/-- The ids of the pool are `i32`. -/
def NodePool.IdsInRange (pool : NodePool) : Prop :=
  ∀ n ∈ pool.members, -2 ^ 31 ≤ n.id ∧ n.id < 2 ^ 31

instance (pool : NodePool) : Decidable pool.IdsInRange :=
  inferInstanceAs (Decidable (∀ n ∈ pool.members, -2 ^ 31 ≤ n.id ∧ n.id < 2 ^ 31))

/-- A node's slot leads back to the node. -/
theorem nodeIdFromSlot_slotName {n : NodeConfig} (h : -2 ^ 31 ≤ n.id ∧ n.id < 2 ^ 31) :
    nodeIdFromSlot n.slotName = some n.id := by
  have hlist : n.slotName.toList = 'n' :: 'o' :: 'd' :: 'e' :: (toString n.id).toList := by
    rw [NodeConfig.slotName, String.toList_append]
    rfl
  unfold nodeIdFromSlot
  simp only [hlist, String.ofList_toList]
  exact Rust.parseI32_toString h

/-! ## Names that are no slot's -/

theorem nodeIdFromSlot_eq_some_iff {s : String} {id : NodeId} :
    nodeIdFromSlot s = some id ↔
      ∃ cs, s = "node" ++ String.ofList cs ∧ Rust.IsI32Text id cs ∧
        -2 ^ 31 ≤ id ∧ id < 2 ^ 31 := by
  have htext : ∀ cs : List Char,
      ("node" ++ String.ofList cs).toList = 'n' :: 'o' :: 'd' :: 'e' :: cs := by
    intro cs
    simp only [String.toList_append, String.toList_ofList]
    rfl
  unfold nodeIdFromSlot
  constructor
  · intro h
    split at h
    · rename_i cs hcs
      have hparse := Rust.parseI32_eq_some_iff.mp h
      rw [String.toList_ofList] at hparse
      exact ⟨cs, String.toList_inj.mp (hcs.trans (htext cs).symm), hparse⟩
    · cases h
  · rintro ⟨cs, rfl, hread, hrange⟩
    simp only [htext]
    rw [Rust.parseI32_eq_some_iff, String.toList_ofList]
    exact ⟨hread, hrange⟩

/-- The name is `node` and a number in the range of `i32` that is not written as `slot_name` writes
it: with a plus sign, with a zero in front, or as minus zero. -/
def MisspeltSlot (s : String) : Prop :=
  ∃ cs id, s = "node" ++ String.ofList cs ∧ Rust.IsI32Text id cs ∧
    (-2 ^ 31 ≤ id ∧ id < 2 ^ 31) ∧
    Rust.Misspelt cs

/-- `node_id_from_slot` inverts `slot_name`, and attributes the name `s` to a node only if it is the
name of the node's slot. -/
def SlotNamesInverse (s : String) : Prop :=
  (∀ n : NodeConfig, -2 ^ 31 ≤ n.id ∧ n.id < 2 ^ 31 →
    nodeIdFromSlot n.slotName = some n.id) ∧
    ∀ n : NodeConfig, nodeIdFromSlot s = some n.id → s = n.slotName

/-- A name is attributed to none but its node **exactly when it is not misspelt**. -/
theorem slotNamesInverse_iff (s : String) : SlotNamesInverse s ↔ ¬ MisspeltSlot s := by
  have hname : ∀ (cs : List Char) (id : NodeId),
      "node" ++ String.ofList cs = "node" ++ toString id ↔ cs = (toString id).toList := by
    intro cs id
    rw [String.append_right_inj, ← String.toList_inj, String.toList_ofList]
  constructor
  · rintro ⟨-, howner⟩ ⟨cs, id, rfl, hread, hrange, hbad⟩
    have hself := howner ⟨id, ""⟩ (nodeIdFromSlot_eq_some_iff.mpr ⟨cs, rfl, hread, hrange⟩)
    exact (Rust.eq_toString_iff hread).mp ((hname cs id).mp hself) hbad
  · intro hgood
    refine ⟨fun _ => nodeIdFromSlot_slotName, fun n hn => ?_⟩
    obtain ⟨cs, rfl, hread, hrange⟩ := nodeIdFromSlot_eq_some_iff.mp hn
    refine (hname cs n.id).mpr ((Rust.eq_toString_iff hread).mpr fun hbad => ?_)
    exact hgood ⟨cs, n.id, rfl, hread, hrange, hbad⟩

/-- `node02` is no node's slot, and is attributed to node `2`. -/
theorem node02_attributed :
    nodeIdFromSlot "node02" = some 2 ∧ (⟨2, "db2"⟩ : NodeConfig).slotName = "node2" ∧
      ¬ SlotNamesInverse "node02" := by
  have hread : nodeIdFromSlot "node02" = some 2 := by decide
  refine ⟨hread, by decide, fun h => ?_⟩
  exact absurd (h.2 ⟨2, "db2"⟩ hread) (by decide)

/-! ## The owner of a slot -/

theorem ownerOfSlot_slotName {n : NodeConfig} (h : -2 ^ 31 ≤ n.id ∧ n.id < 2 ^ 31)
    (scan : Except String (List InflightOp)) (grace : ℤ) (now : UtcNanos) :
    ownerOfSlot scan n.slotName grace now = ownerOfNode scan n.id grace now := by
  rw [ownerOfSlot, nodeIdFromSlot_slotName h]
  rfl

/-- The orchestration is in progress in the journal. -/
structure Underway (pool : NodePool) (j : Journal) (x : Orchestration) (op : InflightOp) :
    Prop where
  ids : pool.IdsInRange
  member : x.rebuilt ∈ pool.members
  entry : op ∈ j.ops
  status : op.status = .inProgress
  payload : op.payload = x.payload

/-- The orchestration owns the slot it creates: the slot's name has its target in it, and the
query finds an owner. -/
def OwnsItsSlot (j : Journal) (x : Orchestration) (grace : ℤ) (now : UtcNanos) : Prop :=
  nodeIdFromSlot x.slot = x.payload.targetNodeId ∧
    ownerOfSlot (j.scan (.ok ())) x.slot grace now ≠ none

theorem Orchestration.slot_eq (x : Orchestration) : x.slot = x.rebuilt.slotName := by
  cases x <;> rfl

/-- The target is the node that is rebuilt, but for a handoff. -/
theorem Orchestration.targetNodeId_payload (x : Orchestration) :
    x.payload.targetNodeId = some x.rebuilt.id ↔
      ∀ localNode target allowLag, x = .handoff localNode target allowLag →
        localNode.id = target.id := by
  cases x with
  | handoff localNode target allowLag =>
    constructor
    · rintro htarget _ _ _ heq
      obtain ⟨rfl, rfl, rfl⟩ := Orchestration.handoff.inj heq
      exact (Option.some.inj htarget).symm
    · intro h
      exact congrArg some (h localNode target allowLag rfl).symm
  | recovery primary standby =>
    refine iff_of_true rfl ?_
    intro _ _ _ heq
    cases heq
  | followPrimary detached newPrimary =>
    refine iff_of_true rfl ?_
    intro _ _ _ heq
    cases heq

/-- An orchestration in progress **owns the slot it creates exactly when it is no handoff**, or one
of a node to itself. -/
theorem ownsItsSlot_iff {pool : NodePool} {j : Journal} {x : Orchestration} {op : InflightOp}
    (h : Underway pool j x op) (grace : ℤ) (now : UtcNanos) :
    OwnsItsSlot j x grace now ↔
      ∀ localNode target allowLag, x = .handoff localNode target allowLag →
        localNode.id = target.id := by
  have hrange := h.ids x.rebuilt h.member
  have hslot : nodeIdFromSlot x.slot = some x.rebuilt.id := by
    rw [x.slot_eq]
    exact nodeIdFromSlot_slotName hrange
  rw [← x.targetNodeId_payload]
  constructor
  · rintro ⟨htarget, -⟩
    rw [← htarget, hslot]
  · intro htarget
    refine ⟨hslot.trans htarget.symm, ?_⟩
    rw [x.slot_eq, ownerOfSlot_slotName hrange, ne_eq, ownerOfNode_eq_none]
    intro hnone
    -- the entry itself is an owner
    have howns : op.owns x.rebuilt.id grace now = true :=
      InflightOp.owns_of_inProgress h.status (h.payload ▸ htarget)
    have hfree := hnone op h.entry (by rw [h.status]; decide)
    rw [howns] at hfree
    cases hfree

/-! ### Two orchestrations of one pool -/

def slotPool : NodePool := ⟨[⟨0, "db0"⟩, ⟨1, "db1"⟩, ⟨2, "db2"⟩], 0⟩

/-- The journal of an orchestration that has just been begun. -/
def begunOnly (x : Orchestration) : Journal where
  ops :=
    [{ id := "0-op-0", status := .inProgress, payload := x.payload, phase := "begun"
       startedAt := 0, updatedAt := 0, completedAt := none, dischargedAt := none
       lastError := none }]
  seq := 1
  distinct := List.nodup_singleton _

/-- A recovery owns its slot. -/
theorem recovery_ownsItsSlot :
    OwnsItsSlot (begunOnly (.recovery ⟨0, "db0"⟩ ⟨2, "db2"⟩))
      (.recovery ⟨0, "db0"⟩ ⟨2, "db2"⟩)
      crossOpGrace 0 := by
  have hunderway : Underway slotPool (begunOnly (.recovery ⟨0, "db0"⟩ ⟨2, "db2"⟩))
      (.recovery ⟨0, "db0"⟩ ⟨2, "db2"⟩) _ :=
    ⟨by decide, by decide, List.mem_cons_self, rfl, rfl⟩
  exact (ownsItsSlot_iff hunderway crossOpGrace 0).mpr fun _ _ _ heq => by cases heq

/-- A handoff from node `0` to node `1` does not own the slot `node0` that it creates. -/
theorem handoff_slotUnowned :
    ownerOfSlot ((begunOnly (.handoff ⟨0, "db0"⟩ ⟨1, "db1"⟩ false)).scan (.ok ())) "node0"
        crossOpGrace 0 = none ∧
      ¬ OwnsItsSlot (begunOnly (.handoff ⟨0, "db0"⟩ ⟨1, "db1"⟩ false))
        (.handoff ⟨0, "db0"⟩ ⟨1, "db1"⟩ false) crossOpGrace 0 := by
  have hnone :
      ownerOfSlot ((begunOnly (.handoff ⟨0, "db0"⟩ ⟨1, "db1"⟩ false)).scan (.ok ()))
      "node0" crossOpGrace 0 = none := by decide
  exact ⟨hnone, fun howns => howns.2 hnone⟩

end PgAgent
