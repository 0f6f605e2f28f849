import Mathlib.Data.List.Nodup
import Mathlib.Algebra.Order.Ring.Int

/-!
# The node pool

`NodeConfig` and `NodePool` of `config.rs`: the members of the cluster and which of
them is the local one.  Node ids are `i32` in the source; the model keeps them as
integers, since nothing computed with them here can leave the range.
-/

namespace PgAgent

/-- A pool member's id, an `i32` of the source. -/
abbrev NodeId := ℤ

/-- The errors of `errors.rs` that the modelled functions return. -/
inductive AgentError where
  | nodeNotFound (what : String)
  | noLocalNode
  | raftConfig (message : String)
  | nodeRefUnresolvable (id : NodeId) (hostname : String)
  | nodeRefNotLocal (id : NodeId) (hostname : String)
  deriving DecidableEq, Repr

/-- One `[[pool]]` entry. -/
structure NodeConfig where
  id : NodeId
  hostname : String
  deriving DecidableEq, Repr

/-- The replication slot of a node, which is also its `application_name`. -/
def NodeConfig.slotName (n : NodeConfig) : String := "node" ++ toString n.id

/-- The pool: members in declaration order, and the local member's id (`-1` when
it was not resolved). -/
structure NodePool where
  members : List NodeConfig
  localNodeId : NodeId
  deriving DecidableEq, Repr

/-- How a request names a pool member. -/
structure NodeRef where
  id : NodeId
  hostname : String
  deriving DecidableEq, Repr

/-- The `{:?}` of a text that has no character to escape. -/
def debugStr (s : String) : String := "\"" ++ s ++ "\""

namespace NodePool

def nodeById (pool : NodePool) (id : NodeId) : Except AgentError NodeConfig :=
  match pool.members.find? (fun n => n.id == id) with
  | some n => .ok n
  | none => .error (.nodeNotFound ("id=" ++ toString id))

def nodeByHostname (pool : NodePool) (hostname : String) : Except AgentError NodeConfig :=
  match pool.members.find? (fun n => n.hostname == hostname) with
  | some n => .ok n
  | none => .error (.nodeNotFound ("hostname=" ++ debugStr hostname))

def isLocal (pool : NodePool) (node : NodeConfig) : Bool :=
  decide (0 ≤ pool.localNodeId) && node.id == pool.localNodeId

/-- `resolve_node`: by hostname if there is one, else by id. -/
def resolveNode (pool : NodePool) (ref : NodeRef) : Except AgentError NodeConfig :=
  let unresolvable : AgentError := .nodeRefUnresolvable ref.id ref.hostname
  if ref.hostname ≠ "" then (pool.nodeByHostname ref.hostname).mapError fun _ => unresolvable
  else if 0 ≤ ref.id then (pool.nodeById ref.id).mapError fun _ => unresolvable
  else .error unresolvable

/-- `resolve_local_node`: the node that is named, if it is the local one. -/
def resolveLocalNode (pool : NodePool) (ref : NodeRef) : Except AgentError NodeConfig :=
  (pool.resolveNode ref).bind fun node =>
    if pool.isLocal node then .ok node else .error (.nodeRefNotLocal node.id node.hostname)

def localNode (pool : NodePool) : Except AgentError NodeConfig :=
  if pool.localNodeId < 0 then .error .noLocalNode else pool.nodeById pool.localNodeId

/-- The members other than the local node, in declaration order. -/
def others (pool : NodePool) : List NodeConfig :=
  pool.members.filter fun n => n.id != pool.localNodeId

theorem id_ne_of_mem_others {pool : NodePool} {n : NodeConfig} (h : n ∈ pool.others) :
    n.id ≠ pool.localNodeId := by
  have h' := (List.mem_filter.mp h).2
  simpa using h'

theorem mem_others {pool : NodePool} {n : NodeConfig} :
    n ∈ pool.others ↔ n ∈ pool.members ∧ n.id ≠ pool.localNodeId := by
  simp [others]

end NodePool

end PgAgent
