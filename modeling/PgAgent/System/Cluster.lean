import PgAgent.Consensus.Command
import PgAgent.Ha.Tick
import PgAgent.Library.Trace
import PgAgent.RoleExec.Apply

/-!
# A cluster of agents over one store

Every node runs the loop of `HaLoop::run`: `tick_once`, then `RoleExecutor::apply` on
the decision.  A tick is not atomic.  It reads the store, observes for a while, may
write to the store, and then acts; in between, every other node may do the same.  So a
node is in one of three phases --- between ticks, after its read, after its decision ---
and an event moves one node by one phase.

The store is linearizable: a read sees the document of the moment, a write takes effect
at one moment and its reply is the one of that moment.  Commands also come from
elsewhere --- a proposal whose reply was lost and that commits late, a duplicate, the
operator, `ClusterInit` --- and `commit` lets any command through at any time.  Commands
reach the document as log entries, and a log index is a `u64` of which the first belongs
to the membership entry: there are fewer than `2 ^ 64` of them.

What a node observes besides the store is left entirely open here.
-/

namespace PgAgent

open Rust

/-- The configuration shared by the agents of a cluster; the timing may differ from node
to node. -/
structure Deployment where
  members : List NodeConfig
  timing : NodeId → HaTiming
  pgPort : UInt16
  replUser : String

namespace Deployment

variable (dep : Deployment) (n : NodeId)

def haLoop : HaLoop := ⟨⟨dep.members, n⟩, dep.timing n⟩

/-- The executor `pg_agentd` builds; its promotion budget is `leader_ttl`. -/
def executor : RoleExecutor :=
  ⟨⟨dep.members, n⟩, (dep.timing n).leaderTtl, dep.pgPort, dep.replUser⟩

end Deployment

/-- Where a node is in its loop, with what its store read gave. -/
inductive Phase where
  | idle
  | read (result : Option ClusterState)
  | decided (result : Option ClusterState) (decision : HaDecision)

structure AgentState where
  tick : TickState
  exec : ExecState
  phase : Phase

/-- A freshly started agent. -/
def AgentState.new : AgentState := ⟨TickState.new, ExecState.new, .idle⟩

/-- An action some executor issued, the decision it was issued for, and the store read
behind that decision. -/
structure Issued where
  node : NodeId
  read : Option ClusterState
  decision : HaDecision
  action : ExecAction

/-- The store with the log of the commands it applied, newest first; the agents; and
everything the executors have issued. -/
structure System where
  store : ClusterState
  log : List (ConsensusCommand × CommandResponse)
  agents : NodeId → AgentState
  issued : List Issued

inductive SystemEvent where
  | commit (cmd : ConsensusCommand)
  | read (n : NodeId) (answered : Bool)
  | decide (n : NodeId) (inp : TickInput) (stamp : Timestamp) (released : Bool)
  | apply (n : NodeId) (inp : ExecInput)
  | dieApplying (n : NodeId) (inp : ExecInput) (after : ℕ)
  | restart (n : NodeId)

namespace System

/-- The empty cluster: nothing committed, every agent just started. -/
def initial : System := ⟨ClusterState.default, [], fun _ => AgentState.new, []⟩

/-- The leases minted so far, newest first. -/
def minted (s : System) : List Lease := s.log.filterMap fun entry => entry.2.minted

def setAgent (s : System) (n : NodeId) (a : AgentState) : System :=
  { s with agents := Function.update s.agents n a }

/-- One more log entry, while there is an index for it. -/
def commit (s : System) (cmd : ConsensusCommand) : Option (System × CommandResponse) :=
  if s.log.length + 1 < 2 ^ 64 then
    let response := (applyCommand s.store cmd).2
    some ({ s with store := (applyCommand s.store cmd).1, log := (cmd, response) :: s.log },
      response)
  else none

/-- A write of a tick.  A takeover that was answered took effect with that answer; one
that was not, and a release, may or may not have taken effect. -/
def perform (inp : TickInput) (stamp : Timestamp) (released : Bool) (s : System) :
    StoreCall → Option System
  | .tryTakeover candidate expected =>
      match inp.takeover with
      | .error _ => some s
      | .ok outcome =>
          (s.commit (.takeover candidate expected stamp)).bind fun r =>
            if r.2 = .takeover outcome then some r.1 else none
  | .release holder term =>
      if released then (s.commit (.release holder term)).map Prod.fst else some s

/-- Everything a node's executor issues for the decision it is at. -/
def actionsOf (dep : Deployment) (s : System) (n : NodeId) (result : Option ClusterState)
    (d : HaDecision) (inp : ExecInput) : List Issued :=
  ((dep.executor n).apply (s.agents n).exec inp d).2.map fun a => ⟨n, result, d, a⟩

/-- One event.  An event that does not fit the phase of its node is refused. -/
def step (dep : Deployment) (s : System) : SystemEvent → Option System
  | .commit cmd => (s.commit cmd).map Prod.fst
  | .read n answered =>
      match (s.agents n).phase with
      | .idle =>
          let result := if answered then some s.store else none
          some (s.setAgent n { s.agents n with phase := .read result })
      | _ => none
  | .decide n inp stamp released =>
      match (s.agents n).phase with
      | .read result =>
          if inp.read (dep.timing n) = result then
            let out := tickOnce (dep.haLoop n) (s.agents n).tick inp
            (out.calls.foldlM (perform inp stamp released) s).map fun s' =>
              s'.setAgent n
                { s.agents n with tick := out.state, phase := .decided result out.decision }
          else none
      | _ => none
  | .apply n inp =>
      match (s.agents n).phase with
      | .decided result d =>
          let exec := ((dep.executor n).apply (s.agents n).exec inp d).1
          some { s.setAgent n { s.agents n with exec := exec, phase := .idle } with
            issued := s.actionsOf dep n result d inp ++ s.issued }
      | _ => none
  | .dieApplying n inp after =>
      match (s.agents n).phase with
      | .decided result d =>
          some { s.setAgent n AgentState.new with
            issued := (s.actionsOf dep n result d inp).take after ++ s.issued }
      | _ => none
  | .restart n => some (s.setAgent n AgentState.new)

/-- The states of a cluster that started empty. -/
def Reachable (dep : Deployment) : System → Prop :=
  Trace.Reachable (fun s => s = initial) (step dep)

end System

end PgAgent
