import PgAgent.System.Cluster

/-!
# The cluster and its databases

`System` leaves open what the nodes observe.  Here the observations come from somewhere:
every node has a PostgreSQL, the nodes reach each other or not, and a probe either fails
or tells the truth about the moment it is made.  The world moves by single events --- WAL
is generated, received, acknowledged; a database or an agent dies; a link breaks; a tick
reads, probes, hears one peer, decides, acts --- in any order.

Positions live on one timeline, and quorum commit is armed throughout: a commit is
acknowledged only once some other member has flushed it.  A flushed position never goes
back.

A takeover whose reply is lost may still commit later, so proposals in flight are part of
the world, together with the answers they were decided on.
-/

namespace PgAgent

open Rust

/-- A node's database.  `upstream` is the configured one, `receivingFrom` the one its WAL
receiver is connected to. -/
structure Postgres where
  flush : ℕ
  up : Bool
  inRecovery : Bool
  upstream : Option NodeId
  receivingFrom : Option NodeId
  deriving DecidableEq, Repr

/-- The one timeline of the world. -/
def worldTimeline : ℤ := 1

/-- Which probes of a round fail. -/
structure ProbeFailures where
  recovery : Bool
  lag : Bool
  timeline : Bool
  wal : Bool
  flush : Bool
  systemd : Bool
  controlFile : Bool
  deriving DecidableEq, Repr

def ProbeFailures.none : ProbeFailures := ⟨false, false, false, false, false, false, false⟩

namespace Postgres

/-- A query: no answer if it fails or the database is down. -/
def query {α : Type} (p : Postgres) (fails : Bool) (value : α) : Option α :=
  if fails || !p.up then none else some value

/-- The database queries of one round. -/
def probe (p : Postgres) (f : ProbeFailures) : DbProbes where
  isInRecovery := p.query f.recovery p.inRecovery
  replicationLag :=
    p.query f.lag ⟨0, if p.receivingFrom.isSome then "streaming" else ""⟩
  timelineId := p.query f.timeline worldTimeline
  currentWalLsn := p.query f.wal p.flush
  flushLsn := p.query f.flush p.flush

/-- Everything `get_status` asks. -/
def statusProbes (p : Postgres) (f : ProbeFailures) (pgpool : Option Bool) : StatusProbes where
  db := p.probe f
  statusPostgres := if f.systemd then none else some p.up
  statusPgpool := pgpool
  controlTimeline := if f.controlFile then none else some worldTimeline

/-- What `Instance::state` asks. -/
def instanceProbes (p : Postgres) (f : ProbeFailures) : InstanceProbes where
  isActive := if f.systemd then none else some p.up
  isInRecovery := (p.probe f).isInRecovery
  replicationLag := (p.probe f).replicationLag

/-- The effect of an executor's action on the local database. -/
def effect (members : List NodeConfig) (p : Postgres) : ExecAction → Postgres
  | .ensureStopped => { p with up := false, receivingFrom := none }
  | .pgPromote => if p.up then { p with inRecovery := false, receivingFrom := none } else p
  | .stopReceiving => { p with upstream := none, receivingFrom := none }
  | .follow upstream =>
      { p with
        upstream := (members.find? fun m => m.hostname == upstream.host).map (·.id)
        receivingFrom := none }
  | _ => p

/-- The actions that take effect, one after the other. -/
def effects (members : List NodeConfig) (takes : ExecAction → Bool) (p : Postgres)
    (actions : List ExecAction) : Postgres :=
  (actions.filter takes).foldl (effect members) p

end Postgres

/-- What a node has observed since its store read. -/
structure Observation where
  db : DbProbes
  ends : NodeId → TaskEnd

/-- Nothing observed yet: no probe has answered, no peer has either. -/
def Observation.blank : Observation := ⟨⟨none, none, none, none, none⟩, fun _ => .late⟩

/-- A takeover proposal, and the answers it was decided on. -/
structure Proposal where
  candidate : NodeId
  expected : Option (NodeId × UInt64)
  stamp : Timestamp
  ends : NodeId → TaskEnd

/-- A takeover that was won from a holder: what the winner had flushed, and what had been
acknowledged. -/
structure Win where
  winner : NodeId
  deposed : NodeId
  flushed : ℕ
  acked : List ℕ
  deriving DecidableEq, Repr

structure World where
  sys : System
  pg : NodeId → Postgres
  reach : NodeId → NodeId → Bool
  obs : NodeId → Observation
  pending : List Proposal
  acked : List ℕ
  wins : List Win

inductive WorldEvent where
  | generate (n : NodeId) (lsn : ℕ)
  | connect (n : NodeId)
  | disconnect (n : NodeId)
  | receive (n : NodeId) (lsn : ℕ)
  | acknowledge (n : NodeId) (lsn : ℕ)
  | crashPostgres (n : NodeId)
  | startPostgres (n : NodeId)
  | setReach (n m : NodeId) (reaches : Bool)
  | command (cmd : ConsensusCommand)
  | read (n : NodeId) (answered : Bool)
  | probeLocal (n : NodeId) (f : ProbeFailures)
  | hear (n m : NodeId) (rank : ℕ) (f : ProbeFailures) (pgpool : Option Bool)
      (ages : NodeMap UInt64)
  | decide (n : NodeId) (now : Instant) (readTook : Duration)
      (takeover : Except String TakeoverOutcome) (random : ℕ) (stamp : Timestamp)
      (released : Bool)
  | commitLate (index : ℕ)
  | act (n : NodeId) (inp : ExecInput) (f : ProbeFailures) (takes : ExecAction → Bool)
  | dieActing (n : NodeId) (inp : ExecInput) (f : ProbeFailures) (takes : ExecAction → Bool)
      (after : ℕ)
  | restartAgent (n : NodeId)

namespace World

section Step

variable (dep : Deployment) (w : World)

def setPg (n : NodeId) (p : Postgres) : World := { w with pg := Function.update w.pg n p }

def setObs (n : NodeId) (o : Observation) : World := { w with obs := Function.update w.obs n o }

/-- An event of the agents and the store, which touches nothing else. -/
def sysStep (event : SystemEvent) : Option World :=
  (w.sys.step dep event).map fun sys => { w with sys := sys }

/-- What `n`'s tick is given: its read, its probes, the answers that came. -/
def tickInput (n : NodeId) (now : Instant) (readTook : Duration)
    (takeover : Except String TakeoverOutcome) (random : ℕ) : TickInput where
  now := now
  readTook := readTook
  readResult := match (w.sys.agents n).phase with
    | .read result => result
    | _ => none
  db := (w.obs n).db
  ends := fun m => (w.obs n).ends m.id
  takeover := takeover
  random := random

/-- The takeover proposals among the writes of a tick. -/
def proposals (n : NodeId) (inp : TickInput) (stamp : Timestamp) : List Proposal :=
  (tickOnce (dep.haLoop n) (w.sys.agents n).tick inp).calls.filterMap fun call =>
    match call with
    | .tryTakeover candidate expected => some ⟨candidate, expected, stamp, (w.obs n).ends⟩
    | .release _ _ => none

/-- What `n`'s executor is given: its own probes, and the outcome of the other calls. -/
def execInput (n : NodeId) (inp : ExecInput) (f : ProbeFailures) : ExecInput :=
  { inp with
    probes := (w.pg n).instanceProbes f
    recovery := ((w.pg n).probe f).isInRecovery }

/-- What `n`'s executor does at the decision it is at. -/
def actions (n : NodeId) (inp : ExecInput) (f : ProbeFailures) : List ExecAction :=
  match (w.sys.agents n).phase with
  | .decided _ d =>
      ((dep.executor n).apply (w.sys.agents n).exec (w.execInput n inp f) d).2
  | _ => []

/-- The proposals an event wins from a holder. -/
def wonBy : WorldEvent → List (Proposal × NodeId)
  | .decide n now readTook takeover random stamp _ =>
      match takeover with
      | .ok (.won _) =>
          (w.proposals dep n (w.tickInput n now readTook takeover random) stamp).filterMap
            fun pr => pr.expected.map fun e => (pr, e.1)
      | _ => []
  | .commitLate index =>
      match w.pending[index]? with
      | some pr =>
          match (applyCommand w.sys.store (.takeover pr.candidate pr.expected pr.stamp)).2 with
          | .takeover (.won _) => (pr.expected.map fun e => (pr, e.1)).toList
          | _ => []
      | none => []
  | _ => []

/-- The world after an event, before the wins of the event are written down. -/
def advance : WorldEvent → Option World
  | .generate n lsn =>
      if (w.pg n).up && !(w.pg n).inRecovery && decide ((w.pg n).flush ≤ lsn) then
        some (w.setPg n { w.pg n with flush := lsn })
      else none
  | .connect n =>
      match (w.pg n).upstream with
      | some u =>
          if (w.pg n).up && (w.pg n).inRecovery && (w.pg u).up && w.reach n u then
            some (w.setPg n { w.pg n with receivingFrom := some u })
          else none
      | none => none
  | .disconnect n => some (w.setPg n { w.pg n with receivingFrom := none })
  | .receive n lsn =>
      match (w.pg n).receivingFrom with
      | some u =>
          if (w.pg n).up && decide ((w.pg n).flush ≤ lsn) && decide (lsn ≤ (w.pg u).flush) &&
              w.reach n u then
            some (w.setPg n { w.pg n with flush := lsn })
          else none
      | none => none
  | .acknowledge n lsn =>
      if (w.pg n).up && !(w.pg n).inRecovery && decide (lsn ≤ (w.pg n).flush) &&
          dep.members.any (fun m => m.id == n) &&
          dep.members.any (fun m => m.id != n && decide (lsn ≤ (w.pg m.id).flush)) then
        some { w with acked := lsn :: w.acked }
      else none
  | .crashPostgres n => some (w.setPg n { w.pg n with up := false, receivingFrom := none })
  | .startPostgres n => some (w.setPg n { w.pg n with up := true })
  | .setReach n m reaches =>
      some { w with
        reach := Function.update w.reach n (Function.update (w.reach n) m reaches) }
  | .command cmd =>
      match cmd with
      | .takeover _ (some _) _ => none
      | _ => w.sysStep dep (.commit cmd)
  | .read n answered =>
      (w.sysStep dep (.read n answered)).map fun w' => w'.setObs n Observation.blank
  | .probeLocal n f => some (w.setObs n { w.obs n with db := (w.pg n).probe f })
  | .hear n m rank f pgpool ages =>
      if w.reach n m then
        let status := getStatus ((w.pg m).statusProbes f pgpool) ages
        some (w.setObs n { w.obs n with
          ends := Function.update (w.obs n).ends m (.answered rank (some status)) })
      else none
  | .decide n now readTook takeover random stamp released =>
      let inp := w.tickInput n now readTook takeover random
      (w.sysStep dep (.decide n inp stamp released)).map fun w' =>
        match takeover with
        | .error _ => { w' with pending := w.proposals dep n inp stamp ++ w.pending }
        | .ok _ => w'
  | .commitLate index =>
      match w.pending[index]? with
      | some pr => w.sysStep dep (.commit (.takeover pr.candidate pr.expected pr.stamp))
      | none => none
  | .act n inp f takes =>
      (w.sysStep dep (.apply n (w.execInput n inp f))).map fun w' =>
        w'.setPg n ((w.pg n).effects dep.members takes (w.actions dep n inp f))
  | .dieActing n inp f takes after =>
      (w.sysStep dep (.dieApplying n (w.execInput n inp f) after)).map fun w' =>
        w'.setPg n ((w.pg n).effects dep.members takes ((w.actions dep n inp f).take after))
  | .restartAgent n => w.sysStep dep (.restart n)

/-- One event, with its wins. -/
def step (event : WorldEvent) : Option World :=
  (w.advance dep event).map fun w' =>
    { w' with
      wins := (w.wonBy dep event).map (fun x =>
        ⟨x.1.candidate, x.2, (w.pg x.1.candidate).flush, w.acked⟩) ++ w'.wins }

end Step

/-- Any databases and any links, nothing acknowledged, nothing committed, every agent just
started. -/
structure Initial (w : World) : Prop where
  sys : w.sys = System.initial
  obs : w.obs = fun _ => Observation.blank
  pending : w.pending = []
  acked : w.acked = []
  wins : w.wins = []

/-- No takeover lost an acknowledged write: every winner had flushed everything that had
been acknowledged. -/
def Lossless (w : World) : Prop := ∀ win ∈ w.wins, ∀ lsn ∈ win.acked, lsn ≤ win.flushed

/-- Every takeover this event wins from a holder was decided with the position of every
other member known, and none of them has flushed anything since it answered. -/
def Heard (dep : Deployment) (w : World) (event : WorldEvent) : Prop :=
  ∀ x ∈ w.wonBy dep event, ∀ m ∈ dep.members, m.id ≠ x.2 → m.id ≠ x.1.candidate →
    (x.1.ends m.id).answer.bind WalPosition.fromStatus =
      some ⟨worldTimeline, (w.pg m.id).flush⟩

instance (dep : Deployment) (w : World) (event : WorldEvent) : Decidable (w.Heard dep event) :=
  inferInstanceAs (Decidable (∀ x ∈ w.wonBy dep event, _))

/-- A step at which every other member was heard. -/
def heardStep (dep : Deployment) (w : World) (event : WorldEvent) : Option World :=
  if w.Heard dep event then w.step dep event else none

end World

end PgAgent
