import PgAgent.Agent.Status
import PgAgent.Consensus.Command
import Mathlib.Data.List.MinMax

/-!
# One tick of the HA loop

`ha.rs`: every `loop_wait` the loop reads the lease, observes the local PostgreSQL
and every peer, and comes to exactly one decision.  `tickOnce` is that function,
with everything it learns from outside passed in as a `TickInput` and everything it
does passed out as a `TickOutput`: the next loop state, the decision, and the calls
it made on the consensus store.

The loop state is `TickState`.  Its fields are memories --- clocks, the last holder,
the last position sample --- and each is written on some of the paths through a tick
and left alone on the others.  Which paths those are is the subject of `Ha.Spec`.

Reasons are data, not text: a reason carries the values the source prints, and the
printed sentence, which is only logged, is left out.
-/

namespace PgAgent

open Rust

/-! ## Decisions -/

/-- The timing knobs of `[raft]`. -/
structure HaTiming where
  loopWait : Duration
  retryTimeout : Duration
  leaderTtl : Duration
  deriving DecidableEq, Repr

inductive DemoteReason where
  | storeUnknown (unknownFor retryTimeout : Duration)
  | promotionDidNotTakeEffect (heldFor : Duration)
  | localStateUnknown
  deriving DecidableEq, Repr

inductive StandDownReason where
  | inBackoff (remaining : Duration)
  | localStateUnknown
  | witnessSawHolder (witness holder : NodeId) (ageMs ttlMs : UInt64)
  | streamingWithVacantLease
  | stillReceiving (mover : NodeId)
  | positionUnknown
  | notFrozenAndStable (settling vanished : List NodeId)
  | newerTimeline (best : NodeId) (bestPos myPos : WalPosition)
  | moreFlushedWal (best : NodeId) (lag : ℕ) (bestPos myPos : WalPosition)
  | tiebreak (best : NodeId)
  | proposalFailed (error : String)
  | vacantButPrimary (only : NodeId)
  | multiplePrimaries (many : List NodeId)
  deriving DecidableEq, Repr

/-- One tick's outcome. -/
inductive HaDecision where
  | paused
  | storeUnknown (unknownFor : Duration)
  | wouldDemote (reason : DemoteReason)
  | retainedLease (term : UInt64)
  | awaitingPromotion (term : UInt64) (waiting : Duration)
  | following (holder : NodeId)
  | wouldFollowNewHolder (prev holder : NodeId)
  | holderUnhealthy (holder : NodeId) (unhealthyFor : Duration)
  | detachingFromDeposed (holder : NodeId)
  | stoodDown (reason : StandDownReason)
  | tookOver (term : UInt64) (alreadyPrimary : Bool)
  | lostTakeover (currentHolder : Option NodeId)
  deriving DecidableEq, Repr

/-! ## Observations -/

/-- What the loop knows about the local PostgreSQL this tick. -/
structure LocalView where
  isPrimary : Option Bool
  pos : Option WalPosition
  receiving : Bool
  deriving DecidableEq, Repr

/-- What the loop knows about one peer this tick. -/
structure PeerView where
  node : NodeConfig
  runningAsPrimary : Bool
  pos : Option WalPosition
  receiving : Bool
  reachable : Bool
  seenAges : NodeMap UInt64

/-- `observe_local`. -/
def observeLocal (db : DbProbes) : LocalView :=
  let isPrimary := db.isInRecovery.map (!·)
  let pos :=
    if isPrimary.isSome then
      match db.timelineId.filter (· > 0), db.flushLsn.filter (· > 0) with
      | some timeline, some lsn => some ⟨timeline, lsn⟩
      | _, _ => none
    else none
  let receiving :=
    if isPrimary = some false then
      match db.replicationLag with
      | some lag => lag.state != ""
      | none => false
    else false
  ⟨isPrimary, pos, receiving⟩

/-- The view of one peer from its status answer. -/
def PeerView.ofStatus (v : PeerStatusView) : PeerView :=
  match v.status with
  | some s =>
      { node := v.node
        runningAsPrimary := s.serving
        pos := WalPosition.fromStatus s
        receiving := s.isInRecovery && s.replicationState != ""
        reachable := true
        seenAges := s.peerPrimarySeenAgeMs }
  | none =>
      { node := v.node
        runningAsPrimary := false
        pos := none
        receiving := false
        reachable := false
        seenAges := ∅ }

/-- `observe_peers`. -/
def observePeers (pool : NodePool) (ends : NodeConfig → TaskEnd) : List PeerView :=
  (collectStatuses pool.others ends).map PeerView.ofStatus

/-! ## The loop's memory -/

/-- `TickState`, without the discriminant that only the log line compares. -/
structure TickState where
  lastHolder : Option NodeId
  holderUnhealthySince : Option (NodeId × Instant)
  storeUnknownSince : Option Instant
  backoffUntil : Option Instant
  heldTerm : Option UInt64
  heldSince : Option Instant
  settledPos : NodeMap WalPosition

/-- The state `HaLoop::new` starts from. -/
def TickState.new : TickState := ⟨none, none, none, none, none, none, ∅⟩

/-- The parts of `HaLoop` a tick reads: the pool and the timing. -/
structure HaLoop where
  pool : NodePool
  timing : HaTiming
  deriving DecidableEq, Repr

def HaLoop.localId (ha : HaLoop) : NodeId := ha.pool.localNodeId

/-- A write the loop sends to the consensus store. -/
inductive StoreCall where
  | tryTakeover (candidate : NodeId) (expected : Option (NodeId × UInt64))
  | release (holder : NodeId) (term : UInt64)
  deriving DecidableEq, Repr

/-- Everything a tick learns from outside: the clock reading it captures first, how
long the store read took and what it gave (`none` for an error), the local probes,
the ends of the status tasks, the store's answer to a takeover if one is proposed,
and the random draw of a backoff. -/
structure TickInput where
  now : Instant
  readTook : Duration
  readResult : Option ClusterState
  db : DbProbes
  ends : NodeConfig → TaskEnd
  takeover : Except String TakeoverOutcome
  random : ℕ

/-- The store read, bounded by the loop's own retry budget. -/
def TickInput.read (inp : TickInput) (timing : HaTiming) : Option ClusterState :=
  if inp.readTook ≤ timing.retryTimeout then inp.readResult else none

/-- What a tick leaves behind.  `sample` is the position map it recorded, when it
got as far as recording one. -/
structure TickOutput where
  state : TickState
  decision : HaDecision
  calls : List StoreCall
  sample : Option (NodeMap WalPosition)

/-! ## The candidacy ladder -/

/-- `arm_backoff`: `loop_wait` and a random part of another one. -/
def armBackoff (ha : HaLoop) (ts : TickState) (now : Instant) (random : ℕ) : TickState :=
  let base := ha.timing.loopWait
  let jitterMs := if Duration.asMillis base = 0 then 0
      else random % (Duration.asMillisU64 base).toNat
  { ts with backoffUntil := some (now + base + jitterMs * 1000000) }

/-- A stand-down that does not touch the loop state. -/
def standDown (ts : TickState) (reason : StandDownReason) : TickOutput :=
  ⟨ts, .stoodDown reason, [], none⟩

/-- The end of the backoff, while it lasts. -/
def inBackoff (ts : TickState) (now : Instant) : Option Instant :=
  ts.backoffUntil.filter (now < ·)

/-- The ttl the witness gate compares ages with, in milliseconds. -/
def HaTiming.ttlMs (t : HaTiming) : UInt64 := Duration.asMillisU64 t.leaderTtl

/-- The age of a peer's own sighting of `holder`, if it is within the ttl. -/
def PeerView.freshSighting (p : PeerView) (timing : HaTiming) (holder : NodeId) :
    Option UInt64 :=
  (p.seenAges.lookup holder).filter (· ≤ timing.ttlMs)

/-- The second-opinion gate: the first reachable peer, other than the holder, that
saw the holder serving within the ttl. -/
def findWitness (timing : HaTiming) (holder : NodeId) (peers : List PeerView) :
    Option (NodeId × UInt64) :=
  (peers.filter fun p => p.reachable && p.node.id != holder).findSome? fun p =>
    (p.freshSighting timing holder).map fun age => (p.node.id, age)

/-- The gate as the ladder applies it: a vacant lease has no incumbent to defend. -/
def witnessGate (timing : HaTiming) (expected : Option (NodeId × UInt64))
    (peers : List PeerView) : Option (NodeId × NodeId × UInt64) :=
  match expected with
  | some (holder, _) => (findWitness timing holder peers).map fun w => (holder, w)
  | none => none

/-- The first rival that is still absorbing WAL. -/
def findMover (peers : List PeerView) : Option PeerView :=
  peers.find? fun p => !p.runningAsPrimary && p.pos.isSome && p.receiving

/-- The positions of this tick, the local one included. -/
def currentPositions (localId : NodeId) (myPos : WalPosition) (peers : List PeerView) :
    NodeMap WalPosition :=
  peers.foldl (fun current p => match p.pos with
    | some pos => AList.insert p.node.id pos current
    | none => current) (AList.insert localId myPos ∅)

/-- The sampled nodes whose position does not match the remembered sample. -/
def unsettled (settled current : NodeMap WalPosition) : List NodeId :=
  (current.entries.filter fun e => settled.lookup e.1 != some e.2).map fun e => e.1

/-- The rivals of the remembered sample that are missing from this one. -/
def vanished (localId : NodeId) (settled current : NodeMap WalPosition) : List NodeId :=
  settled.keys.filter fun id => id != localId && (current.lookup id).isNone

/-- The key `(pos, Reverse(id))` of the most-advanced check. -/
structure CandidateRank where
  pos : WalPosition
  id : NodeId
  deriving DecidableEq, Repr

namespace CandidateRank

/-- The lexicographic key behind the order of the tuple. -/
def key (r : CandidateRank) : WalPosition ×ₗ NodeIdᵒᵈ := toLex (r.pos, OrderDual.toDual r.id)

theorem key_injective : Function.Injective key := by
  rintro ⟨p, i⟩ ⟨p', i'⟩ h
  have h' : (p, OrderDual.toDual i) = (p', OrderDual.toDual i') := toLex.injective h
  obtain ⟨rfl, hid⟩ := Prod.mk.inj h'
  rw [OrderDual.toDual.injective hid]

instance : LinearOrder CandidateRank := LinearOrder.lift' key key_injective

theorem le_iff {r s : CandidateRank} :
    r ≤ s ↔ r.pos < s.pos ∨ (r.pos = s.pos ∧ s.id ≤ r.id) :=
  Prod.Lex.toLex_le_toLex

end CandidateRank

/-- The most advanced other node, the smaller id first among equals. -/
def bestOther (peers : List PeerView) : Option (NodeId × WalPosition) :=
  (peers.filterMap fun p => p.pos.map fun pos => (p.node.id, pos)).argmax
    fun c => CandidateRank.mk c.2 c.1

/-- The most-advanced check: who outranks the local node, and why. -/
def outranked (localId : NodeId) (myPos : WalPosition) (peers : List PeerView) :
    Option StandDownReason :=
  match bestOther peers with
  | none => none
  | some (bestId, bestPos) =>
      if bestPos > myPos then
        match myPos.lagBehind bestPos with
        | none => some (.newerTimeline bestId bestPos myPos)
        | some lag => some (.moreFlushedWal bestId lag bestPos myPos)
      else if bestPos = myPos ∧ bestId < localId then some (.tiebreak bestId)
      else none

/-- The proposal and what its outcome decides. -/
def propose (ha : HaLoop) (ts : TickState) (expected : Option (NodeId × UInt64))
    (view : LocalView) (inp : TickInput) (sample : NodeMap WalPosition) : TickOutput :=
  let calls := [StoreCall.tryTakeover ha.localId expected]
  match inp.takeover with
  | .ok (.won lease) =>
      ⟨ts, .tookOver lease.term (view.isPrimary == some true), calls, some sample⟩
  | .ok (.lost current) =>
      ⟨armBackoff ha ts inp.now inp.random, .lostTakeover (current.map (·.holder)), calls,
        some sample⟩
  | .error e => ⟨ts, .stoodDown (.proposalFailed e), calls, some sample⟩

/-- The ladder from the stability gate on, with a known local position. -/
def compareAndPropose (ha : HaLoop) (ts : TickState) (expected : Option (NodeId × UInt64))
    (view : LocalView) (myPos : WalPosition) (peers : List PeerView) (inp : TickInput) :
    TickOutput :=
  let current := currentPositions ha.localId myPos peers
  let settling := unsettled ts.settledPos current
  let gone := vanished ha.localId ts.settledPos current
  let ts := { ts with settledPos := current }
  if !settling.isEmpty || !gone.isEmpty then
    ⟨ts, .stoodDown (.notFrozenAndStable settling gone), [], some current⟩
  else
    match outranked ha.localId myPos peers with
    | some reason =>
        ⟨armBackoff ha ts inp.now inp.random, .stoodDown reason, [], some current⟩
    | none => propose ha ts expected view inp current

/-- `consider_candidacy`: the gates in the order the source asks them. -/
def considerCandidacy (ha : HaLoop) (ts : TickState) (expected : Option (NodeId × UInt64))
    (view : LocalView) (peers : List PeerView) (inp : TickInput) : TickOutput :=
  match inBackoff ts inp.now with
  | some until' => standDown ts (.inBackoff (Instant.durationSince until' inp.now))
  | none =>
  if view.isPrimary.isNone then standDown ts .localStateUnknown else
  match witnessGate ha.timing expected peers with
  | some (holder, witness, age) =>
      standDown ts (.witnessSawHolder witness holder age ha.timing.ttlMs)
  | none =>
  if view.isPrimary = some false ∧ view.receiving = true then
    match expected with
    | some (holder, _) => ⟨ts, .detachingFromDeposed holder, [], none⟩
    | none => standDown ts .streamingWithVacantLease
  else
  match findMover peers with
  | some mover => standDown ts (.stillReceiving mover.node.id)
  | none =>
  match view.pos with
  | none => standDown ts .positionUnknown
  | some myPos => compareAndPropose ha ts expected view myPos peers inp

/-! ## The tick -/

/-- How long a fresh holder may sit in recovery; `leader_ttl` by design. -/
def promotionGrace (ha : HaLoop) : Duration := ha.timing.leaderTtl

/-- The lease is ours. -/
def holdingLease (ha : HaLoop) (ts : TickState) (lease : Lease) (view : LocalView)
    (inp : TickInput) : TickOutput :=
  let ts := { ts with holderUnhealthySince := none, settledPos := ∅ }
  let ts :=
    if ts.heldTerm ≠ some lease.term then
      { ts with heldTerm := some lease.term, heldSince := some inp.now }
    else ts
  let heldFor := Instant.durationSince inp.now (ts.heldSince.getD inp.now)
  match view.isPrimary with
  | some true => ⟨ts, .retainedLease lease.term, [], none⟩
  | some false =>
      if heldFor < promotionGrace ha then
        ⟨ts, .awaitingPromotion lease.term heldFor, [], none⟩
      else
        ⟨armBackoff ha ts inp.now inp.random,
          .wouldDemote (.promotionDidNotTakeEffect heldFor),
          [.release ha.localId lease.term], none⟩
  | none => ⟨ts, .wouldDemote .localStateUnknown, [], none⟩

/-- The holder answered this tick and says it is running as a primary. -/
def holderHealthy (peers : List PeerView) (holder : NodeId) : Bool :=
  match peers.find? (fun p => p.node.id == holder) with
  | some p => p.runningAsPrimary
  | none => false

/-- Since when this holder has been watched unhealthy; now, if it is new. -/
def unhealthySince (ts : TickState) (holder : NodeId) (now : Instant) : Instant :=
  match ts.holderUnhealthySince with
  | some (h, t) => if h = holder then t else now
  | none => now

/-- The lease belongs to another node. -/
def watchingHolder (ha : HaLoop) (ts : TickState) (lease : Lease) (view : LocalView)
    (peers : List PeerView) (inp : TickInput) : TickOutput :=
  if holderHealthy peers lease.holder then
    let ts := { ts with holderUnhealthySince := none, settledPos := ∅ }
    match ts.lastHolder with
    | some p =>
        if p ≠ lease.holder then ⟨ts, .wouldFollowNewHolder p lease.holder, [], none⟩
        else ⟨ts, .following lease.holder, [], none⟩
    | none => ⟨ts, .following lease.holder, [], none⟩
  else
    let since := unhealthySince ts lease.holder inp.now
    let ts := { ts with holderUnhealthySince := some (lease.holder, since) }
    let unhealthyFor := Instant.durationSince inp.now since
    if unhealthyFor ≥ ha.timing.leaderTtl then
      considerCandidacy ha ts (some (lease.holder, lease.term)) view peers inp
    else ⟨ts, .holderUnhealthy lease.holder unhealthyFor, [], none⟩

/-- Every node observed running as a primary, the local one last. -/
def observedPrimaries (localId : NodeId) (view : LocalView) (peers : List PeerView) :
    List NodeId :=
  (peers.filter (·.runningAsPrimary)).map (·.node.id) ++
    (if view.isPrimary = some true then [localId] else [])

/-- Nobody holds the lease. -/
def vacantLease (ha : HaLoop) (ts : TickState) (view : LocalView) (peers : List PeerView)
    (inp : TickInput) : TickOutput :=
  match observedPrimaries ha.localId view peers with
  | [] => considerCandidacy ha ts none view peers inp
  | [only] =>
      if only ≠ ha.localId then standDown ts (.vacantButPrimary only)
      else considerCandidacy ha ts none view peers inp
  | many => standDown ts (.multiplePrimaries many)

/-- The decision on a store read that succeeded and is not paused. -/
def decideOn (ha : HaLoop) (ts : TickState) (state : ClusterState) (inp : TickInput) :
    TickOutput :=
  let view := observeLocal inp.db
  let peers := observePeers ha.pool inp.ends
  match state.lease with
  | some lease =>
      if lease.holder = ha.localId then holdingLease ha ts lease view inp
      else watchingHolder ha ts lease view peers inp
  | none => vacantLease ha ts view peers inp

/-- The holder remembered for the next tick's comparisons. -/
def committedHolder (localId : NodeId) (state : ClusterState) : HaDecision → Option NodeId
  | .tookOver _ _ => some localId
  | _ => state.lease.map (·.holder)

/-- The store read failed or ran out of budget. -/
def onStoreUnknown (ha : HaLoop) (ts : TickState) (now : Instant) : TickOutput :=
  let since := ts.storeUnknownSince.getD now
  let unknownFor := Instant.durationSince now since
  let ts := { ts with storeUnknownSince := some since }
  if ts.lastHolder = some ha.localId ∧ unknownFor > ha.timing.retryTimeout then
    ⟨ts, .wouldDemote (.storeUnknown unknownFor ha.timing.retryTimeout), [], none⟩
  else ⟨ts, .storeUnknown unknownFor, [], none⟩

/-- The last write of an unpaused tick. -/
def rememberHolder (localId : NodeId) (state : ClusterState) (out : TickOutput) : TickOutput :=
  { out with
    state := { out.state with lastHolder := committedHolder localId state out.decision } }

/-- `tick_once`. -/
def tickOnce (ha : HaLoop) (ts : TickState) (inp : TickInput) : TickOutput :=
  match inp.read ha.timing with
  | none => onStoreUnknown ha ts inp.now
  | some state =>
      let ts := { ts with storeUnknownSince := none }
      if state.paused.isSome then ⟨ts, .paused, [], none⟩
      else rememberHolder ha.localId state (decideOn ha ts state inp)

end PgAgent
