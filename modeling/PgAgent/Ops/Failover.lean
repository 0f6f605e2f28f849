import PgAgent.Ops.Maintenance
import PgAgent.Ops.Ownership

/-!
# The failover hook

`failover` of `localserver.rs`, which pgpool runs on a node when a backend has gone down.
The report of a primary is advice.  The report of a standby is work: the primary's agent
drops the standby's slot, or leaves it to the orchestration that owns it, or puts the drop
in the maintenance queue, and then writes a replay marker.  A later delivery that finds the
marker is answered `ok = true` at once.

The marker is named by the node ids of the report.  It does not tell a repeated delivery of
one outage from the report of the next one, for as long as it is kept.

* `settled_of_standbyDown` --- a delivery that does its work leaves no slot behind;
* `neverSkipped_iff` --- over a run of deliveries, when none leaves one behind.
-/

namespace PgAgent

/-! ## Replay markers -/

/-- One marker file. -/
structure MarkerFile where
  path : String
  op : String
  key : String
  completedAt : UtcNanos
  deriving DecidableEq, Repr

/-- `sanitize_op`. -/
def sanitizeOp (op : String) : String :=
  let out := op.trimAscii.toString.toList.filterMap fun c =>
    let lower := c.toLower
    if lower.isAlphanum || lower == '_' || lower == '-' then some lower
    else if c == ' ' then some '-'
    else none
  if out.isEmpty then "op" else String.ofList out

/-- `marker_path`; the digest is the hexadecimal SHA-256 of a text. -/
def markerPath (digest : String → String) (op key : String) : String :=
  sanitizeOp op ++ "_" ++ digest (op ++ "|" ++ key) ++ ".json"

/-- The marker is there. -/
def hasMarker (digest : String → String) (markers : List MarkerFile) (op key : String) : Bool :=
  markers.any fun m => m.path == markerPath digest op key

/-- `mark_done`: the marker's file, new or replaced. -/
def markDone (digest : String → String) (markers : List MarkerFile) (op key : String)
    (now : UtcNanos) : List MarkerFile :=
  markers.filter (fun m => m.path != markerPath digest op key) ++
    [⟨markerPath digest op key, op, key, now⟩]

/-- `DEFAULT_RETENTION` of the markers, a day, in nanoseconds. -/
def markerRetention : ℤ := 24 * 3600 * 10 ^ 9

/-- `sweep`: the markers past their retention go, as far as they can be removed. -/
def sweepMarkers (markers : List MarkerFile) (now : UtcNanos) (removes : String → Bool) :
    List MarkerFile :=
  markers.filter fun m => !(decide (now - m.completedAt > markerRetention) && removes m.path)

/-! ## The handler -/

structure FailoverRequest where
  detached : Option NodeRef
  newMain : Option NodeRef
  oldPrimary : Option NodeRef
  deriving DecidableEq, Repr

/-- A report whose three nodes are all named. -/
structure FailoverReport where
  detached : NodeRef
  newMain : NodeRef
  oldPrimary : NodeRef
  deriving DecidableEq, Repr

/-- The request that carries the report. -/
def FailoverReport.request (r : FailoverReport) : FailoverRequest :=
  ⟨some r.detached, some r.newMain, some r.oldPrimary⟩

def FailoverReport.replayKey (r : FailoverReport) : String :=
  "detached=" ++ toString r.detached.id ++ ",new_main=" ++ toString r.newMain.id ++
    ",old_primary=" ++ toString r.oldPrimary.id

/-- The part of the agent's world the hook reads and writes: the journal, the maintenance queue
and its sequence number, the markers, and the slots of the local PostgreSQL. -/
structure HookState where
  journal : Journal
  queue : List MaintenanceIntent
  queueSeq : ℕ
  markers : List MarkerFile
  slots : List String

/-- What a delivery meets: whether the marker could be looked up, the query for an owner, the
detached node's status, the outcome of the drop, of the append to the queue and of the marker's
write, with the clocks they read. -/
structure FailoverProbes where
  lookup : Except String Unit
  consult : SlotConsult
  client : Except String Unit
  status : Except String NodeStatus
  timedOut : Bool
  drop : Except String Unit
  appendedAt : UtcNanos
  appended : Except String Unit
  markedAt : UtcNanos
  marked : Except String Unit

/-- `validate_cluster_preconditions`, for a standby that is down: refused if the standby is seen
streaming; a status that cannot be had refuses nothing. -/
def preconditionRefusal (detached : NodeConfig) (p : FailoverProbes) : Option String :=
  if p.timedOut then none
  else match p.client, p.status with
    | .ok _, .ok status =>
        if status.isPostgresRunning && status.isInRecovery &&
            status.replicationState == "streaming" then
          some ("failover: refusing to drop slot " ++ detached.slotName ++
            ": announced-failed standby node " ++ toString detached.id ++ " (" ++
            detached.hostname ++ ") is reachable, running, and streaming — the failure report " ++
            "is wrong, and dropping its slot would break healthy replication. No action taken.")
        else none
    | _, _ => none

namespace HookState

/-- `queue_drop_slot_cleanup`: the message, and the queue. -/
def queueDropSlotCleanup (s : HookState) (slotName targetHostname cause dropErr : String)
    (p : FailoverProbes) : HookState × String :=
  let intent := MaintenanceIntent.append (.dropSlotCleanup slotName targetHostname cause dropErr)
    p.appendedAt s.queueSeq
  match p.appended with
  | .ok _ =>
      ({ s with
          queue := s.queue.filter (fun i => i.id != intent.id) ++ [intent]
          queueSeq := s.queueSeq + 1 },
        "drop slot " ++ slotName ++ " on " ++ targetHostname ++
          " failed, queued maintenance cleanup")
  | .error _ =>
      ({ s with queueSeq := s.queueSeq + 1 },
        "drop slot " ++ slotName ++ " on " ++ targetHostname ++
          " failed; maintenance enqueue also failed")

/-- `write_replay_marker_then_ok`. -/
def writeReplayMarkerThenOk (digest : String → String) (s : HookState) (op key message : String)
    (p : FailoverProbes) : HookState × OpReply :=
  match p.marked with
  | .error e => (s, OpReply.internal (op ++ ": idempotency marker write: " ++ e))
  | .ok _ =>
      ({ s with markers := PgAgent.markDone digest s.markers op key p.markedAt },
        OpReply.accepted message)

/-- The drop of the slot, and the message about it. -/
def dropSlot (s : HookState) (slotName targetHostname : String) (p : FailoverProbes) :
    HookState × String :=
  match p.drop with
  | .ok _ =>
      ({ s with slots := s.slots.filter fun slot => slot != slotName },
        "standby failover: slot " ++ slotName ++ " dropped")
  | .error e =>
      s.queueDropSlotCleanup slotName targetHostname "standby_down_local_drop_error" e p

/-- The standby-down branch, on the nodes of the report. -/
def standbyDown (digest : String → String) (s : HookState) (key : String)
    (detached oldPrimary : NodeConfig) (p : FailoverProbes) : HookState × OpReply :=
  let slotName := detached.slotName
  let (owner, journal) :=
    ownerOfSlotObserving s.journal ("node" ++ toString detached.id) crossOpGrace p.consult
  let s := { s with journal := journal }
  match owner with
  | some owner =>
      s.writeReplayMarkerThenOk digest "failover" key
        ("standby failover: slot " ++ slotName ++ " retained — in-flight " ++
          owner.payload.opName ++ " (id=" ++ owner.id ++ ", phase=" ++ owner.phase ++
          ") owns node " ++ toString detached.id) p
  | none =>
      match preconditionRefusal detached p with
      | some message => (s, OpReply.refused message)
      | none =>
          let (s, message) := s.dropSlot slotName oldPrimary.hostname p
          s.writeReplayMarkerThenOk digest "failover" key message p

/-- The node of a report. -/
def resolveFor (pool : NodePool) (what : String) (ref : NodeRef) : Except OpReply NodeConfig :=
  (pool.resolveNode ref).mapError fun e =>
    OpReply.invalidArgument ("failover: " ++ what ++ ": " ++ e.display)

/-- `failover`, on a report that names its three nodes. -/
def failover (digest : String → String) (pool : NodePool) (s : HookState) (r : FailoverReport)
    (p : FailoverProbes) : HookState × OpReply :=
  if r.newMain.id = -1 then (s, OpReply.refused "no standby candidates available")
  else if r.detached.id = r.oldPrimary.id then
    (s, OpReply.accepted ("failover: advisory — lease-driven roles; pgpool announced " ++
      r.detached.hostname ++ " down (pick " ++ r.newMain.hostname ++
      "), promotion is the HA loop's decision"))
  else match p.lookup with
    | .error e => (s, OpReply.internal ("failover: idempotency marker check: " ++ e))
    | .ok _ =>
        if hasMarker digest s.markers "failover" r.replayKey then
          (s, OpReply.accepted "failover: already processed; skipping duplicate")
        else match resolveFor pool "detached" r.detached, resolveFor pool "new_main" r.newMain,
            resolveFor pool "old_primary" r.oldPrimary with
          | .ok detached, .ok _, .ok oldPrimary =>
              s.standbyDown digest r.replayKey detached oldPrimary p
          | .error reply, _, _ => (s, reply)
          | .ok _, .error reply, _ => (s, reply)
          | .ok _, .ok _, .error reply => (s, reply)

/-- `failover`. -/
def failoverHook (digest : String → String) (pool : NodePool) (s : HookState)
    (req : FailoverRequest) (p : FailoverProbes) : HookState × OpReply :=
  match req.detached, req.newMain, req.oldPrimary with
  | none, _, _ => (s, OpReply.invalidArgument "failover: detached is required")
  | some _, none, _ => (s, OpReply.invalidArgument "failover: new_main is required")
  | some _, some _, none => (s, OpReply.invalidArgument "failover: old_primary is required")
  | some detached, some newMain, some oldPrimary =>
      s.failover digest pool ⟨detached, newMain, oldPrimary⟩ p

/-! ## What a delivery leaves -/

/-- An orchestration of the journal owns the slot. -/
def SlotOwned (j : Journal) (slotName : String) (now : UtcNanos) : Prop :=
  ∃ nodeId, nodeIdFromSlot slotName = some nodeId ∧ ∃ o ∈ j.ops, o.status ≠ .abandoned ∧
    o.owns nodeId crossOpGrace now = true

/-- The drop of the slot, on the local node, is in the queue. -/
def SlotQueued (pool : NodePool) (queue : List MaintenanceIntent) (slotName : String) : Prop :=
  ∃ i ∈ queue, i.status = .pending ∧ i.payload.slotName = slotName ∧
    ∃ n ∈ pool.members, pool.isLocal n = true ∧ i.payload.targetHostname = n.hostname

/-- The slot is seen to: it is gone, its drop is queued, or an orchestration owns it. -/
def Settled (pool : NodePool) (s : HookState) (slotName : String) (now : UtcNanos) : Prop :=
  slotName ∉ s.slots ∨ SlotQueued pool s.queue slotName ∨ SlotOwned s.journal slotName now

/-- The report is to the primary's agent and about a standby, and the queue takes an append. -/
structure StandbyReport (pool : NodePool) (r : FailoverReport) (p : FailoverProbes)
    (detached : NodeConfig) : Prop where
  candidate : r.newMain.id ≠ -1
  standby : r.detached.id ≠ r.oldPrimary.id
  detached : pool.resolveNode r.detached = .ok detached
  primary : ∃ n, pool.resolveNode r.oldPrimary = .ok n ∧ pool.isLocal n = true
  appended : p.appended = .ok ()

/-- The delivery, if it is answered `ok = true`, leaves the failed node's slot seen to. -/
def LeavesSettled (digest : String → String) (pool : NodePool) (s : HookState)
    (r : FailoverReport) (p : FailoverProbes) : Prop :=
  ∀ detached, StandbyReport pool r p detached →
    (s.failoverHook digest pool r.request p).2.isAccepted = true →
      Settled pool (s.failoverHook digest pool r.request p).1 detached.slotName p.consult.now

/-- The delivery, if it finds a marker, finds the slot seen to. -/
def FindsSettled (digest : String → String) (pool : NodePool) (s : HookState)
    (r : FailoverReport) (p : FailoverProbes) : Prop :=
  ∀ detached, StandbyReport pool r p detached → p.lookup = .ok () →
    hasMarker digest s.markers "failover" r.replayKey = true →
      Settled pool s detached.slotName p.consult.now

variable {digest : String → String} {pool : NodePool} {s : HookState} {r : FailoverReport}
  {p : FailoverProbes} {detached oldPrimary : NodeConfig}

theorem mem_of_resolveNode {ref : NodeRef} {n : NodeConfig} (h : pool.resolveNode ref = .ok n) :
    n ∈ pool.members := by
  have hname : ∀ hostname m, pool.nodeByHostname hostname = .ok m → m ∈ pool.members := by
    intro hostname m hm
    unfold NodePool.nodeByHostname at hm
    split at hm
    · rename_i found hfound
      obtain rfl := Except.ok.inj hm
      exact List.mem_of_find?_eq_some hfound
    · cases hm
  unfold NodePool.resolveNode at h
  dsimp only at h
  split at h
  · cases hfound : pool.nodeByHostname ref.hostname with
    | ok m =>
      rw [hfound] at h
      obtain rfl := Except.ok.inj h
      exact hname _ _ hfound
    | error e =>
      rw [hfound] at h
      cases h
  · split at h
    · cases hfound : pool.nodeById ref.id with
      | ok m =>
        rw [hfound] at h
        obtain rfl := Except.ok.inj h
        exact NodePool.mem_of_nodeById hfound
      | error e =>
        rw [hfound] at h
        cases h
    · cases h

/-- The marker's write changes nothing but the markers. -/
theorem settled_of_marker {key message slotName : String} {now : UtcNanos}
    (h : Settled pool s slotName now) :
    Settled pool (s.writeReplayMarkerThenOk digest "failover" key message p).1 slotName now := by
  unfold writeReplayMarkerThenOk
  cases p.marked with
  | error e => exact h
  | ok u => exact h

/-- A slot whose consult reports an owner is owned. -/
theorem slotOwned_of_owner {j : Journal} {slotName : String} {c : SlotConsult} {o : InflightOp}
    (h : (ownerOfSlotObserving j slotName crossOpGrace c).1 = some o) :
    (ownerOfSlotObserving j slotName crossOpGrace c).2 = j ∧ SlotOwned j slotName c.now := by
  obtain ⟨hsame, nodeId, hnode, howner⟩ := mem_of_ownerOfSlotObserving h
  obtain ⟨hmem, hlive, howns⟩ := Journal.mem_owners.mp howner
  exact ⟨hsame, nodeId, hnode, o, hmem, hlive, howns⟩

/-- A drop leaves the slot gone or its drop queued. -/
theorem settled_of_dropSlot {slotName : String} {now : UtcNanos} (happended : p.appended = .ok ())
    (hmem : oldPrimary ∈ pool.members) (hlocal : pool.isLocal oldPrimary = true) :
    Settled pool (s.dropSlot slotName oldPrimary.hostname p).1 slotName now := by
  unfold dropSlot
  cases p.drop with
  | ok u =>
    left
    simp
  | error e =>
    right
    left
    unfold queueDropSlotCleanup
    rw [happended]
    exact ⟨_, List.mem_append_right _ (List.mem_singleton_self _), rfl, rfl, oldPrimary, hmem,
      hlocal, rfl⟩

/-- A delivery that does its work leaves the slot seen to. -/
theorem settled_of_standbyDown {key : String} (happended : p.appended = .ok ())
    (hmem : oldPrimary ∈ pool.members) (hlocal : pool.isLocal oldPrimary = true)
    (hok : (s.standbyDown digest key detached oldPrimary p).2.isAccepted = true) :
    Settled pool (s.standbyDown digest key detached oldPrimary p).1 detached.slotName
      p.consult.now := by
  unfold standbyDown at hok ⊢
  dsimp only at hok ⊢
  cases howner : (ownerOfSlotObserving s.journal ("node" ++ toString detached.id) crossOpGrace
      p.consult).1 with
  | some owner =>
    rw [howner] at hok
    obtain ⟨hjournal, howned⟩ := slotOwned_of_owner howner
    refine settled_of_marker (Or.inr (Or.inr ?_))
    rw [hjournal]
    exact howned
  | none =>
    rw [howner] at hok
    dsimp only at hok ⊢
    cases hrefusal : preconditionRefusal detached p with
    | some message =>
      rw [hrefusal] at hok
      cases hok
    | none => exact settled_of_marker (settled_of_dropSlot happended hmem hlocal)

theorem isAccepted_of_resolveFor {what : String} {ref : NodeRef} {reply : OpReply}
    (h : resolveFor pool what ref = .error reply) : reply.isAccepted = false := by
  unfold resolveFor at h
  cases hnode : pool.resolveNode ref with
  | ok n =>
    rw [hnode] at h
    cases h
  | error e =>
    rw [hnode] at h
    obtain rfl := Except.error.inj h
    rfl

/-- The hook past its early answers. -/
theorem failoverHook_of_report (h : StandbyReport pool r p detached) (hlookup : p.lookup = .ok ()) :
    s.failoverHook digest pool r.request p =
      if hasMarker digest s.markers "failover" r.replayKey then
        (s, OpReply.accepted "failover: already processed; skipping duplicate")
      else match resolveFor pool "detached" r.detached, resolveFor pool "new_main" r.newMain,
          resolveFor pool "old_primary" r.oldPrimary with
        | .ok detached, .ok _, .ok oldPrimary =>
            s.standbyDown digest r.replayKey detached oldPrimary p
        | .error reply, _, _ => (s, reply)
        | .ok _, .error reply, _ => (s, reply)
        | .ok _, .ok _, .error reply => (s, reply) := by
  show s.failover digest pool r p = _
  unfold failover
  rw [if_neg h.candidate, if_neg h.standby, hlookup]

theorem leavesSettled_iff (digest : String → String) (pool : NodePool) (s : HookState)
    (r : FailoverReport) (p : FailoverProbes) :
    LeavesSettled digest pool s r p ↔ FindsSettled digest pool s r p := by
  constructor
  · intro hleaves detached h hlookup hmarker
    have hhook : s.failoverHook digest pool r.request p =
        (s, OpReply.accepted "failover: already processed; skipping duplicate") := by
      rw [failoverHook_of_report h hlookup, if_pos hmarker]
    have hsettled := hleaves detached h
    rw [hhook] at hsettled
    exact hsettled rfl
  · intro hfinds detached h hok
    cases hlookup : p.lookup with
    | error e =>
      have hhook : s.failoverHook digest pool r.request p =
          (s, OpReply.internal ("failover: idempotency marker check: " ++ e)) := by
        show s.failover digest pool r p = _
        unfold failover
        rw [if_neg h.candidate, if_neg h.standby, hlookup]
      rw [hhook] at hok
      cases hok
    | ok u =>
      rw [failoverHook_of_report h hlookup] at hok ⊢
      split
      · rename_i hmarker
        exact hfinds detached h hlookup hmarker
      · rename_i hmarker
        rw [if_neg hmarker] at hok
        obtain ⟨oldPrimary, hprimary, hlocal⟩ := h.primary
        have hdetached : resolveFor pool "detached" r.detached = .ok detached := by
          rw [resolveFor, h.detached]
          rfl
        have hold : resolveFor pool "old_primary" r.oldPrimary = .ok oldPrimary := by
          rw [resolveFor, hprimary]
          rfl
        rw [hdetached, hold] at hok ⊢
        cases hmain : resolveFor pool "new_main" r.newMain with
        | error reply =>
          rw [hmain] at hok
          dsimp only at hok
          rw [isAccepted_of_resolveFor hmain] at hok
          cases hok
        | ok newMain =>
          rw [hmain] at hok
          exact settled_of_standbyDown h.appended (mem_of_resolveNode hprimary) hlocal hok

/-! ## Runs of deliveries -/

/-- What happens at an agent: a delivery, a sweep of the markers, or anything that changes the
journal, the queue and the slots. -/
inductive Event where
  | delivers (req : FailoverRequest) (p : FailoverProbes)
  | sweeps (now : UtcNanos) (removes : String → Bool)
  | elapses (journal : Journal) (queue : List MaintenanceIntent) (queueSeq : ℕ)
      (slots : List String)

def step (digest : String → String) (pool : NodePool) (s : HookState) : Event → HookState
  | .delivers req p => (s.failoverHook digest pool req p).1
  | .sweeps now removes => { s with markers := sweepMarkers s.markers now removes }
  | .elapses journal queue queueSeq slots =>
      { s with journal := journal, queue := queue, queueSeq := queueSeq, slots := slots }

/-- The state before event `k`. -/
def stateAt (digest : String → String) (pool : NodePool) (s : HookState)
    (u : ℕ → Event) (k : ℕ) :
    HookState :=
  Trace.stateAt (step digest pool) s u k

/-- Along the run, every report of a standby that is answered `ok = true` leaves the slot seen
to. -/
def NeverSkipped (digest : String → String) (pool : NodePool) (s : HookState)
    (u : ℕ → Event) :
    Prop :=
  ∀ k r p, u k = .delivers r.request p →
    LeavesSettled digest pool (stateAt digest pool s u k) r p

/-- The cleanup after a standby is **never skipped along a run exactly when every delivery that
finds a marker finds the slot seen to already**. -/
theorem neverSkipped_iff (digest : String → String) (pool : NodePool) (s : HookState)
    (u : ℕ → Event) :
    NeverSkipped digest pool s u ↔ ∀ k r p, u k = .delivers r.request p →
      FindsSettled digest pool (stateAt digest pool s u k) r p := by
  unfold NeverSkipped
  constructor
  · intro h k r p hk
    exact (leavesSettled_iff digest pool _ r p).mp (h k r p hk)
  · intro h k r p hk
    exact (leavesSettled_iff digest pool _ r p).mpr (h k r p hk)

/-! ### Two outages -/

/-- The report that node `1` is down, to the agent of the primary, node `0`. -/
def standbyOneDown : FailoverReport := ⟨⟨1, "db1"⟩, ⟨0, "db0"⟩, ⟨0, "db0"⟩⟩

/-- Nothing owns the node, it does not answer, and its slot can be dropped. -/
def dropsAtOnce : FailoverProbes where
  lookup := .ok ()
  consult := ⟨0, .ok (), .ok false, 0, .ok ()⟩
  client := .error "connection refused"
  status := .error "not asked"
  timedOut := false
  drop := .ok ()
  appendedAt := 0
  appended := .ok ()
  markedAt := 0
  marked := .ok ()

/-- The standby comes back, with its slot, and goes down again an hour later. -/
def downAgain : ℕ → Event
  | 0 => .delivers standbyOneDown.request dropsAtOnce
  | 1 => .elapses Journal.empty [] 0 ["node1"]
  | _ => .delivers standbyOneDown.request
      { dropsAtOnce with consult := { dropsAtOnce.consult with now := 3600 * 10 ^ 9 } }

def primaryPool : NodePool := ⟨[⟨0, "db0"⟩, ⟨1, "db1"⟩], 0⟩

/-- The second outage is taken for the first, whatever the digest; the slot stays. -/
theorem downAgain_skipped :
    ¬ ∃ digest, NeverSkipped digest primaryPool ⟨Journal.empty, [], 0, [], ["node1"]⟩
      downAgain := by
  rintro ⟨digest, h⟩
  have hfinds := (leavesSettled_iff digest primaryPool _ _ _).mp (h 2 standbyOneDown _ rfl)
  have hreport : ∀ p, p.appended = .ok () →
      StandbyReport primaryPool standbyOneDown p ⟨1, "db1"⟩ := fun p happended =>
    ⟨by decide, by decide, rfl, ⟨⟨0, "db0"⟩, rfl, rfl⟩, happended⟩
  have hmarker : hasMarker digest
      (stateAt digest primaryPool ⟨Journal.empty, [], 0, [], ["node1"]⟩ downAgain 2).markers
      "failover" standbyOneDown.replayKey = true := by
    have hmarkers :
        (stateAt digest primaryPool ⟨Journal.empty, [], 0, [], ["node1"]⟩ downAgain 2).markers =
          markDone digest [] "failover" standbyOneDown.replayKey 0 := rfl
    rw [hmarkers]
    simp [hasMarker, markDone]
  rcases hfinds ⟨1, "db1"⟩ (hreport _ rfl) rfl hmarker with hgone | ⟨i, hi, -⟩ |
      ⟨_, -, o, ho, -⟩
  · exact hgone List.mem_cons_self
  · cases hi
  · cases ho

end HookState

end PgAgent
