import PgAgent.Ha.Candidacy

/-!
# What the candidacy freeze rests on

A standby proposes itself only after it and every rival in the comparison have stopped
receiving WAL: only frozen positions make the choice of the most advanced node loss-free.
Whether a node is receiving is read from its `replication_lag` probe, and the two places
that read it turn a failed probe into "not receiving" --- `observe_local` directly,
`get_status` by sending the default, whose state is empty.  A failed `is_in_recovery`
has the same effect over the wire, since the receiving flag is only read together with
"in recovery".

`ProbedTick` is a tick together with the probes behind every answer it got, and with
whether each peer really is in recovery.  `frozenProven_iff` says of every standby's tick
that reaches the takeover exactly which probe failures it let through.
-/

namespace PgAgent

open Rust

/-- A tick, the probes behind its peers' answers, and the peers' true roles. -/
structure ProbedTick where
  ha : HaLoop
  ts : TickState
  input : TickInput
  probes : NodeConfig → StatusProbes
  ages : NodeConfig → NodeMap UInt64
  /-- Every answer is the answering node's status. -/
  answered : ∀ n s, (input.ends n).answer = some s → s = getStatus (probes n) (ages n)
  inRecovery : NodeConfig → Bool
  /-- A recovery probe that answers tells the truth. -/
  truthful : ∀ n b, (probes n).db.isInRecovery = some b → inRecovery n = b

/-- The walreceiver probe succeeded and reported no receiver. -/
def DbProbes.ReportsNoReceiver (db : DbProbes) : Prop :=
  ∃ lag, db.replicationLag = some lag ∧ lag.state = ""

namespace ProbedTick

/-- The tick proposes a takeover. -/
def ReachesTakeover (t : ProbedTick) : Prop :=
  ∃ cand expected, .tryTakeover cand expected ∈ (tickOnce t.ha t.ts t.input).calls

/-- The peer is reachable, in recovery, and its position enters the comparison. -/
def ComparedStandby (t : ProbedTick) (n : NodeConfig) : Prop :=
  n ∈ t.ha.pool.others ∧ t.inRecovery n = true ∧
    ∃ s, (t.input.ends n).answer = some s ∧ (WalPosition.fromStatus s).isSome = true

/-- The local node and every standby in the comparison have been seen without a receiver. -/
def FrozenProven (t : ProbedTick) : Prop :=
  t.input.db.ReportsNoReceiver ∧
    ∀ n, t.ComparedStandby n → (t.probes n).db.ReportsNoReceiver

/-- No probe failure hid a receiver: the local lag probe answered, and for every standby in
the comparison the lag probe answered, and so did the recovery probe unless the lag probe
itself shows that there is no receiver. -/
def ReceiversKnown (t : ProbedTick) : Prop :=
  t.input.db.replicationLag.isSome = true ∧
    ∀ n, t.ComparedStandby n → (t.probes n).db.replicationLag.isSome = true ∧
      ((t.probes n).db.isInRecovery.isSome = true ∨ (t.probes n).db.ReportsNoReceiver)

variable {t : ProbedTick}

/-- Past the freeze, the local probe answered "no receiver" or did not answer. -/
theorem local_of_frozen {db : DbProbes} (hstandby : db.isInRecovery = some true)
    (hfrozen : ¬ ((observeLocal db).isPrimary = some false ∧ (observeLocal db).receiving = true))
    (hlag : db.replicationLag.isSome = true) : db.ReportsNoReceiver := by
  obtain ⟨lag, hlag⟩ := Option.isSome_iff_exists.mp hlag
  refine ⟨lag, hlag, ?_⟩
  by_contra hstate
  refine hfrozen ⟨by simp [observeLocal, hstandby], ?_⟩
  simpa [observeLocal, hstandby, hlag] using hstate

/-- Past the freeze, a peer in the comparison that says it is in recovery reported no
receiver or sent the default. -/
theorem peer_of_noMover {pool : NodePool} {ends : NodeConfig → TaskEnd} {n : NodeConfig}
    (hn : n ∈ pool.others) {s : NodeStatus} (hs : (ends n).answer = some s)
    (hpos : (WalPosition.fromStatus s).isSome = true) (hrec : s.isInRecovery = true)
    (hmover : findMover (observePeers pool ends) = none) : s.replicationState = "" := by
  have hmem : PeerView.ofStatus ⟨n, some s⟩ ∈ observePeers pool ends :=
    List.mem_map_of_mem (mem_collectStatuses_of_answer hn hs)
  have hnot := List.find?_eq_none.mp hmover _ hmem
  by_contra hstate
  refine hnot ?_
  simp [PeerView.ofStatus, NodeStatus.serving, hrec, hpos, hstate]

/-- The takeover of a standby: **what it compared was proven frozen exactly when no failed
probe stood in for "not receiving"**. -/
theorem frozenProven_iff (t : ProbedTick) (hreach : t.ReachesTakeover)
    (hstandby : t.input.db.isInRecovery = some true) : t.FrozenProven ↔ t.ReceiversKnown := by
  obtain ⟨cand, expected, hcall⟩ := hreach
  have hgates := (proposes_of_mem_calls hcall).2.gates
  constructor
  · rintro ⟨⟨lag, hlag, -⟩, hpeers⟩
    refine ⟨by rw [hlag]; rfl, fun n hn => ?_⟩
    obtain ⟨lag', hlag', hstate⟩ := hpeers n hn
    exact ⟨by rw [hlag']; rfl, Or.inr ⟨lag', hlag', hstate⟩⟩
  · rintro ⟨hlag, hpeers⟩
    refine ⟨local_of_frozen hstandby hgates.frozen hlag, fun n hn => ?_⟩
    obtain ⟨hlag', hrec | hdone⟩ := hpeers n hn
    · -- the peer's own answer says "in recovery", so the gate looked at its receiver
      obtain ⟨hmem, htrue, s, hs, hpos⟩ := hn
      obtain ⟨b, hb⟩ := Option.isSome_iff_exists.mp hrec
      have hbtrue : b = true := (t.truthful n b hb).symm.trans htrue
      have hstatus := t.answered n s hs
      have hsrec : s.isInRecovery = true := by
        rw [hstatus, getStatus, hb, hbtrue]
        rfl
      have hempty := peer_of_noMover hmem hs hpos hsrec hgates.noMover
      obtain ⟨lag, hl⟩ := Option.isSome_iff_exists.mp hlag'
      refine ⟨lag, hl, ?_⟩
      rw [hstatus, getStatus, hl] at hempty
      exact hempty
    · exact hdone

/-! ## Two standbys of a dead holder

Node `1` ticks; node `2` is at the same position and answers; both are in recovery. -/

/-- The probes of a standby at LSN 100 with this outcome of its lag probe. -/
def standbyProbes (lag : Option ReplicationLag) : StatusProbes :=
  ⟨{ detachedStandby 100 with replicationLag := lag }, some true, some true, some 1⟩

def twoStandbys (localLag peerLag : Option ReplicationLag) : ProbedTick where
  ha := ⟨threeNodes 1, defaultTiming⟩
  ts := tiedState
  input := { tiedInput with
    db := (standbyProbes localLag).db
    ends := fun n => if n.id = 2 then .answered 0 (some (getStatus (standbyProbes peerLag) ∅))
      else .late }
  probes _ := standbyProbes peerLag
  ages _ := ∅
  answered n s h := by
    dsimp only at h
    split at h
    · exact (Option.some.inj h).symm
    · cases h
  inRecovery _ := true
  truthful _ b h := Option.some.inj h

/-- With both lag probes answering "no receiver", the takeover is reached and the freeze is
proven. -/
theorem frozenProven_iff_detached :
    (twoStandbys (some ReplicationLag.default) (some ReplicationLag.default)).ReachesTakeover ∧
      ((twoStandbys (some ReplicationLag.default) (some ReplicationLag.default)).FrozenProven ↔
        (twoStandbys (some ReplicationLag.default) (some ReplicationLag.default)).ReceiversKnown) :=
  ⟨⟨1, some (0, 1), by decide +kernel⟩,
    frozenProven_iff _ ⟨1, some (0, 1), by decide +kernel⟩ rfl⟩

/-- With both lag probes failing, the takeover is reached all the same. -/
theorem unprobed_reachesTakeover :
    (twoStandbys none none).ReachesTakeover ∧
      (twoStandbys none none).input.db.isInRecovery = some true ∧
      ¬ (twoStandbys none none).FrozenProven := by
  refine ⟨⟨1, some (0, 1), by decide +kernel⟩, rfl, ?_⟩
  rintro ⟨⟨lag, hlag, -⟩, -⟩
  cases hlag

end ProbedTick
end PgAgent
