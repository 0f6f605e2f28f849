import PgAgent.Agent.Status
import PgAgent.Ha.Tick

/-!
# Who is taken for a primary

A node's role is probed on the node, flattened into two flags of its `NodeStatus`, and
read again by three consumers on other nodes: the HA loop's `observe_peers`, the
recording of primary sightings in `collect_statuses`, and the startup check
`verify_primary_at_startup`, which is modelled here in full.

The local side of all of them keeps "unknown" apart from "primary": `observe_local` has an
optional role, and the startup check gives up on a failed local probe.  The wire does
not: a failed `is_in_recovery` travels as `false`.  `unknownNeverPrimary_iff` follows the
flag through all three consumers and says which probe outcomes come through unharmed.
-/

namespace PgAgent

open Rust

/-! ## The startup check -/

/-- What the startup check knows about a peer with a known timeline. -/
structure PeerObservation where
  id : NodeId
  hostname : String
  timelineId : ℤ
  isInRecovery : Bool
  assertingPrimary : Bool
  deriving DecidableEq, Repr

/-- Why a verdict could not be reached. -/
inductive UnverifiableReason where
  | statusPostgres
  | isInRecovery
  | localTimelineZero
  | timelineId
  | tooFewPeers (answered required : ℕ)
  deriving DecidableEq, Repr

inductive PrimaryVerdict where
  | confirmed
  | notApplicable
  | phantom (localTl : ℤ) (peers : List PeerObservation)
  | splitBrain (localTl : ℤ) (peers : List PeerObservation)
  | unverifiable (reason : UnverifiableReason)
  deriving DecidableEq, Repr

/-- The observation a view gives, if its peer answered with a known timeline. -/
def PeerObservation.ofView (v : PeerStatusView) : Option PeerObservation :=
  match v.status with
  | some s =>
      if s.timelineId > 0 then
        some { id := v.node.id
               hostname := v.node.hostname
               timelineId := s.timelineId
               isInRecovery := s.isInRecovery
               assertingPrimary := s.isPostgresStatusOk && s.isPostgresRunning && !s.isInRecovery }
      else none
  | none => none

/-- The verdict from the local timeline and the observations. -/
def classifyPrimary (localTl : ℤ) (observations : List PeerObservation) (required : ℕ) :
    PrimaryVerdict :=
  let phantomPeers := observations.filter fun o => o.timelineId > localTl
  let splitPeers := observations.filter fun o => o.timelineId = localTl && o.assertingPrimary
  if !phantomPeers.isEmpty then .phantom localTl phantomPeers
  else if !splitPeers.isEmpty then .splitBrain localTl splitPeers
  else if observations.length < required then
    .unverifiable (.tooFewPeers observations.length required)
  else .confirmed

/-- `verify_primary_at_startup`, from the local probes and the ends of the status tasks. -/
def verifyPrimaryAtStartup (pool : NodePool) (required : ℕ) (p : StatusProbes)
    (ends : NodeConfig → TaskEnd) : PrimaryVerdict :=
  match p.statusPostgres with
  | none => .unverifiable .statusPostgres
  | some false => .notApplicable
  | some true =>
      match p.db.isInRecovery with
      | none => .unverifiable .isInRecovery
      | some true => .notApplicable
      | some false =>
          match p.db.timelineId with
          | none => .unverifiable .timelineId
          | some localTl =>
              if localTl > 0 then
                classifyPrimary localTl
                  ((collectStatuses pool.others ends).filterMap PeerObservation.ofView) required
              else .unverifiable .localTimelineZero

/-! ## One peer's status, from its probes to its readers -/

/-- A fan-out in which one peer, whose probes are given, answers: everything else about
the fan-out is arbitrary. -/
structure StatusExchange where
  pool : NodePool
  /-- Pool members have distinct ids. -/
  nodup : (pool.members.map NodeConfig.id).Nodup
  node : NodeConfig
  mem : node ∈ pool.others
  probes : StatusProbes
  ages : NodeMap UInt64
  rank : ℕ
  /-- How the tasks of the other peers ended. -/
  others : NodeConfig → TaskEnd

namespace StatusExchange

/-- The answer on the wire. -/
def status (x : StatusExchange) : NodeStatus := getStatus x.probes x.ages

def ends (x : StatusExchange) (n : NodeConfig) : TaskEnd :=
  if n = x.node then .answered x.rank (some x.status) else x.others n

def views (x : StatusExchange) : List PeerStatusView := collectStatuses x.pool.others x.ends

/-- `observe_peers` has the peer running as primary. -/
def ObservedAsPrimary (x : StatusExchange) : Prop :=
  ∃ v ∈ observePeers x.pool x.ends, v.node.id = x.node.id ∧ v.runningAsPrimary = true

/-- `collect_statuses` records a primary sighting of the peer. -/
def SeenAsPrimary (x : StatusExchange) (now : Instant) : Prop :=
  ((recordSightings ∅ now x.views).lookup x.node.id).isSome = true

/-- The startup check holds the peer to assert the primary role. -/
def AssertsPrimary (x : StatusExchange) : Prop :=
  ∃ o ∈ x.views.filterMap PeerObservation.ofView, o.id = x.node.id ∧ o.assertingPrimary = true

/-- Whoever takes the peer for a primary does so because its own probe said so. -/
def UnknownNeverPrimary (x : StatusExchange) : Prop :=
  ∀ now, x.ObservedAsPrimary ∨ x.SeenAsPrimary now ∨ x.AssertsPrimary →
    x.probes.db.isInRecovery = some false

variable {x : StatusExchange}

/-- The peer's view is in the fan-out, and it is the only one with the peer's id. -/
theorem mem_views_iff {v : PeerStatusView} (hid : v.node.id = x.node.id) :
    v ∈ x.views ↔ v = ⟨x.node, some x.status⟩ := by
  have hself : (x.ends x.node).answer = some x.status := by
    rw [ends, if_pos rfl]
    rfl
  constructor
  · intro hv
    obtain ⟨hn, hs⟩ := mem_of_mem_collectStatuses hv
    have hnode : v.node = x.node :=
      List.inj_on_of_nodup_map x.nodup (List.mem_filter.mp hn).1 (List.mem_filter.mp x.mem).1 hid
    obtain ⟨node, status⟩ := v
    obtain rfl : node = x.node := hnode
    rw [hself] at hs
    rw [show status = some x.status from hs]
  · rintro rfl
    exact mem_collectStatuses_of_answer x.mem hself

theorem observedAsPrimary_iff : x.ObservedAsPrimary ↔ x.status.serving = true := by
  rw [ObservedAsPrimary, observePeers]
  constructor
  · rintro ⟨w, hw, hid, hp⟩
    obtain ⟨v, hv, rfl⟩ := List.mem_map.mp hw
    have hnode : (PeerView.ofStatus v).node = v.node := by
      rw [PeerView.ofStatus]
      split <;> rfl
    rw [hnode] at hid
    rw [(mem_views_iff hid).mp hv] at hp
    exact hp
  · intro h
    exact ⟨_, List.mem_map_of_mem ((mem_views_iff rfl).mpr rfl), rfl, h⟩

/-- A sighting is recorded for exactly the ids of the serving views. -/
theorem recordSightings_isSome (seen : PeerSeen) (now : Instant) (out : List PeerStatusView)
    (id : NodeId) :
    ((recordSightings seen now out).lookup id).isSome = true ↔
      (seen.lookup id).isSome = true ∨
        ∃ v ∈ out, v.node.id = id ∧ ∃ s, v.status = some s ∧ s.serving = true := by
  induction out generalizing seen with
  | nil => simp [recordSightings]
  | cons v out ih =>
    rw [recordSightings, List.foldl_cons, ← recordSightings, ih, List.exists_mem_cons_iff,
      ← or_assoc]
    refine or_congr_left ?_
    cases hs : v.status with
    | none => simp
    | some s =>
      by_cases hserv : s.serving = true
      · by_cases hid : v.node.id = id
        · simp [hserv, hid, PeerSeen.recordPrimary]
        · simp [hserv, hid, PeerSeen.recordPrimary, AList.lookup_insert_ne (Ne.symm hid)]
      · simp [hserv]

theorem seenAsPrimary_iff (now : Instant) : x.SeenAsPrimary now ↔ x.status.serving = true := by
  rw [SeenAsPrimary, recordSightings_isSome]
  constructor
  · rintro (hempty | ⟨v, hv, hid, s, hs, hserv⟩)
    · simp at hempty
    · rw [(mem_views_iff hid).mp hv] at hs
      rw [Option.some.inj hs]
      exact hserv
  · intro h
    exact Or.inr ⟨_, (mem_views_iff rfl).mpr rfl, rfl, _, rfl, h⟩

/-- The startup check is stricter than the others: it wants a confirmed systemd answer and
a known timeline besides. -/
theorem serving_of_assertsPrimary (h : x.AssertsPrimary) : x.status.serving = true := by
  obtain ⟨o, ho, hid, hassert⟩ := h
  obtain ⟨v, hv, hvo⟩ := List.mem_filterMap.mp ho
  rw [PeerObservation.ofView] at hvo
  split at hvo
  · rename_i s hs
    split at hvo
    · rw [← Option.some.inj hvo] at hid hassert
      rw [(mem_views_iff hid).mp hv] at hs
      rw [Option.some.inj hs, NodeStatus.serving]
      simp only [Bool.and_eq_true] at hassert ⊢
      exact ⟨hassert.1.2, hassert.2⟩
    · cases hvo
  · cases hvo

/-- Split brain accuses only observed peers that assert the role. -/
theorem asserting_of_classifyPrimary {localTl tl : ℤ} {observations peers : List PeerObservation}
    {required : ℕ} (h : classifyPrimary localTl observations required = .splitBrain tl peers)
    {o : PeerObservation} (ho : o ∈ peers) :
    o ∈ observations ∧ o.assertingPrimary = true := by
  unfold classifyPrimary at h
  dsimp only at h
  split at h
  · cases h
  · split at h
    · obtain ⟨-, rfl⟩ := PrimaryVerdict.splitBrain.inj h
      obtain ⟨hmem, hcond⟩ := List.mem_filter.mp ho
      exact ⟨hmem, (Bool.and_eq_true_iff.mp hcond).2⟩
    · split at h <;> cases h

theorem asserting_of_splitBrain {pool : NodePool} {required : ℕ} {p : StatusProbes}
    {ends : NodeConfig → TaskEnd} {localTl : ℤ} {peers : List PeerObservation}
    (h : verifyPrimaryAtStartup pool required p ends = .splitBrain localTl peers)
    {o : PeerObservation} (ho : o ∈ peers) :
    o ∈ (collectStatuses pool.others ends).filterMap PeerObservation.ofView ∧
      o.assertingPrimary = true := by
  unfold verifyPrimaryAtStartup at h
  split at h
  · cases h
  · cases h
  · split at h
    · cases h
    · cases h
    · split at h
      · cases h
      · split at h
        · exact asserting_of_classifyPrimary h ho
        · cases h

/-- So a node that accuses the peer of split brain has taken it for a primary. -/
theorem assertsPrimary_of_splitBrain {required : ℕ} {p : StatusProbes} {localTl : ℤ}
    {peers : List PeerObservation}
    (h : verifyPrimaryAtStartup x.pool required p x.ends = .splitBrain localTl peers)
    {o : PeerObservation} (ho : o ∈ peers) (hid : o.id = x.node.id) : x.AssertsPrimary := by
  obtain ⟨hmem, hassert⟩ := asserting_of_splitBrain h ho
  exact ⟨o, hmem, hid, hassert⟩

/-- The wire says "serving" when systemd says running and the recovery probe did not say
"in recovery". -/
theorem serving_iff : x.status.serving = true ↔
    x.probes.statusPostgres = some true ∧ x.probes.db.isInRecovery ≠ some true := by
  have hserv : x.status.serving =
      (x.probes.statusPostgres.getD false && !x.probes.db.isInRecovery.getD false) := rfl
  rw [hserv]
  rcases x.probes.statusPostgres with _ | _ | _ <;>
    rcases x.probes.db.isInRecovery with _ | _ | _ <;> simp

/-- The role of a peer: **an unknown one is never taken for "primary" exactly when the
recovery probe answered or systemd did not report PostgreSQL as running**. -/
theorem unknownNeverPrimary_iff (x : StatusExchange) :
    x.UnknownNeverPrimary ↔
      x.probes.db.isInRecovery.isSome = true ∨ x.probes.statusPostgres ≠ some true := by
  constructor
  · intro h
    by_contra hnot
    rw [not_or, not_not, Bool.not_eq_true, Option.isSome_eq_false_iff,
      Option.isNone_iff_eq_none] at hnot
    obtain ⟨hunknown, hrunning⟩ := hnot
    have hserv : x.status.serving = true := by
      rw [serving_iff, hunknown]
      exact ⟨hrunning, by simp⟩
    have hfalse := h 0 (Or.inl (observedAsPrimary_iff.mpr hserv))
    rw [hunknown] at hfalse
    cases hfalse
  · intro h now htaken
    have hserv : x.status.serving = true := by
      rcases htaken with ho | hs | ha
      · exact observedAsPrimary_iff.mp ho
      · exact (seenAsPrimary_iff now).mp hs
      · exact serving_of_assertsPrimary ha
    obtain ⟨hrunning, hrec⟩ := serving_iff.mp hserv
    rcases h with hknown | hstopped
    · obtain ⟨b, hb⟩ := Option.isSome_iff_exists.mp hknown
      rw [hb] at hrec ⊢
      cases b with
      | false => rfl
      | true => exact absurd rfl hrec
    · exact absurd hrunning hstopped

/-- A standby that systemd has started but that does not accept connections yet: every
query fails, and the control file still names timeline 3. -/
def startingStandby : StatusExchange where
  pool := ⟨[⟨0, "db0"⟩, ⟨1, "db1"⟩], 0⟩
  nodup := by decide
  node := ⟨1, "db1"⟩
  mem := by decide
  probes := ⟨⟨none, none, none, none, none⟩, some true, some true, some 3⟩
  ages := ∅
  rank := 0
  others _ := .late

/-- All three consumers take it for a primary. -/
theorem startingStandby_taken :
    startingStandby.ObservedAsPrimary ∧ startingStandby.SeenAsPrimary 0 ∧
      startingStandby.AssertsPrimary ∧ ¬ startingStandby.UnknownNeverPrimary := by
  have hserv : startingStandby.status.serving = true := rfl
  refine ⟨observedAsPrimary_iff.mpr hserv, (seenAsPrimary_iff 0).mpr hserv, ?_, fun h => ?_⟩
  · refine ⟨⟨1, "db1", 3, false, true⟩,
      List.mem_filterMap.mpr ⟨_, (mem_views_iff rfl).mpr rfl, ?_⟩,
      rfl, rfl⟩
    rfl
  · have hfalse := h 0 (Or.inl (observedAsPrimary_iff.mpr hserv))
    cases hfalse

end StatusExchange
end PgAgent
