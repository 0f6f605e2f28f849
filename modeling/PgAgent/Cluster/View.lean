import Mathlib.Data.List.AList
import Mathlib.Data.List.Sort
import Mathlib.Data.Prod.Lex
import PgAgent.Config.Pool
import PgAgent.Library.Duration

/-!
# Cross-node status and WAL positions

`cluster_view.rs`: what one node learns about the others in a status fan-out, and
how two WAL positions compare.

* A `NodeStatus` is the answer of a peer's `GetStatus`, as it travels on the wire.
* `collectStatuses` fans out to a list of nodes and always returns one view per
  node: the answers that came before the budget, in the order they came, and then an
  explicit failure for everyone else.
* `WalPosition` is ordered lexicographically, timeline first.
* `PeerSeen` remembers when each peer was last seen *serving* as a primary; only
  ages leave the node, never clock readings.

`HashMap<i32, _>` is an association list without duplicate keys; the order in which
a hash map is walked is unspecified in the source and never decides anything below.
-/

namespace PgAgent

open Rust

/-- A `HashMap` keyed by node ids. -/
abbrev NodeMap (α : Type) := AList fun _ : NodeId => α

/-! ## WAL positions -/

/-- A node's WAL position: timeline and flushed LSN. -/
structure WalPosition where
  timeline : ℤ
  lsn : ℕ
  deriving DecidableEq, Repr

namespace WalPosition

/-- The lexicographic key behind the derived order. -/
def key (p : WalPosition) : ℤ ×ₗ ℕ := toLex (p.timeline, p.lsn)

theorem key_injective : Function.Injective key := by
  rintro ⟨t, l⟩ ⟨t', l'⟩ h
  have h' : (t, l) = (t', l') := toLex.injective h
  obtain ⟨rfl, rfl⟩ := Prod.mk.inj h'
  rfl

instance : LinearOrder WalPosition := LinearOrder.lift' key key_injective

theorem le_iff {p q : WalPosition} :
    p ≤ q ↔ p.timeline < q.timeline ∨ (p.timeline = q.timeline ∧ p.lsn ≤ q.lsn) :=
  Prod.Lex.toLex_le_toLex

/-- On one timeline the order is the order of LSNs. -/
theorem le_iff_of_timeline_eq {p q : WalPosition} (h : p.timeline = q.timeline) :
    p ≤ q ↔ p.lsn ≤ q.lsn := by
  rw [le_iff]
  constructor
  · rintro (hlt | ⟨-, hle⟩)
    · exact absurd hlt (by rw [h]; exact lt_irrefl _)
    · exact hle
  · exact fun hle => Or.inr ⟨h, hle⟩

/-- `lag_behind`: the byte distance, only within one timeline. -/
def lagBehind (p ahead : WalPosition) : Option ℕ :=
  if p.timeline = ahead.timeline then some (ahead.lsn - p.lsn) else none

end WalPosition

/-! ## Status answers -/

/-- `pb::NodeStatus`. -/
structure NodeStatus where
  isRunning : Bool
  isInRecovery : Bool
  isReady : Bool
  replicationLagBytes : ℤ
  replicationState : String
  isPostgresRunning : Bool
  isPgpoolRunning : Bool
  isPostgresStatusOk : Bool
  isPgpoolStatusOk : Bool
  timelineId : ℤ
  currentWalLsn : ℕ
  lastFlushLsn : ℕ
  peerPrimarySeenAgeMs : NodeMap UInt64

/-- `WalPosition::from_status`: both halves must be known, `0` standing for
unknown. -/
def WalPosition.fromStatus (s : NodeStatus) : Option WalPosition :=
  if s.timelineId > 0 ∧ s.lastFlushLsn > 0 then some ⟨s.timelineId, s.lastFlushLsn⟩ else none

/-- The one definition of "I saw that node serving". -/
def NodeStatus.serving (s : NodeStatus) : Bool := s.isPostgresRunning && !s.isInRecovery

/-- One peer's view from a fan-out; `none` for a failed dial, a failed call or a
missing answer, which no caller tells apart. -/
structure PeerStatusView where
  node : NodeConfig
  status : Option NodeStatus

/-! ## When a peer was last seen serving -/

/-- `PeerSeen`: per peer, the clock reading of the last primary sighting. -/
abbrev PeerSeen := NodeMap Instant

def PeerSeen.recordPrimary (seen : PeerSeen) (now : Instant) (id : NodeId) : PeerSeen :=
  AList.insert id now seen

/-! ## The fan-out -/

/-- How one spawned status task ended: with an answer (`none` for an error), as the
`rank`-th to finish; with a panic; or not before the budget expired. -/
inductive TaskEnd where
  | answered (rank : ℕ) (status : Option NodeStatus)
  | panicked
  | late

/-- What a task's end tells about its peer. -/
def TaskEnd.answer : TaskEnd → Option NodeStatus
  | .answered _ status => status
  | .panicked => none
  | .late => none

/-- The finished task of a node, with its rank. -/
def arrivedView (ends : NodeConfig → TaskEnd) (n : NodeConfig) : Option (ℕ × PeerStatusView) :=
  match ends n with
  | .answered rank status => some (rank, ⟨n, status⟩)
  | .panicked => none
  | .late => none

/-- The views joined before the budget, in completion order. -/
def arrived (nodes : List NodeConfig) (ends : NodeConfig → TaskEnd) : List PeerStatusView :=
  ((nodes.filterMap (arrivedView ends)).insertionSort fun a b => a.1 ≤ b.1).map Prod.snd

/-- `collect_statuses`, the views: every joined answer, then a failure for each node
that has none. -/
def collectStatuses (nodes : List NodeConfig) (ends : NodeConfig → TaskEnd) :
    List PeerStatusView :=
  let out := arrived nodes ends
  out ++ (nodes.filter fun n => !out.any fun v => v.node.id == n.id).map fun n => ⟨n, none⟩

/-- `collect_statuses`, the sightings: every peer whose answer says it is serving. -/
def recordSightings (seen : PeerSeen) (now : Instant) (out : List PeerStatusView) : PeerSeen :=
  out.foldl (fun seen v => match v.status with
    | some s => if s.serving then seen.recordPrimary now v.node.id else seen
    | none => seen) seen

theorem mem_arrived {nodes : List NodeConfig} {ends : NodeConfig → TaskEnd}
    {v : PeerStatusView} :
    v ∈ arrived nodes ends ↔
      v.node ∈ nodes ∧ ∃ rank, ends v.node = .answered rank v.status := by
  simp only [arrived, List.mem_map, List.mem_insertionSort, List.mem_filterMap, Prod.exists,
    exists_eq_right]
  constructor
  · rintro ⟨rank, n, hn, hv⟩
    unfold arrivedView at hv
    split at hv
    · rename_i r s hs
      obtain ⟨rfl, rfl⟩ := Prod.mk.inj (Option.some.inj hv)
      exact ⟨hn, _, hs⟩
    · cases hv
    · cases hv
  · rintro ⟨hn, rank, hv⟩
    exact ⟨rank, v.node, hn, by rw [arrivedView, hv]⟩

/-- Every view is about one of the nodes and carries that node's own answer. -/
theorem mem_of_mem_collectStatuses {nodes : List NodeConfig} {ends : NodeConfig → TaskEnd}
    {v : PeerStatusView} (h : v ∈ collectStatuses nodes ends) :
    v.node ∈ nodes ∧ v.status = (ends v.node).answer := by
  rw [collectStatuses, List.mem_append] at h
  rcases h with h | h
  · obtain ⟨hn, rank, hv⟩ := mem_arrived.mp h
    exact ⟨hn, by rw [hv]; rfl⟩
  · obtain ⟨n, hn, rfl⟩ := List.mem_map.mp h
    rw [List.mem_filter] at hn
    refine ⟨hn.1, ?_⟩
    cases he : ends n with
    | answered rank status =>
      -- an answered node has a view among the joined ones
      have hmem : (⟨n, status⟩ : PeerStatusView) ∈ arrived nodes ends :=
        mem_arrived.mpr ⟨hn.1, rank, he⟩
      have hany : (arrived nodes ends).any (fun v => v.node.id == n.id) = true :=
        List.any_eq_true.mpr ⟨_, hmem, by simp⟩
      simp [hany] at hn
    | panicked => rfl
    | late => rfl

/-- A peer that answered in time keeps its answer. -/
theorem mem_collectStatuses_of_answer {nodes : List NodeConfig} {ends : NodeConfig → TaskEnd}
    {n : NodeConfig} (hn : n ∈ nodes) {s : NodeStatus} (hs : (ends n).answer = some s) :
    ⟨n, some s⟩ ∈ collectStatuses nodes ends := by
  refine List.mem_append_left _ (mem_arrived.mpr ⟨hn, ?_⟩)
  show ∃ rank, ends n = .answered rank (some s)
  cases he : ends n with
  | answered rank status =>
    rw [he] at hs
    exact ⟨rank, by rw [show status = some s from hs]⟩
  | panicked => simp [he, TaskEnd.answer] at hs
  | late => simp [he, TaskEnd.answer] at hs

end PgAgent
