import PgAgent.Ha.Spec

/-!
# Who may propose

The three comparisons a candidacy makes before it proposes, each with its meaning:

* the position sample --- `lookup_currentPositions` says what is in it, and
  `sampleStable_iff` that the stability gate compares two samples as maps;
* the most-advanced check --- `outranked_eq_none_iff` says that it is a comparison with
  *every* reported position, ties going to the smaller id;
* the second-opinion gate --- `findWitness_eq_none_iff` says that it asks every
  reachable peer other than the holder.

`strictMaximum` puts the first two together over a whole tick, and then over all the
nodes that evaluate their candidacy on one position map: at most one of them
proposes, it is the one with the most WAL, and there is one.

`secondOpinion_iff` is about the third.  The gate compares ages in milliseconds, and
the ttl is cast to a `u64` for that; the comparison means what it says exactly as long
as the cast keeps the value.
-/

namespace PgAgent

open Rust

/-! ## Reported positions -/

/-- Some peer of that id reports that position. -/
def Reports (peers : List PeerView) (id : NodeId) (q : WalPosition) : Prop :=
  ∃ p ∈ peers, p.node.id = id ∧ p.pos = some q

theorem Reports.cons {p : PeerView} {peers : List PeerView} {id : NodeId} {q : WalPosition}
    (h : Reports peers id q) : Reports (p :: peers) id q := by
  obtain ⟨r, hr, hid, hq⟩ := h
  exact ⟨r, List.mem_cons_of_mem p hr, hid, hq⟩

theorem node_mem_others_of_mem_observePeers {pool : NodePool} {ends : NodeConfig → TaskEnd}
    {p : PeerView} (h : p ∈ observePeers pool ends) : p.node ∈ pool.others := by
  obtain ⟨v, hv, rfl⟩ := List.mem_map.mp h
  have hnode : (PeerView.ofStatus v).node = v.node := by
    unfold PeerView.ofStatus
    split <;> rfl
  rw [hnode]
  exact (mem_of_mem_collectStatuses hv).1

/-- What a reachable peer answered is what the loop compares with. -/
theorem reports_observePeers_of_answer {pool : NodePool} {ends : NodeConfig → TaskEnd}
    {n : NodeConfig} (hn : n ∈ pool.others) {s : NodeStatus} (hs : (ends n).answer = some s)
    {q : WalPosition} (hq : WalPosition.fromStatus s = some q) :
    Reports (observePeers pool ends) n.id q :=
  ⟨_, List.mem_map_of_mem (mem_collectStatuses_of_answer hn hs), rfl, hq⟩

theorem ne_localId_of_reports {pool : NodePool} {ends : NodeConfig → TaskEnd} {id : NodeId}
    {q : WalPosition} (h : Reports (observePeers pool ends) id q) : id ≠ pool.localNodeId := by
  obtain ⟨p, hp, rfl, -⟩ := h
  exact NodePool.id_ne_of_mem_others (node_mem_others_of_mem_observePeers hp)

/-! ## The position sample -/

/-- One peer's entry in the sample under construction. -/
def insertPosition (current : NodeMap WalPosition) (p : PeerView) : NodeMap WalPosition :=
  match p.pos with
  | some pos => AList.insert p.node.id pos current
  | none => current

theorem currentPositions_eq_foldl (l : NodeId) (my : WalPosition) (peers : List PeerView) :
    currentPositions l my peers = peers.foldl insertPosition (AList.insert l my ∅) := rfl

theorem lookup_insertPosition {current : NodeMap WalPosition} {p : PeerView} {id : NodeId}
    {q : WalPosition} (h : (insertPosition current p).lookup id = some q) :
    current.lookup id = some q ∨ (p.node.id = id ∧ p.pos = some q) := by
  unfold insertPosition at h
  split at h
  · rename_i pos hpos
    by_cases hid : id = p.node.id
    · subst hid
      rw [AList.lookup_insert] at h
      exact Or.inr ⟨rfl, by rw [hpos, h]⟩
    · rw [AList.lookup_insert_ne hid] at h
      exact Or.inl h
  · exact Or.inl h

theorem isSome_lookup_insertPosition {current : NodeMap WalPosition} {p : PeerView} {id : NodeId}
    (h : (current.lookup id).isSome = true ∨ (p.node.id = id ∧ p.pos.isSome = true)) :
    ((insertPosition current p).lookup id).isSome = true := by
  unfold insertPosition
  cases hpos : p.pos with
  | none =>
    rcases h with h | ⟨-, h⟩
    · exact h
    · rw [hpos] at h
      cases h
  | some pos =>
    by_cases hid : id = p.node.id
    · subst hid
      simp [AList.lookup_insert]
    · rcases h with h | ⟨h, -⟩
      · simpa [AList.lookup_insert_ne hid] using h
      · exact absurd h.symm hid

theorem lookup_foldl_insertPosition {peers : List PeerView} {current : NodeMap WalPosition}
    {id : NodeId} {q : WalPosition} (h : (peers.foldl insertPosition current).lookup id = some q) :
    current.lookup id = some q ∨ Reports peers id q := by
  induction peers generalizing current with
  | nil => exact Or.inl h
  | cons p peers ih =>
    rcases ih h with h' | h'
    · rcases lookup_insertPosition h' with h' | h'
      · exact Or.inl h'
      · exact Or.inr ⟨p, List.mem_cons_self, h'⟩
    · exact Or.inr h'.cons

theorem isSome_lookup_foldl_insertPosition {peers : List PeerView}
    {current : NodeMap WalPosition} {id : NodeId}
    (h : (current.lookup id).isSome = true ∨ ∃ q, Reports peers id q) :
    ((peers.foldl insertPosition current).lookup id).isSome = true := by
  induction peers generalizing current with
  | nil =>
    rcases h with h | ⟨q, p, hp, -⟩
    · exact h
    · cases hp
  | cons p peers ih =>
    refine ih ?_
    rcases h with h | ⟨q, r, hr, hid, hq⟩
    · exact Or.inl (isSome_lookup_insertPosition (Or.inl h))
    · rcases List.mem_cons.mp hr with rfl | hr
      · exact Or.inl (isSome_lookup_insertPosition (Or.inr ⟨hid, by simp [hq]⟩))
      · exact Or.inr ⟨q, r, hr, hid, hq⟩

section Sample

variable {l : NodeId} {my : WalPosition} {peers : List PeerView} {id : NodeId}

/-- Every entry of a sample is the local position or a reported one. -/
theorem lookup_currentPositions {q : WalPosition}
    (h : (currentPositions l my peers).lookup id = some q) :
    (id = l ∧ q = my) ∨ Reports peers id q := by
  rw [currentPositions_eq_foldl] at h
  rcases lookup_foldl_insertPosition h with h | h
  · by_cases hid : id = l
    · subst hid
      rw [AList.lookup_insert] at h
      exact Or.inl ⟨rfl, (Option.some.inj h).symm⟩
    · rw [AList.lookup_insert_ne hid] at h
      simp at h
  · exact Or.inr h

/-- The local node and every reporting peer are in the sample. -/
theorem isSome_lookup_currentPositions (h : id = l ∨ ∃ q, Reports peers id q) :
    ((currentPositions l my peers).lookup id).isSome = true := by
  rw [currentPositions_eq_foldl]
  refine isSome_lookup_foldl_insertPosition (h.imp_left ?_)
  rintro rfl
  rw [AList.lookup_insert]
  rfl

theorem unsettled_eq_nil_iff {settled current : NodeMap WalPosition} :
    unsettled settled current = [] ↔
      ∀ id q, current.lookup id = some q → settled.lookup id = some q := by
  simp only [unsettled, List.map_eq_nil_iff, List.filter_eq_nil_iff, bne_iff_ne, ne_eq, not_not]
  constructor
  · intro h id q hq
    exact h ⟨id, q⟩ (AList.mem_lookup_iff.mp hq)
  · rintro h ⟨id, q⟩ hq
    exact h id q (AList.mem_lookup_iff.mpr hq)

theorem vanished_eq_nil_iff {settled current : NodeMap WalPosition} :
    vanished l settled current = [] ↔
      ∀ id, id ≠ l → (settled.lookup id).isSome = true →
        (current.lookup id).isSome = true := by
  simp only [vanished, List.filter_eq_nil_iff, Bool.and_eq_true, bne_iff_ne, ne_eq, not_and,
    Bool.not_eq_true, Option.isNone_eq_false_iff]
  constructor
  · intro h id hid hs
    exact h id (AList.mem_keys.mp (AList.lookup_isSome.mp hs)) hid
  · intro h id hs hid
    exact h id hid (AList.lookup_isSome.mpr (AList.mem_keys.mpr hs))

/-- The stability gate is open exactly when the remembered sample and this one are the
same map: the same reporting nodes, each at the same position. -/
theorem sampleStable_iff {settled : NodeMap WalPosition} :
    (unsettled settled (currentPositions l my peers) = [] ∧
      vanished l settled (currentPositions l my peers) = []) ↔
      ∀ id, settled.lookup id = (currentPositions l my peers).lookup id := by
  rw [unsettled_eq_nil_iff, vanished_eq_nil_iff]
  constructor
  · rintro ⟨hsettled, hpresent⟩ id
    cases hcur : (currentPositions l my peers).lookup id with
    | some q => exact hsettled id q hcur
    | none =>
      -- only a rival can be missing, and a missing rival was not remembered either
      have hid : id ≠ l := by
        rintro rfl
        have hsome : ((currentPositions id my peers).lookup id).isSome = true :=
          isSome_lookup_currentPositions (Or.inl rfl)
        rw [hcur] at hsome
        cases hsome
      by_contra hne
      have hsome := hpresent id hid (Option.ne_none_iff_isSome.mp hne)
      rw [hcur] at hsome
      cases hsome
  · intro h
    refine ⟨fun id q hq => by rw [h id, hq], fun id _ hs => ?_⟩
    rw [← h id]
    exact hs

end Sample

/-! ## The most-advanced check -/

theorem mem_reported_iff {peers : List PeerView} {id : NodeId} {q : WalPosition} :
    (id, q) ∈ (peers.filterMap fun p => p.pos.map fun pos => (p.node.id, pos)) ↔
      Reports peers id q := by
  simp only [List.mem_filterMap, Option.map_eq_some_iff, Prod.mk.injEq, Reports]
  constructor
  · rintro ⟨p, hp, pos, hpos, hid, rfl⟩
    exact ⟨p, hp, hid, hpos⟩
  · rintro ⟨p, hp, hid, hpos⟩
    exact ⟨p, hp, q, hpos, hid, rfl⟩

/-- The best other node is a reported one, and no report is above it. -/
theorem bestOther_spec {peers : List PeerView} {b : NodeId} {p : WalPosition}
    (h : bestOther peers = some (b, p)) :
    Reports peers b p ∧ ∀ id q, Reports peers id q → q < p ∨ (q = p ∧ b ≤ id) := by
  refine ⟨mem_reported_iff.mp (List.argmax_mem h), fun id q hq => ?_⟩
  exact CandidateRank.le_iff.mp (List.le_of_mem_argmax (mem_reported_iff.mpr hq) h)

/-- Nobody outranks a node exactly when its position is at least every reported one
and its id is at most the id of everyone at the same position. -/
theorem outranked_eq_none_iff {l : NodeId} {my : WalPosition} {peers : List PeerView} :
    outranked l my peers = none ↔
      ∀ id q, Reports peers id q → q ≤ my ∧ (q = my → l ≤ id) := by
  unfold outranked
  cases hb : bestOther peers with
  | none =>
    have hnil := List.argmax_eq_none.mp hb
    refine ⟨fun _ id q hq => ?_, fun _ => rfl⟩
    rw [← mem_reported_iff, hnil] at hq
    cases hq
  | some best =>
    obtain ⟨b, p⟩ := best
    obtain ⟨hbest, hmax⟩ := bestOther_spec hb
    dsimp only
    constructor
    · intro hnone
      have hp : p ≤ my := by
        by_contra hlt
        rw [if_pos (not_le.mp hlt)] at hnone
        split at hnone <;> cases hnone
      rw [if_neg (not_lt.mpr hp)] at hnone
      have htie : p = my → l ≤ b := by
        intro heq
        by_contra hlt
        rw [if_pos ⟨heq, not_le.mp hlt⟩] at hnone
        cases hnone
      intro id q hq
      rcases hmax id q hq with hlt | ⟨rfl, hid⟩
      · exact ⟨(hlt.trans_le hp).le, fun heq => absurd (heq ▸ hlt) (not_lt.mpr hp)⟩
      · exact ⟨hp, fun heq => (htie heq).trans hid⟩
    · intro hall
      obtain ⟨hp, htie⟩ := hall b p hbest
      rw [if_neg (not_lt.mpr hp), if_neg]
      rintro ⟨heq, hlt⟩
      exact absurd (htie heq) (not_le.mpr hlt)

/-- What a proposing node has compared itself with: it has a position, and every peer
that answered with a position is at most there, and only under a larger id. -/
theorem first_of_mem_calls {ha : HaLoop} {ts : TickState} {inp : TickInput} {cand : NodeId}
    {expected : Option (NodeId × UInt64)}
    (h : .tryTakeover cand expected ∈ (tickOnce ha ts inp).calls) :
    ∃ my, (observeLocal inp.db).pos = some my ∧
      ∀ id q, Reports (observePeers ha.pool inp.ends) id q →
        q ≤ my ∧ (q = my → ha.localId < id) := by
  obtain ⟨-, hprop⟩ := proposes_of_mem_calls h
  obtain ⟨my, hpos, hclear, -⟩ := hprop.cleared
  refine ⟨my, hpos, fun id q hq => ?_⟩
  obtain ⟨hle, htie⟩ := outranked_eq_none_iff.mp hclear.first id q hq
  exact ⟨hle, fun heq => lt_of_le_of_ne (htie heq) (ne_localId_of_reports hq).symm⟩

/-! ## Evaluating one position map

Several nodes evaluate their candidacy, each in a tick of its own, and all of them see
the same positions. -/

/-- A node's tick that evaluates its candidacy. -/
structure Evaluator where
  ha : HaLoop
  ts : TickState
  inp : TickInput
  expected : Option (NodeId × UInt64)
  evaluates : Evaluates ha ts inp expected

namespace Evaluator

variable (e : Evaluator)

def node : NodeId := e.ha.localId

/-- The tick calls `try_takeover`. -/
def Proposes : Prop :=
  ∃ cand expected, .tryTakeover cand expected ∈ (tickOnce e.ha e.ts e.inp).calls

/-- The local position and the reported ones are together exactly the map `m`. -/
structure Sees (m : NodeMap WalPosition) : Prop where
  own : (observeLocal e.inp.db).pos = m.lookup e.node
  others : ∀ id q, Reports (observePeers e.ha.pool e.inp.ends) id q ↔
    id ≠ e.node ∧ m.lookup id = some q

/-- No gate but the comparison can stop this node: those before the stability gate are
open, and the previous sample was `m` already. -/
structure Unobstructed (m : NodeMap WalPosition) : Prop where
  gates : GatesOpen e.ha e.ts e.expected (observeLocal e.inp.db)
    (observePeers e.ha.pool e.inp.ends) e.inp.now
  settled : ∀ id, e.ts.settledPos.lookup id = m.lookup id

variable {e} {m : NodeMap WalPosition}

/-- A proposing node is first in the order of the map: position, then smaller id. -/
theorem Proposes.first (h : e.Proposes) (hsees : e.Sees m) :
    ∃ p, m.lookup e.node = some p ∧
      ∀ id q, id ≠ e.node → m.lookup id = some q → q ≤ p ∧ (q = p → e.node < id) := by
  obtain ⟨cand, expected, hcall⟩ := h
  obtain ⟨my, hpos, hall⟩ := first_of_mem_calls hcall
  refine ⟨my, by rw [← hsees.own, hpos], fun id q hid hq => ?_⟩
  exact hall id q ((hsees.others id q).mpr ⟨hid, hq⟩)

theorem Sees.sample (hsees : e.Sees m) {my : WalPosition}
    (hmy : (observeLocal e.inp.db).pos = some my) (id : NodeId) :
    (currentPositions e.node my (observePeers e.ha.pool e.inp.ends)).lookup id =
      m.lookup id := by
  have hown : m.lookup e.node = some my := by rw [← hsees.own, hmy]
  cases hcur : (currentPositions e.node my (observePeers e.ha.pool e.inp.ends)).lookup id with
  | some q =>
    rcases lookup_currentPositions hcur with ⟨rfl, rfl⟩ | hrep
    · exact hown.symm
    · exact ((hsees.others id q).mp hrep).2.symm
  | none =>
    -- whoever is in the map is the local node or reports
    by_contra hne
    obtain ⟨q, hq⟩ := Option.ne_none_iff_exists'.mp (Ne.symm hne)
    have hsome : ((currentPositions e.node my
        (observePeers e.ha.pool e.inp.ends)).lookup id).isSome = true := by
      refine isSome_lookup_currentPositions ?_
      by_cases hid : id = e.node
      · exact Or.inl hid
      · exact Or.inr ⟨q, (hsees.others id q).mpr ⟨hid, hq⟩⟩
    rw [hcur] at hsome
    cases hsome

/-- The first node in the order of the map proposes, if nothing else stops it. -/
theorem Unobstructed.proposes (h : e.Unobstructed m) (hsees : e.Sees m) {p : WalPosition}
    (hp : m.lookup e.node = some p)
    (hfirst : ∀ id q, m.lookup id = some q → q ≤ p ∧ (q = p → e.node ≤ id)) :
    e.Proposes := by
  have hmy : (observeLocal e.inp.db).pos = some p := by rw [hsees.own, hp]
  have hstable := sampleStable_iff.mpr fun id => by rw [h.settled id, hsees.sample hmy id]
  refine ⟨_, _, (mem_calls_iff_of_evaluates e.evaluates).mpr
    ⟨rfl, h.gates, p, hmy, hstable.1, hstable.2, ?_⟩⟩
  refine outranked_eq_none_iff.mpr fun id q hq => ?_
  exact hfirst id q ((hsees.others id q).mp hq).2

end Evaluator

/-- A nonempty map has a first node: one of maximal position, and of smallest id among
those. -/
theorem exists_first {m : NodeMap WalPosition} (hm : m ≠ ∅) :
    ∃ i p, m.lookup i = some p ∧
      ∀ id q, m.lookup id = some q → q ≤ p ∧ (q = p → i ≤ id) := by
  cases hbest : m.entries.argmax fun c => CandidateRank.mk c.2 c.1 with
  | none =>
    refine absurd ?_ hm
    exact AList.ext (List.argmax_eq_none.mp hbest)
  | some best =>
    refine ⟨best.1, best.2, AList.mem_lookup_iff.mpr (List.argmax_mem hbest), fun id q hq => ?_⟩
    have hle := List.le_of_mem_argmax (AList.mem_lookup_iff.mp hq) hbest
    rcases CandidateRank.le_iff.mp hle with hlt | ⟨heq, hid⟩
    · exact ⟨(show q < best.2 from hlt).le, fun heq => absurd heq (ne_of_lt hlt)⟩
    · exact ⟨le_of_eq heq, fun _ => hid⟩

/-- Strict maximum, at most one proposer.  A tick proposes only when the local
position is at least every position a reachable peer reported, and the local id is
smaller than that of every peer at the same position.  So among nodes that evaluate
their candidacy over one position map at most one proposes, at the maximum of the map;
and if all the nodes of a nonempty map do, with no other gate in the way, one does. -/
theorem strictMaximum :
    (∀ (ha : HaLoop) (ts : TickState) (inp : TickInput) (cand : NodeId)
        (expected : Option (NodeId × UInt64)),
      .tryTakeover cand expected ∈ (tickOnce ha ts inp).calls →
      ∃ my, (observeLocal inp.db).pos = some my ∧
        ∀ n ∈ ha.pool.others, ∀ s q, (inp.ends n).answer = some s →
          WalPosition.fromStatus s = some q → q ≤ my ∧ (q = my → ha.localId < n.id)) ∧
    (∀ (m : NodeMap WalPosition) (es : Set Evaluator), (∀ e ∈ es, e.Sees m) →
      (∀ e ∈ es, ∀ e' ∈ es, e.Proposes → e'.Proposes → e.node = e'.node) ∧
      (∀ e ∈ es, e.Proposes → ∃ p, m.lookup e.node = some p ∧
        ∀ id q, m.lookup id = some q → q ≤ p) ∧
      (m ≠ ∅ → (∀ id ∈ m, ∃ e ∈ es, e.node = id) →
        (∀ e ∈ es, e.Unobstructed m) →
        ∃ e ∈ es, e.Proposes)) := by
  refine ⟨fun ha ts inp cand expected hcall => ?_, fun m es hsees => ⟨?_, ?_, ?_⟩⟩
  · obtain ⟨my, hpos, hall⟩ := first_of_mem_calls hcall
    exact ⟨my, hpos, fun n hn s q hs hq =>
      hall n.id q (reports_observePeers_of_answer hn hs hq)⟩
  · intro e he e' he' hprop hprop'
    by_contra hne
    obtain ⟨p, hp, hfirst⟩ := hprop.first (hsees e he)
    obtain ⟨p', hp', hfirst'⟩ := hprop'.first (hsees e' he')
    obtain ⟨hle, htie⟩ := hfirst e'.node p' (Ne.symm hne) hp'
    obtain ⟨hle', htie'⟩ := hfirst' e.node p hne hp
    have heq : p = p' := le_antisymm hle' hle
    exact absurd (htie heq.symm) (not_lt.mpr (htie' heq).le)
  · intro e he hprop
    obtain ⟨p, hp, hfirst⟩ := hprop.first (hsees e he)
    refine ⟨p, hp, fun id q hq => ?_⟩
    by_cases hid : id = e.node
    · rw [hid, hp] at hq
      exact le_of_eq (Option.some.inj hq).symm
    · exact (hfirst id q hid hq).1
  · intro hm hcover hfree
    obtain ⟨i, p, hp, hfirst⟩ := exists_first hm
    obtain ⟨e, he, rfl⟩ := hcover i (AList.lookup_isSome.mp (by rw [hp]; rfl))
    exact ⟨e, he, (hfree e he).proposes (hsees e he) hp hfirst⟩

/-! ## A pool of three

Node `0` holds the lease and is gone; nodes `1` and `2` are its standbys.  The
scenarios of this development are played in this pool, with the timing of the default
configuration. -/

def threeNodes (localId : NodeId) : NodePool :=
  ⟨[⟨0, "db0"⟩, ⟨1, "db1"⟩, ⟨2, "db2"⟩], localId⟩

def secs (n : ℕ) : Duration := n * 1000000000

def defaultTiming : HaTiming := ⟨secs 10, secs 10, secs 30⟩

/-- The probes of a standby without a WAL receiver, flushed up to `lsn`. -/
def detachedStandby (lsn : ℕ) : DbProbes :=
  ⟨some true, some ReplicationLag.default, some 1, some lsn, some lsn⟩

/-- The probes of a running primary. -/
def primaryDb (lsn : ℕ) : DbProbes :=
  ⟨some false, some ReplicationLag.default, some 1, some lsn, some lsn⟩

/-- What a node answers on these probes when everything else about it is well. -/
def statusOf (db : DbProbes) (ages : NodeMap UInt64) : NodeStatus :=
  getStatus ⟨db, some true, some true, some 1⟩ ages

/-- The answers of the pool when the nodes at `flushed` answer, as detached standbys,
and the others do not. -/
def standbyAnswers (flushed : NodeMap ℕ) (n : NodeConfig) : TaskEnd :=
  match flushed.lookup n.id with
  | some lsn => .answered 0 (some (statusOf (detachedStandby lsn) ∅))
  | none => .late

def leaseOf (holder : NodeId) (term : UInt64) : ClusterState :=
  { ClusterState.default with lease := some ⟨holder, term, 0⟩, generation := term }

/-- Both standbys are flushed up to the same LSN. -/
def tiedMap : NodeMap WalPosition := AList.insert 1 ⟨1, 100⟩ (AList.insert 2 ⟨1, 100⟩ ∅)

/-- A standby that has watched node `0` dead for the ttl and sampled this map once. -/
def tiedState : TickState :=
  { TickState.new with holderUnhealthySince := some (0, 0), settledPos := tiedMap }

def tiedInput : TickInput where
  now := secs 30
  readTook := 0
  readResult := some (leaseOf 0 1)
  db := detachedStandby 100
  ends := standbyAnswers (AList.insert 1 100 (AList.insert 2 100 ∅))
  takeover := .error "no leader"
  random := 0

def tiedEvaluator (l : NodeId) (h : l = 1 ∨ l = 2) : Evaluator where
  ha := ⟨threeNodes l, defaultTiming⟩
  ts := tiedState
  inp := tiedInput
  expected := some (0, 1)
  evaluates := by
    rcases h with rfl | rfl
    · exact .deposing (leaseOf 0 1) ⟨0, 1, 0⟩ rfl rfl rfl (by decide) (by decide) (by decide)
    · exact .deposing (leaseOf 0 1) ⟨0, 1, 0⟩ rfl rfl rfl (by decide) (by decide) (by decide)

theorem lookup_tiedMap {id : NodeId} {q : WalPosition} :
    tiedMap.lookup id = some q ↔ (id = 1 ∨ id = 2) ∧ q = ⟨1, 100⟩ := by
  have hentries : tiedMap.entries = [⟨1, ⟨1, 100⟩⟩, ⟨2, ⟨1, 100⟩⟩] := by decide
  rw [← Option.mem_def, AList.mem_lookup_iff, hentries]
  simp
  tauto

theorem tiedEvaluator_sees (l : NodeId) (h : l = 1 ∨ l = 2) :
    (tiedEvaluator l h).Sees tiedMap where
  own := by rcases h with rfl | rfl <;> decide
  others := by
    intro id q
    rw [← mem_reported_iff, lookup_tiedMap]
    rcases h with rfl | rfl
    · rw [show (observePeers (tiedEvaluator 1 _).ha.pool (tiedEvaluator 1 _).inp.ends).filterMap
        (fun p => p.pos.map fun pos => (p.node.id, pos)) = [(2, ⟨1, 100⟩)] by decide]
      rw [List.mem_singleton, Prod.mk.injEq]
      show id = 2 ∧ q = ⟨1, 100⟩ ↔ id ≠ 1 ∧ (id = 1 ∨ id = 2) ∧ q = ⟨1, 100⟩
      constructor
      · rintro ⟨rfl, rfl⟩
        exact ⟨by decide, Or.inr rfl, rfl⟩
      · rintro ⟨hne, hid, rfl⟩
        exact ⟨hid.resolve_left hne, rfl⟩
    · rw [show (observePeers (tiedEvaluator 2 _).ha.pool (tiedEvaluator 2 _).inp.ends).filterMap
        (fun p => p.pos.map fun pos => (p.node.id, pos)) = [(1, ⟨1, 100⟩)] by decide]
      rw [List.mem_singleton, Prod.mk.injEq]
      show id = 1 ∧ q = ⟨1, 100⟩ ↔ id ≠ 2 ∧ (id = 1 ∨ id = 2) ∧ q = ⟨1, 100⟩
      constructor
      · rintro ⟨rfl, rfl⟩
        exact ⟨by decide, Or.inl rfl, rfl⟩
      · rintro ⟨hne, hid, rfl⟩
        exact ⟨hid.resolve_right hne, rfl⟩

theorem tiedEvaluator_unobstructed (l : NodeId) (h : l = 1 ∨ l = 2) :
    (tiedEvaluator l h).Unobstructed tiedMap where
  gates := by
    rcases h with rfl | rfl
    · exact ⟨by decide, by decide, by decide, by decide, by rfl, by decide⟩
    · exact ⟨by decide, by decide, by decide, by decide, by rfl, by decide⟩
  settled := fun _ => rfl

/-- At equal positions nodes `1` and `2` do not both propose, and one of them does. -/
theorem strictMaximum_tied :
    ∃ e ∈ ({tiedEvaluator 1 (Or.inl rfl), tiedEvaluator 2 (Or.inr rfl)} : Set Evaluator),
      e.Proposes ∧ ∀ e' ∈ ({tiedEvaluator 1 (Or.inl rfl), tiedEvaluator 2 (Or.inr rfl)} :
        Set Evaluator), e'.Proposes → e.node = e'.node := by
  obtain ⟨hone, -, hsome⟩ := strictMaximum.2 tiedMap
    {tiedEvaluator 1 (Or.inl rfl), tiedEvaluator 2 (Or.inr rfl)} (by
      rintro e (rfl | rfl)
      · exact tiedEvaluator_sees 1 (Or.inl rfl)
      · exact tiedEvaluator_sees 2 (Or.inr rfl))
  obtain ⟨e, he, hprop⟩ := hsome
    (fun h => absurd (congrArg AList.entries h) (by decide)) (by
      intro id hid
      obtain ⟨q, hq⟩ := Option.isSome_iff_exists.mp (AList.lookup_isSome.mpr hid)
      rcases (lookup_tiedMap.mp hq).1 with rfl | rfl
      · exact ⟨_, Or.inl rfl, rfl⟩
      · exact ⟨_, Or.inr rfl, rfl⟩) (by
      rintro e (rfl | rfl)
      · exact tiedEvaluator_unobstructed 1 (Or.inl rfl)
      · exact tiedEvaluator_unobstructed 2 (Or.inr rfl))
  exact ⟨e, he, hprop, fun e' he' hprop' => hone e he e' he' hprop hprop'⟩

/-! ## The second opinion -/

/-- The peer is a witness for `holder`: it is reachable, it is somebody else, and it
reports having seen `holder` serving no longer ago than `leader_ttl`. -/
def PeerView.Vouches (timing : HaTiming) (holder : NodeId) (p : PeerView) : Prop :=
  p.reachable = true ∧ p.node.id ≠ holder ∧
    ∃ age, p.seenAges.lookup holder = some age ∧ age.toNat * 1000000 ≤ timing.leaderTtl

/-- What one peer contributes to the gate. -/
def PeerView.testimony (timing : HaTiming) (holder : NodeId) (p : PeerView) :
    Option (NodeId × UInt64) :=
  if p.reachable && p.node.id != holder then
    (p.freshSighting timing holder).map fun age => (p.node.id, age)
  else none

theorem findWitness_eq_findSome (timing : HaTiming) (holder : NodeId) (peers : List PeerView) :
    findWitness timing holder peers = peers.findSome? (PeerView.testimony timing holder) := by
  induction peers with
  | nil => rfl
  | cons p peers ih =>
    rw [findWitness, List.filter_cons, List.findSome?_cons, PeerView.testimony, ← ih]
    by_cases hp : (p.reachable && p.node.id != holder) = true
    · rw [if_pos hp, if_pos hp, List.findSome?_cons]
      rfl
    · rw [if_neg hp, if_neg hp]
      rfl

theorem testimony_isSome_iff {timing : HaTiming} {holder : NodeId} {p : PeerView} :
    (p.testimony timing holder).isSome = true ↔
      p.reachable = true ∧ p.node.id ≠ holder ∧
        ∃ age, p.seenAges.lookup holder = some age ∧ age ≤ timing.ttlMs := by
  unfold PeerView.testimony
  by_cases hp : (p.reachable && p.node.id != holder) = true
  · rw [if_pos hp, Option.isSome_map, PeerView.freshSighting, Option.isSome_filter]
    rw [Bool.and_eq_true, bne_iff_ne] at hp
    cases hage : p.seenAges.lookup holder with
    | none => simp
    | some age => simp [hp.1, hp.2]
  · rw [if_neg hp]
    rw [Bool.and_eq_true, bne_iff_ne, not_and] at hp
    refine iff_of_false (by simp) fun h => ?_
    exact hp h.1 h.2.1

/-- The cast can only shorten the ttl, so a sighting that counts is within it. -/
theorem vouches_of_testimony {timing : HaTiming} {holder : NodeId} {p : PeerView}
    (h : (p.testimony timing holder).isSome = true) : p.Vouches timing holder := by
  obtain ⟨hreach, hne, age, hage, hle⟩ := testimony_isSome_iff.mp h
  refine ⟨hreach, hne, age, hage, ?_⟩
  have hms : age.toNat ≤ Duration.asMillis timing.leaderTtl :=
    (UInt64.le_iff_toNat_le.mp hle).trans (Duration.toNat_asMillisU64_le _)
  exact (Nat.le_div_iff_mul_le (by norm_num)).mp hms

/-- The gate is closed by a witness whenever the cast cannot hide one. -/
theorem testimony_of_vouches {timing : HaTiming} {holder : NodeId} {p : PeerView}
    (httl : Duration.asMillis timing.leaderTtl < 2 ^ 64 ∨
      Duration.asMillis timing.leaderTtl % 2 ^ 64 = 2 ^ 64 - 1)
    (h : p.Vouches timing holder) : (p.testimony timing holder).isSome = true := by
  obtain ⟨hreach, hne, age, hage, hle⟩ := h
  refine testimony_isSome_iff.mpr ⟨hreach, hne, age, hage, UInt64.le_iff_toNat_le.mpr ?_⟩
  have hms : age.toNat ≤ Duration.asMillis timing.leaderTtl :=
    (Nat.le_div_iff_mul_le (by norm_num)).mpr hle
  rcases httl with hlt | hones
  · exact hms.trans_eq (Duration.toNat_asMillisU64_of_lt hlt).symm
  · have hage := UInt64.toNat_lt age
    rw [HaTiming.ttlMs, Duration.toNat_asMillisU64, hones]
    omega

/-- Peers without testimony can be dropped. -/
theorem findWitness_filter {timing : HaTiming} {holder : NodeId} {peers : List PeerView}
    {keep : PeerView → Bool}
    (hkeep : ∀ p ∈ peers, (p.testimony timing holder).isSome = true → keep p = true) :
    findWitness timing holder (peers.filter keep) = findWitness timing holder peers := by
  rw [findWitness_eq_findSome, findWitness_eq_findSome]
  induction peers with
  | nil => rfl
  | cons p peers ih =>
    have ih' := ih fun r hr => hkeep r (List.mem_cons_of_mem p hr)
    rw [List.filter_cons, List.findSome?_cons]
    cases htest : p.testimony timing holder with
    | some w =>
      rw [if_pos (hkeep p List.mem_cons_self (by rw [htest]; rfl)), List.findSome?_cons, htest]
    | none =>
      split
      · rw [List.findSome?_cons, htest]
        exact ih'
      · exact ih'

/-- What the second-opinion gate is for.  No takeover is proposed against a holder that
some reachable peer vouches for; and peers that do not vouch change nothing at the
gate. -/
def SecondOpinion (timing : HaTiming) : Prop :=
  (∀ (pool : NodePool) (ts : TickState) (inp : TickInput) (holder : NodeId) (term : UInt64),
    (∃ p ∈ observePeers pool inp.ends, p.Vouches timing holder) →
    ∀ cand, .tryTakeover cand (some (holder, term)) ∉
      (tickOnce ⟨pool, timing⟩ ts inp).calls) ∧
  (∀ (holder : NodeId) (term : UInt64) (peers : List PeerView) (keep : PeerView → Bool),
    (∀ p ∈ peers, p.Vouches timing holder → keep p = true) →
    witnessGate timing (some (holder, term)) (peers.filter keep) =
      witnessGate timing (some (holder, term)) peers)

/-- A standby that has waited out the ttl, with one witness that saw the holder serving
`age` milliseconds ago. -/
def witnessInput (timing : HaTiming) (age : UInt64) : TickInput where
  now := timing.leaderTtl
  readTook := 0
  readResult := some (leaseOf 0 1)
  db := detachedStandby 100
  ends := fun n =>
    if n.id = 2 then
      .answered 0 (some (statusOf (detachedStandby 100) (AList.insert 0 age ∅)))
    else .late
  takeover := .error "no leader"
  random := 0

theorem observePeers_witnessInput (timing : HaTiming) (age : UInt64) :
    observePeers (threeNodes 1) (witnessInput timing age).ends =
      [{ node := ⟨2, "db2"⟩
         runningAsPrimary := false
         pos := some ⟨1, 100⟩
         receiving := false
         reachable := true
         seenAges := AList.insert 0 age ∅ },
       { node := ⟨0, "db0"⟩
         runningAsPrimary := false
         pos := none
         receiving := false
         reachable := false
         seenAges := ∅ }] := rfl

/-- That witness does not stop the standby when its age is above the cast ttl. -/
theorem mem_calls_witnessInput {timing : HaTiming} {age : UInt64} (hage : timing.ttlMs < age) :
    .tryTakeover 1 (some (0, 1)) ∈
      (tickOnce ⟨threeNodes 1, timing⟩ tiedState (witnessInput timing age)).calls := by
  have hread : (witnessInput timing age).read timing = some (leaseOf 0 1) :=
    if_pos (Nat.zero_le _)
  have heval : Evaluates ⟨threeNodes 1, timing⟩ tiedState (witnessInput timing age)
      (some (0, 1)) :=
    .deposing (leaseOf 0 1) ⟨0, 1, 0⟩ hread rfl rfl
      (show (0 : NodeId) ≠ 1 by decide) rfl le_rfl
  refine (mem_calls_iff_of_evaluates heval).mpr ⟨rfl, ?_, ⟨1, 100⟩, rfl, ?_⟩
  · refine ⟨rfl, rfl, ?_, fun h => absurd h.2 (by simp [observeLocal, witnessInput,
      detachedStandby, ReplicationLag.default]), ?_, rfl⟩
    · rw [witnessGate, Option.map_eq_none_iff, findWitness_eq_findSome,
        List.findSome?_eq_none_iff, observePeers_witnessInput]
      intro p hp
      rw [← Option.not_isSome_iff_eq_none, testimony_isSome_iff]
      rintro ⟨hreach, -, a, ha, hle⟩
      rcases List.mem_cons.mp hp with rfl | hp
      · obtain rfl : age = a := Option.some.inj ((AList.lookup_insert _).symm.trans ha)
        exact absurd hage (UInt64.not_lt.mpr hle)
      · rw [List.mem_singleton.mp hp] at hreach
        cases hreach
    · rw [observePeers_witnessInput]
      rfl
  · rw [observePeers_witnessInput]
    have hsample :
        unsettled tiedMap (AList.insert 2 ⟨1, 100⟩ (AList.insert 1 ⟨1, 100⟩ ∅)) = [] ∧
        vanished 1 tiedMap (AList.insert 2 ⟨1, 100⟩ (AList.insert 1 ⟨1, 100⟩ ∅)) = [] :=
          by decide
    refine ⟨hsample.1, hsample.2, outranked_eq_none_iff.mpr ?_⟩
    rintro id q ⟨p, hp, rfl, hq⟩
    rcases List.mem_cons.mp hp with rfl | hp
    · obtain rfl : (⟨1, 100⟩ : WalPosition) = q := Option.some.inj hq
      exact ⟨le_rfl, fun _ => show (1 : NodeId) ≤ 2 by decide⟩
    · rw [List.mem_singleton.mp hp] at hq
      cases hq

/-- The witness is a witness as long as its age is within the ttl itself. -/
theorem vouches_witnessInput {timing : HaTiming} {age : UInt64}
    (hage : age.toNat * 1000000 ≤ timing.leaderTtl) :
    ∃ p ∈ observePeers (threeNodes 1) (witnessInput timing age).ends, p.Vouches timing 0 := by
  rw [observePeers_witnessInput]
  exact ⟨_, List.mem_cons_self, rfl, show (2 : NodeId) ≠ 0 by decide, age,
    AList.lookup_insert _, hage⟩

/-- The second-opinion gate does what it is for exactly when the ttl, in whole
milliseconds, survives the cast to `u64`, or is cast to the largest value. -/
theorem secondOpinion_iff (timing : HaTiming) :
    SecondOpinion timing ↔
      Duration.asMillis timing.leaderTtl < 2 ^ 64 ∨
        Duration.asMillis timing.leaderTtl % 2 ^ 64 = 2 ^ 64 - 1 := by
  constructor
  · intro hgate
    by_contra hcast
    rw [not_or, not_lt] at hcast
    obtain ⟨hbig, hones⟩ := hcast
    have hmod := Nat.mod_lt (Duration.asMillis timing.leaderTtl) (show 0 < 2 ^ 64 by norm_num)
    -- one millisecond above the cast ttl, and still far below the ttl
    have hnat : (timing.ttlMs + 1).toNat = Duration.asMillis timing.leaderTtl % 2 ^ 64 + 1 := by
      rw [UInt64.toNat_add, HaTiming.ttlMs, Duration.toNat_asMillisU64, UInt64.toNat_one]
      omega
    have hlt : timing.ttlMs < timing.ttlMs + 1 := by
      rw [UInt64.lt_iff_toNat_lt, hnat, HaTiming.ttlMs, Duration.toNat_asMillisU64]
      exact Nat.lt_succ_self _
    have hle : (timing.ttlMs + 1).toNat * 1000000 ≤ timing.leaderTtl := by
      refine (Nat.le_div_iff_mul_le (by norm_num)).mp ?_
      rw [hnat]
      exact (Nat.succ_le_of_lt hmod).trans hbig
    exact hgate.1 _ _ _ _ _ (vouches_witnessInput hle) _ (mem_calls_witnessInput hlt)
  · intro hcast
    constructor
    · rintro pool ts inp holder term ⟨p, hp, hvouch⟩ cand hcall
      obtain ⟨-, hprop⟩ := proposes_of_mem_calls hcall
      have hnone := hprop.gates.noWitness
      rw [witnessGate, Option.map_eq_none_iff, findWitness_eq_findSome,
        List.findSome?_eq_none_iff] at hnone
      have hsome := testimony_of_vouches hcast hvouch
      rw [hnone p hp] at hsome
      cases hsome
    · intro holder term peers keep hkeep
      rw [witnessGate, witnessGate,
        findWitness_filter fun p hp htest => hkeep p hp (vouches_of_testimony htest)]

/-- A ttl of `18446744073709552` seconds passes the configuration check and is cast to
`384` milliseconds, so a witness of one second ago is not heard. -/
theorem not_secondOpinion_wrapped :
    ¬ SecondOpinion ⟨secs 10, secs 10, Duration.fromSecs 18446744073709552⟩ := by
  intro h
  exact h.1 (threeNodes 1) tiedState (witnessInput _ 1000) 0 1
    (vouches_witnessInput (by decide)) 1 (mem_calls_witnessInput (by decide))

end PgAgent
