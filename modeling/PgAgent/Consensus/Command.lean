import PgAgent.Config.Pool

/-!
# The replicated state and its commands

`consensus.rs` and the business half of `raftstore.rs`: the state document every
replica holds, the commands proposed through Raft, and `apply_command`, the one
function that turns a committed command into the next document and a reply.

Two points of the source decide how this is written.

* **Time arrives in the command.**  `apply_command` never reads a clock; a takeover
  carries its timestamp, minted by the proposer.  Timestamps are therefore plain
  data here.
* **Counters are `u64`.**  The generation counter is bumped by every committed
  mutation, and a lease's term is the generation right after its bump.  A release
  build wraps at `2 ^ 64`, which is what `UInt64` addition does.
-/

namespace PgAgent

/-- A `DateTime<Utc>`, carried and never interpreted. -/
abbrev Timestamp := ℤ

/-- The committed lease: the node entitled to run PostgreSQL as primary, under a
fencing token. -/
structure Lease where
  holder : NodeId
  term : UInt64
  since : Timestamp
  deriving DecidableEq, Repr

/-- A maintenance pause. -/
structure Paused where
  reason : String
  setBy : String
  setAt : Timestamp
  deriving DecidableEq, Repr

/-- A scheduled planned promotion. -/
structure Switchover where
  target : NodeId
  notBefore : Option Timestamp
  deriving DecidableEq, Repr

/-- The whole replicated document. -/
structure ClusterState where
  lease : Option Lease
  paused : Option Paused
  switchover : Option Switchover
  generation : UInt64
  deriving DecidableEq, Repr

/-- `ClusterState::default`: vacant, not paused, generation zero. -/
protected def ClusterState.default : ClusterState := ⟨none, none, none, 0⟩

inductive TakeoverOutcome where
  | won (lease : Lease)
  | lost (current : Option Lease)
  deriving DecidableEq, Repr

inductive ReleaseOutcome where
  | released
  | notHolder (current : Option Lease)
  deriving DecidableEq, Repr

/-- A mutation of the document, proposed through Raft. -/
inductive ConsensusCommand where
  | takeover (candidate : NodeId) (expected : Option (NodeId × UInt64)) (stamp : Timestamp)
  | release (holder : NodeId) (term : UInt64)
  | setPaused (paused : Option Paused)
  | setSwitchover (switchover : Option Switchover)
  deriving DecidableEq, Repr

/-- The state machine's reply.  `noop` answers the entries Raft writes for itself. -/
inductive CommandResponse where
  | takeover (outcome : TakeoverOutcome)
  | release (outcome : ReleaseOutcome)
  | ack
  | noop
  deriving DecidableEq, Repr

/-- The lease names exactly this holder under exactly this term. -/
def Lease.Matches (l : Lease) (h : NodeId) (t : UInt64) : Prop := l.holder = h ∧ l.term = t

instance (l : Lease) (h : NodeId) (t : UInt64) : Decidable (l.Matches h t) :=
  inferInstanceAs (Decidable (_ ∧ _))

/-- The precondition of a takeover: what the candidate observed still holds. -/
def observedHolds : Option Lease → Option (NodeId × UInt64) → Bool
  | none, none => true
  | some cur, some (h, t) => cur.holder == h && cur.term == t
  | _, _ => false

/-- `RedbStateMachine::apply_command`. -/
def applyCommand (state : ClusterState) : ConsensusCommand → ClusterState × CommandResponse
  | .takeover candidate expected stamp =>
      if observedHolds state.lease expected then
        let generation := state.generation + 1
        let lease : Lease := ⟨candidate, generation, stamp⟩
        ({ state with generation := generation, lease := some lease },
          .takeover (.won lease))
      else (state, .takeover (.lost state.lease))
  | .release holder term =>
      match state.lease with
      | some cur =>
          if cur.holder = holder ∧ cur.term = term then
            ({ state with generation := state.generation + 1, lease := none },
              .release .released)
          else (state, .release (.notHolder (some cur)))
      | none => (state, .release (.notHolder none))
  | .setPaused paused =>
      ({ state with generation := state.generation + 1, paused := paused }, .ack)
  | .setSwitchover switchover =>
      ({ state with generation := state.generation + 1, switchover := switchover }, .ack)

/-! ## What one command can do -/

@[simp] theorem observedHolds_none (expected : Option (NodeId × UInt64)) :
    observedHolds none expected = expected.isNone := by
  cases expected <;> rfl

@[simp] theorem observedHolds_some_none (cur : Lease) :
    observedHolds (some cur) none = false := rfl

@[simp] theorem observedHolds_some_some (cur : Lease) (h : NodeId) (t : UInt64) :
    observedHolds (some cur) (some (h, t)) = true ↔ cur.Matches h t := by
  simp [observedHolds, Lease.Matches]

/-- A takeover against `(h, t)` has its precondition exactly when the lease is
`(h, t)`. -/
theorem observedHolds_expected {lease : Option Lease} {h : NodeId} {t : UInt64} :
    observedHolds lease (some (h, t)) = true ↔ ∃ l, lease = some l ∧ l.Matches h t := by
  cases lease with
  | none => simp
  | some cur => simp

/-- Every way a command can end, with everything it writes: a won takeover mints a
lease from the bumped generation, a release vacates, a pause or switchover change
bumps the generation and keeps the lease, and a refused command changes nothing. -/
theorem applyCommand_cases (s : ClusterState) (c : ConsensusCommand) :
    (∃ cand e at', c = .takeover cand e at' ∧ observedHolds s.lease e = true ∧
      applyCommand s c =
        ({ s with generation := s.generation + 1,
                  lease := some ⟨cand, s.generation + 1, at'⟩ },
          .takeover (.won ⟨cand, s.generation + 1, at'⟩))) ∨
    (∃ cand e at', c = .takeover cand e at' ∧ observedHolds s.lease e = false ∧
      applyCommand s c = (s, .takeover (.lost s.lease))) ∨
    (∃ h t l, c = .release h t ∧ s.lease = some l ∧ l.Matches h t ∧
      applyCommand s c =
        ({ s with generation := s.generation + 1, lease := none }, .release .released)) ∨
    (∃ h t, c = .release h t ∧ (∀ l, s.lease = some l → ¬ l.Matches h t) ∧
      applyCommand s c = (s, .release (.notHolder s.lease))) ∨
    (∃ p, c = .setPaused p ∧
      applyCommand s c = ({ s with generation := s.generation + 1, paused := p }, .ack)) ∨
    (∃ w, c = .setSwitchover w ∧
      applyCommand s c = ({ s with generation := s.generation + 1, switchover := w }, .ack)) := by
  cases c with
  | takeover cand e at' =>
    cases ho : observedHolds s.lease e with
    | true => exact Or.inl ⟨cand, e, at', rfl, ho, by simp [applyCommand, ho]⟩
    | false => exact Or.inr (Or.inl ⟨cand, e, at', rfl, ho, by simp [applyCommand, ho]⟩)
  | release h t =>
    cases hl : s.lease with
    | none =>
      refine Or.inr (Or.inr (Or.inr (Or.inl ⟨h, t, rfl, by simp, ?_⟩)))
      simp [applyCommand, hl]
    | some cur =>
      by_cases hm : cur.holder = h ∧ cur.term = t
      · exact Or.inr
          (Or.inr (Or.inl ⟨h, t, cur, rfl, rfl, hm, by simp [applyCommand, hl, hm]⟩))
      · refine Or.inr
          (Or.inr (Or.inr (Or.inl ⟨h, t, rfl, ?_, by simp [applyCommand, hl, hm]⟩)))
        intro l hlc
        rw [← Option.some.inj hlc]
        exact hm
  | setPaused p => exact Or.inr (Or.inr (Or.inr (Or.inr (Or.inl ⟨p, rfl, rfl⟩))))
  | setSwitchover w => exact Or.inr (Or.inr (Or.inr (Or.inr (Or.inr ⟨w, rfl, rfl⟩))))

/-- The lease a reply minted, if it minted one. -/
def CommandResponse.minted : CommandResponse → Option Lease
  | .takeover (.won lease) => some lease
  | _ => none

@[simp] theorem CommandResponse.minted_won (l : Lease) :
    (CommandResponse.takeover (.won l)).minted = some l := rfl

theorem CommandResponse.minted_eq_some {r : CommandResponse} {l : Lease} :
    r.minted = some l ↔ r = .takeover (.won l) := by
  cases r with
  | takeover o => cases o <;> simp [minted]
  | release o => simp [minted]
  | ack => simp [minted]
  | noop => simp [minted]

/-- A command that mints is a takeover whose precondition held; the minted lease
names the candidate and the bumped generation, and is the lease from then on. -/
theorem applyCommand_minted {s : ClusterState} {c : ConsensusCommand} {l : Lease}
    (h : (applyCommand s c).2.minted = some l) :
    ∃ e at', c = .takeover l.holder e at' ∧ observedHolds s.lease e = true ∧
      l.term = s.generation + 1 ∧ (applyCommand s c).1.lease = some l ∧
      (applyCommand s c).1.generation = s.generation + 1 := by
  rcases applyCommand_cases s c with ⟨cand, e, at', rfl, ho, hs⟩ | ⟨_, _, _, rfl, -, hs⟩ |
    ⟨_, _, _, rfl, -, -, hs⟩ | ⟨_, _, rfl, -, hs⟩ | ⟨_, rfl, hs⟩ | ⟨_, rfl, hs⟩
  · rw [hs] at h ⊢
    simp only [CommandResponse.minted_won, Option.some.injEq] at h
    subst h
    exact ⟨e, at', rfl, ho, rfl, rfl, rfl⟩
  all_goals
    rw [hs] at h
    simp [CommandResponse.minted] at h

/-- A command that mints nothing keeps the lease or vacates it. -/
theorem applyCommand_lease_of_not_minted {s : ClusterState} {c : ConsensusCommand}
    (h : (applyCommand s c).2.minted = none) :
    (applyCommand s c).1.lease = s.lease ∨ (applyCommand s c).1.lease = none := by
  rcases applyCommand_cases s c with ⟨_, _, _, rfl, -, hs⟩ | ⟨_, _, _, rfl, -, hs⟩ |
    ⟨_, _, _, rfl, -, -, hs⟩ | ⟨_, _, rfl, -, hs⟩ | ⟨_, rfl, hs⟩ | ⟨_, rfl, hs⟩
  · rw [hs] at h
    simp at h
  · exact Or.inl (by rw [hs])
  · exact Or.inr (by rw [hs])
  all_goals exact Or.inl (by rw [hs])

/-- The generation is bumped by one or left alone. -/
theorem applyCommand_generation (s : ClusterState) (c : ConsensusCommand) :
    (applyCommand s c).1.generation = s.generation + 1 ∨
      (applyCommand s c).1.generation = s.generation := by
  rcases applyCommand_cases s c with ⟨_, _, _, rfl, -, hs⟩ | ⟨_, _, _, rfl, -, hs⟩ |
    ⟨_, _, _, rfl, -, -, hs⟩ | ⟨_, _, rfl, -, hs⟩ | ⟨_, rfl, hs⟩ | ⟨_, rfl, hs⟩ <;>
    simp [hs]

end PgAgent
