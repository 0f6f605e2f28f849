import PgAgent.Consensus.Fencing

/-!
# Takeovers of a vacant lease

A candidate reads the state, sees no lease, and proposes a takeover with nothing
expected.  The proposal travels --- through the local node, then perhaps through the
leader --- and is applied at some later position of the log, or at several.  What it is
compared with there is the lease and nothing else: "vacant" carries no generation.

A `Schedule` is what all delays together amount to: for every position of the log, the
command applied there and the position at which its proposer had read.  Along every
schedule a won takeover of a vacant lease found the lease vacant *again*: whatever was
won since the read had come to an end before (`vacantTakeover_won`).  It does not say
that nothing was won since the read, and `reacquiredBetween` is a schedule where
something was.
-/

namespace PgAgent
namespace Consensus

/-- A log with the delay of every proposal: the command applied at each position, and how
many commands had been applied when its proposer read the state. -/
structure Schedule where
  command : ℕ → ConsensusCommand
  readAt : ℕ → ℕ
  /-- A command is applied after its proposer's read. -/
  readAt_le : ∀ k, readAt k ≤ k

/-- Command `k` is a takeover with nothing expected, its proposer had read the lease as
vacant, and it was won. -/
def Schedule.WonFromVacancy (s : Schedule) (k : ℕ) : Prop :=
  (∃ cand stamp, s.command k = .takeover cand none stamp) ∧
    (stateAt s.command (s.readAt k)).lease = none ∧ ∃ l, WonAt s.command k l

/-- Command `j` released exactly the lease `l`. -/
def ReleasedAt (cmds : ℕ → ConsensusCommand) (j : ℕ) (l : Lease) : Prop :=
  cmds j = .release l.holder l.term ∧ responseAt cmds j = .release .released

/-- Command `j` won the lease over from exactly the lease `l`. -/
def TakenFromAt (cmds : ℕ → ConsensusCommand) (j : ℕ) (l : Lease) : Prop :=
  (∃ cand stamp, cmds j = .takeover cand (some (l.holder, l.term)) stamp) ∧
    ∃ m, WonAt cmds j m

variable {cmds : ℕ → ConsensusCommand}

theorem WonAt.lease_succ {i : ℕ} {l : Lease} (h : WonAt cmds i l) :
    (stateAt cmds (i + 1)).lease = some l := by
  obtain ⟨_, _, -, -, -, hlease, -⟩ := applyCommand_minted (wonAt_iff.mp h)
  exact hlease

/-- A lease stops being in force in one of two ways: by a release that names it, or by a
takeover that expects it. -/
theorem ended_of_lease_ne {j : ℕ} {l : Lease} (hj : (stateAt cmds j).lease = some l)
    (hne : (stateAt cmds (j + 1)).lease ≠ some l) :
    ReleasedAt cmds j l ∨ TakenFromAt cmds j l := by
  rw [stateAt_succ] at hne
  rcases applyCommand_cases (stateAt cmds j) (cmds j) with ⟨cand, e, stamp, hc, ho, hs⟩ |
    ⟨_, _, _, -, -, hs⟩ | ⟨h, t, m, hc, hm, hmatch, hs⟩ |
      ⟨_, _, -, -, hs⟩ | ⟨_, -, hs⟩ |
    ⟨_, -, hs⟩
  · refine Or.inr ⟨⟨cand, stamp, ?_⟩,
      ⟨cand, (stateAt cmds j).generation + 1, stamp⟩, ?_⟩
    · rw [hj] at ho
      rcases e with _ | ⟨h, t⟩
      · simp at ho
      · obtain ⟨rfl, rfl⟩ := (observedHolds_some_some l h t).mp ho
        exact hc
    · rw [WonAt, responseAt, hs]
  · rw [hs] at hne
    exact absurd hj hne
  · refine Or.inl ⟨?_, ?_⟩
    · obtain ⟨rfl, rfl⟩ := hmatch
      rw [hc, ← Option.some.inj (hm.symm.trans hj)]
    · rw [responseAt, hs]
  all_goals
    rw [hs] at hne
    exact absurd hj hne

/-- A lease that was won and is not in force later was in force without a gap until a
command ended it. -/
theorem WonAt.ended {i k : ℕ} {l : Lease} (h : WonAt cmds i l) (hik : i < k)
    (hk : (stateAt cmds k).lease ≠ some l) :
    ∃ j, i < j ∧ j < k ∧ (∀ n, i < n → n ≤ j → (stateAt cmds n).lease = some l) ∧
      (ReleasedAt cmds j l ∨ TakenFromAt cmds j l) := by
  obtain ⟨j, hij, hjk, hall, hstop⟩ :=
    Trace.exists_break (P := fun n => (stateAt cmds n).lease = some l) hik h.lease_succ hk
  exact ⟨j, hij, hjk, hall, ended_of_lease_ne (hall j hij le_rfl) hstop⟩

/-- A won takeover with nothing expected found the lease vacant. -/
theorem vacant_of_won {k : ℕ} {cand : NodeId} {stamp : Timestamp} {l : Lease}
    (hc : cmds k = .takeover cand none stamp) (hw : WonAt cmds k l) :
    (stateAt cmds k).lease = none := by
  obtain ⟨e, _, hc', ho, -, -, -⟩ := applyCommand_minted (wonAt_iff.mp hw)
  rw [hc] at hc'
  obtain ⟨-, rfl, -⟩ := ConsensusCommand.takeover.inj hc'
  cases hl : (stateAt cmds k).lease with
  | none => rfl
  | some cur =>
    rw [hl] at ho
    simp at ho

/-- What lies between the read of a won takeover of a vacant lease and its application. -/
structure VacantAgain (s : Schedule) (k : ℕ) : Prop where
  /-- The lease is vacant when the command is applied. -/
  vacant : (stateAt s.command k).lease = none
  /-- Every lease won since the read was ended again by a command that names it. -/
  ended : ∀ i, s.readAt k ≤ i → i < k → ∀ l, WonAt s.command i l →
    ∃ j, i < j ∧ j < k ∧ (ReleasedAt s.command j l ∨ TakenFromAt s.command j l)
  /-- The last of them was released. -/
  last_released : ∀ i, s.readAt k ≤ i → i < k → ∀ l, WonAt s.command i l →
    (∀ j, i < j → j < k → ∀ m, ¬ WonAt s.command j m) →
    ∃ j, i < j ∧ j < k ∧ ReleasedAt s.command j l

/-- Takeover of a vacant lease, at any delay: **it is won only if the lease is vacant when
the command is applied**, so every lease won since the candidate's read had been ended by
then, the last one by a release of exactly its holder and term. -/
theorem vacantTakeover_won (s : Schedule) (k : ℕ) (h : s.WonFromVacancy k) :
    VacantAgain s k := by
  obtain ⟨⟨cand, stamp, hc⟩, -, l, hw⟩ := h
  have hvacant := vacant_of_won hc hw
  have hended : ∀ i, s.readAt k ≤ i → i < k → ∀ l, WonAt s.command i l →
      ∃ j, i < j ∧ j < k ∧ (ReleasedAt s.command j l ∨ TakenFromAt s.command j l) := by
    intro i _ hik l hl
    obtain ⟨j, hij, hjk, -, hend⟩ := hl.ended hik (by simp [hvacant])
    exact ⟨j, hij, hjk, hend⟩
  refine ⟨hvacant, hended, fun i hri hik l hl hlast => ?_⟩
  obtain ⟨j, hij, hjk, hrel | ⟨-, m, hm⟩⟩ := hended i hri hik l hl
  · exact ⟨j, hij, hjk, hrel⟩
  · exact absurd hm (hlast j hij hjk m)

/-- Node 1 reads a vacant lease; node 2 takes the lease and releases it again; then node
1's takeover arrives. -/
def reacquiredBetween : Schedule where
  command k := ([.takeover 2 none 100, .release 2 1, .takeover 1 none 90] :
    List ConsensusCommand).getD k (.setSwitchover none)
  readAt k := if k = 2 then 0 else k
  readAt_le k := by split <;> omega

theorem reacquiredBetween_won : reacquiredBetween.WonFromVacancy 2 :=
  ⟨⟨1, 90, rfl⟩, rfl, ⟨1, 3, 90⟩, rfl⟩

/-- The delayed takeover is won although another takeover was won since its read. -/
theorem vacancy_reused :
    ¬ ∀ (s : Schedule) (k : ℕ), s.WonFromVacancy k →
      ∀ i, s.readAt k ≤ i → i < k → ∀ l, ¬ WonAt s.command i l := by
  intro h
  have hfirst : WonAt reacquiredBetween.command 0 ⟨2, 1, 100⟩ := rfl
  exact h reacquiredBetween 2 reacquiredBetween_won 0 (by decide) (by decide) _ hfirst

/-- The theorem at that schedule. -/
theorem vacantTakeover_won_reacquired :
    reacquiredBetween.WonFromVacancy 2 ∧ VacantAgain reacquiredBetween 2 :=
  ⟨reacquiredBetween_won, vacantTakeover_won reacquiredBetween 2 reacquiredBetween_won⟩

end Consensus
end PgAgent
