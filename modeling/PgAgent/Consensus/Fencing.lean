import Mathlib.Data.List.Pairwise
import PgAgent.Consensus.Command
import PgAgent.Library.Trace

/-!
# Terms are fencing tokens

A lease's term is minted from the generation counter right after its bump, and
*every* committed mutation bumps that counter.  So a term cannot come back: not
after a release wiped the lease, not after a pause or a switchover change, not in
the hands of another node.

The invariant is `Fenced`.  It keeps the list of all leases ever minted, newest
first, next to the document: their terms strictly decrease along the list, none
exceeds the generation, and a lease that is in force is the head of the list.  The
generation itself is at most the number of commands applied, which is what rules
out the wrap at `2 ^ 64` for every run shorter than that.

`Consensus.leaseFencing` reads the invariant along a run.
-/

namespace PgAgent
namespace Consensus

/-- The link between the document after `n` commands and the leases minted so far,
newest first. -/
structure Fenced (n : ℕ) (minted : List Lease) (s : ClusterState) : Prop where
  /-- The counter has been bumped at most once per command. -/
  generation_le : s.generation.toNat ≤ n
  /-- No term is ahead of the counter. -/
  term_le : ∀ l ∈ minted, l.term ≤ s.generation
  /-- A later mint has a greater term. -/
  decreasing : minted.Pairwise fun later earlier => earlier.term < later.term
  /-- The lease in force is the newest one minted. -/
  lease_head : ∀ l, s.lease = some l → minted.head? = some l

theorem fenced_default : Fenced 0 [] ClusterState.default where
  generation_le := le_refl _
  term_le := by simp
  decreasing := List.Pairwise.nil
  lease_head := by simp [ClusterState.default]

theorem toNat_succ_of_lt {g : UInt64} {n : ℕ} (hg : g.toNat ≤ n) (hn : n + 1 < 2 ^ 64) :
    (g + 1).toNat = g.toNat + 1 := by
  rw [UInt64.toNat_add, UInt64.toNat_one]
  exact Nat.mod_eq_of_lt (by omega)

theorem generation_mono {n : ℕ} {s : ClusterState} (hg : s.generation.toNat ≤ n)
    (hn : n + 1 < 2 ^ 64) (c : ConsensusCommand) :
    s.generation ≤ (applyCommand s c).1.generation ∧
      (applyCommand s c).1.generation.toNat ≤ n + 1 := by
  have hsucc := toNat_succ_of_lt hg hn
  rcases applyCommand_generation s c with h | h <;>
    rw [h, UInt64.le_iff_toNat_le] <;> omega

/-- One command keeps the invariant, with the lease it minted put in front. -/
theorem Fenced.step {n : ℕ} {minted : List Lease} {s : ClusterState} (h : Fenced n minted s)
    (hn : n + 1 < 2 ^ 64) (c : ConsensusCommand) :
    Fenced (n + 1) ((applyCommand s c).2.minted.toList ++ minted) (applyCommand s c).1 := by
  obtain ⟨hmono, hle⟩ := generation_mono h.generation_le hn c
  cases hm : (applyCommand s c).2.minted with
  | none =>
    refine ⟨hle, fun l hl => ?_, h.decreasing, fun l hl => ?_⟩
    · exact UInt64.le_trans (h.term_le l (by simpa using hl)) hmono
    · rcases applyCommand_lease_of_not_minted hm with hkeep | hvacant
      · exact h.lease_head l (by rw [← hkeep, hl])
      · rw [hvacant] at hl
        cases hl
  | some new =>
    obtain ⟨e, at', -, -, hterm, hlease, hgen⟩ := applyCommand_minted hm
    have hfresh : ∀ l ∈ minted, l.term < new.term := by
      intro l hl
      have hold := h.term_le l hl
      have hsucc := toNat_succ_of_lt h.generation_le hn
      rw [UInt64.le_iff_toNat_le] at hold
      rw [hterm, UInt64.lt_iff_toNat_lt]
      omega
    refine ⟨hle, fun l hl => ?_, List.Pairwise.cons hfresh h.decreasing, fun l hl => ?_⟩
    · rw [Option.toList_some, List.singleton_append, List.mem_cons] at hl
      rcases hl with rfl | hl
      · rw [hgen, hterm]
        exact UInt64.le_refl _
      · exact UInt64.le_trans (h.term_le l hl) hmono
    · rw [hlease] at hl
      exact hl

/-- A term identifies the lease it was minted for. -/
theorem Fenced.eq_of_term_eq {n : ℕ} {minted : List Lease} {s : ClusterState}
    (h : Fenced n minted s) {l m : Lease} (hl : l ∈ minted) (hm : m ∈ minted)
    (hterm : l.term = m.term) : l = m := by
  by_contra hne
  have hpair : minted.Pairwise fun a b => a.term ≠ b.term := by
    refine h.decreasing.imp ?_
    intro a b hlt heq
    rw [heq] at hlt
    exact UInt64.lt_irrefl _ hlt
  have hsymm : Std.Symm fun a b : Lease => a.term ≠ b.term := ⟨fun _ _ h => h.symm⟩
  exact hpair.forall hl hm hne hterm

/-! ## Along a run -/

section Run

variable (cmds : ℕ → ConsensusCommand)

/-- The document before command `k`, starting from the default one. -/
def stateAt (k : ℕ) : ClusterState :=
  Trace.stateAt (fun s c => (applyCommand s c).1) ClusterState.default cmds k

/-- The reply to command `k`. -/
def responseAt (k : ℕ) : CommandResponse := (applyCommand (stateAt cmds k) (cmds k)).2

/-- Command `k` is a takeover that was won, and `l` is the lease it minted. -/
def WonAt (k : ℕ) (l : Lease) : Prop := responseAt cmds k = .takeover (.won l)

/-- The leases minted before command `k`, newest first. -/
def mintedBefore : ℕ → List Lease
  | 0 => []
  | k + 1 => (responseAt cmds k).minted.toList ++ mintedBefore k

variable {cmds}

@[simp] theorem stateAt_zero : stateAt cmds 0 = ClusterState.default := rfl

theorem stateAt_succ (k : ℕ) :
    stateAt cmds (k + 1) = (applyCommand (stateAt cmds k) (cmds k)).1 := rfl

theorem wonAt_iff {k : ℕ} {l : Lease} :
    WonAt cmds k l ↔ (applyCommand (stateAt cmds k) (cmds k)).2.minted = some l :=
  CommandResponse.minted_eq_some.symm

theorem fenced_stateAt (cmds : ℕ → ConsensusCommand) (k : ℕ) (hk : k < 2 ^ 64) :
    Fenced k (mintedBefore cmds k) (stateAt cmds k) := by
  induction k with
  | zero => exact fenced_default
  | succ k ih => exact (ih (by omega)).step hk (cmds k)

theorem WonAt.mem_mintedBefore {i j : ℕ} {l : Lease} (h : WonAt cmds i l) (hij : i < j) :
    l ∈ mintedBefore cmds j := by
  induction j, hij using Nat.le_induction with
  | base =>
    rw [mintedBefore, responseAt, wonAt_iff.mp h]
    exact List.mem_cons_self
  | succ j _ ih => exact List.mem_append_right _ ih

/-- A later win mints a greater term. -/
theorem WonAt.term_lt {i j : ℕ} {l m : Lease} (hi : WonAt cmds i l) (hj : WonAt cmds j m)
    (hij : i < j) (hlt : j + 1 < 2 ^ 64) : l.term < m.term := by
  have hf := fenced_stateAt cmds (j + 1) hlt
  have hmint : mintedBefore cmds (j + 1) = m :: mintedBefore cmds j := by
    rw [mintedBefore, responseAt, wonAt_iff.mp hj]
    rfl
  have hdec := hf.decreasing
  rw [hmint] at hdec
  exact List.rel_of_pairwise_cons hdec (hi.mem_mintedBefore hij)

/-- A lease in force was minted by some earlier command, and has been in force, by
itself, ever since.  The induction goes back along the run: a command that mints
nothing either kept the lease or vacated it, and it did not vacate it. -/
theorem exists_wonAt_of_lease {k : ℕ} {l : Lease} (h : (stateAt cmds k).lease = some l) :
    ∃ i < k, WonAt cmds i l ∧ ∀ j, i < j → j ≤ k → (stateAt cmds j).lease = some l := by
  induction k with
  | zero => simp [ClusterState.default] at h
  | succ k ih =>
    have hself : ∀ i, k ≤ i → ∀ j, i < j → j ≤ k + 1 →
        (stateAt cmds j).lease = some l := by
      intro i hi j hij hj
      rw [show j = k + 1 by omega]
      exact h
    cases hm : (applyCommand (stateAt cmds k) (cmds k)).2.minted with
    | some new =>
      obtain ⟨_, _, -, -, -, hlease, -⟩ := applyCommand_minted hm
      have hnew : new = l := by
        rw [stateAt_succ, hlease] at h
        exact Option.some.inj h
      exact ⟨k, Nat.lt_succ_self k, wonAt_iff.mpr (hnew ▸ hm), hself k le_rfl⟩
    | none =>
      have hprev : (stateAt cmds k).lease = some l := by
        rcases applyCommand_lease_of_not_minted hm with hkeep | hvacant
        · rw [← hkeep]
          exact h
        · rw [stateAt_succ, hvacant] at h
          cases h
      obtain ⟨i, hik, hwon, hall⟩ := ih hprev
      refine ⟨i, Nat.lt_succ_of_lt hik, hwon, fun j hij hj => ?_⟩
      rcases Nat.lt_or_ge k j with hkj | hjk
      · exact hself k le_rfl j hkj hj
      · exact hall j hij hjk

end Run

/-! ## The fencing law -/

/-- What the lease promises along the first `n` commands of a run. -/
structure LeaseFencing (cmds : ℕ → ConsensusCommand) (n : ℕ) : Prop where
  /-- The lease's term never exceeds the generation. -/
  term_le_generation : ∀ k ≤ n, ∀ l, (stateAt cmds k).lease = some l →
    l.term ≤ (stateAt cmds k).generation
  /-- Every win mints a term above all terms minted before it. -/
  terms_increase : ∀ i j, i < j → j < n → ∀ l m, WonAt cmds i l → WonAt cmds j m →
    l.term < m.term
  /-- No term is ever held by two nodes. -/
  one_holder : ∀ j ≤ n, ∀ k ≤ n, ∀ l m, (stateAt cmds j).lease = some l →
    (stateAt cmds k).lease = some m → l.term = m.term → l.holder = m.holder
  /-- A takeover won against `(h, t)` found the lease unbroken since `t` was minted. -/
  takeover_unbroken : ∀ k < n, ∀ cand h t stamp, cmds k = .takeover cand (some (h, t)) stamp →
    (∃ l, WonAt cmds k l) →
    ∃ i < k, (∃ l, WonAt cmds i l ∧ l.Matches h t) ∧
      ∀ j, i < j → j ≤ k → ∃ l, (stateAt cmds j).lease = some l ∧ l.Matches h t
  /-- The same takeover delivered again right after it won changes nothing and is lost. -/
  duplicate_takeover : ∀ k < n, ∀ cand e stamp, cmds k = .takeover cand (some e) stamp →
    (∃ l, WonAt cmds k l) →
    applyCommand (stateAt cmds (k + 1)) (cmds k) =
      (stateAt cmds (k + 1), .takeover (.lost (stateAt cmds (k + 1)).lease))
  /-- The same release delivered again right after it succeeded changes nothing and
  finds no holder. -/
  duplicate_release : ∀ k < n, ∀ h t, cmds k = .release h t →
    responseAt cmds k = .release .released →
    applyCommand (stateAt cmds (k + 1)) (cmds k) =
      (stateAt cmds (k + 1), .release (.notHolder (stateAt cmds (k + 1)).lease))

theorem duplicate_takeover_lost {s : ClusterState} {n : ℕ} (hg : s.generation.toNat ≤ n)
    (hn : n + 1 < 2 ^ 64) {cand : NodeId} {e : NodeId × UInt64} {stamp : Timestamp}
    (hterm : ∀ l, s.lease = some l → l.term ≤ s.generation) {l : Lease}
    (hwon : (applyCommand s (.takeover cand (some e) stamp)).2.minted = some l) :
    observedHolds (applyCommand s (.takeover cand (some e) stamp)).1.lease (some e) = false := by
  obtain ⟨h, t⟩ := e
  obtain ⟨e', at', hc, ho, hnew, hlease, -⟩ := applyCommand_minted hwon
  obtain ⟨-, rfl, -⟩ := ConsensusCommand.takeover.inj hc
  obtain ⟨old, hold, hmatch⟩ := observedHolds_expected.mp ho
  -- the precondition named the old term, the lease now carries the next one
  have hlt : old.term < l.term := by
    have hle := hterm old hold
    have hsucc := toNat_succ_of_lt hg hn
    rw [UInt64.le_iff_toNat_le] at hle
    rw [hnew, UInt64.lt_iff_toNat_lt]
    omega
  rw [hlease, ← Bool.not_eq_true, observedHolds_some_some]
  rintro ⟨-, hsame⟩
  rw [hsame, hmatch.2] at hlt
  exact UInt64.lt_irrefl _ hlt

/-- A takeover that expects a lease wins against one that was won before, and that has been in force
ever since. -/
theorem WonAt.exists_unbroken {cmds : ℕ → ConsensusCommand} {k : ℕ} {new : Lease}
    {cand h : NodeId} {t : UInt64} {stamp : Timestamp} (hnew : WonAt cmds k new)
    (hc : cmds k = .takeover cand (some (h, t)) stamp) :
    ∃ i < k, (∃ l, WonAt cmds i l ∧ l.Matches h t) ∧
      ∀ j, i < j → j ≤ k → ∃ l, (stateAt cmds j).lease = some l ∧ l.Matches h t := by
  obtain ⟨e, at', hc', ho, -, -, -⟩ := applyCommand_minted (wonAt_iff.mp hnew)
  rw [hc] at hc'
  obtain ⟨-, rfl, -⟩ := ConsensusCommand.takeover.inj hc'
  obtain ⟨l, hl, hmatch⟩ := observedHolds_expected.mp ho
  obtain ⟨i, hik, hwi, hall⟩ := exists_wonAt_of_lease hl
  exact ⟨i, hik, ⟨l, hwi, hmatch⟩, fun j hij hjk => ⟨l, hall j hij hjk, hmatch⟩⟩

/-- The fencing law: **the lease is fenced along every run** of fewer than `2 ^ 64` commands, in any
order, from any nodes and with any expectations. -/
theorem leaseFencing (cmds : ℕ → ConsensusCommand) (n : ℕ) (hn : n < 2 ^ 64) :
    LeaseFencing cmds n where
  term_le_generation k hk l hl := by
    have hf := fenced_stateAt cmds k (by omega)
    exact hf.term_le l (List.mem_of_mem_head? (hf.lease_head l hl))
  terms_increase i j hij hj l m hl hm := hl.term_lt hm hij (by omega)
  one_holder j hj k hk l m hl hm hterm := by
    obtain ⟨a, haj, hwa, -⟩ := exists_wonAt_of_lease hl
    obtain ⟨b, hbk, hwb, -⟩ := exists_wonAt_of_lease hm
    rcases Nat.lt_trichotomy a b with hab | rfl | hba
    · exact absurd (hterm ▸ hwa.term_lt hwb hab (by omega)) (UInt64.lt_irrefl _)
    · have hlm : l = m := by
        have h := (wonAt_iff.mp hwa).symm.trans (wonAt_iff.mp hwb)
        exact Option.some.inj h
      rw [hlm]
    · exact absurd (hterm ▸ hwb.term_lt hwa hba (by omega)) (UInt64.lt_irrefl _)
  takeover_unbroken k hk cand h t stamp hc hwon := by
    obtain ⟨new, hnew⟩ := hwon
    exact hnew.exists_unbroken hc
  duplicate_takeover k hk cand e stamp hc hwon := by
    obtain ⟨new, hnew⟩ := hwon
    have hf := fenced_stateAt cmds k (by omega)
    have hlost := duplicate_takeover_lost (e := e) hf.generation_le (by omega)
      (fun l hl => hf.term_le l (List.mem_of_mem_head? (hf.lease_head l hl)))
      (hc ▸ wonAt_iff.mp hnew)
    rw [← hc, ← stateAt_succ] at hlost
    rw [hc]
    simp [applyCommand, hlost]
  duplicate_release k hk h t hc hrel := by
    have hvacant : (stateAt cmds (k + 1)).lease = none := by
      rw [responseAt, hc] at hrel
      rw [stateAt_succ, hc]
      rcases applyCommand_cases (stateAt cmds k) (.release h t) with ⟨_, _, _, hx, -⟩ |
        ⟨_, _, _, hx, -⟩ | ⟨_, _, _, -, -, -, hs⟩ | ⟨_, _, -, -, hs⟩ |
          ⟨_, hx, -⟩ | ⟨_, hx, -⟩
      · cases hx
      · cases hx
      · rw [hs]
      · rw [hs] at hrel
        cases hrel
      · cases hx
      · cases hx
    rw [hc]
    simp [applyCommand, hvacant]

/-- The lease is acquired, taken over from its holder, released under a pause and acquired again. -/
def reacquiringRun (k : ℕ) : ConsensusCommand :=
  ([.takeover 1 none 100, .takeover 2 (some (1, 1)) 200,
    .setPaused (some ⟨"maintenance", "operator", 300⟩), .release 2 2,
    .takeover 1 none 400] : List ConsensusCommand).getD k (.setSwitchover none)

theorem leaseFencing_reacquire :
    WonAt reacquiringRun 1 ⟨2, 2, 200⟩ ∧ responseAt reacquiringRun 3 = .release .released ∧
      WonAt reacquiringRun 4 ⟨1, 5, 400⟩ ∧ LeaseFencing reacquiringRun 5 :=
  ⟨rfl, rfl, rfl, leaseFencing reacquiringRun 5 (by decide)⟩

end Consensus
end PgAgent
