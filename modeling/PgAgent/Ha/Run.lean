import PgAgent.Ha.Candidacy
import PgAgent.Library.Trace

/-!
# Runs of one node's loop

A run of the loop is a sequence of tick inputs `u : ℕ → TickInput`, starting from
`TickState.new`: any store contents, read failures, pauses, vacancies and proposal
outcomes, in any order.  Three of the loop's memories are followed through such runs.

* `holder_unhealthy_since`, the clock of a takeover.  It is keyed to the holder, and a
  tick that learns nothing about the holder leaves it running: `takeoverHysteresis`
  says what a takeover rests on when every such tick is excluded, and
  `not_takeoverHysteresis_relapsed` is a holder deposed seconds into a new term.
* `settled_pos`, the position sample.  A tick that stops before the stability gate
  leaves it in place: `stabilityGate` and `not_stabilityGate_gap`.
* `last_holder` with `store_unknown_since`, which decide whether an unknown store
  fences the node.  A paused tick leaves `last_holder` as it was: `unknownFencing` and
  `not_unknownFencing_paused`.

Each pair is one story: what the memory means along every run whose ticks all keep it
up to date, and a run with one tick that does not.
-/

namespace PgAgent

open Rust

/-- The loop state before tick `k`. -/
def HaLoop.stateAt (ha : HaLoop) (u : ℕ → TickInput) : ℕ → TickState :=
  Trace.stateAt (fun ts inp => (tickOnce ha ts inp).state) TickState.new u

/-- Tick `k`. -/
def HaLoop.tickAt (ha : HaLoop) (u : ℕ → TickInput) (k : ℕ) : TickOutput :=
  tickOnce ha (ha.stateAt u k) (u k)

theorem HaLoop.stateAt_succ (ha : HaLoop) (u : ℕ → TickInput) (k : ℕ) :
    ha.stateAt u (k + 1) = (ha.tickAt u k).state := rfl

variable {ha : HaLoop} {u : ℕ → TickInput} {k : ℕ}

/-! ## The clock of a takeover -/

/-- The lease this tick read, if it belongs to another node that is not observed
serving. -/
def observedUnhealthy (ha : HaLoop) (inp : TickInput) : Option (NodeId × UInt64) :=
  match inp.read ha.timing with
  | none => none
  | some st =>
      if st.paused.isSome then none
      else match st.lease with
        | none => none
        | some lease =>
            if lease.holder ≠ ha.localId ∧
                holderHealthy (observePeers ha.pool inp.ends) lease.holder = false then
              some (lease.holder, lease.term)
            else none

/-- The tick reads an unpaused state in which somebody holds the lease. -/
def SeesLease (ha : HaLoop) (inp : TickInput) : Prop :=
  ∃ st lease, inp.read ha.timing = some st ∧ st.paused = none ∧ st.lease = some lease

theorem not_seesLease_of_failed {inp : TickInput} (hread : inp.read ha.timing = none) :
    ¬ SeesLease ha inp := by
  rintro ⟨st, -, h, -⟩
  rw [hread] at h
  cases h

theorem not_seesLease_of_paused {inp : TickInput} {st : ClusterState}
    (hread : inp.read ha.timing = some st) (hpaused : st.paused.isSome = true) :
    ¬ SeesLease ha inp := by
  rintro ⟨st', -, h, hp, -⟩
  obtain rfl := Option.some.inj (hread.symm.trans h)
  rw [hp] at hpaused
  cases hpaused

theorem not_seesLease_of_vacant {inp : TickInput} {st : ClusterState}
    (hread : inp.read ha.timing = some st) (hlease : st.lease = none) : ¬ SeesLease ha inp := by
  rintro ⟨st', lease, h, -, hl⟩
  obtain rfl := Option.some.inj (hread.symm.trans h)
  rw [hlease] at hl
  cases hl

/-- The read succeeds, unpaused, and shows this lease. -/
def ReadsLease (timing : HaTiming) (inp : TickInput) (h : NodeId) (t : UInt64) : Prop :=
  ∃ st lease, inp.read timing = some st ∧ st.paused = none ∧ st.lease = some lease ∧
    lease.holder = h ∧ lease.term = t

theorem observedUnhealthy_of_read {inp : TickInput} {st : ClusterState} {lease : Lease}
    (hread : inp.read ha.timing = some st) (hpaused : st.paused = none)
    (hlease : st.lease = some lease) (hother : lease.holder ≠ ha.localId)
    (hunhealthy : holderHealthy (observePeers ha.pool inp.ends) lease.holder = false) :
    observedUnhealthy ha inp = some (lease.holder, lease.term) := by
  simp [observedUnhealthy, hread, hpaused, hlease, hother, hunhealthy]

theorem readsLease_of_observedUnhealthy {inp : TickInput} {h : NodeId} {t : UInt64}
    (hobs : observedUnhealthy ha inp = some (h, t)) :
    ReadsLease ha.timing inp h t ∧
      holderHealthy (observePeers ha.pool inp.ends) h = false := by
  unfold observedUnhealthy at hobs
  cases hread : inp.read ha.timing with
  | none =>
    rw [hread] at hobs
    cases hobs
  | some st =>
    rw [hread] at hobs
    dsimp only at hobs
    split at hobs
    · cases hobs
    rename_i hpaused
    split at hobs
    · cases hobs
    rename_i lease hlease
    split at hobs
    · rename_i hcond
      obtain ⟨rfl, rfl⟩ := Prod.mk.inj (Option.some.inj hobs)
      exact ⟨⟨st, lease, hread, Option.not_isSome_iff_eq_none.mp hpaused, hlease, rfl, rfl⟩,
        hcond.2⟩
    · cases hobs

/-- The clock after a tick: running for a holder observed unhealthy, stopped by any other
lease, and left alone by a tick that sees no lease. -/
theorem next_holderUnhealthySince (ha : HaLoop) (ts : TickState) (inp : TickInput) :
    (∃ h t, observedUnhealthy ha inp = some (h, t) ∧
      (tickOnce ha ts inp).state.holderUnhealthySince =
        some (h, unhealthySince ts h inp.now)) ∨
    (tickOnce ha ts inp).state.holderUnhealthySince = none ∨
    (¬ SeesLease ha inp ∧
      (tickOnce ha ts inp).state.holderUnhealthySince = ts.holderUnhealthySince) := by
  cases tickPath ha ts inp with
  | unknown hread hout =>
    refine Or.inr (Or.inr ⟨not_seesLease_of_failed hread, ?_⟩)
    obtain ⟨d, hunknown⟩ := onStoreUnknown_spec ha ts inp.now
    rw [hout, hunknown]
  | paused st hread hp hout =>
    exact Or.inr (Or.inr ⟨not_seesLease_of_paused hread hp, by rw [hout]; rfl⟩)
  | holding st lease hread hp hl hown hout =>
    obtain ⟨held, since, until', hstate, -⟩ :=
      holdingLease_spec ha ts.known lease (observeLocal inp.db) inp
    refine Or.inr (Or.inl ?_)
    rw [hout, rememberHolder_holderUnhealthySince, hstate]
  | healthy st lease hread hp hl hother hh d hd hout =>
    exact Or.inr (Or.inl (by rw [hout]; rfl))
  | watching st lease hread hp hl hother hh hfor hout =>
    exact Or.inl ⟨_, _, observedUnhealthy_of_read hread hp hl hother hh, by rw [hout]; rfl⟩
  | deposing st lease hread hp hl hother hh hfor hout =>
    obtain ⟨until', hstate⟩ :=
      considerCandidacy_state ha (ts.known.watching lease.holder inp.now)
      (some (lease.holder, lease.term)) (observeLocal inp.db) (observePeers ha.pool inp.ends) inp
    refine Or.inl ⟨_, _, observedUnhealthy_of_read hread hp hl hother hh, ?_⟩
    rw [hout, rememberHolder_holderUnhealthySince, hstate]
    rfl
  | bootstrapGap st hread hp hl hprim reason hout =>
    exact Or.inr (Or.inr ⟨not_seesLease_of_vacant hread hl, by rw [hout]; rfl⟩)
  | claiming st hread hp hl hprim hout =>
    obtain ⟨until', hstate⟩ := considerCandidacy_state ha ts.known none (observeLocal inp.db)
      (observePeers ha.pool inp.ends) inp
    refine Or.inr (Or.inr ⟨not_seesLease_of_vacant hread hl, ?_⟩)
    rw [hout, rememberHolder_holderUnhealthySince, hstate]
    rfl

/-- What a takeover from a holder must rest on: for at least `leader_ttl`, every tick
read the lease as held by this holder under this term and observed it not serving. -/
def TakeoverHysteresis (ha : HaLoop) (u : ℕ → TickInput) : Prop :=
  ∀ k cand h t, .tryTakeover cand (some (h, t)) ∈ (ha.tickAt u k).calls →
    ∃ j ≤ k, (u j).now + ha.timing.leaderTtl ≤ (u k).now ∧
      ∀ i, j ≤ i → i ≤ k → observedUnhealthy ha (u i) = some (h, t)

/-- Every tick that finds the clock running sees a lease, and if it finds the watched
holder unhealthy again, then under the term of the tick before. -/
def ClockTracked (ha : HaLoop) (u : ℕ → TickInput) : Prop :=
  ∀ k h since, (ha.stateAt u (k + 1)).holderUnhealthySince = some (h, since) →
    SeesLease ha (u (k + 1)) ∧
      ∀ t, observedUnhealthy ha (u (k + 1)) = some (h, t) →
        observedUnhealthy ha (u k) = some (h, t)

/-- The clock was started by some earlier tick, and every tick from that one on observed
the same holder unhealthy under the same term. -/
theorem clock_started (htrack : ClockTracked ha u) {h : NodeId} {since : Instant}
    (hclock : (ha.stateAt u k).holderUnhealthySince = some (h, since)) :
    ∃ j < k, (u j).now = since ∧
      ∃ t, ∀ i, j ≤ i → i < k → observedUnhealthy ha (u i) = some (h, t) := by
  induction k generalizing h since with
  | zero => cases hclock
  | succ k ih =>
    rw [HaLoop.stateAt_succ] at hclock
    rcases next_holderUnhealthySince ha (ha.stateAt u k) (u k) with
      ⟨h', t, hobs, hnext⟩ | hnext | ⟨hblind, hnext⟩
    · rw [HaLoop.tickAt, hnext] at hclock
      obtain ⟨rfl, hsince⟩ := Prod.mk.inj (Option.some.inj hclock)
      rcases unhealthySince_cases (ha.stateAt u k) h' (u k).now with hnow | hold
      · refine ⟨k, Nat.lt_succ_self k, hnow.symm.trans hsince, t, fun i hki hik => ?_⟩
        rw [Nat.le_antisymm (Nat.lt_succ_iff.mp hik) hki]
        exact hobs
      · -- the clock was already running for this holder: extend its interval
        rw [hsince] at hold
        obtain ⟨j, hj, hnow, t₁, hall⟩ := ih hold
        obtain ⟨k, rfl⟩ : ∃ k', k = k' + 1 := ⟨k - 1, by omega⟩
        have hsame := (htrack k _ _ hold).2 t hobs
        have ht : t₁ = t := by
          have := (hall k (Nat.lt_succ_iff.mp hj) (Nat.lt_succ_self k)).symm.trans hsame
          exact congrArg Prod.snd (Option.some.inj this)
        subst ht
        refine ⟨j, Nat.lt_succ_of_lt hj, hnow, t₁, fun i hji hik => ?_⟩
        rcases Nat.lt_succ_iff_lt_or_eq.mp hik with hik | rfl
        · exact hall i hji hik
        · exact hobs
    · rw [HaLoop.tickAt, hnext] at hclock
      cases hclock
    · rw [HaLoop.tickAt, hnext] at hclock
      obtain ⟨j, hj, -⟩ := ih hclock
      obtain ⟨k, rfl⟩ : ∃ k', k = k' + 1 := ⟨k - 1, by omega⟩
      exact absurd (htrack k _ _ hclock).1 hblind

/-- Along a run whose clock readings never go back and whose ticks all keep the clock up
to date, a holder is deposed only after a full `leader_ttl` of being observed unhealthy
under the very term that is taken from it. -/
theorem takeoverHysteresis (ha : HaLoop) (u : ℕ → TickInput)
    (hmono : Monotone fun k => (u k).now) (htrack : ClockTracked ha u) :
    TakeoverHysteresis ha u := by
  intro k cand h t hcall
  obtain ⟨-, hprop⟩ := proposes_of_mem_calls hcall
  obtain ⟨st, hread, hpaused, hlease⟩ := hprop.read
  obtain ⟨hother, hunhealthy, hfor⟩ := hprop.watched h t rfl
  have hobs : observedUnhealthy ha (u k) = some (h, t) := by
    obtain ⟨lease, hl, heq⟩ := Option.map_eq_some_iff.mp hlease
    obtain ⟨rfl, rfl⟩ := Prod.mk.inj heq
    exact observedUnhealthy_of_read hread hpaused hl hother hunhealthy
  rcases unhealthySince_cases (ha.stateAt u k) h (u k).now with hnow | hclock
  · -- a clock that starts now shows no time, so the ttl is zero
    rw [hnow, Instant.durationSince, Nat.sub_self] at hfor
    refine ⟨k, le_rfl, by rw [Nat.le_zero.mp hfor]; exact le_rfl, fun i hki hik => ?_⟩
    rw [Nat.le_antisymm hik hki]
    exact hobs
  · obtain ⟨j, hj, hnow, t', hall⟩ := clock_started htrack hclock
    obtain ⟨k, rfl⟩ : ∃ k', k = k' + 1 := ⟨k - 1, by omega⟩
    have hprev := (htrack k _ _ hclock).2 t hobs
    obtain rfl : t' = t := by
      have := (hall k (Nat.lt_succ_iff.mp hj) (Nat.lt_succ_self k)).symm.trans hprev
      exact congrArg Prod.snd (Option.some.inj this)
    have hle : (u j).now ≤ (u (k + 1)).now := hmono hj.le
    rw [← hnow, Instant.durationSince] at hfor
    refine ⟨j, hj.le, Nat.add_le_of_le_sub' hle hfor, fun i hji hik => ?_⟩
    rcases Nat.lt_or_eq_of_le hik with hik | rfl
    · exact hall i hji hik
    · exact hobs

/-- A tick of standby `1` at second `s` that reaches no peer. -/
def isolatedTick (s : ℕ) (read : Option ClusterState) : TickInput where
  now := secs s
  readTook := 0
  readResult := read
  db := detachedStandby 100
  ends := fun _ => .late
  takeover := .ok (.won ⟨1, 7, 0⟩)
  random := 0

/-- Node `2` holds the lease and is not seen serving, until node `1` takes it. -/
def steadyRun (k : ℕ) : TickInput :=
  isolatedTick (10 * k) (some (if k ≤ 4 then leaseOf 2 6 else leaseOf 1 7))

theorem observedUnhealthy_steadyRun (k : ℕ) :
    observedUnhealthy ⟨threeNodes 1, defaultTiming⟩ (steadyRun k) =
      if k ≤ 4 then some (2, 6) else none := by
  unfold steadyRun
  split <;> rfl

theorem takeoverHysteresis_steady :
    ∃ j ≤ 4, (steadyRun j).now + secs 30 ≤ (steadyRun 4).now ∧
      ∀ i, j ≤ i → i ≤ 4 →
        observedUnhealthy ⟨threeNodes 1, defaultTiming⟩ (steadyRun i) = some (2, 6) := by
  refine takeoverHysteresis ⟨threeNodes 1, defaultTiming⟩ steadyRun ?_ ?_ 4 1 2 6 (by decide)
  · intro j k hjk
    exact Nat.mul_le_mul_right _ (Nat.mul_le_mul_left 10 hjk)
  · intro k h since _
    simp only [observedUnhealthy_steadyRun]
    constructor
    · unfold steadyRun
      split
      · exact ⟨_, _, rfl, rfl, rfl⟩
      · exact ⟨_, _, rfl, rfl, rfl⟩
    · intro t ht
      split at ht
      · rwa [if_pos (by omega)]
      · cases ht

/-- Node `2` is seen down under term `5`; half a minute later it holds the lease under
term `6`. -/
def relapsedRun : ℕ → TickInput
  | 0 => isolatedTick 0 (some (leaseOf 2 5))
  | 1 => isolatedTick 31 (some (leaseOf 2 6))
  | _ => isolatedTick 41 (some (leaseOf 2 6))

/-- Ten seconds after it was first seen, term `6` is taken from node `2`. -/
theorem not_takeoverHysteresis_relapsed :
    (Monotone fun k => (relapsedRun k).now) ∧
      ¬ TakeoverHysteresis ⟨threeNodes 1, defaultTiming⟩ relapsedRun := by
  constructor
  · refine monotone_nat_of_le_succ fun k => ?_
    match k with
    | 0 => exact Nat.zero_le _
    | 1 => exact Nat.mul_le_mul_right _ (by decide)
    | k + 2 => exact le_rfl
  · intro h
    obtain ⟨j, hj, hnow, hall⟩ := h 2 1 2 6 (by decide)
    obtain rfl | rfl | rfl : j = 0 ∨ j = 1 ∨ j = 2 := by omega
    · exact absurd (hall 0 le_rfl (by decide)) (by decide)
    · exact absurd hnow (by decide)
    · exact absurd hnow (by decide)

/-! ## The position sample -/

/-- What the stability gate is for: a tick proposes only right after a tick that sampled
the same positions of the same nodes. -/
def StabilityGate (ha : HaLoop) (u : ℕ → TickInput) : Prop :=
  ∀ k cand expected, .tryTakeover cand expected ∈ (ha.tickAt u k).calls →
    ∃ i m m', k = i + 1 ∧ (ha.tickAt u i).sample = some m ∧
      (ha.tickAt u k).sample = some m' ∧
      ∀ id, m.lookup id = m'.lookup id

/-- The tick gets past every gate below the stability gate, and so samples. -/
def ReachesSample (ha : HaLoop) (ts : TickState) (inp : TickInput) : Prop :=
  ∃ expected, Evaluates ha ts inp expected ∧
    GatesOpen ha ts expected (observeLocal inp.db) (observePeers ha.pool inp.ends) inp.now

/-- The tick reads the local node's own lease, or that of a holder it sees serving. -/
def SeesLiveLease (ha : HaLoop) (inp : TickInput) : Prop :=
  ∃ st lease, inp.read ha.timing = some st ∧ st.paused = none ∧ st.lease = some lease ∧
    (lease.holder = ha.localId ∨
      holderHealthy (observePeers ha.pool inp.ends) lease.holder = true)

theorem SeesLiveLease.seesLease {inp : TickInput} (h : SeesLiveLease ha inp) :
    SeesLease ha inp := by
  obtain ⟨st, lease, hread, hpaused, hlease, -⟩ := h
  exact ⟨st, lease, hread, hpaused, hlease⟩

/-- Every tick that finds a remembered sample samples again, or sees a live lease. -/
def SampleTracked (ha : HaLoop) (u : ℕ → TickInput) : Prop :=
  ∀ k, (ha.stateAt u k).settledPos ≠ ∅ →
    ReachesSample ha (ha.stateAt u k) (u k) ∨ SeesLiveLease ha (u k)

theorem sample_isSome_of_reachesSample {ts : TickState} {inp : TickInput}
    (h : ReachesSample ha ts inp) : (tickOnce ha ts inp).sample.isSome = true := by
  obtain ⟨expected, heval, hgates⟩ := h
  obtain ⟨st, ts', hb, -, hout⟩ := tickOnce_of_evaluates heval
  rw [hout, rememberHolder_sample]
  exact sample_considerCandidacy_isSome.mpr (hgates.congr hb)

theorem not_seesLiveLease {inp : TickInput} {st : ClusterState} {lease : Lease}
    (hread : inp.read ha.timing = some st) (hlease : st.lease = some lease)
    (hother : lease.holder ≠ ha.localId)
    (hunhealthy : holderHealthy (observePeers ha.pool inp.ends) lease.holder = false) :
    ¬ SeesLiveLease ha inp := by
  rintro ⟨st', lease', hread', -, hlease', hlive⟩
  obtain rfl := Option.some.inj (hread.symm.trans hread')
  obtain rfl := Option.some.inj (hlease.symm.trans hlease')
  rcases hlive with hown | hhealthy
  · exact hother hown
  · rw [hunhealthy] at hhealthy
    cases hhealthy

/-- A tick that samples remembers the sample; one that sees a live lease forgets it; any
other leaves it in place. -/
theorem next_settledPos (ha : HaLoop) (ts : TickState) (inp : TickInput) :
    (tickOnce ha ts inp).state.settledPos = ∅ ∨
    (¬ SeesLiveLease ha inp ∧ (tickOnce ha ts inp).state.settledPos =
      (tickOnce ha ts inp).sample.getD ts.settledPos) := by
  cases tickPath ha ts inp with
  | unknown hread hout =>
    refine Or.inr ⟨fun h => not_seesLease_of_failed hread h.seesLease, ?_⟩
    obtain ⟨d, hunknown⟩ := onStoreUnknown_spec ha ts inp.now
    rw [hout, hunknown]
    rfl
  | paused st hread hp hout =>
    exact Or.inr ⟨fun h => not_seesLease_of_paused hread hp h.seesLease, by rw [hout]; rfl⟩
  | holding st lease hread hp hl hown hout =>
    obtain ⟨held, since, until', hstate, -⟩ :=
      holdingLease_spec ha ts.known lease (observeLocal inp.db) inp
    exact Or.inl (by rw [hout, rememberHolder_settledPos, hstate])
  | healthy st lease hread hp hl hother hh d hd hout => exact Or.inl (by rw [hout]; rfl)
  | watching st lease hread hp hl hother hh hfor hout =>
    refine Or.inr ⟨?_, by rw [hout]; rfl⟩
    exact not_seesLiveLease hread hl hother hh
  | deposing st lease hread hp hl hother hh hfor hout =>
    obtain ⟨until', hstate⟩ :=
      considerCandidacy_state ha (ts.known.watching lease.holder inp.now)
      (some (lease.holder, lease.term)) (observeLocal inp.db) (observePeers ha.pool inp.ends) inp
    refine Or.inr ⟨not_seesLiveLease hread hl hother hh, ?_⟩
    rw [hout, rememberHolder_settledPos, hstate]
    rfl
  | bootstrapGap st hread hp hl hprim reason hout =>
    exact Or.inr ⟨fun h => not_seesLease_of_vacant hread hl h.seesLease, by rw [hout]; rfl⟩
  | claiming st hread hp hl hprim hout =>
    obtain ⟨until', hstate⟩ := considerCandidacy_state ha ts.known none (observeLocal inp.db)
      (observePeers ha.pool inp.ends) inp
    refine Or.inr ⟨fun h => not_seesLease_of_vacant hread hl h.seesLease, ?_⟩
    rw [hout, rememberHolder_settledPos, hstate]
    rfl

/-- The remembered sample is the one of the tick before. -/
theorem settledPos_eq_last_sample (htrack : SampleTracked ha u)
    (hne : (ha.stateAt u k).settledPos ≠ ∅) :
    ∃ i, k = i + 1 ∧ (ha.tickAt u i).sample = some (ha.stateAt u k).settledPos := by
  cases k with
  | zero => exact absurd rfl hne
  | succ k =>
    refine ⟨k, rfl, ?_⟩
    rw [HaLoop.stateAt_succ] at hne ⊢
    rcases next_settledPos ha (ha.stateAt u k) (u k) with hempty | ⟨hlive, hnext⟩
    · exact absurd hempty hne
    · cases hsample : (ha.tickAt u k).sample with
      | some m =>
        rw [HaLoop.tickAt] at hsample ⊢
        rw [hnext, hsample]
        rfl
      | none =>
        -- nothing was sampled, so a sample was there already, and this tick had to renew it
        rw [HaLoop.tickAt] at hsample hne
        rw [hnext, hsample, Option.getD_none] at hne
        rcases htrack k hne with hreach | hlive'
        · have hsome := sample_isSome_of_reachesSample hreach
          rw [hsample] at hsome
          cases hsome
        · exact absurd hlive' hlive

/-- The sample of a proposing tick has the local node's position, so the remembered one,
which it agrees with, does too. -/
theorem Proposes.settledPos_ne_empty {ts : TickState} {inp : TickInput}
    {expected : Option (NodeId × UInt64)} (h : Proposes ha ts inp expected) :
    ts.settledPos ≠ ∅ := by
  intro hempty
  obtain ⟨my, -, hclear, -⟩ := h.cleared
  have hsame := sampleStable_iff.mp ⟨hclear.stable, hclear.present⟩
  have hsome : ((currentPositions ha.localId my
      (observePeers ha.pool inp.ends)).lookup ha.localId).isSome = true :=
    isSome_lookup_currentPositions (Or.inl rfl)
  rw [← hsame, hempty] at hsome
  cases hsome

/-- Along a run whose ticks all renew or drop the remembered sample, a proposal comes
right after a tick that sampled the same positions. -/
theorem stabilityGate (ha : HaLoop) (u : ℕ → TickInput) (htrack : SampleTracked ha u) :
    StabilityGate ha u := by
  intro k cand expected hcall
  obtain ⟨-, hprop⟩ := proposes_of_mem_calls hcall
  obtain ⟨my, -, hclear, hsample⟩ := hprop.cleared
  have hsame := sampleStable_iff.mp ⟨hclear.stable, hclear.present⟩
  obtain ⟨i, rfl, hlast⟩ := settledPos_eq_last_sample htrack hprop.settledPos_ne_empty
  exact ⟨i, _, _, rfl, hlast, hsample, hsame⟩

theorem stabilityGate_steady :
    ∃ i m m', 4 = i + 1 ∧
      (HaLoop.tickAt ⟨threeNodes 1, defaultTiming⟩ steadyRun i).sample = some m ∧
      (HaLoop.tickAt ⟨threeNodes 1, defaultTiming⟩ steadyRun 4).sample = some m' ∧
      ∀ id, m.lookup id = m'.lookup id := by
  refine stabilityGate ⟨threeNodes 1, defaultTiming⟩ steadyRun ?_ 4 1 (some (2, 6)) (by decide)
  intro k hne
  by_cases hk : k ≤ 4
  · obtain rfl | rfl | rfl | rfl | rfl : k = 0 ∨ k = 1 ∨ k = 2 ∨ k = 3 ∨ k = 4 := by omega
    · exact absurd rfl hne
    · exact absurd rfl hne
    · exact absurd rfl hne
    · exact absurd rfl hne
    · refine Or.inl ⟨some (2, 6), ?_, ?_⟩
      · exact .deposing (leaseOf 2 6) ⟨2, 6, 0⟩ rfl rfl rfl (by decide) (by decide) (by decide)
      · exact ⟨by decide, by decide, by decide, by decide, by rfl, by decide⟩
  · refine Or.inr ⟨leaseOf 1 7, ⟨1, 7, 0⟩, ?_, rfl, rfl, Or.inl rfl⟩
    unfold steadyRun
    rw [if_neg hk]
    rfl

/-- The holder is down; the node samples, loses sight of the store for a tick, and is
back. -/
def gapRun : ℕ → TickInput
  | 0 => isolatedTick 0 (some (leaseOf 2 6))
  | 1 => isolatedTick 30 (some (leaseOf 2 6))
  | 2 => isolatedTick 40 none
  | _ => isolatedTick 50 (some (leaseOf 2 6))

/-- The sample from before the gap lets the proposal through. -/
theorem not_stabilityGate_gap : ¬ StabilityGate ⟨threeNodes 1, defaultTiming⟩ gapRun := by
  intro h
  obtain ⟨i, m, m', hi, hsample, -⟩ := h 3 1 (some (2, 6)) (by decide)
  obtain rfl : i = 2 := by omega
  cases hsample

/-! ## Fencing on an unknown store -/

/-- Tick `j` is the most recent tick before `k` whose store read succeeded. -/
structure LastRead (ha : HaLoop) (u : ℕ → TickInput) (j k : ℕ) : Prop where
  lt : j < k
  succeeded : ((u j).read ha.timing).isSome = true
  failing : ∀ i, j < i → i < k → (u i).read ha.timing = none

/-- Tick `j` showed the local node as the holder: its read did, paused or not, or the
takeover it then proposed was won. -/
def ShowsLocalHolder (ha : HaLoop) (u : ℕ → TickInput) (j : ℕ) : Prop :=
  (∃ st lease, (u j).read ha.timing = some st ∧ st.lease = some lease ∧
    lease.holder = ha.localId) ∨
  ∃ term already, (ha.tickAt u j).decision = .tookOver term already

/-- What an unknown store must mean.  A failed read fences only a node that was last
shown to hold the lease, and only after more than `retry_timeout` of failed reads; and
it does fence a node whose last read, unpaused, showed it as the holder. -/
def UnknownFencing (ha : HaLoop) (u : ℕ → TickInput) : Prop :=
  ∀ k, (u k).read ha.timing = none →
    (∀ reason, (ha.tickAt u k).decision = .wouldDemote reason →
      ∃ j, LastRead ha u j k ∧ ShowsLocalHolder ha u j ∧
        (u (j + 1)).now + ha.timing.retryTimeout < (u k).now) ∧
    (∀ j st lease, LastRead ha u j k → (u j).read ha.timing = some st → st.paused = none →
      st.lease = some lease → lease.holder = ha.localId →
      (u (j + 1)).now + ha.timing.retryTimeout < (u k).now →
      ∃ reason, (ha.tickAt u k).decision = .wouldDemote reason)

/-- Every paused read of a node that remembers itself as the holder still shows it as
the holder. -/
def HolderTracked (ha : HaLoop) (u : ℕ → TickInput) : Prop :=
  ∀ k st, (ha.stateAt u k).lastHolder = some ha.localId → (u k).read ha.timing = some st →
    st.paused.isSome = true → ∃ lease, st.lease = some lease ∧ lease.holder = ha.localId

theorem tickOnce_of_failed {ts : TickState} {inp : TickInput}
    (hread : inp.read ha.timing = none) : tickOnce ha ts inp = onStoreUnknown ha ts inp.now := by
  rw [tickOnce, hread]

theorem next_lastHolder_of_failed (ts : TickState) {inp : TickInput}
    (hread : inp.read ha.timing = none) :
    (tickOnce ha ts inp).state.lastHolder = ts.lastHolder := by
  obtain ⟨d, hunknown⟩ := onStoreUnknown_spec ha ts inp.now
  rw [tickOnce_of_failed hread, hunknown]

theorem next_lastHolder_of_paused (ts : TickState) {inp : TickInput} {st : ClusterState}
    (hread : inp.read ha.timing = some st) (hpaused : st.paused.isSome = true) :
    (tickOnce ha ts inp).state.lastHolder = ts.lastHolder := by
  rw [tickOnce, hread]
  simp [hpaused]

theorem next_lastHolder_of_read (ts : TickState) {inp : TickInput} {st : ClusterState}
    (hread : inp.read ha.timing = some st) (hpaused : st.paused = none) :
    (tickOnce ha ts inp).state.lastHolder =
      committedHolder ha.localId st (tickOnce ha ts inp).decision := by
  rw [tickOnce_of_read ts hread hpaused]
  rfl

theorem next_storeUnknownSince_of_failed (ts : TickState) {inp : TickInput}
    (hread : inp.read ha.timing = none) :
    (tickOnce ha ts inp).state.storeUnknownSince =
      some (ts.storeUnknownSince.getD inp.now) := by
  obtain ⟨d, hunknown⟩ := onStoreUnknown_spec ha ts inp.now
  rw [tickOnce_of_failed hread, hunknown]

theorem next_storeUnknownSince_of_read (ts : TickState) {inp : TickInput} {st : ClusterState}
    (hread : inp.read ha.timing = some st) :
    (tickOnce ha ts inp).state.storeUnknownSince = none := by
  cases tickPath ha ts inp with
  | unknown hread' hout =>
    rw [hread] at hread'
    cases hread'
  | paused st' hread' hp hout =>
    rw [hout]
    rfl
  | holding st' lease hread' hp hl hown hout =>
    obtain ⟨held, since, until', hstate, -⟩ :=
      holdingLease_spec ha ts.known lease (observeLocal inp.db) inp
    rw [hout, rememberHolder_storeUnknownSince, hstate]
    rfl
  | healthy st' lease hread' hp hl hother hh d hd hout =>
    rw [hout]
    rfl
  | watching st' lease hread' hp hl hother hh hfor hout =>
    rw [hout]
    rfl
  | deposing st' lease hread' hp hl hother hh hfor hout =>
    obtain ⟨until', hstate⟩ :=
      considerCandidacy_state ha (ts.known.watching lease.holder inp.now)
      (some (lease.holder, lease.term)) (observeLocal inp.db) (observePeers ha.pool inp.ends) inp
    rw [hout, rememberHolder_storeUnknownSince, hstate]
    rfl
  | bootstrapGap st' hread' hp hl hprim reason hout =>
    rw [hout]
    rfl
  | claiming st' hread' hp hl hprim hout =>
    obtain ⟨until', hstate⟩ := considerCandidacy_state ha ts.known none (observeLocal inp.db)
      (observePeers ha.pool inp.ends) inp
    rw [hout, rememberHolder_storeUnknownSince, hstate]
    rfl

/-- Since the last successful read, the store has been unknown from the first tick
after it. -/
theorem storeUnknownSince_of_lastRead {j : ℕ} (h : LastRead ha u j k) :
    (ha.stateAt u k).storeUnknownSince.getD (u k).now = (u (j + 1)).now := by
  have hstart : (ha.stateAt u (j + 1)).storeUnknownSince = none := by
    obtain ⟨st, hst⟩ := Option.isSome_iff_exists.mp h.succeeded
    exact next_storeUnknownSince_of_read _ hst
  -- from the second failed tick on, the field names the first one
  have hlater : ∀ k, j + 1 < k → (∀ i, j < i → i < k → (u i).read ha.timing = none) →
      (ha.stateAt u k).storeUnknownSince = some (u (j + 1)).now := by
    intro k hk
    induction k, hk using Nat.le_induction with
    | base =>
      intro hfail
      rw [HaLoop.stateAt_succ, HaLoop.tickAt,
        next_storeUnknownSince_of_failed _ (hfail (j + 1) (by omega) (by omega)), hstart]
      rfl
    | succ k hk ih =>
      intro hfail
      rw [HaLoop.stateAt_succ, HaLoop.tickAt,
        next_storeUnknownSince_of_failed _ (hfail k (by omega) (by omega)),
        ih fun i hji hik => hfail i hji (by omega)]
      rfl
  rcases Nat.lt_or_eq_of_le (Nat.succ_le_of_lt h.lt) with hlt | heq
  · rw [hlater k hlt h.failing]
    rfl
  · subst heq
    rw [hstart]
    rfl

theorem lastHolder_of_lastRead {j : ℕ} (h : LastRead ha u j k) :
    (ha.stateAt u k).lastHolder = (ha.stateAt u (j + 1)).lastHolder := by
  refine Trace.eq_of_frame (g := TickState.lastHolder) (Nat.succ_le_of_lt h.lt) fun i hji hik => ?_
  exact next_lastHolder_of_failed _ (h.failing i hji hik)

/-- A node whose last read, unpaused, showed it as the holder remembers that. -/
theorem lastHolder_of_shown {j : ℕ} {st : ClusterState} {lease : Lease} (h : LastRead ha u j k)
    (hst : (u j).read ha.timing = some st) (hpaused : st.paused = none)
    (hlease : st.lease = some lease) (hown : lease.holder = ha.localId) :
    (ha.stateAt u k).lastHolder = some ha.localId := by
  rw [lastHolder_of_lastRead h, HaLoop.stateAt_succ, HaLoop.tickAt,
    next_lastHolder_of_read _ hst hpaused]
  unfold committedHolder
  split
  · rfl
  · rw [hlease, Option.map_some, hown]

/-- A failing tick fences exactly a node that remembers itself as the holder, once the
failures have lasted longer than `retry_timeout`. -/
theorem decision_of_failed {j : ℕ} (h : LastRead ha u j k)
    (hread : (u k).read ha.timing = none) :
    (∃ reason, (ha.tickAt u k).decision = .wouldDemote reason) ↔
      (ha.stateAt u k).lastHolder = some ha.localId ∧
        (u (j + 1)).now + ha.timing.retryTimeout < (u k).now := by
  rw [HaLoop.tickAt, tickOnce_of_failed hread, onStoreUnknown]
  simp only [storeUnknownSince_of_lastRead h, Instant.durationSince, gt_iff_lt,
    Nat.lt_sub_iff_add_lt']
  split
  · rename_i hcond
    exact iff_of_true ⟨_, rfl⟩ hcond
  · rename_i hcond
    refine iff_of_false ?_ hcond
    rintro ⟨reason, hreason⟩
    cases hreason

/-- A node remembers itself as the holder because its last successful read, or the
takeover it then won, said so. -/
theorem exists_lastRead_of_lastHolder (htrack : HolderTracked ha u)
    (hlast : (ha.stateAt u k).lastHolder = some ha.localId) :
    ∃ j, LastRead ha u j k ∧ ShowsLocalHolder ha u j := by
  induction k with
  | zero => cases hlast
  | succ k ih =>
    rw [HaLoop.stateAt_succ, HaLoop.tickAt] at hlast
    cases hread : (u k).read ha.timing with
    | none =>
      rw [next_lastHolder_of_failed _ hread] at hlast
      obtain ⟨j, hj, hshows⟩ := ih hlast
      refine ⟨j, ⟨Nat.lt_succ_of_lt hj.lt, hj.succeeded, fun i hji hik => ?_⟩, hshows⟩
      rcases Nat.lt_succ_iff_lt_or_eq.mp hik with hik | rfl
      · exact hj.failing i hji hik
      · exact hread
    | some st =>
      refine ⟨k, ⟨Nat.lt_succ_self k, by rw [hread]; rfl, fun i hki hik => by omega⟩, ?_⟩
      cases hp : st.paused with
      | some p =>
        have hpaused : st.paused.isSome = true := by rw [hp]; rfl
        rw [next_lastHolder_of_paused _ hread hpaused] at hlast
        obtain ⟨lease, hl, hown⟩ := htrack k st hlast hread hpaused
        exact Or.inl ⟨st, lease, hread, hl, hown⟩
      | none =>
        rw [next_lastHolder_of_read _ hread hp] at hlast
        unfold committedHolder at hlast
        split at hlast
        · rename_i term already hdec
          exact Or.inr ⟨term, already, hdec⟩
        · obtain ⟨lease, hl, hown⟩ := Option.map_eq_some_iff.mp hlast
          exact Or.inl ⟨st, lease, hread, hl, hown⟩

/-- Along a run in which no paused read takes the lease away from a node that remembers
holding it, an unknown store means what it must. -/
theorem unknownFencing (ha : HaLoop) (u : ℕ → TickInput) (htrack : HolderTracked ha u) :
    UnknownFencing ha u := by
  intro k hread
  constructor
  · intro reason hdec
    have hlast : (ha.stateAt u k).lastHolder = some ha.localId := by
      rw [HaLoop.tickAt, tickOnce_of_failed hread, onStoreUnknown] at hdec
      dsimp only at hdec
      split at hdec
      · rename_i hcond
        exact hcond.1
      · cases hdec
    obtain ⟨j, hj, hshows⟩ := exists_lastRead_of_lastHolder htrack hlast
    exact ⟨j, hj, hshows, ((decision_of_failed hj hread).mp ⟨reason, hdec⟩).2⟩
  · intro j st lease hj hst hpaused hlease hown hlong
    exact (decision_of_failed hj hread).mpr ⟨lastHolder_of_shown hj hst hpaused hlease hown,
      hlong⟩

/-- Node `1` reads its own lease and then loses the store. -/
def partitionedRun : ℕ → TickInput
  | 0 => isolatedTick 0 (some (leaseOf 1 7))
  | k + 1 => isolatedTick (10 * (k + 1)) none

theorem unknownFencing_partitioned :
    ∃ reason, (HaLoop.tickAt ⟨threeNodes 1, defaultTiming⟩ partitionedRun 3).decision =
      .wouldDemote reason := by
  refine ((unknownFencing ⟨threeNodes 1, defaultTiming⟩ partitionedRun ?_) 3 rfl).2 0
    (leaseOf 1 7) ⟨1, 7, 0⟩ ⟨by decide, rfl, ?_⟩ rfl rfl rfl rfl (by decide)
  · rintro (_ | k) st - hread hpaused
    · cases hread
      cases hpaused
    · cases hread
  · rintro (_ | i) hi -
    · exact absurd hi (lt_irrefl 0)
    · rfl

/-- Node `1` holds the lease; the cluster is paused, and the read shows that node `2`
holds it now; then the store is lost. -/
def pausedRun : ℕ → TickInput
  | 0 => isolatedTick 0 (some (leaseOf 1 7))
  | 1 => isolatedTick 10 (some { leaseOf 2 8 with paused := some ⟨"upgrade", "ops", 0⟩ })
  | 2 => isolatedTick 20 none
  | _ => isolatedTick 31 none

/-- Node `1` is fenced although its last read showed another holder. -/
theorem not_unknownFencing_paused :
    ¬ UnknownFencing ⟨threeNodes 1, defaultTiming⟩ pausedRun := by
  intro h
  obtain ⟨j, hj, hshows, -⟩ := (h 3 rfl).1 _ rfl
  obtain ⟨hlt, hsome, hfail⟩ := hj
  obtain rfl | rfl | rfl : j = 0 ∨ j = 1 ∨ j = 2 := by omega
  · cases hfail 1 (by decide) (by decide)
  · rcases hshows with ⟨st, lease, hread, hlease, hown⟩ | ⟨term, already, hdec⟩
    · cases hread
      cases hlease
      exact absurd hown (by decide)
    · cases hdec
  · cases hsome

end PgAgent
