import PgAgent.Ha.Run
import PgAgent.RoleExec.StalePrimary

/-!
# What a pause suspends

`cluster pause` sets a flag in the replicated state, and a tick that reads it does
nothing.  A tick that cannot read the store does not know about the flag.  It still knows
who held the lease when it last read it unpaused, and a node that remembers itself there
escalates an unknown store to a fence.

A pause lasts, for one node, from a tick that reads the flag to the next tick that reads
the store without it (`InPause`).  Neither a paused nor a failing read touches the
remembered holder, so the memory that decides the escalation is the one from before the
pause (`lastHolder_of_inPause`).  `pauseAbsolute_iff` puts the two together: along a run,
nothing is done in a pause exactly when no failing read comes later than `retry_timeout`
after the first failing one on a node that held the lease when the pause began.
-/

namespace PgAgent

open Rust

/-- The actions that promote, stop, re-point or detach PostgreSQL. -/
def ExecAction.actsOnRole : ExecAction → Bool
  | .promoteAndWait _ _ => true
  | .pgPromote => true
  | .ensureStopped => true
  | .stopReceiving => true
  | .follow _ => true
  | _ => false

/-- The tick reads an unpaused state. -/
def ReadsUnpaused (ha : HaLoop) (inp : TickInput) : Prop :=
  ∃ st, inp.read ha.timing = some st ∧ st.paused = none

/-- Tick `p` read the pause, and no tick since then, up to `k`, has read the store without
it. -/
structure InPause (ha : HaLoop) (u : ℕ → TickInput) (p k : ℕ) : Prop where
  le : p ≤ k
  paused : ∃ st, (u p).read ha.timing = some st ∧ st.paused.isSome = true
  since : ∀ i, p ≤ i → i ≤ k → ¬ ReadsUnpaused ha (u i)

/-- In a pause, neither the loop nor the executor after it does anything: no takeover or
release is sent to the store, and no action promotes, stops, re-points or detaches
PostgreSQL. -/
def PauseAbsolute (ha : HaLoop) (rx : RoleExecutor) (u : ℕ → TickInput) (es : ℕ → ExecState)
    (w : ℕ → ExecInput) : Prop :=
  ∀ p k, InPause ha u p k → (ha.tickAt u k).calls = [] ∧
    ∀ a ∈ (rx.apply (es k) (w k) (ha.tickAt u k).decision).2, a.actsOnRole = false

/-- No outage of the store in a pause outlasts `retry_timeout` on a node that remembered
itself as the holder when the pause began. -/
def OutagesWithinBudget (ha : HaLoop) (u : ℕ → TickInput) : Prop :=
  ∀ p j k, InPause ha u p k → LastRead ha u j k → (u k).read ha.timing = none →
    (ha.stateAt u p).lastHolder = some ha.localId →
    (u k).now ≤ (u (j + 1)).now + ha.timing.retryTimeout

variable {ha : HaLoop} {u : ℕ → TickInput} {p k : ℕ}

/-- Before a tick after a successful read there is a last successful read. -/
theorem exists_lastRead (hpk : p < k) (hp : ((u p).read ha.timing).isSome = true) :
    ∃ j, LastRead ha u j k := by
  induction k, hpk using Nat.le_induction with
  | base =>
    exact ⟨p, Nat.lt_succ_self p, hp, fun i hi hik => by omega⟩
  | succ k hpk ih =>
    cases hread : (u k).read ha.timing with
    | some st => exact ⟨k, Nat.lt_succ_self k, by rw [hread]; rfl, fun i hi hik => by omega⟩
    | none =>
      obtain ⟨j, hj⟩ := ih
      refine ⟨j, Nat.lt_succ_of_lt hj.lt, hj.succeeded, fun i hi hik => ?_⟩
      rcases Nat.lt_succ_iff_lt_or_eq.mp hik with hik | rfl
      · exact hj.failing i hi hik
      · exact hread

/-- A tick in a pause reads the pause or fails to read. -/
theorem InPause.read_cases (h : InPause ha u p k) {i : ℕ} (hpi : p ≤ i) (hik : i ≤ k) :
    (u i).read ha.timing = none ∨
      ∃ st, (u i).read ha.timing = some st ∧ st.paused.isSome = true := by
  cases hread : (u i).read ha.timing with
  | none => exact Or.inl rfl
  | some st =>
    refine Or.inr ⟨st, rfl, ?_⟩
    cases hp : st.paused with
    | some pause => rfl
    | none => exact absurd ⟨st, hread, hp⟩ (h.since i hpi hik)

/-- A pause does not change who is remembered as the holder. -/
theorem lastHolder_of_inPause (h : InPause ha u p k) :
    (ha.stateAt u k).lastHolder = (ha.stateAt u p).lastHolder := by
  refine Trace.eq_of_frame (g := TickState.lastHolder) h.le fun i hpi hik => ?_
  rcases h.read_cases hpi hik.le with hread | ⟨st, hread, hpaused⟩
  · exact next_lastHolder_of_failed _ hread
  · exact next_lastHolder_of_paused _ hread hpaused

/-- A failing read is preceded by the read that showed the pause. -/
theorem InPause.exists_lastRead (h : InPause ha u p k) (hread : (u k).read ha.timing = none) :
    ∃ j, LastRead ha u j k := by
  obtain ⟨st, hst, -⟩ := h.paused
  have hpk : p < k := by
    rcases Nat.lt_or_eq_of_le h.le with hlt | rfl
    · exact hlt
    · rw [hread] at hst
      cases hst
  exact PgAgent.exists_lastRead hpk (by rw [hst]; rfl)

/-- A failing tick makes no store call, and decides to demote or to do nothing. -/
theorem tickAt_of_failed (hread : (u k).read ha.timing = none) :
    (ha.tickAt u k).calls = [] ∧
      ((∃ reason, (ha.tickAt u k).decision = .wouldDemote reason) ∨
        ∃ unknownFor, (ha.tickAt u k).decision = .storeUnknown unknownFor) := by
  rw [HaLoop.tickAt, tickOnce_of_failed hread, onStoreUnknown]
  dsimp only
  split
  · exact ⟨rfl, Or.inl ⟨_, rfl⟩⟩
  · exact ⟨rfl, Or.inr ⟨_, rfl⟩⟩

/-- A paused tick makes no store call and decides to do nothing. -/
theorem tickAt_of_paused {st : ClusterState} (hread : (u k).read ha.timing = some st)
    (hpaused : st.paused.isSome = true) :
    (ha.tickAt u k).calls = [] ∧ (ha.tickAt u k).decision = .paused := by
  rw [HaLoop.tickAt, tickOnce, hread]
  simp [hpaused]

/-- Pause: **along a run nothing is done in a pause exactly when no store outage in it
outlasts `retry_timeout` on a node that held the lease when the pause began**. -/
theorem pauseAbsolute_iff (ha : HaLoop) (rx : RoleExecutor) (u : ℕ → TickInput)
    (es : ℕ → ExecState) (w : ℕ → ExecInput) :
    PauseAbsolute ha rx u es w ↔ OutagesWithinBudget ha u := by
  constructor
  · intro h p j k hin hj hread hheld
    by_contra hlong
    -- a longer outage demotes, and a demote stops PostgreSQL
    have hlast : (ha.stateAt u k).lastHolder = some ha.localId := by
      rw [lastHolder_of_inPause hin, hheld]
    obtain ⟨reason, hreason⟩ :=
      (decision_of_failed hj hread).mpr ⟨hlast, Nat.lt_of_not_le hlong⟩
    have hstop : .ensureStopped ∈ (rx.apply (es k) (w k) (ha.tickAt u k).decision).2 :=
      stops_iff_mem_apply.mpr (Or.inl ⟨reason, hreason⟩)
    exact absurd ((h p k hin).2 _ hstop) (by decide)
  · intro h p k hin
    rcases hin.read_cases hin.le le_rfl with hread | ⟨st, hread, hpaused⟩
    · obtain ⟨hcalls, ⟨reason, hdec⟩ | ⟨unknownFor, hdec⟩⟩ := tickAt_of_failed hread
      · exfalso
        obtain ⟨j, hj⟩ := hin.exists_lastRead hread
        obtain ⟨hlast, hlong⟩ := (decision_of_failed hj hread).mp ⟨reason, hdec⟩
        rw [lastHolder_of_inPause hin] at hlast
        exact absurd (h p j k hin hj hread hlast) (Nat.not_le_of_lt hlong)
      · rw [hdec]
        exact ⟨hcalls, fun a ha' => absurd ha' List.not_mem_nil⟩
    · obtain ⟨hcalls, hdec⟩ := tickAt_of_paused hread hpaused
      rw [hdec]
      exact ⟨hcalls, fun a ha' => absurd ha' List.not_mem_nil⟩

/-- Node `1` holds the lease; the cluster is paused; then node `1` loses the store for more
than the retry timeout. -/
def pausedHolderRun : ℕ → TickInput
  | 0 => isolatedTick 0 (some (leaseOf 1 7))
  | 1 => isolatedTick 10 (some { leaseOf 1 7 with paused := some ⟨"upgrade", "ops", 0⟩ })
  | 2 => isolatedTick 20 none
  | _ => isolatedTick 31 none

/-- The paused primary is stopped. -/
theorem pausedHolder_stopped :
    ¬ PauseAbsolute ⟨threeNodes 1, defaultTiming⟩ (threeNodeExecutor 1) pausedHolderRun
      (fun _ => ExecState.new) (fun _ => primaryExecInput) := by
  intro h
  have hin : InPause ⟨threeNodes 1, defaultTiming⟩ pausedHolderRun 1 3 := by
    refine ⟨by decide, ⟨_, rfl, rfl⟩, fun i hi hi' => ?_⟩
    rintro ⟨st, hread, hpaused⟩
    obtain rfl | rfl | rfl : i = 1 ∨ i = 2 ∨ i = 3 := by omega
    · cases hread
      cases hpaused
    · cases hread
    · cases hread
  have hstop : .ensureStopped ∈ ((threeNodeExecutor 1).apply ExecState.new primaryExecInput
      (HaLoop.tickAt ⟨threeNodes 1, defaultTiming⟩ pausedHolderRun 3).decision).2 := by
    decide +kernel
  exact absurd ((h 1 3 hin).2 _ hstop) (by decide)

end PgAgent
