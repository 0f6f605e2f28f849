import PgAgent.Config.Raft
import PgAgent.Ha.Run
import PgAgent.Library.Periodic

/-!
# Demotion before takeover

`RaftConfig::validate` insists on `leader_ttl >= loop_wait + 2 * retry_timeout`, so that
a holder which lost the store has demoted before anybody may depose it.  Both sides are
loops that notice the passing of time at their ticks only, and this file works out what
the inequality is worth.

* `exists_fences` --- the holder is fenced within `demotesWithin` of losing the store;
* `le_decidesAt_of_takeover` --- nobody proposes to depose it before `takesOverAfter`;
* `fences_lateHolder` and `takeover_earlyRival` --- a holder and a rival for which these
  bounds are exact.

`demoteBeforeTakeover_iff` draws the conclusion.  A tick spends its time on the store
read, which the loop itself cuts off at `retry_timeout`, and on everything else --- the
probes, the proposal, the executor --- which nothing in the loop bounds; `overhead` is a
bound on that part.
-/

namespace PgAgent

open Rust

/-! ## Timed runs -/

/-- A tick together with the time it spends after its store read: on its observations,
and after its decision. -/
structure TimedTick where
  input : TickInput
  observeTook : Duration
  applyTook : Duration

namespace TimedTick

variable (timing : HaTiming) (tick : TimedTick)

/-- When the store read is over, one way or the other. -/
def readDoneAt : Instant := tick.input.now + min tick.input.readTook timing.retryTimeout

/-- When the tick decides, and proposes if it does. -/
def decidesAt : Instant := tick.readDoneAt timing + tick.observeTook

/-- When the decision has been acted on. -/
def endsAt : Instant := tick.decidesAt timing + tick.applyTook

/-- How long the tick takes. -/
def busy : Duration :=
  min tick.input.readTook timing.retryTimeout + tick.observeTook + tick.applyTook

theorem endsAt_eq : tick.endsAt timing = tick.input.now + tick.busy timing := by
  simp only [endsAt, decidesAt, readDoneAt, busy, Nat.add_assoc]

theorem decidesAt_le : tick.decidesAt timing ≤ tick.input.now + tick.busy timing := by
  rw [← endsAt_eq]
  exact Nat.le_add_right _ _

end TimedTick

/-- What the ticks of a timed run learn. -/
def inputs (u : ℕ → TimedTick) (k : ℕ) : TickInput := (u k).input

/-- The ticks of one loop: each starts `loop_wait` after the one before it ended, and
spends at most `overhead` outside the store read.  Time goes on. -/
structure TimedRun (timing : HaTiming) (overhead : Duration) (u : ℕ → TimedTick) : Prop where
  next : ∀ k, (u (k + 1)).input.now = (u k).endsAt timing + timing.loopWait
  overhead_le : ∀ k, (u k).observeTook + (u k).applyTook ≤ overhead
  diverges : ∀ t, ∃ k, t < (u k).input.now

/-- The holder of term `t` loses the store at `p`: its reads show its own lease up to
then, and fail from then on; one that ends at `p` may go either way. -/
structure LosesStore (ha : HaLoop) (p : Instant) (t : UInt64) (u : ℕ → TimedTick) : Prop where
  held : ReadsLease ha.timing (u 0).input ha.localId t
  reads : ∀ k, ReadsLease ha.timing (u k).input ha.localId t ∨
    (u k).input.read ha.timing = none
  before : ∀ k, (u k).readDoneAt ha.timing < p → ReadsLease ha.timing (u k).input ha.localId t
  after : ∀ k, p < (u k).readDoneAt ha.timing → (u k).input.read ha.timing = none

/-- Another node's tick sees the holder of term `t` serving up to `p`, and not from then
on; at `p` it may go either way. -/
structure Watches (ha : HaLoop) (p : Instant) (h : NodeId) (t : UInt64) (tick : TimedTick) :
    Prop where
  read : ReadsLease ha.timing tick.input h t ∨ tick.input.read ha.timing = none
  before : tick.decidesAt ha.timing < p →
    holderHealthy (observePeers ha.pool tick.input.ends) h = true
  after : p < tick.decidesAt ha.timing →
    holderHealthy (observePeers ha.pool tick.input.ends) h = false

/-- The tick fences the node because the store is unknown. -/
def Fences (ha : HaLoop) (u : ℕ → TickInput) (k : ℕ) : Prop :=
  ∃ unknownFor, (ha.tickAt u k).decision =
    .wouldDemote (.storeUnknown unknownFor ha.timing.retryTimeout)

/-- The timing law.  A holder loses the store at `p` and is not seen serving any more;
it is fenced no later than any other node proposes to depose it. -/
def DemotesBeforeTakeover (timing : HaTiming) (overhead : Duration) : Prop :=
  ∀ (holder rival : NodePool) (p : Instant) (t : UInt64) (uh ur : ℕ → TimedTick),
    TimedRun timing overhead uh → TimedRun timing overhead ur →
    LosesStore ⟨holder, timing⟩ p t uh →
    ∀ k, (∀ i ≤ k, Watches ⟨rival, timing⟩ p holder.localNodeId t (ur i)) →
      .tryTakeover rival.localNodeId (some (holder.localNodeId, t)) ∈
        (HaLoop.tickAt ⟨rival, timing⟩ (inputs ur) k).calls →
      ∃ j, Fences ⟨holder, timing⟩ (inputs uh) j ∧
        (uh j).decidesAt timing ≤ (ur k).decidesAt timing

/-- How long after losing the store a holder is fenced at the latest. -/
def HaTiming.demotesWithin (timing : HaTiming) (overhead : Duration) : Duration :=
  2 * timing.loopWait + 3 * overhead +
    (if timing.loopWait ≤ timing.retryTimeout then 3 else 2) * timing.retryTimeout

/-- How long after it stopped serving a holder is deposed at the earliest. -/
def HaTiming.takesOverAfter (timing : HaTiming) (overhead : Duration) : Duration :=
  timing.loopWait +
    Periodic.noticedAfter timing.loopWait (timing.retryTimeout + overhead) timing.leaderTtl

variable {ha : HaLoop} {overhead : Duration} {p : Instant} {t : UInt64} {u : ℕ → TimedTick}

theorem TimedRun.periodic {timing : HaTiming} (h : TimedRun timing overhead u) :
    Periodic timing.loopWait (timing.retryTimeout + overhead) (fun k => (u k).input.now)
      (fun k => (u k).busy timing) where
  next k := by
    rw [h.next k, TimedTick.endsAt_eq]
  busy_le k := by
    have hread : min (u k).input.readTook timing.retryTimeout ≤ timing.retryTimeout :=
      min_le_right _ _
    rw [TimedTick.busy, Nat.add_assoc]
    exact Nat.add_le_add hread (h.overhead_le k)
  diverges := h.diverges

/-- A tick that ends its read by `p` ends `overhead` later at most. -/
theorem TimedRun.endsAt_le {timing : HaTiming} (h : TimedRun timing overhead u) (k : ℕ)
    (hdone : (u k).readDoneAt timing ≤ p) : (u k).endsAt timing ≤ p + overhead := by
  rw [TimedTick.endsAt, TimedTick.decidesAt, Nat.add_assoc]
  exact Nat.add_le_add hdone (h.overhead_le k)

/-! ## The holder is fenced -/

/-- The last tick whose read still showed the lease. -/
theorem LosesStore.exists_last (hlose : LosesStore ha p t u)
    (hrun : TimedRun ha.timing overhead u) :
    ∃ l, ReadsLease ha.timing (u l).input ha.localId t ∧
      (u l).readDoneAt ha.timing ≤ p ∧
      ∀ k, l < k → (u k).input.read ha.timing = none := by
  obtain ⟨n, hn⟩ := hrun.diverges p
  have hfail : ∀ k, n ≤ k → (u k).input.read ha.timing = none := by
    intro k hk
    refine hlose.after k (lt_of_lt_of_le hn ?_)
    exact (hrun.periodic.monotone hk).trans (Nat.le_add_right _ _)
  have hshows : ∀ k, ((u k).input.read ha.timing).isSome = true →
      ReadsLease ha.timing (u k).input ha.localId t := by
    intro k hk
    rcases hlose.reads k with h | h
    · exact h
    · rw [h] at hk
      cases hk
  have hzero : ((u 0).input.read ha.timing).isSome = true := by
    obtain ⟨st, -, hst, -⟩ := hlose.held
    rw [hst]
    rfl
  have hlast := Nat.findGreatest_spec
    (P := fun k => ((u k).input.read ha.timing).isSome = true) (Nat.zero_le n) hzero
  refine ⟨_, hshows _ hlast, ?_, fun k hk => ?_⟩
  · by_contra hlate
    rw [hlose.after _ (not_le.mp hlate)] at hlast
    cases hlast
  · rcases Nat.lt_or_ge n k with hnk | hkn
    · exact hfail k hnk.le
    · exact Option.not_isSome_iff_eq_none.mp (Nat.findGreatest_is_greatest hk hkn)

/-- A failing tick fences exactly a node that remembers itself as the holder, once the
failures have lasted longer than `retry_timeout`. -/
theorem fences_iff_of_failed {v : ℕ → TickInput} {j k : ℕ} (h : LastRead ha v j k)
    (hread : (v k).read ha.timing = none) :
    Fences ha v k ↔ (ha.stateAt v k).lastHolder = some ha.localId ∧
      (v (j + 1)).now + ha.timing.retryTimeout < (v k).now := by
  rw [← decision_of_failed h hread, Fences, HaLoop.tickAt, tickOnce_of_failed hread,
    onStoreUnknown]
  dsimp only
  split
  · exact iff_of_true ⟨_, rfl⟩ ⟨_, rfl⟩
  · refine iff_of_false ?_ ?_
    · rintro ⟨unknownFor, hdec⟩
      cases hdec
    · rintro ⟨reason, hdec⟩
      cases hdec

/-- A holder that lost the store at `p` is fenced within `demotesWithin`. -/
theorem exists_fences (hrun : TimedRun ha.timing overhead u) (hlose : LosesStore ha p t u) :
    ∃ j, Fences ha (inputs u) j ∧
      (u j).decidesAt ha.timing ≤ p + ha.timing.demotesWithin overhead := by
  obtain ⟨l, ⟨st, lease, hst, hpaused, hlease, hown, -⟩, hdone, hfail⟩ :=
    hlose.exists_last hrun
  have hper := hrun.periodic
  -- the failures are counted from tick `l + 1`; tick `n` is the last within the budget
  obtain ⟨n, hln, hwithin, hbeyond⟩ :=
    hper.exists_crossing (Nat.le_add_right (u (l + 1)).input.now ha.timing.retryTimeout)
  have hlast : LastRead ha (inputs u) l (n + 1) :=
    ⟨by omega, by rw [inputs, hst]; rfl, fun i hli _ => hfail i hli⟩
  refine ⟨n + 1, (fences_iff_of_failed hlast (hfail _ (by omega))).mpr
    ⟨lastHolder_of_shown hlast hst hpaused hlease hown, hbeyond⟩, ?_⟩
  have hfirst : (u (l + 1)).input.now ≤ p + overhead + ha.timing.loopWait := by
    rw [hrun.next l]
    exact Nat.add_le_add_right (hrun.endsAt_le l hdone) _
  have hnext := hper.next n
  have hbusy := hper.busy_le n
  have hbusy' := hper.busy_le (n + 1)
  have hdecides := (u (n + 1)).decidesAt_le ha.timing
  by_cases hwait : ha.timing.loopWait ≤ ha.timing.retryTimeout
  · simp only [HaTiming.demotesWithin, if_pos hwait]
    grind
  · -- the wait alone exceeds the budget, so the second failing tick fences
    obtain rfl : n = l + 1 := by
      by_contra hne
      have hmono := hper.monotone (show l + 1 + 1 ≤ n by omega)
      have hsecond := hper.next (l + 1)
      grind
    simp only [HaTiming.demotesWithin, if_neg hwait]
    grind

/-! ## The rival proposes -/

section Rival

variable {h : NodeId} {k : ℕ}

theorem Watches.holder_eq {tick : TimedTick} (hwatch : Watches ha p h t tick) {h' : NodeId}
    {t' : UInt64} (hreads : ReadsLease ha.timing tick.input h' t') : h' = h := by
  obtain ⟨st', lease', hst', -, hlease', rfl, -⟩ := hreads
  rcases hwatch.read with ⟨st, lease, hst, -, hlease, rfl, -⟩ | hnone
  · obtain rfl := Option.some.inj (hst.symm.trans hst')
    rw [Option.some.inj (hlease.symm.trans hlease')]
  · rw [hst'] at hnone
    cases hnone

/-- A tick that observes the holder unhealthy decides at `p` or later. -/
theorem Watches.le_decidesAt {tick : TimedTick} (hwatch : Watches ha p h t tick) {h' : NodeId}
    {t' : UInt64} (hobs : observedUnhealthy ha tick.input = some (h', t')) :
    p ≤ tick.decidesAt ha.timing := by
  obtain ⟨hreads, hunhealthy⟩ := readsLease_of_observedUnhealthy hobs
  obtain rfl : h' = h := hwatch.holder_eq hreads
  by_contra hbefore
  rw [hwatch.before (not_le.mp hbefore)] at hunhealthy
  cases hunhealthy

/-- A rival that has its clock running started it at a tick that decided after `p`. -/
theorem watched_since (hwatch : ∀ i < k, Watches ha p h t (u i)) {h' : NodeId} {since : Instant}
    (hclock : (ha.stateAt (inputs u) k).holderUnhealthySince = some (h', since)) :
    ∃ j < k, (u j).input.now = since ∧ p ≤ (u j).decidesAt ha.timing := by
  induction k generalizing h' since with
  | zero => cases hclock
  | succ k ih =>
    have hrec : ∀ {h' since}, (ha.stateAt (inputs u) k).holderUnhealthySince =
        some (h', since) →
        ∃ j < k + 1, (u j).input.now = since ∧ p ≤ (u j).decidesAt ha.timing := by
      intro h' since hclock
      obtain ⟨j, hj, hnow⟩ := ih (fun i hi => hwatch i (Nat.lt_succ_of_lt hi)) hclock
      exact ⟨j, Nat.lt_succ_of_lt hj, hnow⟩
    rw [HaLoop.stateAt_succ] at hclock
    rcases next_holderUnhealthySince ha (ha.stateAt (inputs u) k) (u k).input with
      ⟨h₁, t₁, hobs, hnext⟩ | hnext | ⟨-, hnext⟩
    · rw [HaLoop.tickAt, inputs, hnext] at hclock
      obtain ⟨rfl, hsince⟩ := Prod.mk.inj (Option.some.inj hclock)
      rcases unhealthySince_cases (ha.stateAt (inputs u) k) h₁ (u k).input.now with hnow | hold
      · refine ⟨k, Nat.lt_succ_self k, hnow.symm.trans hsince, ?_⟩
        exact (hwatch k (Nat.lt_succ_self k)).le_decidesAt hobs
      · rw [hsince] at hold
        exact hrec hold
    · rw [HaLoop.tickAt, inputs, hnext] at hclock
      cases hclock
    · rw [HaLoop.tickAt, inputs, hnext] at hclock
      exact hrec hclock

/-- A tick at which the ttl has run out: an earlier tick `j` that decided after `p`
started the ttl before it. -/
def TtlPassed (ha : HaLoop) (p : Instant) (u : ℕ → TimedTick) (m : ℕ) : Prop :=
  ∃ j < m, p ≤ (u j).decidesAt ha.timing ∧
    (u j).input.now + ha.timing.leaderTtl ≤ (u m).input.now

/-- A tick that samples comes after the ttl. -/
theorem ttlPassed_of_sample (hrun : TimedRun ha.timing overhead u)
    (httl : 0 < ha.timing.leaderTtl) (hwatch : ∀ i ≤ k, Watches ha p h t (u i))
    (hsample : (ha.tickAt (inputs u) k).sample.isSome = true) : TtlPassed ha p u k := by
  obtain ⟨st, hst, -, hfor⟩ := watched_of_sample hsample
  obtain ⟨st', lease, hst', -, hlease, -⟩ | hnone := (hwatch k le_rfl).read
  · obtain rfl := Option.some.inj (hst'.symm.trans hst)
    have hfor := hfor lease hlease
    rcases unhealthySince_cases (ha.stateAt (inputs u) k) lease.holder (u k).input.now with
      hnow | hclock
    · -- a clock that starts now shows no time
      rw [inputs, hnow, Instant.durationSince, Nat.sub_self] at hfor
      exact absurd httl (not_lt.mpr hfor)
    · obtain ⟨j, hj, hsince, hdecides⟩ := watched_since (fun i hi => hwatch i hi.le) hclock
      rw [inputs, ← hsince, Instant.durationSince] at hfor
      exact ⟨j, hj, hdecides, Nat.add_le_of_le_sub' (hrun.periodic.monotone hj.le) hfor⟩
  · rw [inputs, hnone] at hst
    cases hst

/-- A rival that remembers a sample took it at a tick after the ttl. -/
theorem ttlPassed_of_settledPos (hrun : TimedRun ha.timing overhead u)
    (httl : 0 < ha.timing.leaderTtl) (hwatch : ∀ i < k, Watches ha p h t (u i))
    (hne : (ha.stateAt (inputs u) k).settledPos ≠ ∅) : ∃ m < k, TtlPassed ha p u m := by
  induction k with
  | zero => exact absurd rfl hne
  | succ k ih =>
    rw [HaLoop.stateAt_succ] at hne
    cases hsample : (ha.tickAt (inputs u) k).sample with
    | some sample =>
      refine ⟨k, Nat.lt_succ_self k, ?_⟩
      exact ttlPassed_of_sample hrun httl (fun i hi => hwatch i (Nat.lt_succ_of_le hi))
        (by rw [hsample]; rfl)
    | none =>
      rw [HaLoop.tickAt] at hne hsample
      rcases next_settledPos ha (ha.stateAt (inputs u) k) (inputs u k) with hempty | ⟨-, hnext⟩
      · exact absurd hempty hne
      · rw [hnext, hsample, Option.getD_none] at hne
        obtain ⟨m, hm, hpassed⟩ := ih (fun i hi => hwatch i (Nat.lt_succ_of_lt hi)) hne
        exact ⟨m, Nat.lt_succ_of_lt hm, hpassed⟩

/-- Nobody proposes to depose a holder that stopped serving at `p` before
`takesOverAfter`: the ttl has to run out, and one more tick to confirm the sample. -/
theorem le_decidesAt_of_takeover (hrun : TimedRun ha.timing overhead u)
    (hretry : 0 < ha.timing.retryTimeout) (httl : 0 < ha.timing.leaderTtl)
    (hwatch : ∀ i ≤ k, Watches ha p h t (u i)) {cand : NodeId}
    {expected : Option (NodeId × UInt64)}
    (hcall : .tryTakeover cand expected ∈ (ha.tickAt (inputs u) k).calls) :
    p + ha.timing.takesOverAfter overhead ≤ (u k).decidesAt ha.timing := by
  obtain ⟨-, hprop⟩ := proposes_of_mem_calls hcall
  obtain ⟨m, hmk, j, hjm, hdecides, hpassed⟩ :=
    ttlPassed_of_settledPos hrun httl (fun i hi => hwatch i hi.le) hprop.settledPos_ne_empty
  have hper := hrun.periodic
  have hpos : 0 < ha.timing.loopWait + (ha.timing.retryTimeout + overhead) :=
    Nat.add_pos_right _ (Nat.add_pos_left hretry _)
  have hearliest := hper.le_start_of_elapsed hpos hjm
    (hdecides.trans ((u j).decidesAt_le ha.timing)) hpassed
  have hnext := hper.next m
  have hmono := hper.monotone (Nat.succ_le_of_lt hmk)
  have hstart : (u k).input.now ≤ (u k).decidesAt ha.timing := by
    rw [TimedTick.decidesAt, TimedTick.readDoneAt, Nat.add_assoc]
    exact Nat.le_add_right _ _
  unfold HaTiming.takesOverAfter
  grind

end Rival

/-- A config whose bounds are in order keeps the law. -/
theorem demotesBeforeTakeover_of_le {timing : HaTiming} (hretry : 0 < timing.retryTimeout)
    (httl : 0 < timing.leaderTtl)
    (hle : timing.demotesWithin overhead ≤ timing.takesOverAfter overhead) :
    DemotesBeforeTakeover timing overhead := by
  intro holder rival p t uh ur hholder hrival hlose k hwatch hcall
  obtain ⟨j, hfences, hj⟩ := exists_fences hholder hlose
  have hk := le_decidesAt_of_takeover hrival hretry httl hwatch hcall
  exact ⟨j, hfences, hj.trans ((Nat.add_le_add_left hle p).trans hk)⟩

/-! ## The bounds are exact

Node `0` holds the lease and loses the store at the worst moment; node `1` hears from
nobody and has the luckiest ticks. -/

/-- The run of a loop whose ticks learn `input k`, spend these times on the read, the
observations and the rest, and start at `first`. -/
def timedRun (first wait : ℕ) (read observe apply : ℕ → Duration) (input : ℕ → TickInput)
    (k : ℕ) : TimedTick where
  input :=
    { input k with
      now := Periodic.startsFrom first wait (fun k => read k + observe k + apply k) k
      readTook := read k }
  observeTook := observe k
  applyTook := apply k

section Exact

variable {timing : HaTiming}

theorem timedRun_spec {first : ℕ} {read observe apply : ℕ → Duration}
    {input : ℕ → TickInput} (hread : ∀ k, read k ≤ timing.retryTimeout)
    (hrest : ∀ k, observe k + apply k ≤ overhead)
    (N : ℕ) (hlater : ∀ k, N ≤ k → 0 < read k + observe k + apply k) :
    TimedRun timing overhead (timedRun first timing.loopWait read observe apply input) where
  next k := by
    rw [TimedTick.endsAt_eq, TimedTick.busy]
    show _ = _ + (min (read k) timing.retryTimeout + observe k + apply k) + timing.loopWait
    rw [min_eq_left (hread k)]
    rfl
  overhead_le := hrest
  diverges := by
    have hbusy : ∀ k, read k + observe k + apply k ≤ timing.retryTimeout + overhead := by
      intro k
      rw [Nat.add_assoc]
      exact Nat.add_le_add (hread k) (hrest k)
    exact (Periodic.of_busy N hbusy hlater).diverges

/-- The holder's reads.  The first succeeds at once; where the wait fits into the retry
budget, the second takes what is left of it, and every other one takes all of it. -/
def lateRead (timing : HaTiming) : ℕ → Duration
  | 0 => 0
  | 1 => if timing.loopWait ≤ timing.retryTimeout then timing.retryTimeout - timing.loopWait
      else timing.retryTimeout
  | _ => timing.retryTimeout

def lateObserve (timing : HaTiming) (overhead : Duration) : ℕ → Duration
  | 0 => 0
  | 1 => if timing.loopWait ≤ timing.retryTimeout then 0 else overhead
  | _ => overhead

def lateApply (overhead : Duration) : ℕ → Duration
  | 0 => overhead
  | _ => 0

/-- A primary that reads its own lease once, and then nothing. -/
def lateInput : ℕ → TickInput
  | 0 => { isolatedTick 0 (some (leaseOf 0 6)) with db := primaryDb 100 }
  | _ => { isolatedTick 0 none with db := primaryDb 100 }

/-- The holder reads its lease at the last moment `p` and is then held up as long as can
be. -/
def lateHolder (timing : HaTiming) (overhead : Duration) (p : Instant) : ℕ → TimedTick :=
  timedRun p timing.loopWait (lateRead timing) (lateObserve timing overhead)
    (lateApply overhead) lateInput

theorem lateRead_le (k : ℕ) : lateRead timing k ≤ timing.retryTimeout := by
  match k with
  | 0 => exact Nat.zero_le _
  | 1 =>
    simp only [lateRead]
    split
    · exact Nat.sub_le _ _
    · exact le_rfl
  | k + 2 => exact le_rfl

theorem lateObserve_add_lateApply_le (k : ℕ) :
    lateObserve timing overhead k + lateApply overhead k ≤ overhead := by
  match k with
  | 0 => exact (Nat.zero_add _).le
  | 1 =>
    simp only [lateObserve]
    split
    · exact Nat.zero_le _
    · exact le_rfl
  | k + 2 => exact le_rfl

theorem timedRun_lateHolder (overhead : Duration) (p : Instant)
    (hretry : 0 < timing.retryTimeout) :
    TimedRun timing overhead (lateHolder timing overhead p) := by
  refine timedRun_spec lateRead_le lateObserve_add_lateApply_le 2 fun k hk => ?_
  obtain ⟨k, rfl⟩ : ∃ i, k = i + 2 := ⟨k - 2, by omega⟩
  exact Nat.add_pos_left (Nat.add_pos_left hretry _) _

theorem read_lateHolder_zero :
    (lateHolder timing overhead p 0).input.read timing = some (leaseOf 0 6) :=
  if_pos (Nat.zero_le _)

theorem read_lateHolder_succ (k : ℕ) :
    (lateHolder timing overhead p (k + 1)).input.read timing = none :=
  if_pos (lateRead_le (k + 1))

theorem losesStore_lateHolder (hretry : 0 < timing.retryTimeout) :
    LosesStore ⟨threeNodes 0, timing⟩ p 6 (lateHolder timing overhead p) where
  held := ⟨leaseOf 0 6, ⟨0, 6, 0⟩, read_lateHolder_zero, rfl, rfl, rfl, rfl⟩
  reads k := by
    cases k with
    | zero => exact Or.inl ⟨leaseOf 0 6, ⟨0, 6, 0⟩, read_lateHolder_zero, rfl,
        rfl, rfl, rfl⟩
    | succ k => exact Or.inr (read_lateHolder_succ k)
  before k hk := by
    have hstart := (timedRun_lateHolder overhead p hretry).periodic.monotone (Nat.zero_le k)
    exact absurd (hk.trans_le hstart) (not_lt.mpr (Nat.le_add_right _ _))
  after k hk := by
    cases k with
    | zero =>
      have hdone : (lateHolder timing overhead p 0).readDoneAt timing = p := by
        show p + min 0 timing.retryTimeout = p
        rw [Nat.zero_min, Nat.add_zero]
      exact absurd hk (not_lt.mpr hdone.le)
    | succ k => exact read_lateHolder_succ k

/-- From the third tick on, the holder decides at the very end of its tick. -/
theorem decidesAt_lateHolder (k : ℕ) :
    (lateHolder timing overhead p (k + 2)).decidesAt timing =
      (lateHolder timing overhead p (k + 2)).input.now + timing.retryTimeout + overhead := by
  show _ + min timing.retryTimeout timing.retryTimeout + overhead = _
  rw [min_self]

theorem now_lateHolder_succ (timing : HaTiming) (overhead : Duration) (p : Instant) (k : ℕ) :
    (lateHolder timing overhead p (k + 1)).input.now =
      (lateHolder timing overhead p k).input.now +
        (lateRead timing k + lateObserve timing overhead k + lateApply overhead k) +
        timing.loopWait := rfl

/-- A tick of this holder that is beyond the retry budget starts a long tick after the
last one within it: the second failing tick if the wait fits into the budget, and else the
first. -/
theorem le_now_lateHolder (hretry : 0 < timing.retryTimeout) {k : ℕ}
    (hlong : (lateHolder timing overhead p 1).input.now + timing.retryTimeout <
      (lateHolder timing overhead p (k + 1)).input.now) :
    1 ≤ k ∧ p + overhead + timing.loopWait +
        (if timing.loopWait ≤ timing.retryTimeout then timing.retryTimeout else 0) +
        (timing.retryTimeout + overhead) + timing.loopWait ≤
      (lateHolder timing overhead p (k + 1)).input.now := by
  have hmono := (timedRun_lateHolder overhead p hretry).periodic.monotone
  have hbelow : ∀ {i}, (lateHolder timing overhead p i).input.now ≤
      (lateHolder timing overhead p 1).input.now + timing.retryTimeout → i < k + 1 := by
    intro i hi
    by_contra hle
    exact absurd (hlong.trans_le (hmono (not_lt.mp hle))) (not_lt.mpr hi)
  have hone : 1 < k + 1 := hbelow (Nat.le_add_right _ _)
  have hfirst : (lateHolder timing overhead p 1).input.now = p + overhead + timing.loopWait := by
    rw [now_lateHolder_succ timing overhead p 0]
    show p + (0 + 0 + overhead) + timing.loopWait = _
    rw [Nat.zero_add]
  have hsecond := now_lateHolder_succ timing overhead p 1
  refine ⟨by omega, ?_⟩
  split
  · rename_i hwait
    have hread : lateRead timing 1 = timing.retryTimeout - timing.loopWait := if_pos hwait
    have hobserve : lateObserve timing overhead 1 = 0 := if_pos hwait
    have htwo : 2 < k + 1 := hbelow (by grind [lateApply])
    have hthird : (lateHolder timing overhead p 3).input.now =
        (lateHolder timing overhead p 2).input.now +
          (timing.retryTimeout + overhead + 0) + timing.loopWait :=
      now_lateHolder_succ timing overhead p 2
    have hle := hmono (Nat.succ_le_of_lt htwo)
    grind [lateApply]
  · rename_i hwait
    have hread : lateRead timing 1 = timing.retryTimeout := if_neg hwait
    have hobserve : lateObserve timing overhead 1 = overhead := if_neg hwait
    have hle := hmono (Nat.succ_le_of_lt hone)
    grind [lateApply]

/-- No tick fences this holder before `demotesWithin`. -/
theorem fences_lateHolder (hretry : 0 < timing.retryTimeout) {j : ℕ}
    (hfences : Fences ⟨threeNodes 0, timing⟩ (inputs (lateHolder timing overhead p)) j) :
    p + timing.demotesWithin overhead ≤ (lateHolder timing overhead p j).decidesAt timing := by
  cases j with
  | zero =>
    obtain ⟨unknownFor, hdec⟩ := hfences
    rw [HaLoop.tickAt, inputs, tickOnce_of_read _ read_lateHolder_zero rfl] at hdec
    cases hdec
  | succ k =>
    have hlast : LastRead ⟨threeNodes 0, timing⟩ (inputs (lateHolder timing overhead p)) 0
        (k + 1) := by
      refine ⟨Nat.succ_pos k, by rw [inputs, read_lateHolder_zero]; rfl, fun i hi _ => ?_⟩
      obtain ⟨i, rfl⟩ : ∃ i', i = i' + 1 := ⟨i - 1, by omega⟩
      exact read_lateHolder_succ i
    have hlong := ((fences_iff_of_failed hlast (read_lateHolder_succ k)).mp hfences).2
    obtain ⟨hk, hle⟩ := le_now_lateHolder hretry hlong
    obtain ⟨k, rfl⟩ : ∃ i, k = i + 1 := ⟨k - 1, by omega⟩
    rw [decidesAt_lateHolder k, HaTiming.demotesWithin]
    split at hle <;> grind

/-- How long the rival's ticks take. -/
def earlyBusy (timing : HaTiming) (overhead : Duration) : ℕ → Duration :=
  Periodic.pacedBusy timing.loopWait (timing.retryTimeout + overhead) timing.leaderTtl
    timing.retryTimeout

/-- A standby that hears from nobody but reads the store, and whose ticks make the ttl run
out as early as can be. -/
def earlyRival (timing : HaTiming) (overhead : Duration) : ℕ → TimedTick :=
  timedRun 0 timing.loopWait (fun k => min (earlyBusy timing overhead k) timing.retryTimeout)
    (fun k => earlyBusy timing overhead k - timing.retryTimeout) (fun _ => 0)
    (fun _ => isolatedTick 0 (some (leaseOf 0 6)))

theorem earlyBusy_le (hretry : 0 < timing.retryTimeout) (k : ℕ) :
    earlyBusy timing overhead k ≤ timing.retryTimeout + overhead :=
  (Periodic.periodic_paced (Nat.le_add_right _ _) hretry).busy_le k

/-- The parts of a tick of the rival add up. -/
theorem earlyBusy_eq (timing : HaTiming) (overhead : Duration) (k : ℕ) :
    min (earlyBusy timing overhead k) timing.retryTimeout +
      (earlyBusy timing overhead k - timing.retryTimeout) + 0 = earlyBusy timing overhead k := by
  grind

theorem timedRun_earlyRival (overhead : Duration) (hretry : 0 < timing.retryTimeout) :
    TimedRun timing overhead (earlyRival timing overhead) := by
  refine timedRun_spec (fun k => min_le_right _ _) (fun k => ?_)
    (timing.leaderTtl ⌈/⌉ (timing.loopWait + (timing.retryTimeout + overhead)) + 2) fun k hk =>
      ?_
  · exact Nat.sub_le_iff_le_add'.mpr (earlyBusy_le hretry k)
  · rw [earlyBusy_eq]
    exact Periodic.pacedBusy_pos hretry hk

theorem now_earlyRival (timing : HaTiming) (overhead : Duration) (k : ℕ) :
    (earlyRival timing overhead k).input.now =
      Periodic.paced timing.loopWait (timing.retryTimeout + overhead) timing.leaderTtl
        timing.retryTimeout k := by
  show Periodic.startsFrom 0 timing.loopWait _ k = _
  rw [funext (earlyBusy_eq timing overhead)]
  rfl

theorem decidesAt_earlyRival (k : ℕ) :
    (earlyRival timing overhead k).decidesAt timing =
      (earlyRival timing overhead k).input.now + earlyBusy timing overhead k := by
  show _ + min (min _ timing.retryTimeout) timing.retryTimeout + _ = _
  rw [min_assoc, min_self, Nat.add_assoc]
  exact congrArg _ (earlyBusy_eq timing overhead k)

theorem read_earlyRival (k : ℕ) :
    (earlyRival timing overhead k).input.read timing = some (leaseOf 0 6) :=
  if_pos (min_le_right _ _)

/-- The first tick of the rival ends after a longest tick, and no tick decides before. -/
theorem le_decidesAt_earlyRival (hretry : 0 < timing.retryTimeout) (k : ℕ) :
    timing.retryTimeout + overhead ≤ (earlyRival timing overhead k).decidesAt timing := by
  rw [decidesAt_earlyRival]
  cases k with
  | zero => exact Nat.le_add_left _ _
  | succ k =>
    have hone : (earlyRival timing overhead 1).input.now =
        timing.retryTimeout + overhead + timing.loopWait := by
      rw [now_earlyRival, Periodic.paced_succ (Nat.zero_le _)]
      grind
    have hmono := (timedRun_earlyRival overhead hretry).periodic.monotone
      (Nat.succ_le_succ (Nat.zero_le k))
    grind

theorem watches_earlyRival (hretry : 0 < timing.retryTimeout) (k : ℕ) :
    Watches ⟨threeNodes 1, timing⟩ (timing.retryTimeout + overhead) 0 6
      (earlyRival timing overhead k) where
  read := Or.inl ⟨leaseOf 0 6, ⟨0, 6, 0⟩, read_earlyRival k, rfl, rfl, rfl, rfl⟩
  before hbefore := absurd (le_decidesAt_earlyRival hretry k) (not_le.mpr hbefore)
  after _ := rfl

/-- What the rival observes of itself, and of the others. -/
def aloneView : LocalView := observeLocal (detachedStandby 100)

def nobody : List PeerView := observePeers (threeNodes 1) fun _ => .late

/-- The only position the rival knows is its own. -/
def earlySample : NodeMap WalPosition := currentPositions 1 ⟨1, 100⟩ nobody

/-- The rival's loop state: no backoff, and no sample but its own. -/
def EarlyState (ts : TickState) : Prop :=
  ts.backoffUntil = none ∧ (ts.settledPos = ∅ ∨ ts.settledPos = earlySample)

theorem gatesOpen_earlyRival {ts : TickState} (hts : EarlyState ts) (now : Instant) :
    GatesOpen ⟨threeNodes 1, timing⟩ ts (some (0, 6)) aloneView nobody now where
  noBackoff := by
    rw [inBackoff, hts.1]
    rfl
  localKnown := rfl
  noWitness := rfl
  frozen := by decide
  noMover := rfl
  posKnown := rfl

theorem cleared_earlyRival :
    Cleared ⟨threeNodes 1, timing⟩ earlySample ⟨1, 100⟩ nobody := by
  have hstable : unsettled earlySample earlySample = [] := by decide
  have hpresent : vanished 1 earlySample earlySample = [] := by decide
  have hfirst : outranked 1 ⟨1, 100⟩ nobody = none := by decide
  exact ⟨hstable, hpresent, hfirst⟩

/-- A candidacy of the rival remembers its sample, and does nothing else to the state. -/
theorem considerCandidacy_earlyRival {ts : TickState} (hts : EarlyState ts) {inp : TickInput}
    (hwon : inp.takeover = .ok (.won ⟨1, 7, 0⟩)) :
    (considerCandidacy ⟨threeNodes 1, timing⟩ ts (some (0, 6)) aloneView nobody inp).state =
      { ts with settledPos := earlySample } := by
  rcases considerCandidacy_cases ⟨threeNodes 1, timing⟩ ts (some (0, 6)) aloneView nobody
      inp with
    ⟨-, my, hmy, hc⟩ | ⟨hclosed, -⟩
  · obtain rfl : (⟨1, 100⟩ : WalPosition) = my := Option.some.inj hmy
    rw [hc, compareAndPropose]
    rcases hts.2 with hs | hs
    · rw [hs]
      rfl
    · rw [hs]
      show (propose _ _ _ _ _ _).state = _
      rw [propose, hwon]
      rfl
  · exact absurd (gatesOpen_earlyRival hts inp.now) hclosed

theorem tickOnce_earlyRival (ts : TickState) (k : ℕ) :
    tickOnce ⟨threeNodes 1, timing⟩ ts (earlyRival timing overhead k).input =
      rememberHolder 1 (leaseOf 0 6)
        (watchingHolder ⟨threeNodes 1, timing⟩ ts.known ⟨0, 6, 0⟩
        aloneView nobody (earlyRival timing overhead k).input) := by
  rw [tickOnce_of_read ts (read_earlyRival k) rfl]
  rfl

/-- A tick of the rival keeps its clock running from `0`, and samples once the ttl is
over. -/
theorem next_earlyRival {ts : TickState} (hts : EarlyState ts) {k : ℕ}
    (hsince : unhealthySince ts 0 (earlyRival timing overhead k).input.now = 0) :
    ∀ next, next = (tickOnce ⟨threeNodes 1, timing⟩ ts
        (earlyRival timing overhead k).input).state →
      next.backoffUntil = none ∧ next.holderUnhealthySince = some (0, 0) ∧
      next.settledPos = if timing.leaderTtl ≤ (earlyRival timing overhead k).input.now then
        earlySample else ts.settledPos := by
  have hsince' : unhealthySince ts.known 0 (earlyRival timing overhead k).input.now = 0 := hsince
  have hunhealthy : holderHealthy nobody 0 = false := rfl
  rintro next rfl
  rw [tickOnce_earlyRival, watchingHolder]
  simp only [hunhealthy, Bool.false_eq_true, if_false, hsince', Instant.durationSince,
    Nat.sub_zero, ge_iff_le]
  split
  · have hts' : EarlyState { ts.known with holderUnhealthySince := some (0, 0) } := hts
    have hwon : (earlyRival timing overhead k).input.takeover = .ok (.won ⟨1, 7, 0⟩) := rfl
    simp only [rememberHolder, considerCandidacy_earlyRival hts' hwon]
    exact ⟨hts.1, trivial, trivial⟩
  · exact ⟨hts.1, rfl, rfl⟩

/-- After every tick, the rival's clock runs from `0`. -/
theorem stateAt_earlyRival (timing : HaTiming) (overhead : Duration) (k : ℕ) :
    EarlyState
        (HaLoop.stateAt ⟨threeNodes 1, timing⟩ (inputs (earlyRival timing overhead)) k) ∧
      unhealthySince (HaLoop.stateAt ⟨threeNodes 1, timing⟩
        (inputs (earlyRival timing overhead)) k) 0 (earlyRival timing overhead k).input.now =
          0 := by
  induction k with
  | zero => exact ⟨⟨rfl, Or.inl rfl⟩, rfl⟩
  | succ k ih =>
    obtain ⟨hts, hsince⟩ := ih
    obtain ⟨hbackoff, hclock, hsettled⟩ := next_earlyRival hts hsince _ rfl
    refine ⟨⟨hbackoff, ?_⟩, ?_⟩
    · rw [HaLoop.stateAt_succ, HaLoop.tickAt, inputs, hsettled]
      split
      · exact Or.inr rfl
      · exact hts.2
    · rw [HaLoop.stateAt_succ, HaLoop.tickAt, inputs, unhealthySince, hclock]
      rfl

/-- Two ticks after the ttl in a row are enough: the rival proposes at the second. -/
theorem mem_calls_earlyRival {k : ℕ}
    (httl : timing.leaderTtl ≤ (earlyRival timing overhead k).input.now)
    (httl' : timing.leaderTtl ≤ (earlyRival timing overhead (k + 1)).input.now) :
    .tryTakeover 1 (some (0, 6)) ∈ (HaLoop.tickAt ⟨threeNodes 1, timing⟩
      (inputs (earlyRival timing overhead)) (k + 1)).calls := by
  obtain ⟨hts, hsince⟩ := stateAt_earlyRival timing overhead k
  obtain ⟨hts', hsince'⟩ := stateAt_earlyRival timing overhead (k + 1)
  have hsettled : (HaLoop.stateAt ⟨threeNodes 1, timing⟩ (inputs (earlyRival timing overhead))
      (k + 1)).settledPos = earlySample :=
    (next_earlyRival hts hsince _ rfl).2.2.trans (if_pos httl)
  have heval : Evaluates ⟨threeNodes 1, timing⟩ (HaLoop.stateAt ⟨threeNodes 1, timing⟩
      (inputs (earlyRival timing overhead)) (k + 1)) (earlyRival timing overhead (k + 1)).input
      (some (0, 6)) := by
    refine .deposing (leaseOf 0 6) ⟨0, 6, 0⟩ (read_earlyRival _) rfl rfl
      (show (0 : NodeId) ≠ 1 by decide) rfl ?_
    rw [hsince', Instant.durationSince, Nat.sub_zero]
    exact httl'
  rw [HaLoop.tickAt, inputs, mem_calls_iff_of_evaluates heval]
  refine ⟨rfl, gatesOpen_earlyRival hts' _, ⟨1, 100⟩, rfl, ?_⟩
  rw [hsettled]
  exact cleared_earlyRival

/-- The rival proposes `takesOverAfter` the end of its first tick. -/
theorem takeover_earlyRival (overhead : Duration) (hretry : 0 < timing.retryTimeout)
    (httl : 0 < timing.leaderTtl) :
    ∃ k, .tryTakeover 1 (some (0, 6)) ∈ (HaLoop.tickAt ⟨threeNodes 1, timing⟩
        (inputs (earlyRival timing overhead)) k).calls ∧
      (earlyRival timing overhead k).decidesAt timing =
        timing.retryTimeout + overhead + timing.takesOverAfter overhead := by
  have hpos : 0 < timing.loopWait + (timing.retryTimeout + overhead) :=
    Nat.add_pos_right _ (Nat.add_pos_left hretry _)
  have hnotices := now_earlyRival timing overhead
      (timing.leaderTtl ⌈/⌉ (timing.loopWait + (timing.retryTimeout + overhead)))
  rw [Periodic.paced_noticing hpos httl] at hnotices
  have hproposes := now_earlyRival timing overhead
      (timing.leaderTtl ⌈/⌉ (timing.loopWait + (timing.retryTimeout + overhead)) + 1)
  rw [Periodic.paced_noticing_succ hpos httl] at hproposes
  have hmax : timing.leaderTtl - (timing.retryTimeout + overhead) ≤
      Periodic.noticedAfter timing.loopWait (timing.retryTimeout + overhead) timing.leaderTtl :=
    le_max_right _ _
  refine ⟨_, mem_calls_earlyRival (k := timing.leaderTtl ⌈/⌉
    (timing.loopWait + (timing.retryTimeout + overhead))) ?_ ?_, ?_⟩
  · grind
  · grind
  · have hbusy : earlyBusy timing overhead (timing.leaderTtl ⌈/⌉
        (timing.loopWait + (timing.retryTimeout + overhead)) + 1) = 0 :=
      Periodic.pacedBusy_noticing hpos httl (Nat.le_succ _) le_rfl
    rw [decidesAt_earlyRival, hproposes, hbusy, HaTiming.takesOverAfter]
    grind

/-- A config that keeps the law has its bounds in order. -/
theorem le_of_demotesBeforeTakeover (hretry : 0 < timing.retryTimeout)
    (httl : 0 < timing.leaderTtl) (hlaw : DemotesBeforeTakeover timing overhead) :
    timing.demotesWithin overhead ≤ timing.takesOverAfter overhead := by
  obtain ⟨k, hcall, hk⟩ := takeover_earlyRival overhead hretry httl
  obtain ⟨j, hfences, hle⟩ :=
    hlaw (threeNodes 0) (threeNodes 1) (timing.retryTimeout + overhead) 6
    (lateHolder timing overhead _) (earlyRival timing overhead)
    (timedRun_lateHolder overhead _ hretry) (timedRun_earlyRival overhead hretry)
    (losesStore_lateHolder hretry) k (fun i _ => watches_earlyRival hretry i) hcall
  have hj := fences_lateHolder hretry hfences
  rw [hk] at hle
  exact Nat.le_of_add_le_add_left (hj.trans hle)

end Exact

/-! ## The configuration -/

/-- A holder that is held up for a whole ttl outside its reads is deposed first. -/
theorem HaTiming.takesOverAfter_lt_demotesWithin (timing : HaTiming)
    (httl : 0 < timing.leaderTtl) :
    timing.takesOverAfter timing.leaderTtl < timing.demotesWithin timing.leaderTtl := by
  have hrounds : timing.leaderTtl ⌈/⌉
      (timing.loopWait + (timing.retryTimeout + timing.leaderTtl)) ≤ 1 := by
    rw [ceilDiv_le_iff_le_mul (Nat.add_pos_right _ (Nat.add_pos_right _ httl)), Nat.mul_one,
      ← Nat.add_assoc]
    exact Nat.le_add_left _ _
  have hnotices : Periodic.noticedAfter timing.loopWait
      (timing.retryTimeout + timing.leaderTtl) timing.leaderTtl ≤ timing.loopWait := by
    refine max_le ?_ ?_
    · exact (Nat.mul_le_mul_right timing.loopWait hrounds).trans (Nat.one_mul _).le
    · exact (Nat.sub_eq_zero_of_le (Nat.le_add_left _ _)).le.trans (Nat.zero_le _)
  unfold takesOverAfter demotesWithin
  grind

theorem RaftConfig.pos_of_validate {cfg : RaftConfig} (h : cfg.validate = some (.ok ())) :
    0 < cfg.haTiming.retryTimeout ∧ 0 < cfg.haTiming.leaderTtl := by
  obtain ⟨-, httl, hretry⟩ := cfg.validate_eq_ok_iff.mp h
  have hpos : 0 < cfg.effectiveRetryTimeout := Nat.zero_lt_of_lt hretry
  refine ⟨hpos, lt_of_lt_of_le hpos (le_trans ?_ httl)⟩
  grind

/-- What the two invariants of a loaded configuration are worth.  With at most `overhead`
of every tick outside the store read, the holder demotes before anybody may depose it
exactly when `demotesWithin` is within `takesOverAfter`; and no configuration has it so
for every `overhead`. -/
theorem demoteBeforeTakeover_iff (cfg : RaftConfig) (h : cfg.validate = some (.ok ())) :
    (∀ overhead, DemotesBeforeTakeover cfg.haTiming overhead ↔
      cfg.haTiming.demotesWithin overhead ≤ cfg.haTiming.takesOverAfter overhead) ∧
    ¬ ∀ overhead, DemotesBeforeTakeover cfg.haTiming overhead := by
  obtain ⟨hretry, httl⟩ := RaftConfig.pos_of_validate h
  refine ⟨fun overhead => ⟨le_of_demotesBeforeTakeover hretry httl,
    demotesBeforeTakeover_of_le hretry httl⟩, fun hall => ?_⟩
  have hle := le_of_demotesBeforeTakeover hretry httl (hall cfg.haTiming.leaderTtl)
  exact absurd hle (not_le.mpr (cfg.haTiming.takesOverAfter_lt_demotesWithin httl))

/-- With a ttl of a minute, ticks that spend a second outside the store read keep the
law. -/
theorem demoteBeforeTakeover_minuteTtl :
    RaftConfig.validate { RaftConfig.default with leaderTtlSecs := some 60 } = some (.ok ()) ∧
      DemotesBeforeTakeover
        (RaftConfig.haTiming { RaftConfig.default with leaderTtlSecs := some 60 }) (secs 1) :=
  ⟨by decide, ((demoteBeforeTakeover_iff _ (by decide)).1 (secs 1)).mpr (by decide)⟩

/-- The default configuration is accepted.  The rival proposes half a minute after the
holder lost the store, which is fenced after fifty seconds: ticks that spend no time
outside the store read are enough to break the law. -/
theorem not_demoteBeforeTakeover_default :
    RaftConfig.default.validate = some (.ok ()) ∧
      ¬ DemotesBeforeTakeover RaftConfig.default.haTiming 0 := by
  refine ⟨by decide, fun hlaw => ?_⟩
  have hle := le_of_demotesBeforeTakeover (by decide) (by decide) hlaw
  exact absurd hle (by decide)

end PgAgent
