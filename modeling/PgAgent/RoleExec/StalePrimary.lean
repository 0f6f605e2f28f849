import PgAgent.Ha.Candidacy
import PgAgent.RoleExec.Apply

/-!
# Fencing a stale primary

A node that reads the lease as held by somebody else while its own PostgreSQL runs as a
primary has to stop it.  The decision never says so: the tick decides about the holder,
and it is the executor that finds the local role in contradiction with the lease --- on
the follow decisions, and on those only.

So the fence depends on what the tick thinks of the holder.
`stalePrimary_stopped_iff` gives the exact condition, and
`stalePrimary_not_stopped_unreachable` the tick that falls outside it: a holder that is
not seen serving makes the stale primary a mere onlooker.
-/

namespace PgAgent

open Rust

/-- A tick that reads another node's lease follows a holder it sees serving; of any other
holder it decides neither to follow nor to demote. -/
theorem decision_of_foreignLease {ha : HaLoop} (ts : TickState) {inp : TickInput}
    {st : ClusterState} {lease : Lease} (hread : inp.read ha.timing = some st)
    (hpaused : st.paused = none) (hlease : st.lease = some lease)
    (hother : lease.holder ≠ ha.localId) :
    (holderHealthy (observePeers ha.pool inp.ends) lease.holder = true ∧
      ((∃ holder, (tickOnce ha ts inp).decision = .following holder) ∨
        ∃ prev holder, (tickOnce ha ts inp).decision = .wouldFollowNewHolder prev holder)) ∨
    (holderHealthy (observePeers ha.pool inp.ends) lease.holder = false ∧
      (∀ holder, (tickOnce ha ts inp).decision ≠ .following holder) ∧
      (∀ prev holder, (tickOnce ha ts inp).decision ≠ .wouldFollowNewHolder prev holder) ∧
      ∀ reason, (tickOnce ha ts inp).decision ≠ .wouldDemote reason) := by
  rw [tickOnce_of_read ts hread hpaused, rememberHolder_decision, decideOn, hlease]
  simp only [if_neg hother, watchingHolder]
  cases holderHealthy (observePeers ha.pool inp.ends) lease.holder with
  | true =>
    refine Or.inl ⟨rfl, ?_⟩
    simp only [if_true]
    split
    · split
      · exact Or.inr ⟨_, _, rfl⟩
      · exact Or.inl ⟨_, rfl⟩
    · exact Or.inl ⟨_, rfl⟩
  | false =>
    refine Or.inr ⟨rfl, ?_⟩
    simp only [Bool.false_eq_true, if_false]
    split
    · rcases decision_considerCandidacy ha (ts.known.watching lease.holder inp.now)
          (some (lease.holder, lease.term)) (observeLocal inp.db)
          (observePeers ha.pool inp.ends) inp with
        ⟨_, hd⟩ | ⟨_, hd⟩ | ⟨_, hd⟩ | ⟨_, _, _, _, hd⟩
      all_goals
        rw [TickState.watching] at hd
        rw [hd]
        simp
    · exact ⟨fun _ => HaDecision.noConfusion, fun _ _ => HaDecision.noConfusion,
        fun _ => HaDecision.noConfusion⟩

/-- A node that reads another node's lease has its PostgreSQL stopped by the executor
exactly when it sees that node serving and its own instance is found running as a
primary. -/
theorem stalePrimary_stopped_iff (ha : HaLoop) (ts : TickState) (inp : TickInput)
    (rx : RoleExecutor) (es : ExecState) (ei : ExecInput) {st : ClusterState} {lease : Lease}
    (hread : inp.read ha.timing = some st) (hpaused : st.paused = none)
    (hlease : st.lease = some lease) (hother : lease.holder ≠ ha.localId) :
    .ensureStopped ∈ (rx.apply es ei (tickOnce ha ts inp).decision).2 ↔
      holderHealthy (observePeers ha.pool inp.ends) lease.holder = true ∧
        instanceState ei.probes = .primary := by
  rw [stops_iff_mem_apply]
  rcases decision_of_foreignLease ts hread hpaused hlease hother with
    ⟨hhealthy, hfollow⟩ | ⟨hhealthy, hnot, hnot', hdemote⟩
  · rw [hhealthy]
    constructor
    · rintro (⟨reason, hd⟩ | ⟨-, hstate⟩)
      · rcases hfollow with ⟨_, hd'⟩ | ⟨_, _, hd'⟩
        all_goals
          rw [hd'] at hd
          cases hd
      · exact ⟨rfl, hstate⟩
    · rintro ⟨-, hstate⟩
      exact Or.inr ⟨hfollow, hstate⟩
  · rw [hhealthy]
    refine iff_of_false ?_ fun h => Bool.false_ne_true h.1
    rintro (⟨reason, hd⟩ | ⟨⟨holder, hd⟩ | ⟨prev, holder, hd⟩, -⟩)
    · exact hdemote reason hd
    · exact hnot holder hd
    · exact hnot' prev holder hd

def threeNodeExecutor (l : NodeId) : RoleExecutor :=
  ⟨threeNodes l, defaultTiming.leaderTtl, 5432, "repl"⟩

/-- Every call of the executor succeeds, and the instance runs as a primary. -/
def primaryExecInput : ExecInput where
  now := 0
  nowPromoted := 0
  probes := ⟨some true, some false, none⟩
  journal := some "op"
  recovery := some false
  signalled := true
  recoveryEnded := true
  slotCreated := fun _ => true
  setting := some ""
  connected := some []
  dialled := true
  peerSlotCreated := true
  followed := true

/-- Node `1` still runs as a primary while node `0` holds the lease. -/
def staleTick (ends : NodeConfig → TaskEnd) : TickInput where
  now := 0
  readTook := 0
  readResult := some (leaseOf 0 1)
  db := primaryDb 100
  ends := ends
  takeover := .error "no leader"
  random := 0

def holderServes (n : NodeConfig) : TaskEnd :=
  if n.id = 0 then .answered 0 (some (statusOf (primaryDb 100) ∅)) else .late

theorem stalePrimary_stopped_holderServes :
    .ensureStopped ∈ ((threeNodeExecutor 1).apply ExecState.new primaryExecInput
      (tickOnce ⟨threeNodes 1, defaultTiming⟩ TickState.new
        (staleTick holderServes)).decision).2 :=
  (stalePrimary_stopped_iff ⟨threeNodes 1, defaultTiming⟩ TickState.new (staleTick holderServes)
    (threeNodeExecutor 1) ExecState.new primaryExecInput (show _ = some (leaseOf 0 1) from rfl)
    rfl rfl (by decide)).mpr ⟨by decide, by decide⟩

/-- The holder does not answer: node `1` is observed running as a primary, by the loop and
by the executor, another node holds the lease, and nothing is done. -/
theorem stalePrimary_not_stopped_unreachable :
    (staleTick fun _ => .late).read defaultTiming = some (leaseOf 0 1) ∧
      (observeLocal (staleTick fun _ => .late).db).isPrimary = some true ∧
      instanceState primaryExecInput.probes = .primary ∧
      (tickOnce ⟨threeNodes 1, defaultTiming⟩ TickState.new
        (staleTick fun _ => .late)).decision =
        .holderUnhealthy 0 0 ∧
      ((threeNodeExecutor 1).apply ExecState.new primaryExecInput
        (tickOnce ⟨threeNodes 1, defaultTiming⟩ TickState.new
          (staleTick fun _ => .late)).decision).2 = [] :=
  ⟨rfl, by decide, by decide, by decide, by decide⟩

end PgAgent
