import PgAgent.Ha.Tick

/-!
# What one tick can do

The inversion lemmas of `tickOnce` and `considerCandidacy`, stated once so that no
later proof has to open these functions.

* `considerCandidacy_cases`, `compareAndPropose_cases`, `propose_spec`: how far up
  the ladder a candidacy got, and what it left behind.
* `TickPath`: the eight ways through a tick.  `tickPath` says that every tick takes
  one of them.
* `Proposes` and `proposes_of_mem_calls`: what is known at a tick that calls
  `try_takeover`.
* `Evaluates`: the ticks that get to the ladder at all, and `mem_calls_iff_of_evaluates`,
  when such a tick calls.
-/

namespace PgAgent

open Rust

variable {ha : HaLoop} {ts : TickState} {inp : TickInput}

/-! ## The ladder -/

/-- The gates below the stability gate, all open. -/
structure GatesOpen (ha : HaLoop) (ts : TickState) (expected : Option (NodeId × UInt64))
    (view : LocalView) (peers : List PeerView) (now : Instant) : Prop where
  noBackoff : inBackoff ts now = none
  localKnown : view.isPrimary.isSome = true
  noWitness : witnessGate ha.timing expected peers = none
  frozen : ¬ (view.isPrimary = some false ∧ view.receiving = true)
  noMover : findMover peers = none
  posKnown : view.pos.isSome = true

/-- A candidacy either opened every gate and went on to compare, or stopped at one
of them and left the loop state as it was. -/
theorem considerCandidacy_cases (ha : HaLoop) (ts : TickState)
    (expected : Option (NodeId × UInt64)) (view : LocalView) (peers : List PeerView)
    (inp : TickInput) :
    (GatesOpen ha ts expected view peers inp.now ∧ ∃ myPos, view.pos = some myPos ∧
      considerCandidacy ha ts expected view peers inp =
        compareAndPropose ha ts expected view myPos peers inp) ∨
    (¬ GatesOpen ha ts expected view peers inp.now ∧ ∃ d,
      considerCandidacy ha ts expected view peers inp = ⟨ts, d, [], none⟩ ∧
      ((∃ reason, d = .stoodDown reason) ∨
        ∃ holder, d = .detachingFromDeposed holder ∧ view.isPrimary = some false)) := by
  unfold considerCandidacy
  cases hb : inBackoff ts inp.now with
  | some until' =>
    refine Or.inr ⟨fun h => ?_, _, rfl, Or.inl ⟨_, rfl⟩⟩
    rw [h.noBackoff] at hb
    cases hb
  | none =>
  cases hl : view.isPrimary with
  | none =>
    refine Or.inr ⟨fun h => ?_, _, rfl, Or.inl ⟨_, rfl⟩⟩
    have := h.localKnown
    simp [hl] at this
  | some role =>
  cases hw : witnessGate ha.timing expected peers with
  | some w =>
    refine Or.inr ⟨fun h => ?_, _, rfl, Or.inl ⟨_, rfl⟩⟩
    rw [h.noWitness] at hw
    cases hw
  | none =>
  by_cases hr : role = false ∧ view.receiving = true
  · obtain ⟨rfl, hrec⟩ := hr
    refine Or.inr ⟨fun h => h.frozen ⟨hl, hrec⟩, ?_⟩
    simp only [Option.isNone_some, Bool.false_eq_true, if_false, hrec, and_self, if_true]
    cases expected with
    | some e => exact ⟨_, rfl, Or.inr ⟨e.1, rfl, trivial⟩⟩
    | none => exact ⟨_, rfl, Or.inl ⟨_, rfl⟩⟩
  · have hr' : ¬ (some role = some false ∧ view.receiving = true) := by
      rintro ⟨h1, h2⟩
      exact hr ⟨Option.some.inj h1, h2⟩
    simp only [Option.isNone_some, Bool.false_eq_true, if_false, hr']
    cases hm : findMover peers with
    | some mover =>
      refine Or.inr ⟨fun h => ?_, _, rfl, Or.inl ⟨_, rfl⟩⟩
      rw [h.noMover] at hm
      cases hm
    | none =>
    cases hp : view.pos with
    | none =>
      refine Or.inr ⟨fun h => ?_, _, rfl, Or.inl ⟨_, rfl⟩⟩
      have := h.posKnown
      simp [hp] at this
    | some myPos =>
      refine Or.inl ⟨⟨hb, by simp [hl], hw, by rw [hl]; exact hr', hm, by simp [hp]⟩,
        myPos, rfl, rfl⟩

/-- The sample agrees with the remembered one, and nobody outranks the local node. -/
structure Cleared (ha : HaLoop) (settledPos : NodeMap WalPosition) (myPos : WalPosition)
    (peers : List PeerView) : Prop where
  stable : unsettled settledPos (currentPositions ha.localId myPos peers) = []
  present : vanished ha.localId settledPos (currentPositions ha.localId myPos peers) = []
  first : outranked ha.localId myPos peers = none

/-- From the stability gate on, the new sample is remembered whatever happens; the
proposal is made exactly when the sample is stable and nobody outranks us. -/
theorem compareAndPropose_cases (ha : HaLoop) (ts : TickState)
    (expected : Option (NodeId × UInt64)) (view : LocalView) (myPos : WalPosition)
    (peers : List PeerView) (inp : TickInput) :
    (Cleared ha ts.settledPos myPos peers ∧
      compareAndPropose ha ts expected view myPos peers inp =
        propose ha { ts with settledPos := currentPositions ha.localId myPos peers } expected
          view inp (currentPositions ha.localId myPos peers)) ∨
    (¬ Cleared ha ts.settledPos myPos peers ∧ ∃ until' reason,
      compareAndPropose ha ts expected view myPos peers inp =
        ⟨{ ts with settledPos := currentPositions ha.localId myPos peers,
                   backoffUntil := until' }, .stoodDown reason, [],
          some (currentPositions ha.localId myPos peers)⟩) := by
  unfold compareAndPropose
  dsimp only
  by_cases hs : unsettled ts.settledPos (currentPositions ha.localId myPos peers) = [] ∧
      vanished ha.localId ts.settledPos (currentPositions ha.localId myPos peers) = []
  · rw [hs.1, hs.2]
    simp only [List.isEmpty_nil, Bool.not_true, Bool.or_self, Bool.false_eq_true, if_false]
    cases ho : outranked ha.localId myPos peers with
    | none => exact Or.inl ⟨⟨hs.1, hs.2, ho⟩, rfl⟩
    | some reason =>
      refine Or.inr ⟨fun h => ?_, _, reason, rfl⟩
      rw [h.first] at ho
      cases ho
  · have hs' : (!(unsettled ts.settledPos (currentPositions ha.localId myPos peers)).isEmpty ||
        !(vanished ha.localId ts.settledPos
          (currentPositions ha.localId myPos peers)).isEmpty) = true := by
      rcases not_and_or.mp hs with h | h <;> simp [h]
    rw [if_pos hs']
    exact Or.inr ⟨fun h => hs ⟨h.stable, h.present⟩, ts.backoffUntil, _, rfl⟩

/-- A proposal is one call, and touches nothing but the backoff. -/
theorem propose_spec (ha : HaLoop) (ts : TickState) (expected : Option (NodeId × UInt64))
    (view : LocalView) (inp : TickInput) (sample : NodeMap WalPosition) :
    ∃ until', propose ha ts expected view inp sample =
      ⟨{ ts with backoffUntil := until' },
        (propose ha ts expected view inp sample).decision,
        [.tryTakeover ha.localId expected], some sample⟩ := by
  unfold propose
  split
  · exact ⟨ts.backoffUntil, rfl⟩
  · exact ⟨_, rfl⟩
  · exact ⟨ts.backoffUntil, rfl⟩

/-- What a proposal decides: the term of a win, a loss, or a failed proposal. -/
theorem propose_decision (ha : HaLoop) (ts : TickState) (expected : Option (NodeId × UInt64))
    (view : LocalView) (inp : TickInput) (sample : NodeMap WalPosition) :
    (∃ lease, inp.takeover = .ok (.won lease) ∧
      (propose ha ts expected view inp sample).decision =
        .tookOver lease.term (view.isPrimary == some true)) ∨
    ((∀ lease, inp.takeover ≠ .ok (.won lease)) ∧
      ((∃ holder, (propose ha ts expected view inp sample).decision = .lostTakeover holder) ∨
        ∃ reason, (propose ha ts expected view inp sample).decision = .stoodDown reason)) := by
  unfold propose
  split
  · rename_i lease h
    exact Or.inl ⟨lease, h, rfl⟩
  · rename_i current h
    exact Or.inr ⟨by simp [h], Or.inl ⟨_, rfl⟩⟩
  · rename_i e h
    exact Or.inr ⟨by simp [h], Or.inr ⟨_, rfl⟩⟩

/-- A candidacy writes the sample and the backoff, and nothing else. -/
theorem considerCandidacy_state (ha : HaLoop) (ts : TickState)
    (expected : Option (NodeId × UInt64)) (view : LocalView) (peers : List PeerView)
    (inp : TickInput) :
    ∃ until', (considerCandidacy ha ts expected view peers inp).state =
      { ts with
        backoffUntil := until'
        settledPos :=
          (considerCandidacy ha ts expected view peers inp).sample.getD ts.settledPos } := by
  rcases considerCandidacy_cases ha ts expected view peers inp with
    ⟨-, myPos, -, hc⟩ | ⟨-, d, hc, -⟩
  · rw [hc]
    rcases compareAndPropose_cases ha ts expected view myPos peers inp with
      ⟨-, hp⟩ | ⟨-, until', reason, hp⟩
    · obtain ⟨until', hs⟩ := propose_spec ha
        { ts with settledPos := currentPositions ha.localId myPos peers } expected view inp
        (currentPositions ha.localId myPos peers)
      rw [hp, hs]
      exact ⟨until', rfl⟩
    · rw [hp]
      exact ⟨until', rfl⟩
  · rw [hc]
    exact ⟨ts.backoffUntil, rfl⟩

/-- What a candidacy can decide; a takeover only because the store said so. -/
theorem decision_considerCandidacy (ha : HaLoop) (ts : TickState)
    (expected : Option (NodeId × UInt64)) (view : LocalView) (peers : List PeerView)
    (inp : TickInput) :
    (∃ reason, (considerCandidacy ha ts expected view peers inp).decision = .stoodDown reason) ∨
    (∃ holder, (considerCandidacy ha ts expected view peers inp).decision =
      .detachingFromDeposed holder) ∨
    (∃ holder, (considerCandidacy ha ts expected view peers inp).decision =
      .lostTakeover holder) ∨
    (∃ lease already, inp.takeover = .ok (.won lease) ∧
      .tryTakeover ha.localId expected ∈
        (considerCandidacy ha ts expected view peers inp).calls ∧
      (considerCandidacy ha ts expected view peers inp).decision =
        .tookOver lease.term already) := by
  rcases considerCandidacy_cases ha ts expected view peers inp with
    ⟨-, myPos, -, hc⟩ | ⟨-, d, hc, hd⟩
  · rw [hc]
    rcases compareAndPropose_cases ha ts expected view myPos peers inp with
      ⟨-, hp⟩ | ⟨-, until', reason, hp⟩
    · rw [hp]
      obtain ⟨until', hspec⟩ := propose_spec ha
        { ts with settledPos := currentPositions ha.localId myPos peers } expected view inp
        (currentPositions ha.localId myPos peers)
      rcases propose_decision ha { ts with settledPos := currentPositions ha.localId myPos peers }
          expected view inp (currentPositions ha.localId myPos peers) with
        ⟨lease, hwon, hdec⟩ | ⟨-, ⟨holder, hdec⟩ | ⟨reason, hdec⟩⟩
      · refine Or.inr (Or.inr (Or.inr ⟨lease, _, hwon, ?_, hdec⟩))
        rw [hspec]
        exact List.mem_singleton.mpr rfl
      · exact Or.inr (Or.inr (Or.inl ⟨holder, hdec⟩))
      · exact Or.inl ⟨reason, hdec⟩
    · rw [hp]
      exact Or.inl ⟨reason, rfl⟩
  · rw [hc]
    rcases hd with ⟨reason, rfl⟩ | ⟨holder, rfl, -⟩
    · exact Or.inl ⟨reason, rfl⟩
    · exact Or.inr (Or.inl ⟨holder, rfl⟩)

/-- The only call a candidacy makes, and what holds when it makes it. -/
theorem mem_calls_considerCandidacy {expected : Option (NodeId × UInt64)} {view : LocalView}
    {peers : List PeerView} {call : StoreCall} :
    call ∈ (considerCandidacy ha ts expected view peers inp).calls ↔
      call = .tryTakeover ha.localId expected ∧
        GatesOpen ha ts expected view peers inp.now ∧
        ∃ myPos, view.pos = some myPos ∧ Cleared ha ts.settledPos myPos peers ∧
          (considerCandidacy ha ts expected view peers inp).sample =
            some (currentPositions ha.localId myPos peers) := by
  rcases considerCandidacy_cases ha ts expected view peers inp with
    ⟨hopen, myPos, hpos, hc⟩ | ⟨hopen, d, hc, -⟩
  · rw [hc]
    rcases compareAndPropose_cases ha ts expected view myPos peers inp with
      ⟨hclear, hp⟩ | ⟨hclear, until', reason, hp⟩
    · obtain ⟨until', hs⟩ := propose_spec ha
        { ts with settledPos := currentPositions ha.localId myPos peers } expected view inp
        (currentPositions ha.localId myPos peers)
      rw [hp, hs]
      constructor
      · intro h
        exact ⟨List.mem_singleton.mp h, hopen, myPos, hpos, hclear, rfl⟩
      · rintro ⟨rfl, -⟩
        exact List.mem_singleton.mpr rfl
    · rw [hp]
      constructor
      · intro h
        cases h
      · rintro ⟨-, -, myPos', hpos', hclear', -⟩
        rw [hpos] at hpos'
        cases hpos'
        exact absurd hclear' hclear
  · rw [hc]
    constructor
    · intro h
      cases h
    · rintro ⟨-, hopen', -⟩
      exact absurd hopen' hopen

/-- A candidacy records a sample exactly when every gate below the stability gate is
open. -/
theorem sample_considerCandidacy_isSome {expected : Option (NodeId × UInt64)}
    {view : LocalView} {peers : List PeerView} :
    (considerCandidacy ha ts expected view peers inp).sample.isSome = true ↔
      GatesOpen ha ts expected view peers inp.now := by
  rcases considerCandidacy_cases ha ts expected view peers inp with
    ⟨hopen, myPos, hpos, hc⟩ | ⟨hopen, d, hc, -⟩
  · rw [hc]
    rcases compareAndPropose_cases ha ts expected view myPos peers inp with
      ⟨-, hp⟩ | ⟨-, until', reason, hp⟩
    · obtain ⟨until', hs⟩ := propose_spec ha
        { ts with settledPos := currentPositions ha.localId myPos peers } expected view inp
        (currentPositions ha.localId myPos peers)
      rw [hp, hs]
      exact ⟨fun _ => hopen, fun _ => rfl⟩
    · rw [hp]
      exact ⟨fun _ => hopen, fun _ => rfl⟩
  · rw [hc]
    exact ⟨fun h => absurd h (by simp), fun h => absurd h hopen⟩

/-! ## The eight paths of a tick -/

section Remember

variable (l : NodeId) (st : ClusterState) (out : TickOutput)

@[simp] theorem rememberHolder_decision : (rememberHolder l st out).decision = out.decision := rfl

@[simp] theorem rememberHolder_calls : (rememberHolder l st out).calls = out.calls := rfl

@[simp] theorem rememberHolder_sample : (rememberHolder l st out).sample = out.sample := rfl

@[simp] theorem rememberHolder_settledPos :
    (rememberHolder l st out).state.settledPos = out.state.settledPos := rfl

@[simp] theorem rememberHolder_holderUnhealthySince :
    (rememberHolder l st out).state.holderUnhealthySince = out.state.holderUnhealthySince := rfl

@[simp] theorem rememberHolder_storeUnknownSince :
    (rememberHolder l st out).state.storeUnknownSince = out.state.storeUnknownSince := rfl

end Remember

/-- The loop state after a successful read. -/
def TickState.known (ts : TickState) : TickState := { ts with storeUnknownSince := none }

/-- The loop state once the holder is being watched unhealthy. -/
def TickState.watching (ts : TickState) (holder : NodeId) (now : Instant) : TickState :=
  { ts with holderUnhealthySince := some (holder, unhealthySince ts holder now) }

/-- The clock for a holder starts now, or has been running for it. -/
theorem unhealthySince_cases (ts : TickState) (h : NodeId) (now : Instant) :
    unhealthySince ts h now = now ∨
      ts.holderUnhealthySince = some (h, unhealthySince ts h now) := by
  unfold unhealthySince
  split
  · rename_i h' t hclock
    split
    · rename_i heq
      exact Or.inr (by rw [hclock, heq])
    · exact Or.inl rfl
  · exact Or.inl rfl

/-- A failed read starts or keeps the clock of the unknown store, and does nothing else. -/
theorem onStoreUnknown_spec (ha : HaLoop) (ts : TickState) (now : Instant) :
    ∃ d, onStoreUnknown ha ts now =
      ⟨{ ts with storeUnknownSince := some (ts.storeUnknownSince.getD now) }, d, [], none⟩ := by
  unfold onStoreUnknown
  dsimp only
  split
  · exact ⟨_, rfl⟩
  · exact ⟨_, rfl⟩

/-- The path a tick took, with the branch conditions and the resulting output. -/
inductive TickPath (ha : HaLoop) (ts : TickState) (inp : TickInput) : Prop
  | unknown (hread : inp.read ha.timing = none)
      (hout : tickOnce ha ts inp = onStoreUnknown ha ts inp.now)
  | paused (st : ClusterState) (hread : inp.read ha.timing = some st)
      (hpaused : st.paused.isSome = true)
      (hout : tickOnce ha ts inp = ⟨ts.known, .paused, [], none⟩)
  | holding (st : ClusterState) (lease : Lease) (hread : inp.read ha.timing = some st)
      (hpaused : st.paused = none) (hlease : st.lease = some lease)
      (hown : lease.holder = ha.localId)
      (hout : tickOnce ha ts inp = rememberHolder ha.localId st
        (holdingLease ha ts.known lease (observeLocal inp.db) inp))
  | healthy (st : ClusterState) (lease : Lease) (hread : inp.read ha.timing = some st)
      (hpaused : st.paused = none) (hlease : st.lease = some lease)
      (hother : lease.holder ≠ ha.localId)
      (hhealthy : holderHealthy (observePeers ha.pool inp.ends) lease.holder = true)
      (d : HaDecision)
      (hd : d = .following lease.holder ∨ ∃ prev, d = .wouldFollowNewHolder prev lease.holder)
      (hout : tickOnce ha ts inp = rememberHolder ha.localId st
        ⟨{ ts.known with holderUnhealthySince := none, settledPos := ∅ }, d, [], none⟩)
  | watching (st : ClusterState) (lease : Lease) (hread : inp.read ha.timing = some st)
      (hpaused : st.paused = none) (hlease : st.lease = some lease)
      (hother : lease.holder ≠ ha.localId)
      (hunhealthy : holderHealthy (observePeers ha.pool inp.ends) lease.holder = false)
      (hfor : Instant.durationSince inp.now (unhealthySince ts lease.holder inp.now) <
        ha.timing.leaderTtl)
      (hout : tickOnce ha ts inp = rememberHolder ha.localId st
        ⟨ts.known.watching lease.holder inp.now,
          .holderUnhealthy lease.holder
            (Instant.durationSince inp.now (unhealthySince ts lease.holder inp.now)), [], none⟩)
  | deposing (st : ClusterState) (lease : Lease) (hread : inp.read ha.timing = some st)
      (hpaused : st.paused = none) (hlease : st.lease = some lease)
      (hother : lease.holder ≠ ha.localId)
      (hunhealthy : holderHealthy (observePeers ha.pool inp.ends) lease.holder = false)
      (hfor : ha.timing.leaderTtl ≤
        Instant.durationSince inp.now (unhealthySince ts lease.holder inp.now))
      (hout : tickOnce ha ts inp = rememberHolder ha.localId st
        (considerCandidacy ha (ts.known.watching lease.holder inp.now)
          (some (lease.holder, lease.term)) (observeLocal inp.db)
          (observePeers ha.pool inp.ends) inp))
  | bootstrapGap (st : ClusterState) (hread : inp.read ha.timing = some st)
      (hpaused : st.paused = none) (hlease : st.lease = none)
      (hprimaries : ∃ id ∈ observedPrimaries ha.localId (observeLocal inp.db)
        (observePeers ha.pool inp.ends), id ≠ ha.localId ∨
        1 < (observedPrimaries ha.localId (observeLocal inp.db)
          (observePeers ha.pool inp.ends)).length)
      (reason : StandDownReason)
      (hout : tickOnce ha ts inp = rememberHolder ha.localId st (standDown ts.known reason))
  | claiming (st : ClusterState) (hread : inp.read ha.timing = some st)
      (hpaused : st.paused = none) (hlease : st.lease = none)
      (hprimaries : ∀ id ∈ observedPrimaries ha.localId (observeLocal inp.db)
        (observePeers ha.pool inp.ends), id = ha.localId)
      (hout : tickOnce ha ts inp = rememberHolder ha.localId st
        (considerCandidacy ha ts.known none (observeLocal inp.db)
          (observePeers ha.pool inp.ends) inp))

theorem tickOnce_of_read (ts : TickState) {st : ClusterState} (hread : inp.read ha.timing = some st)
    (hpaused : st.paused = none) :
    tickOnce ha ts inp = rememberHolder ha.localId st (decideOn ha ts.known st inp) := by
  rw [tickOnce, hread]
  simp [hpaused, TickState.known]

/-- Every tick takes one of the eight paths. -/
theorem tickPath (ha : HaLoop) (ts : TickState) (inp : TickInput) : TickPath ha ts inp := by
  cases hread : inp.read ha.timing with
  | none => exact .unknown hread (by rw [tickOnce, hread])
  | some st =>
  cases hp : st.paused with
  | some p =>
    exact .paused st hread (by simp [hp]) (by rw [tickOnce, hread]; simp [hp, TickState.known])
  | none =>
  have hout := tickOnce_of_read ts hread hp
  cases hl : st.lease with
  | some lease =>
    rw [decideOn, hl] at hout
    by_cases hown : lease.holder = ha.localId
    · simp only [hown, if_true] at hout
      exact .holding st lease hread hp hl hown hout
    · simp only [hown, if_false, watchingHolder] at hout
      cases hh : holderHealthy (observePeers ha.pool inp.ends) lease.holder with
      | true =>
        simp only [hh, if_true] at hout
        cases hlast : ts.lastHolder with
        | none =>
          exact .healthy st lease hread hp hl hown hh _ (Or.inl rfl)
            (by simpa [TickState.known, hlast] using hout)
        | some p =>
          by_cases hpl : p = lease.holder
          · exact .healthy st lease hread hp hl hown hh _ (Or.inl rfl)
              (by simpa [TickState.known, hlast, hpl] using hout)
          · exact .healthy st lease hread hp hl hown hh _ (Or.inr ⟨p, rfl⟩)
              (by simpa [TickState.known, hlast, hpl] using hout)
      | false =>
        have hsince : unhealthySince ts.known lease.holder inp.now =
            unhealthySince ts lease.holder inp.now := rfl
        simp only [hh, Bool.false_eq_true, if_false, hsince, ge_iff_le] at hout
        by_cases hfor : ha.timing.leaderTtl ≤
            Instant.durationSince inp.now (unhealthySince ts lease.holder inp.now)
        · exact .deposing st lease hread hp hl hown hh hfor
            (by rw [if_pos hfor] at hout; exact hout)
        · exact .watching st lease hread hp hl hown hh (not_le.mp hfor)
            (by rw [if_neg hfor] at hout; exact hout)
  | none =>
    rw [decideOn, hl] at hout
    simp only [vacantLease] at hout
    cases ho : observedPrimaries ha.localId (observeLocal inp.db)
        (observePeers ha.pool inp.ends) with
    | nil =>
      rw [ho] at hout
      exact .claiming st hread hp hl (by simp [ho]) hout
    | cons only rest =>
      cases rest with
      | nil =>
        simp only [ho] at hout
        by_cases hloc : only = ha.localId
        · rw [if_neg (not_not.mpr hloc)] at hout
          exact .claiming st hread hp hl (by simp [ho, hloc]) hout
        · rw [if_pos hloc] at hout
          exact .bootstrapGap st hread hp hl ⟨only, by simp [ho], Or.inl hloc⟩ _ hout
      | cons second rest =>
        simp only [ho] at hout
        exact .bootstrapGap st hread hp hl ⟨only, by simp [ho], Or.inr (by simp [ho])⟩ _ hout

/-! ## Holding the lease -/

/-- On its own lease a node clears the rival clock and the sample, calls nothing but a
release of that lease, and decides among the four holder decisions. -/
theorem holdingLease_spec (ha : HaLoop) (ts : TickState) (lease : Lease) (view : LocalView)
    (inp : TickInput) :
    ∃ held since until', (holdingLease ha ts lease view inp).state =
        { ts with
          holderUnhealthySince := none
          settledPos := ∅
          heldTerm := held
          heldSince := since
          backoffUntil := until' } ∧
      (holdingLease ha ts lease view inp).sample = none ∧
      (∀ call ∈ (holdingLease ha ts lease view inp).calls,
        call = .release ha.localId lease.term) ∧
      ((holdingLease ha ts lease view inp).decision = .retainedLease lease.term ∨
        (∃ waiting, (holdingLease ha ts lease view inp).decision =
          .awaitingPromotion lease.term waiting) ∨
        (∃ heldFor, (holdingLease ha ts lease view inp).decision =
          .wouldDemote (.promotionDidNotTakeEffect heldFor)) ∨
        (holdingLease ha ts lease view inp).decision = .wouldDemote .localStateUnknown) := by
  unfold holdingLease
  by_cases hterm : ts.heldTerm = some lease.term
  · simp only [hterm, ne_eq, not_true_eq_false, if_false]
    split
    · exact ⟨_, _, _, rfl, rfl, by simp, Or.inl rfl⟩
    · split
      · exact ⟨_, _, _, rfl, rfl, by simp, Or.inr (Or.inl ⟨_, rfl⟩)⟩
      · exact ⟨_, _, _, rfl, rfl, by simp, Or.inr (Or.inr (Or.inl ⟨_, rfl⟩))⟩
    · exact ⟨_, _, _, rfl, rfl, by simp, Or.inr (Or.inr (Or.inr rfl))⟩
  · simp only [ne_eq, hterm, not_false_eq_true, if_true]
    split
    · exact ⟨_, _, _, rfl, rfl, by simp, Or.inl rfl⟩
    · split
      · exact ⟨_, _, _, rfl, rfl, by simp, Or.inr (Or.inl ⟨_, rfl⟩)⟩
      · exact ⟨_, _, _, rfl, rfl, by simp, Or.inr (Or.inr (Or.inl ⟨_, rfl⟩))⟩
    · exact ⟨_, _, _, rfl, rfl, by simp, Or.inr (Or.inr (Or.inr rfl))⟩

theorem not_tryTakeover_mem_holdingLease {lease : Lease} {view : LocalView} {cand : NodeId}
    {e : Option (NodeId × UInt64)} :
    .tryTakeover cand e ∉ (holdingLease ha ts lease view inp).calls := by
  intro h
  obtain ⟨-, -, -, -, -, hcalls, -⟩ := holdingLease_spec ha ts lease view inp
  cases hcalls _ h

/-! ## What is known when a takeover is proposed -/

/-- What a tick that calls `try_takeover` with this expectation has read, observed and
compared. -/
structure Proposes (ha : HaLoop) (ts : TickState) (inp : TickInput)
    (expected : Option (NodeId × UInt64)) : Prop where
  /-- The read succeeded, was not paused, and showed the expected lease. -/
  read : ∃ st, inp.read ha.timing = some st ∧ st.paused = none ∧
    st.lease.map (fun l => (l.holder, l.term)) = expected
  /-- A holder is deposed only after a full ttl of being watched unhealthy. -/
  watched : ∀ h t, expected = some (h, t) → h ≠ ha.localId ∧
    holderHealthy (observePeers ha.pool inp.ends) h = false ∧
    ha.timing.leaderTtl ≤ Instant.durationSince inp.now (unhealthySince ts h inp.now)
  /-- Every gate below the stability gate was open. -/
  gates : GatesOpen ha ts expected (observeLocal inp.db) (observePeers ha.pool inp.ends) inp.now
  /-- The sample was stable and nobody outranked the local node. -/
  cleared : ∃ myPos, (observeLocal inp.db).pos = some myPos ∧
    Cleared ha ts.settledPos myPos (observePeers ha.pool inp.ends) ∧
    (tickOnce ha ts inp).sample =
      some (currentPositions ha.localId myPos (observePeers ha.pool inp.ends))

/-- The gates read the loop state only through its backoff. -/
theorem GatesOpen.congr {expected : Option (NodeId × UInt64)} {view : LocalView}
    {peers : List PeerView} {now : Instant} {ts' : TickState}
    (h : GatesOpen ha ts expected view peers now) (hb : ts'.backoffUntil = ts.backoffUntil) :
    GatesOpen ha ts' expected view peers now where
  noBackoff := by
    rw [inBackoff, hb]
    exact h.noBackoff
  localKnown := h.localKnown
  noWitness := h.noWitness
  frozen := h.frozen
  noMover := h.noMover
  posKnown := h.posKnown

theorem proposes_of_mem_calls {cand : NodeId} {expected : Option (NodeId × UInt64)}
    (h : .tryTakeover cand expected ∈ (tickOnce ha ts inp).calls) :
    cand = ha.localId ∧ Proposes ha ts inp expected := by
  cases tickPath ha ts inp with
  | unknown hread hout =>
    obtain ⟨d, hunknown⟩ := onStoreUnknown_spec ha ts inp.now
    rw [hout, hunknown] at h
    cases h
  | paused st hread hp hout =>
    rw [hout] at h
    cases h
  | holding st lease hread hp hl hown hout =>
    rw [hout, rememberHolder_calls] at h
    exact absurd h not_tryTakeover_mem_holdingLease
  | healthy st lease hread hp hl hother hh d hd hout =>
    rw [hout, rememberHolder_calls] at h
    cases h
  | watching st lease hread hp hl hother hh hfor hout =>
    rw [hout, rememberHolder_calls] at h
    cases h
  | deposing st lease hread hp hl hother hh hfor hout =>
    rw [hout, rememberHolder_calls, mem_calls_considerCandidacy] at h
    obtain ⟨hcall, hgates, myPos, hpos, hclear, hsample⟩ := h
    obtain ⟨rfl, rfl⟩ := StoreCall.tryTakeover.inj hcall
    refine ⟨rfl, ⟨st, hread, hp, by rw [hl]; rfl⟩, ?_, hgates.congr rfl, myPos,
      hpos, hclear, ?_⟩
    · intro h t heq
      obtain ⟨rfl, rfl⟩ := Prod.mk.inj (Option.some.inj heq)
      exact ⟨hother, hh, hfor⟩
    · rw [hout]
      exact hsample
  | bootstrapGap st hread hp hl hprim reason hout =>
    rw [hout, rememberHolder_calls] at h
    cases h
  | claiming st hread hp hl hprim hout =>
    rw [hout, rememberHolder_calls, mem_calls_considerCandidacy] at h
    obtain ⟨hcall, hgates, myPos, hpos, hclear, hsample⟩ := h
    obtain ⟨rfl, rfl⟩ := StoreCall.tryTakeover.inj hcall
    refine ⟨rfl, ⟨st, hread, hp, by rw [hl]; rfl⟩, ?_, hgates.congr rfl, myPos,
      hpos, hclear, ?_⟩
    · intro h t heq
      cases heq
    · rw [hout]
      exact hsample

/-! ## Reaching the ladder -/

/-- The tick gets to `consider_candidacy` with this expectation: the lease is another
node's that has been watched unhealthy for the ttl, or it is vacant and nobody else is
observed running as a primary. -/
inductive Evaluates (ha : HaLoop) (ts : TickState) (inp : TickInput) :
    Option (NodeId × UInt64) → Prop
  | deposing (st : ClusterState) (lease : Lease) (hread : inp.read ha.timing = some st)
      (hpaused : st.paused = none) (hlease : st.lease = some lease)
      (hother : lease.holder ≠ ha.localId)
      (hunhealthy : holderHealthy (observePeers ha.pool inp.ends) lease.holder = false)
      (hfor : ha.timing.leaderTtl ≤
        Instant.durationSince inp.now (unhealthySince ts lease.holder inp.now)) :
      Evaluates ha ts inp (some (lease.holder, lease.term))
  | claiming (st : ClusterState) (hread : inp.read ha.timing = some st)
      (hpaused : st.paused = none) (hlease : st.lease = none)
      (hprimaries : observedPrimaries ha.localId (observeLocal inp.db)
        (observePeers ha.pool inp.ends) ∈ [[], [ha.localId]]) :
      Evaluates ha ts inp none

/-- A tick that gets there is its candidacy, on a loop state with the same backoff and
the same sample. -/
theorem tickOnce_of_evaluates {expected : Option (NodeId × UInt64)}
    (h : Evaluates ha ts inp expected) :
    ∃ st ts', ts'.backoffUntil = ts.backoffUntil ∧ ts'.settledPos = ts.settledPos ∧
      tickOnce ha ts inp = rememberHolder ha.localId st
        (considerCandidacy ha ts' expected (observeLocal inp.db)
          (observePeers ha.pool inp.ends) inp) := by
  cases h with
  | deposing st lease hread hp hl hother hh hfor =>
    refine ⟨st, ts.known.watching lease.holder inp.now, rfl, rfl, ?_⟩
    rw [tickOnce_of_read ts hread hp, decideOn, hl]
    simp only [if_neg hother, watchingHolder, hh, Bool.false_eq_true, if_false]
    rw [if_pos (show Instant.durationSince inp.now
      (unhealthySince ts.known lease.holder inp.now) ≥
      ha.timing.leaderTtl from hfor)]
    rfl
  | claiming st hread hp hl hprim =>
    refine ⟨st, ts.known, rfl, rfl, ?_⟩
    rw [tickOnce_of_read ts hread hp, decideOn, hl]
    simp only [vacantLease]
    rcases List.mem_cons.mp hprim with hnil | hone
    · rw [hnil]
    · rw [List.mem_singleton.mp hone]
      simp

/-- A tick that samples has read an unpaused state, and a lease it found there has been
watched unhealthy for the ttl. -/
theorem watched_of_sample (h : (tickOnce ha ts inp).sample.isSome = true) :
    ∃ st, inp.read ha.timing = some st ∧ st.paused = none ∧
      ∀ lease, st.lease = some lease → ha.timing.leaderTtl ≤
        Instant.durationSince inp.now (unhealthySince ts lease.holder inp.now) := by
  cases tickPath ha ts inp with
  | unknown hread hout =>
    obtain ⟨d, hunknown⟩ := onStoreUnknown_spec ha ts inp.now
    rw [hout, hunknown] at h
    cases h
  | paused st hread hp hout =>
    rw [hout] at h
    cases h
  | holding st lease hread hp hl hown hout =>
    obtain ⟨-, -, -, -, hsample, -⟩ :=
      holdingLease_spec ha ts.known lease (observeLocal inp.db) inp
    rw [hout, rememberHolder_sample, hsample] at h
    cases h
  | healthy st lease hread hp hl hother hh d hd hout =>
    rw [hout] at h
    cases h
  | watching st lease hread hp hl hother hh hfor hout =>
    rw [hout] at h
    cases h
  | deposing st lease hread hp hl hother hh hfor hout =>
    refine ⟨st, hread, hp, fun lease' hl' => ?_⟩
    obtain rfl := Option.some.inj (hl.symm.trans hl')
    exact hfor
  | bootstrapGap st hread hp hl hprim reason hout =>
    rw [hout] at h
    cases h
  | claiming st hread hp hl hprim hout =>
    refine ⟨st, hread, hp, fun lease' hl' => ?_⟩
    rw [hl] at hl'
    cases hl'

/-- Such a tick proposes exactly when every gate is open. -/
theorem mem_calls_iff_of_evaluates {expected : Option (NodeId × UInt64)}
    (h : Evaluates ha ts inp expected) {call : StoreCall} :
    call ∈ (tickOnce ha ts inp).calls ↔
      call = .tryTakeover ha.localId expected ∧
        GatesOpen ha ts expected (observeLocal inp.db) (observePeers ha.pool inp.ends) inp.now ∧
        ∃ myPos, (observeLocal inp.db).pos = some myPos ∧
          Cleared ha ts.settledPos myPos (observePeers ha.pool inp.ends) := by
  obtain ⟨st, ts', hb, hs, hout⟩ := tickOnce_of_evaluates h
  rw [hout, rememberHolder_calls]
  constructor
  · intro hcall
    obtain ⟨hcall, hgates, myPos, hpos, hclear, -⟩ := mem_calls_considerCandidacy.mp hcall
    exact ⟨hcall, hgates.congr hb.symm, myPos, hpos, hs ▸ hclear⟩
  · rintro ⟨rfl, hgates, myPos, hpos, hclear⟩
    rw [← hs] at hclear
    rcases considerCandidacy_cases ha ts' expected (observeLocal inp.db)
        (observePeers ha.pool inp.ends) inp with ⟨-, myPos', hpos', hc⟩ | ⟨hclosed, -⟩
    · obtain rfl : myPos = myPos' := Option.some.inj (hpos.symm.trans hpos')
      rcases compareAndPropose_cases ha ts' expected (observeLocal inp.db) myPos
          (observePeers ha.pool inp.ends) inp with ⟨-, hp⟩ | ⟨hnot, -⟩
      · obtain ⟨until', hspec⟩ := propose_spec ha
          { ts' with settledPos :=
              currentPositions ha.localId myPos (observePeers ha.pool inp.ends) }
          expected (observeLocal inp.db) inp
          (currentPositions ha.localId myPos (observePeers ha.pool inp.ends))
        rw [hc, hp, hspec]
        exact List.mem_singleton.mpr rfl
      · exact absurd hclear hnot
    · exact absurd (hgates.congr hb) hclosed

end PgAgent
