import PgAgent.Ops.Handoff
import PgAgent.System.Durability
import PgAgent.System.Step

/-!
# A handoff among the ticks

`cluster_handoff` and the loops of the nodes act on the same databases, the handoff on the
operator's word, the loops on the lease.  Here they run together: the world moves by its
own events, and between any two of them the handler may get an answer to the call it
stands at and go on to the next one.

The handler reads nothing of the store and writes nothing to it.  So whether the two agree
depends on where the lease stands when the handoff comes to its promotion, and
`handoffComposes` says what is enough: that the lease is the target's by then, and stays
with it.  `plainHandoff_diverges` is the plain run, in which nobody has moved the lease.

What is left open here: whether a call succeeds, and when it takes effect, if at all.  A
call that fails may have taken effect all the same, or still take it later.
-/

namespace PgAgent

open Rust

/-- A handoff asked of `source`. -/
structure PlannedHandoff where
  dep : Deployment
  source : NodeId
  request : ClusterHandoffRequest

/-- Where the handler stands.  It is dropped when its process dies or its caller leaves. -/
inductive HandoffStage where
  | waiting
  | driving (op : HandoffOp) (pos : LadderPosition)
  | replied (reply : OpReply)
  | dropped

/-- The world and the handoff in it.  `sent` are the calls made that have not taken effect.
`signalled` says that the target's database has been told to promote and has not done so
yet, `configured` that the source's data directory is that of a standby of the target.

The rest is history: whether `ok = true` was replied and the lease has not changed since;
which nodes are in a tick that began after that reply; the holder of the lease at every
promotion of the target; and what such late ticks issued while the lease stayed. -/
structure HandoffWorld where
  world : World
  stage : HandoffStage
  sent : List HandoffCall
  signalled : Bool
  configured : Bool
  settled : Bool
  late : NodeId → Bool
  promotedUnder : List (Option NodeId)
  lateIssued : List Issued

inductive HandoffEvent where
  | world (event : WorldEvent)
  | request (probes : PreflightProbes)
  | effect (call : HandoffCall)
  | returns (outcome : Except String Unit)
  | recoveryEnds
  | cancel

namespace HandoffWorld

/-- The node the committed lease names. -/
def holder (s : HandoffWorld) : Option NodeId := s.world.sys.holder

def phase (s : HandoffWorld) (n : NodeId) : Phase := (s.world.sys.agents n).phase

def setPg (s : HandoffWorld) (n : NodeId) (p : Postgres) : HandoffWorld :=
  { s with world := s.world.setPg n p }

/-- The ladder makes its next call. -/
def make (s : HandoffWorld) (op : HandoffOp) (pos : LadderPosition) : HandoffWorld :=
  { s with stage := .driving op pos, sent := pos.call :: s.sent }

def answer (s : HandoffWorld) (reply : OpReply) : HandoffWorld :=
  { s with stage := .replied reply, settled := reply.isAccepted }

end HandoffWorld

namespace PlannedHandoff

section Step

variable (h : PlannedHandoff) (s : HandoffWorld)

def target : NodeId := h.request.targetNodeId

def pool : NodePool := ⟨h.dep.members, h.source⟩

/-- The source's database after a start: as what its data directory says. -/
def started : Postgres :=
  let p := s.world.pg h.source
  if p.up then p
  else if s.configured then { p with up := true, inRecovery := true, upstream := some h.target }
  else { p with up := true }

/-- What a call of the ladder does when it takes effect.  The promotion is only a signal;
the copies bring the source to where the target stands. -/
def takeEffect : HandoffCall → HandoffWorld
  | .promote =>
      if (s.world.pg h.target).up && (s.world.pg h.target).inRecovery then
        { s with signalled := true, promotedUnder := s.holder :: s.promotedUnder }
      else s
  | .stopPostgres =>
      s.setPg h.source { s.world.pg h.source with up := false, receivingFrom := none }
  | .rewind =>
      s.setPg h.source { s.world.pg h.source with flush := (s.world.pg h.target).flush }
  | .basebackup =>
      s.setPg h.source { s.world.pg h.source with flush := (s.world.pg h.target).flush }
  | .writeRecoveryConf => { s with configured := true }
  | .startPostgres => s.setPg h.source (h.started s)
  | _ => s

/-- The events that end the source's agent, and its handlers with it. -/
def killsHandler : WorldEvent → Bool
  | .dieActing n _ _ _ _ => n == h.source
  | .restartAgent n => n == h.source
  | _ => false

/-- The handler after an event of the world. -/
def stageAfter (event : WorldEvent) : HandoffStage :=
  match s.stage with
  | .replied reply => .replied reply
  | stage => if h.killsHandler event then .dropped else stage

/-- The databases after an event of the world.  A start of the source reads its data
directory. -/
def afterStart (event : WorldEvent) (w : World) : World :=
  match event with
  | .startPostgres n => if n = h.source then w.setPg n (h.started s) else w
  | _ => w

/-- Which nodes are in a late tick after an event. -/
def lateAfter (event : WorldEvent) : NodeId → Bool :=
  match event with
  | .read n _ => Function.update s.late n s.settled
  | _ => s.late

/-- An event of the world.  A database that stops forgets the signal to promote, and one
that leaves recovery is no standby any more. -/
def absorb (event : WorldEvent) (w : World) : HandoffWorld :=
  let fresh := s.world.sys.newlyIssued w.sys
  { world := h.afterStart s event w
    stage := h.stageAfter s event
    sent := s.sent
    signalled := s.signalled && (w.pg h.target).up
    configured :=
      s.configured && !((s.world.pg h.source).inRecovery && !(w.pg h.source).inRecovery)
    settled := s.settled && decide (w.sys.store.lease = s.world.sys.store.lease)
    late := lateAfter s event
    promotedUnder :=
      ((fresh.filter fun e => e.node == h.target && e.action.isPromotion).map fun _ => s.holder) ++
        s.promotedUnder
    lateIssued := (if s.settled then fresh.filter fun e => s.late e.node else []) ++ s.lateIssued }

def step : HandoffEvent → Option HandoffWorld
  | .world event => (s.world.step h.dep event).map (h.absorb s event)
  | .request probes =>
      match s.stage with
      | .waiting =>
          match handoffPreflight h.pool h.request probes with
          | .ok op => some (s.make op HandoffPhase.preflightDone.start)
          | .error reply => some (s.answer reply)
      | _ => none
  | .effect call =>
      if call ∈ s.sent then some { h.takeEffect s call with sent := s.sent.erase call } else none
  | .returns outcome =>
      match s.stage with
      | .driving op pos =>
          match op.next pos outcome with
          | .inl pos' => some (s.make op pos')
          | .inr reply => some (s.answer reply)
      | _ => none
  | .recoveryEnds =>
      let p := s.world.pg h.target
      if s.signalled && p.up && p.inRecovery then
        some { s.setPg h.target { p with inRecovery := false, receivingFrom := none } with
          signalled := false
          promotedUnder := s.holder :: s.promotedUnder }
      else none
  | .cancel =>
      match s.stage with
      | .replied _ => none
      | _ => some { s with stage := .dropped }

end Step

variable (h : PlannedHandoff)

/-- The source holds the lease and runs as the primary, the target streams from it, both
are between ticks, and the request has just come in. -/
structure Start (s : HandoffWorld) : Prop where
  leased : s.holder = some h.source
  primary : (s.world.pg h.source).up = true ∧ (s.world.pg h.source).inRecovery = false
  standby : (s.world.pg h.target).up = true ∧ (s.world.pg h.target).inRecovery = true ∧
    (s.world.pg h.target).receivingFrom = some h.source
  idle : s.phase h.source = .idle ∧ s.phase h.target = .idle
  waiting : s.stage = .waiting
  sent : s.sent = []
  signalled : s.signalled = false
  configured : s.configured = false
  settled : s.settled = false
  late : s.late = fun _ => false
  promotedUnder : s.promotedUnder = []
  lateIssued : s.lateIssued = []

/-- The handoff and the lease agree: from a reply `ok = true` on, as long as the lease does
not change, it names the target, no tick stops the target and none promotes the source;
and the target was never promoted under the source's lease. -/
structure Composes (s : HandoffWorld) : Prop where
  leased : s.settled = true → s.holder = some h.target
  notFenced : ∀ e ∈ s.lateIssued, e.node = h.target → e.action ≠ .ensureStopped
  notPromoted : ∀ e ∈ s.lateIssued, e.node = h.source → e.action.isPromotion = false
  authorized : some h.source ∉ s.promotedUnder

/-! ## When they do -/

/-- How long the lease has been held, as the tick counts it. -/
def heldFor (ts : TickState) (lease : Lease) (now : Instant) : Duration :=
  if ts.heldTerm = some lease.term then Instant.durationSince now (ts.heldSince.getD now)
  else Instant.durationSince now now

/-- A tick that can vouch for its node: the store answers, or has not been silent for
`retry_timeout`, and the database says it is out of recovery, or the promotion is still in
its grace. -/
def vouches (ha : HaLoop) (ts : TickState) (inp : TickInput) : Bool :=
  match inp.read ha.timing with
  | none =>
      !(ts.lastHolder == some ha.localId &&
        decide (Instant.durationSince inp.now (ts.storeUnknownSince.getD inp.now) >
          ha.timing.retryTimeout))
  | some st =>
      st.paused.isSome ||
        match inp.db.isInRecovery, st.lease with
        | some false, _ => true
        | some true, some lease => decide (heldFor ts lease inp.now < ha.timing.leaderTtl)
        | _, _ => false

/-- The lease is not taken from the target. -/
def keepsLease (s : HandoffWorld) (event : WorldEvent) : Bool :=
  match s.world.step h.dep event with
  | some w => s.holder != some h.target || w.sys.holder == some h.target
  | none => true

/-- A late tick of the target can vouch for it. -/
def vouched (s : HandoffWorld) : WorldEvent → Bool
  | .decide n now readTook takeover random _ _ =>
      !(n == h.target && s.settled && s.late n) ||
        vouches (h.dep.haLoop n) (s.world.sys.agents n).tick
          (s.world.tickInput n now readTook takeover random)
  | _ => true

/-- The journal does not have the same handoff as done. -/
def notYetDone (probes : PreflightProbes) : Bool :=
  match probes.journal with
  | .ok ops => (earlierHandoff ops h.source h.target).map (·.status) != some .done
  | .error _ => true

/-- The handoff passes its promotion only when the lease is the target's. -/
def leaseFirst (s : HandoffWorld) : Bool :=
  match s.stage with
  | .driving _ pos => pos.call != .promote || s.holder == some h.target
  | _ => true

def conforms (s : HandoffWorld) : HandoffEvent → Bool
  | .world event => h.keepsLease s event && h.vouched s event
  | .request probes => h.notYetDone probes
  | .effect call => call != .promote || s.holder == some h.target
  | .returns _ => h.leaseFirst s
  | _ => true

/-- A step under these conditions. -/
def conformingStep (s : HandoffWorld) (event : HandoffEvent) : Option HandoffWorld :=
  if h.conforms s event then h.step s event else none

end PlannedHandoff

/-! ## Ticks under a lease -/

/-- The decisions on which the executor may stop PostgreSQL. -/
def HaDecision.mayStop : HaDecision → Bool
  | .wouldDemote _ => true
  | .following _ => true
  | .wouldFollowNewHolder _ _ => true
  | _ => false

theorem mayStop_of_mem_apply {rx : RoleExecutor} {es : ExecState} {inp : ExecInput}
    {d : HaDecision} (h : .ensureStopped ∈ (rx.apply es inp d).2) : d.mayStop = true := by
  rcases stops_iff_mem_apply.mp h with ⟨_, rfl⟩ | ⟨⟨_, rfl⟩ | ⟨_, _, rfl⟩, -⟩
  · rfl
  · rfl
  · rfl

theorem promotes_of_isPromotion {rx : RoleExecutor} {es : ExecState} {inp : ExecInput}
    {d : HaDecision} {a : ExecAction} (h : a ∈ (rx.apply es inp d).2)
    (hpromo : a.isPromotion = true) : d.promotes.isSome = true := by
  obtain ⟨hrole, hstop⟩ := changesRole_of_isPromotion hpromo
  obtain ⟨term, -, -, rfl | ⟨waiting, rfl⟩⟩ := promotes_of_mem_apply h hrole hstop
  · rfl
  · rfl

section Ticks

variable {ha : HaLoop} {ts : TickState} {inp : TickInput}

/-- On its own lease a node that is out of recovery keeps it, and one in recovery within
the grace waits for its promotion. -/
theorem holdingLease_mayStop {lease : Lease}
    (hrec : inp.db.isInRecovery = some false ∨ (inp.db.isInRecovery = some true ∧
      PlannedHandoff.heldFor ts lease inp.now < ha.timing.leaderTtl)) :
    (holdingLease ha ts lease (observeLocal inp.db) inp).decision.mayStop = false := by
  have hview : (observeLocal inp.db).isPrimary = inp.db.isInRecovery.map (!·) := rfl
  unfold holdingLease
  rcases hrec with hrec | ⟨hrec, hgrace⟩
  · simp only [hview, hrec, Option.map_some, Bool.not_false]
    rfl
  · unfold PlannedHandoff.heldFor at hgrace
    by_cases hterm : ts.heldTerm = some lease.term
    · rw [if_pos hterm] at hgrace
      simp only [hview, hrec, Option.map_some, Bool.not_true, hterm, ne_eq, not_true_eq_false,
        if_false, promotionGrace, hgrace, if_true]
      rfl
    · rw [if_neg hterm] at hgrace
      simp only [hview, hrec, Option.map_some, Bool.not_true, ne_eq, hterm, not_false_eq_true,
        if_true, Option.getD_some, promotionGrace, hgrace]
      rfl

/-- A tick that can vouch for the holder does not stop it. -/
theorem mayStop_of_vouches (hv : PlannedHandoff.vouches ha ts inp = true)
    (hlease : ∀ st, inp.read ha.timing = some st → st.lease.map (·.holder) = some ha.localId) :
    (tickOnce ha ts inp).decision.mayStop = false := by
  unfold PlannedHandoff.vouches at hv
  cases hread : inp.read ha.timing with
  | none =>
    rw [hread] at hv
    simp only [Bool.not_eq_true', Bool.and_eq_false_iff, beq_eq_false_iff_ne,
      decide_eq_false_iff_not] at hv
    rw [tickOnce, hread]
    simp only [onStoreUnknown]
    rw [if_neg (not_and_or.mpr hv)]
    rfl
  | some st =>
    have hholder := hlease st hread
    rw [hread] at hv
    cases hp : st.paused with
    | some p =>
      rw [tickOnce, hread]
      simp [hp, HaDecision.mayStop]
    | none =>
      obtain ⟨lease, hl, hown⟩ := Option.map_eq_some_iff.mp hholder
      rw [tickOnce_of_read ts hread hp, rememberHolder_decision, decideOn, hl]
      simp only [hown, if_true]
      refine holdingLease_mayStop ?_
      simp only [hp, hl, Option.isSome_none, Bool.false_or] at hv
      rcases hrec : inp.db.isInRecovery with _ | _ | _
      · rw [hrec] at hv
        cases hv
      · exact Or.inl rfl
      · rw [hrec] at hv
        exact Or.inr ⟨rfl, of_decide_eq_true hv⟩

end Ticks

namespace PlannedHandoff

/-! ## The invariant -/

/-- What holds along every conforming run.  A promotion of the target, whoever asks for it,
comes with the lease in the target's hands: the ladder is past its promotion, the signal is
out, or a tick of the target has read or won the lease.  And a late tick has read the very
lease that is still committed, so it decides neither to promote the source nor to stop the
target. -/
structure Leased (h : PlannedHandoff) (s : HandoffWorld) : Prop where
  distinct : h.source ≠ h.target
  early : (∀ reply, s.stage ≠ .replied reply) → s.settled = false ∧ ∀ n, s.late n = false
  driving : ∀ op pos, s.stage = .driving op pos → pos.call.afterPromotion = true →
    s.holder = some h.target
  settled : s.settled = true → s.holder = some h.target
  signalled : s.signalled = true → s.holder = some h.target
  promotedUnder : ∀ n ∈ s.promotedUnder, n = some h.target
  reading : ∀ st, s.phase h.target = .read (some st) →
    st.lease.map (·.holder) = some h.target → s.holder = some h.target
  deciding : ∀ result d, s.phase h.target = .decided result d → d.promotes.isSome = true →
    s.holder = some h.target
  lateReading : s.settled = true → ∀ n, s.late n = true →
    ∀ st, s.phase n = .read (some st) →
    st.lease = s.world.sys.store.lease
  lateSource : s.settled = true → s.late h.source = true → ∀ result d,
    s.phase h.source = .decided result d → d.promotes.isSome = false
  lateTarget : s.settled = true → s.late h.target = true → ∀ result d,
    s.phase h.target = .decided result d → d.mayStop = false
  notFenced : ∀ e ∈ s.lateIssued, e.node = h.target → e.action ≠ .ensureStopped
  notPromoted : ∀ e ∈ s.lateIssued, e.node = h.source → e.action.isPromotion = false

section Invariant

variable {h : PlannedHandoff} {s s' : HandoffWorld}

theorem Leased.composes (hs : Leased h s) : h.Composes s where
  leased := hs.settled
  notFenced := hs.notFenced
  notPromoted := hs.notPromoted
  authorized hmem := hs.distinct (Option.some.inj (hs.promotedUnder _ hmem))

theorem leased_of_start (hs : h.Start s) : Leased h s where
  distinct := by
    intro heq
    have hrec := hs.primary.2
    rw [heq, hs.standby.2.1] at hrec
    cases hrec
  early := fun _ => ⟨hs.settled, fun n => by rw [hs.late]⟩
  driving := by
    intro op pos hstage
    rw [hs.waiting] at hstage
    cases hstage
  settled := by simp [hs.settled]
  signalled := by simp [hs.signalled]
  promotedUnder := by simp [hs.promotedUnder]
  reading := by simp [hs.idle.2]
  deciding := by simp [hs.idle.2]
  lateReading := by simp [hs.settled]
  lateSource := by simp [hs.settled]
  lateTarget := by simp [hs.settled]
  notFenced := by simp [hs.lateIssued]
  notPromoted := by simp [hs.lateIssued]

/-! ## The handler's steps -/

/-- What the handler does to a database changes neither the agents nor the store. -/
theorem Leased.setPg (hs : Leased h s) (n : NodeId) (p : Postgres) : Leased h (s.setPg n p) :=
  { hs with }

theorem Leased.promotion (hs : Leased h s) (hheld : s.holder = some h.target) (signal : Bool) :
    Leased h { s with signalled := signal, promotedUnder := s.holder :: s.promotedUnder } :=
  { hs with
    signalled := fun _ => hheld
    promotedUnder := fun n hn => by
      rcases List.mem_cons.mp hn with rfl | hn
      · exact hheld
      · exact hs.promotedUnder n hn }

theorem Leased.takeEffect (hs : Leased h s) {call : HandoffCall}
    (hpromote : call = .promote → s.holder = some h.target) : Leased h (h.takeEffect s call) := by
  cases call with
  | promote =>
    simp only [PlannedHandoff.takeEffect]
    split
    · exact hs.promotion (hpromote rfl) true
    · exact hs
  | stopPostgres => exact hs.setPg _ _
  | rewind => exact hs.setPg _ _
  | basebackup => exact hs.setPg _ _
  | startPostgres => exact hs.setPg _ _
  | writeRecoveryConf => exact { hs with }
  | _ => exact hs

/-- A reply; `ok = true` takes the target's lease. -/
theorem Leased.answer (hs : Leased h s) {reply : OpReply}
    (hstage : ∀ reply, s.stage ≠ .replied reply)
    (hheld : reply.isAccepted = true → s.holder = some h.target) : Leased h (s.answer reply) := by
  obtain ⟨-, hlate⟩ := hs.early hstage
  -- no tick is late yet
  have hnone : ∀ {n : NodeId} {P : Prop}, (s.answer reply).late n = true → P := by
    intro n P hn
    rw [show (s.answer reply).late n = s.late n from rfl, hlate n] at hn
    cases hn
  exact
    { hs with
      early := fun hnot => absurd rfl (hnot reply)
      driving := fun _ _ hdriving => by cases hdriving
      settled := hheld
      lateReading := fun _ _ hn => hnone hn
      lateSource := fun _ hn => hnone hn
      lateTarget := fun _ hn => hnone hn }

/-- The ladder goes on, under the target's lease once the promotion is behind it. -/
theorem Leased.make (hs : Leased h s) (hstage : ∀ reply, s.stage ≠ .replied reply)
    {op : HandoffOp} {pos : LadderPosition}
    (hheld : pos.call.afterPromotion = true → s.holder = some h.target) :
    Leased h (s.make op pos) :=
  { hs with
    early := fun _ => hs.early hstage
    driving := fun _ _ hdriving hafter => by
      obtain ⟨-, rfl⟩ := HandoffStage.driving.inj hdriving
      exact hheld hafter }

theorem Leased.request (hs : Leased h s) {probes : PreflightProbes}
    (hc : h.notYetDone probes = true) (hstep : h.step s (.request probes) = some s') :
    Leased h s' := by
  simp only [PlannedHandoff.step] at hstep
  split at hstep
  · rename_i hwaiting
    have hstage : ∀ reply, s.stage ≠ .replied reply := by
      intro reply heq
      rw [hwaiting] at heq
      cases heq
    split at hstep
    · obtain rfl := Option.some.inj hstep
      exact hs.make hstage fun hafter => by cases hafter
    · rename_i reply hpre
      obtain rfl := Option.some.inj hstep
      refine hs.answer hstage fun hok => ?_
      obtain ⟨ops, op, hops, hfound, hdone⟩ := (answeredFromJournal_of_accepted hpre hok).entry
      simp only [notYetDone, hops, bne_iff_ne, ne_eq] at hc
      refine absurd ?_ hc
      rw [show earlierHandoff ops h.source h.target = some op from hfound, Option.map_some, hdone]
  · cases hstep

theorem Leased.returns (hs : Leased h s) {outcome : Except String Unit}
    (hc : h.leaseFirst s = true) (hstep : h.step s (.returns outcome) = some s') :
    Leased h s' := by
  simp only [PlannedHandoff.step] at hstep
  split at hstep
  · rename_i op pos hdriving
    have hstage : ∀ reply, s.stage ≠ .replied reply := by
      intro reply heq
      rw [hdriving] at heq
      cases heq
    have hpast : pos.call = .promote ∨ pos.call.afterPromotion = true →
        s.holder = some h.target := by
      rintro (hcall | hafter)
      · simpa [leaseFirst, hdriving, hcall] using hc
      · exact hs.driving op pos hdriving hafter
    split at hstep
    · rename_i pos' hnext
      obtain rfl := Option.some.inj hstep
      exact hs.make hstage fun hafter => hpast (HandoffOp.afterPromotion_of_next hnext hafter)
    · rename_i reply hnext
      obtain rfl := Option.some.inj hstep
      refine hs.answer hstage fun hok => hpast (Or.inr ?_)
      rw [HandoffOp.complete_of_accepted hnext hok]
      rfl
  · cases hstep

/-! ## The events of the world -/

section World

variable {event : WorldEvent} {w : World}

theorem sys_absorb (h : PlannedHandoff) (s : HandoffWorld) (event : WorldEvent) (w : World) :
    (h.absorb s event w).world.sys = w.sys := by
  show (h.afterStart s event w).sys = w.sys
  unfold afterStart
  split
  · split <;> rfl
  · rfl

theorem holder_absorb (h : PlannedHandoff) (s : HandoffWorld) (event : WorldEvent) (w : World) :
    (h.absorb s event w).holder = w.sys.holder := by
  rw [HandoffWorld.holder, sys_absorb]

theorem phase_absorb (h : PlannedHandoff) (s : HandoffWorld) (event : WorldEvent) (w : World)
    (n : NodeId) : (h.absorb s event w).phase n = (w.sys.agents n).phase := by
  rw [HandoffWorld.phase, sys_absorb]

/-- A tick that is not late before the event is late after it only by reading the settled
lease. -/
theorem lateAfter_cases {n : NodeId} (hlate : lateAfter s event n = true)
    (hne : ∀ answered, event ≠ .read n answered) : s.late n = true := by
  unfold lateAfter at hlate
  split at hlate
  · rename_i m answered
    have hmn : n ≠ m := by
      rintro rfl
      exact hne answered rfl
    rwa [Function.update_of_ne hmn] at hlate
  · exact hlate

/-- The lease a decision to promote rests on: the one the node read, or the one it just
won. -/
theorem holder_of_promotes {n : NodeId} {st : Option ClusterState} {now : Instant}
    {readTook : Duration} {takeover : Except String TakeoverOutcome} {random : ℕ}
    (hread : (s.world.tickInput n now readTook takeover random).read (h.dep.timing n) = st)
    (hwon : ∀ lease expected, takeover = .ok (.won lease) →
      .tryTakeover n expected ∈ (tickOnce (h.dep.haLoop n) (s.world.sys.agents n).tick
        (s.world.tickInput n now readTook takeover random)).calls → w.sys.holder = some n)
    (hpromotes : (tickOnce (h.dep.haLoop n) (s.world.sys.agents n).tick
      (s.world.tickInput n now readTook takeover random)).decision.promotes.isSome = true) :
    (∃ doc, st = some doc ∧ doc.lease.map (·.holder) = some n) ∨ w.sys.holder = some n := by
  obtain ⟨term, hterm⟩ := Option.isSome_iff_exists.mp hpromotes
  rcases promotes_tickOnce hterm with ⟨doc, lease, hdoc, -, hl, hown, -⟩ |
    ⟨lease, expected, htake, -, hcall⟩
  · refine Or.inl ⟨doc, hread.symm.trans hdoc, ?_⟩
    rw [hl, Option.map_some, hown]
    rfl
  · exact Or.inr (hwon lease expected htake hcall)

/-- The target still decides to promote only under its own lease. -/
theorem Leased.deciding_absorb (hs : Leased h s) (hw : s.world.step h.dep event = some w)
    (hkept : s.holder = some h.target → w.sys.holder = some h.target) {d : HaDecision}
    {result : Option ClusterState} (hphase : (w.sys.agents h.target).phase = .decided result d)
    (hpromotes : d.promotes.isSome = true) : w.sys.holder = some h.target := by
  rcases World.decided_of_step hw hphase with ⟨hsame, -⟩ |
    ⟨now, readTook, takeover, random, stamp, released, -, hbefore, hread, rfl, hwon⟩
  · exact hkept (hs.deciding result d hsame hpromotes)
  · rcases holder_of_promotes hread hwon hpromotes with ⟨doc, rfl, hdoc⟩ | hnow
    · exact hkept (hs.reading doc hbefore hdoc)
    · exact hnow

/-- A tick of the target that reads its own lease reads the committed one. -/
theorem Leased.reading_absorb (hs : Leased h s) (hw : s.world.step h.dep event = some w)
    (hkept : s.holder = some h.target → w.sys.holder = some h.target) {doc : ClusterState}
    (hphase : (w.sys.agents h.target).phase = .read (some doc))
    (hdoc : doc.lease.map (·.holder) = some h.target) : w.sys.holder = some h.target := by
  rcases World.read_of_step hw hphase with ⟨hsame, -⟩ | ⟨rfl, -⟩
  · exact hkept (hs.reading doc hsame hdoc)
  · exact hkept hdoc

/-- While the lease stays, what a late tick has read is what is committed. -/
theorem Leased.lateReading_absorb (hs : Leased h s) (hw : s.world.step h.dep event = some w)
    (hsettled : s.settled = true)
    (hstays : w.sys.store.lease = s.world.sys.store.lease) {n : NodeId}
    (hlate : lateAfter s event n = true) {doc : ClusterState}
    (hphase : (w.sys.agents n).phase = .read (some doc)) : doc.lease = w.sys.store.lease := by
  rcases World.read_of_step hw hphase with ⟨hsame, hne⟩ | ⟨rfl, -⟩
  · rw [hstays]
    exact hs.lateReading hsettled n (lateAfter_cases hlate hne) doc hsame
  · exact hstays.symm

/-- While the lease stays with the target, no late tick decides to promote the source. -/
theorem Leased.lateSource_absorb (hs : Leased h s) (hw : s.world.step h.dep event = some w)
    (hsettled : s.settled = true)
    (hstays : w.sys.store.lease = s.world.sys.store.lease)
    (hlate : lateAfter s event h.source = true) {result : Option ClusterState} {d : HaDecision}
    (hphase : (w.sys.agents h.source).phase = .decided result d) : d.promotes.isSome = false := by
  have hheld : s.world.sys.store.lease.map (·.holder) = some h.target := hs.settled hsettled
  rcases World.decided_of_step hw hphase with ⟨hsame, hne⟩ |
    ⟨now, readTook, takeover, random, stamp, released, hevent, hbefore, hread, rfl, hwon⟩
  · exact hs.lateSource hsettled (lateAfter_cases hlate hne) result d hsame
  · refine Bool.eq_false_iff.mpr fun hpromotes => hs.distinct ?_
    have hlate' : s.late h.source = true :=
      lateAfter_cases hlate fun answered heq => by rw [hevent] at heq; cases heq
    rcases holder_of_promotes hread hwon hpromotes with ⟨doc, rfl, hdoc⟩ | hnow
    · -- it read the lease that is still committed, which is the target's
      rw [hs.lateReading hsettled h.source hlate' doc hbefore, hheld] at hdoc
      exact (Option.some.inj hdoc).symm
    · -- it won the lease, which would have changed it
      rw [System.holder, hstays, hheld] at hnow
      exact (Option.some.inj hnow).symm

/-- While the lease stays with the target, no late tick that can vouch for the target
decides to stop it. -/
theorem Leased.lateTarget_absorb (hs : Leased h s) (hw : s.world.step h.dep event = some w)
    (hvouched : h.vouched s event = true) (hsettled : s.settled = true)
    (hlate : lateAfter s event h.target = true) {result : Option ClusterState} {d : HaDecision}
    (hphase : (w.sys.agents h.target).phase = .decided result d) : d.mayStop = false := by
  rcases World.decided_of_step hw hphase with ⟨hsame, hne⟩ |
    ⟨now, readTook, takeover, random, stamp, released, hevent, hbefore, hread, rfl, -⟩
  · exact hs.lateTarget hsettled (lateAfter_cases hlate hne) result d hsame
  · have hlate' : s.late h.target = true :=
      lateAfter_cases hlate fun answered heq => by rw [hevent] at heq; cases heq
    have hvouches : vouches (h.dep.haLoop h.target) (s.world.sys.agents h.target).tick
        (s.world.tickInput h.target now readTook takeover random) = true := by
      simpa [vouched, hevent, hsettled, hlate'] using hvouched
    refine mayStop_of_vouches hvouches fun doc hdoc => ?_
    have hst : result = some doc := hread.symm.trans hdoc
    rw [hs.lateReading hsettled h.target hlate' doc (hst ▸ hbefore)]
    exact hs.settled hsettled

theorem stage_of_stageAfter {stage : HandoffStage} (hstage : h.stageAfter s event = stage)
    (hne : stage ≠ .dropped) : s.stage = stage := by
  unfold stageAfter at hstage
  split at hstage
  · rename_i hreplied
    exact hreplied.trans hstage
  · split at hstage
    · exact absurd hstage.symm hne
    · exact hstage

/-- Before the reply nothing is settled, and no tick becomes late. -/
theorem Leased.early_absorb (hs : Leased h s)
    (hstage : ∀ reply, h.stageAfter s event ≠ .replied reply) :
    s.settled = false ∧ ∀ n, lateAfter s event n = false := by
  have hbefore : ∀ reply, s.stage ≠ .replied reply := by
    intro reply heq
    exact hstage reply (by rw [stageAfter, heq])
  obtain ⟨hsettled, hlate⟩ := hs.early hbefore
  refine ⟨hsettled, fun n => ?_⟩
  unfold lateAfter
  split
  · rename_i m answered
    by_cases hnm : n = m
    · rw [hnm, Function.update_self, hsettled]
    · rw [Function.update_of_ne hnm, hlate n]
  · exact hlate n

/-- The executor of the target promotes only under the target's lease. -/
theorem Leased.promotedUnder_absorb (hs : Leased h s) (hw : s.world.step h.dep event = some w)
    {n : Option NodeId} (hn : n ∈ (h.absorb s event w).promotedUnder) : n = some h.target := by
  rcases List.mem_append.mp hn with hn | hn
  · obtain ⟨e, he, rfl⟩ := List.mem_map.mp hn
    obtain ⟨hfresh, hcond⟩ := List.mem_filter.mp he
    simp only [Bool.and_eq_true, beq_iff_eq] at hcond
    obtain ⟨hphase, es, inp, hmem⟩ := World.mem_newlyIssued hw hfresh
    rw [hcond.1] at hphase
    exact hs.deciding _ _ hphase (promotes_of_isPromotion hmem hcond.2)
  · exact hs.promotedUnder n hn

/-- What a late tick issues in an event, and what it had decided. -/
theorem lateIssued_absorb (hw : s.world.step h.dep event = some w) {e : Issued}
    (he : e ∈ (h.absorb s event w).lateIssued) :
    e ∈ s.lateIssued ∨ (s.settled = true ∧ s.late e.node = true ∧
      s.phase e.node = .decided e.read e.decision ∧
      ∃ es inp, e.action ∈ ((h.dep.executor e.node).apply es inp e.decision).2) := by
  rcases List.mem_append.mp he with he | he
  · split at he
    · rename_i hsettled
      obtain ⟨hfresh, hlate⟩ := List.mem_filter.mp he
      exact Or.inr ⟨hsettled, hlate, World.mem_newlyIssued hw hfresh⟩
    · cases he
  · exact Or.inl he

theorem Leased.world (hs : Leased h s) (hw : s.world.step h.dep event = some w)
    (hc : h.conforms s (.world event) = true) : Leased h (h.absorb s event w) := by
  obtain ⟨hkeeps, hvouched⟩ := Bool.and_eq_true_iff.mp hc
  have hkept : s.holder = some h.target → w.sys.holder = some h.target := by
    intro hheld
    simpa [keepsLease, hw, hheld] using hkeeps
  have hholder := holder_absorb h s event w
  -- what "settled" says after the event
  have hsettled : (h.absorb s event w).settled = true →
      s.settled = true ∧ w.sys.store.lease = s.world.sys.store.lease := by
    intro hset
    obtain ⟨hbefore, hsame⟩ := Bool.and_eq_true_iff.mp hset
    exact ⟨hbefore, of_decide_eq_true hsame⟩
  constructor
  case distinct => exact hs.distinct
  case early =>
    intro hstage
    obtain ⟨hbefore, hlate⟩ := hs.early_absorb hstage
    exact ⟨by rw [absorb, hbefore, Bool.false_and], hlate⟩
  case driving =>
    intro op pos hstage hafter
    have hbefore := stage_of_stageAfter hstage (by simp)
    exact hholder.trans (hkept (hs.driving op pos hbefore hafter))
  case settled =>
    intro hset
    exact hholder.trans (hkept (hs.settled (hsettled hset).1))
  case signalled =>
    intro hsig
    exact hholder.trans (hkept (hs.signalled (Bool.and_eq_true_iff.mp hsig).1))
  case promotedUnder => exact fun n hn => hs.promotedUnder_absorb hw hn
  case reading =>
    intro doc hphase hdoc
    rw [phase_absorb] at hphase
    exact hholder.trans (hs.reading_absorb hw hkept hphase hdoc)
  case deciding =>
    intro result d hphase hpromotes
    rw [phase_absorb] at hphase
    exact hholder.trans (hs.deciding_absorb hw hkept hphase hpromotes)
  case lateReading =>
    intro hset n hlate doc hphase
    rw [phase_absorb] at hphase
    rw [sys_absorb]
    exact hs.lateReading_absorb hw (hsettled hset).1 (hsettled hset).2 hlate hphase
  case lateSource =>
    intro hset hlate result d hphase
    rw [phase_absorb] at hphase
    exact hs.lateSource_absorb hw (hsettled hset).1 (hsettled hset).2 hlate hphase
  case lateTarget =>
    intro hset hlate result d hphase
    rw [phase_absorb] at hphase
    exact hs.lateTarget_absorb hw hvouched (hsettled hset).1 hlate hphase
  case notFenced =>
    intro e he hnode hstop
    rcases lateIssued_absorb hw he with he | ⟨hset, hlate, hphase, es, inp, hmem⟩
    · exact hs.notFenced e he hnode hstop
    · rw [hnode] at hlate hphase
      rw [hstop] at hmem
      have hstops := mayStop_of_mem_apply hmem
      rw [hs.lateTarget hset hlate _ _ hphase] at hstops
      cases hstops
  case notPromoted =>
    intro e he hnode
    rcases lateIssued_absorb hw he with he | ⟨hset, hlate, hphase, es, inp, hmem⟩
    · exact hs.notPromoted e he hnode
    · rw [hnode] at hlate hphase
      refine Bool.eq_false_iff.mpr fun hpromo => ?_
      have hpromotes := promotes_of_isPromotion hmem hpromo
      rw [hs.lateSource hset hlate _ _ hphase] at hpromotes
      cases hpromotes

end World

/-- One step. -/
theorem Leased.step (hs : Leased h s) {event : HandoffEvent}
    (hstep : h.conformingStep s event = some s') : Leased h s' := by
  obtain ⟨hc, hstep⟩ := Option.ite_none_right_eq_some.mp hstep
  cases event with
  | world event =>
    obtain ⟨w, hw, rfl⟩ := Option.map_eq_some_iff.mp hstep
    exact hs.world hw hc
  | request probes => exact hs.request hc hstep
  | effect call =>
    simp only [PlannedHandoff.step] at hstep
    obtain ⟨-, heq⟩ := Option.ite_none_right_eq_some.mp hstep
    obtain rfl := Option.some.inj heq
    have hpromote : call = .promote → s.holder = some h.target := by
      rintro rfl
      simpa [conforms] using hc
    exact { hs.takeEffect hpromote with }
  | returns outcome => exact hs.returns hc hstep
  | recoveryEnds =>
    simp only [PlannedHandoff.step] at hstep
    obtain ⟨hcond, heq⟩ := Option.ite_none_right_eq_some.mp hstep
    obtain rfl := Option.some.inj heq
    simp only [Bool.and_eq_true] at hcond
    exact (hs.setPg h.target _).promotion (hs.signalled hcond.1.1) false
  | cancel =>
    simp only [PlannedHandoff.step] at hstep
    split at hstep
    · cases hstep
    · rename_i hnot
      obtain rfl := Option.some.inj hstep
      exact { hs with early := fun _ => hs.early hnot, driving := fun _ _ hd => by cases hd }

end Invariant

/-- Handoff and lease: **in every run in which the lease is the target's before the handoff
promotes it, stays with it, and the target's late ticks can vouch for it, the two agree in
every state**. -/
theorem handoffComposes (h : PlannedHandoff) (s : HandoffWorld)
    (hs : Trace.Reachable h.Start h.conformingStep s) : h.Composes s :=
  (hs.invariant (P := Leased h) (fun _ => leased_of_start) fun _ _ _ ht hstep =>
    ht.step hstep).composes

/-- A promotion that takes effect under the source's lease is where they part, in whatever
run. -/
theorem diverges_of_promote {h : PlannedHandoff} {s s' : HandoffWorld}
    (hheld : s.holder = some h.source) (hup : (s.world.pg h.target).up = true)
    (hrec : (s.world.pg h.target).inRecovery = true)
    (hstep : h.step s (.effect .promote) = some s') : ¬ h.Composes s' := by
  simp only [PlannedHandoff.step] at hstep
  obtain ⟨-, heq⟩ := Option.ite_none_right_eq_some.mp hstep
  obtain rfl := Option.some.inj heq
  have hunder : (h.takeEffect s .promote).promotedUnder = some h.source :: s.promotedUnder := by
    rw [takeEffect, hup, hrec, ← hheld]
    rfl
  intro hc
  refine hc.authorized ?_
  show some h.source ∈ (h.takeEffect s .promote).promotedUnder
  rw [hunder]
  exact List.mem_cons_self

end PlannedHandoff

/-! ## Two runs -/

/-- Node `0` holds the lease and is the primary; the others stream from it, node `1`
behind node `2`. -/
def servedWorld : World where
  sys := { System.initial with store := leaseOf 0 1 }
  pg := fun n =>
    if n = 0 then ⟨50, true, false, none, none⟩
    else if n = 1 then ⟨40, true, true, some 0, some 0⟩
    else ⟨50, true, true, some 0, some 0⟩
  reach := fun _ _ => true
  obs := fun _ => Observation.blank
  pending := []
  acked := []
  wins := []

def handoffToTwo : PlannedHandoff := ⟨threeNodeDeployment, 0, ⟨2, false⟩⟩

def beforeHandoff : HandoffWorld where
  world := servedWorld
  stage := .waiting
  sent := []
  signalled := false
  configured := false
  settled := false
  late := fun _ => false
  promotedUnder := []
  lateIssued := []

theorem beforeHandoff_start : handoffToTwo.Start beforeHandoff where
  leased := rfl
  primary := ⟨rfl, rfl⟩
  standby := ⟨rfl, rfl, rfl⟩
  idle := ⟨rfl, rfl⟩
  waiting := rfl
  sent := rfl
  signalled := rfl
  configured := rfl
  settled := rfl
  late := rfl
  promotedUnder := rfl
  lateIssued := rfl

/-- Every preflight check passes. -/
def clearPreflight : PreflightProbes where
  isInRecovery := .ok false
  journal := .ok []
  client := .ok ()
  targetStatus := .ok (getStatus ((servedWorld.pg 2).statusProbes .none (some true)) ∅)
  currentWalLsn := .ok 50
  journalAtBegin := .ok []
  written := .ok ()
  now := 0
  seq := 0

/-- Calls of the ladder that take effect and succeed. -/
def succeed (calls : List HandoffCall) : List HandoffEvent :=
  calls.flatMap fun call => [.effect call, .returns (.ok ())]

/-- The calls of a handoff after its promotion, up to its end. -/
def callsAfterPromotion : List HandoffCall :=
  [.updatePhase .targetPromoted, .createSlot, .updatePhase .slotCreated, .stopPostgres,
    .updatePhase .localStopped, .rewind, .updatePhase .dataCopied, .writeRecoveryConf,
    .updatePhase .recoveryConfWritten, .startPostgres, .updatePhase .localStarted, .attachNode,
    .updatePhase .attached, .complete]

/-- A whole tick among the handoff's steps. -/
def wholeTick (n : NodeId) (s : ℕ) (hears : List NodeId) : List HandoffEvent :=
  (tickEvents n s hears (.error "no leader")).map .world

/-- The handoff runs through, then the nodes tick. -/
def plainHandoff : List HandoffEvent :=
  .request clearPreflight :: succeed [.checkpoint, .promote] ++ [.recoveryEnds] ++
    succeed callsAfterPromotion ++ wholeTick 0 0 [2] ++ wholeTick 2 1 [0]

/-- Nobody moves the lease: the reply is `ok = true` with the lease still the source's; the
source's next tick promotes the source, and the target's next tick stops the target. -/
theorem plainHandoff_diverges :
    ∃ s, Trace.Reachable handoffToTwo.Start handoffToTwo.step s ∧
      s.settled = true ∧ s.holder = some 0 ∧ some 0 ∈ s.promotedUnder ∧
      (∃ e ∈ s.lateIssued, e.node = 0 ∧ e.action = .pgPromote) ∧
      (∃ e ∈ s.lateIssued, e.node = 2 ∧ e.action = .ensureStopped) ∧
      ¬ handoffToTwo.Composes s := by
  have hrun : (Trace.run handoffToTwo.step beforeHandoff plainHandoff).map (fun s =>
      (s.settled, s.holder, s.promotedUnder,
        s.lateIssued.any fun e => e.node == 0 && e.action == .pgPromote,
        s.lateIssued.any fun e => e.node == 2 && e.action == .ensureStopped)) =
      some (true, some 0, [some 0, some 0], true, true) := by decide +kernel
  obtain ⟨s, hs, heq⟩ := Option.map_eq_some_iff.mp hrun
  simp only [Prod.mk.injEq, List.any_eq_true, Bool.and_eq_true, beq_iff_eq] at heq
  obtain ⟨hsettled, hholder, hunder, hpromoted, hfenced⟩ := heq
  refine ⟨s, Trace.Reachable.run (.init beforeHandoff_start) hs, hsettled, hholder, ?_, hpromoted,
    hfenced, fun hc => ?_⟩
  · rw [hunder]
    exact List.mem_cons_self
  · have hleased := hc.leased hsettled
    rw [hholder] at hleased
    exact absurd hleased (by decide)

/-- Node `2` loses sight of the primary, waits out the ttl, and has just won the lease when
the handoff comes to its promotion. -/
def takenOverHandoff : List HandoffEvent :=
  [.request clearPreflight, .world (.setReach 2 0 false), .world (.disconnect 2),
    .world (.disconnect 1)] ++
  wholeTick 2 0 [1] ++ wholeTick 2 30 [1] ++
  [.world (.read 2 true), .world (.probeLocal 2 .none), .world (.hear 2 1 0 .none none ∅),
    .world (.decide 2 (secs 40) 0 (.ok (.won ⟨2, 2, 0⟩)) 0 0 false)] ++
  succeed [.checkpoint, .promote] ++
  [.recoveryEnds, .world (.act 2 quietExec .none fun _ => true)] ++
  succeed callsAfterPromotion ++ wholeTick 0 50 [2] ++ wholeTick 2 51 [1]

/-- In that run the reply `ok = true` comes with the lease in the target's hands. -/
theorem handoffComposes_takenOver :
    ∃ s, Trace.Reachable handoffToTwo.Start handoffToTwo.conformingStep s ∧
      s.settled = true ∧ s.holder = some 2 ∧ s.promotedUnder = [some 2, some 2] ∧
      handoffToTwo.Composes s := by
  have hrun : (Trace.run handoffToTwo.conformingStep beforeHandoff takenOverHandoff).map (fun s =>
      (s.settled, s.holder, s.promotedUnder)) = some (true, some 2, [some 2, some 2]) := by
    decide +kernel
  obtain ⟨s, hs, heq⟩ := Option.map_eq_some_iff.mp hrun
  simp only [Prod.mk.injEq] at heq
  obtain ⟨hsettled, hholder, hunder⟩ := heq
  have hreach := Trace.Reachable.run (.init beforeHandoff_start) hs
  exact ⟨s, hreach, hsettled, hholder, hunder,
    PlannedHandoff.handoffComposes handoffToTwo s hreach⟩

end PgAgent
