import PgAgent.Cluster.View
import PgAgent.Consensus.Command
import PgAgent.Ops.Handoff

/-!
# `cluster start-primary`

`cluster_start_primary` of `localserver.rs`: the operator's way to bring a stopped primary back
when the lease is vacant.  It reads the lease, compares timelines with the peers, starts
PostgreSQL, and claims the lease at the end.

The store is asked twice, before the start and after it, and other nodes commit their commands
before, between and after these two moments; the commands of each gap are an input of the call.
The start is not undone when the claim fails.

* `startEnds` --- every way the call can end;
* `startReported` --- what its reply is worth;
* `start_timelines` --- what the local timeline is compared with, and when it is not.
-/

namespace PgAgent

/-! ## The call -/

/-- The local PostgreSQL. -/
inductive LocalPostgres where
  | stopped
  | recovering
  | primary
  deriving DecidableEq, Repr

structure ClusterStartPrimaryRequest where
  force : Bool
  deriving DecidableEq, Repr

/-- How the takeover comes back: with the store's answer, or with an error, and then the command
may have been committed all the same. -/
inductive ClaimEnd where
  | answered
  | failed (error : String) (committed : Bool)
  deriving DecidableEq, Repr

/-- What the call meets, in the order it asks: the data directory, whether there is a consensus
subsystem, the read, the control file, the peers, the start, the role, the claim.  A PostgreSQL
that was stopped comes up `recovering` or not; a start that fails leaves it as `leftAs`.  The last
three are the commands of others. -/
structure StartProbes where
  dataDir : String
  standbySignal : Bool
  pgVersion : Bool
  consensus : Bool
  read : Except String Unit
  controlTimeline : Except String ℤ
  ends : NodeConfig → TaskEnd
  start : Except String Unit
  recovering : Bool
  leftAs : LocalPostgres
  role : Except String Unit
  now : Timestamp
  claim : ClaimEnd
  beforeRead : List ConsensusCommand
  beforeClaim : List ConsensusCommand
  beforeReply : List ConsensusCommand

/-- The document after the commands of a list. -/
def commitAll (store : ClusterState) (cmds : List ConsensusCommand) : ClusterState :=
  cmds.foldl (fun store cmd => (applyCommand store cmd).1) store

/-- What the call leaves, whether it has asked for the start, and its reply. -/
structure StartRun where
  postgres : LocalPostgres
  store : ClusterState
  started : Bool
  reply : OpReply
  deriving DecidableEq

/-- The checks before the store is read. -/
def startPreflight (pool : NodePool) (p : StartProbes) : Except OpReply NodeConfig := do
  let node ← pool.localNode.mapError fun e =>
    OpReply.internal ("start_primary: resolve local node: " ++ e.display)
  requires (!p.standbySignal) (OpReply.refused
    ("start_primary: pgdata is standby-shaped (standby.signal present) — starting it would " ++
      "produce a standby, not a primary; use `cluster recover --target` from the intended primary"))
  requires p.pgVersion (OpReply.refused
    ("start_primary: " ++ p.dataDir ++ " is not an initialised data directory"))
  requires p.consensus (OpReply.internal "start_primary: no consensus subsystem")
  .ok node

/-- The lease that was read: the term, if the node holds it; a refusal, if another does. -/
def leaseHeld (node : NodeConfig) (state : ClusterState) : Except OpReply (Option UInt64) :=
  match state.lease with
  | none => .ok none
  | some l =>
      if l.holder ≠ node.id then
        .error (OpReply.refused ("start_primary: node " ++ toString l.holder ++
          " already holds the lease (term " ++ toString l.term ++ ") — it is the primary; " ++
          "rebuild this node from it with `cluster recover --target " ++ toString node.id ++
          "` run there"))
      else .ok (some l.term)

/-- `control_timeline().unwrap_or(0)`. -/
def StartProbes.localTl (p : StartProbes) : ℤ :=
  match p.controlTimeline with
  | .ok tl => tl
  | .error _ => 0

/-- The peers that report a higher timeline, where both are known. -/
def peersAhead (localTl : ℤ) (views : List PeerStatusView) : List String :=
  views.filterMap fun v => match v.status with
    | some s =>
        if s.timelineId > 0 ∧ localTl > 0 ∧ s.timelineId > localTl then
          some (v.node.hostname ++ "@TL" ++ toString s.timelineId)
        else none
    | none => none

/-- The views of the peers. -/
def StartProbes.views (pool : NodePool) (p : StartProbes) : List PeerStatusView :=
  collectStatuses (pool.members.filter fun n => !pool.isLocal n) p.ends

/-- The timeline check. -/
def timelineCheck (pool : NodePool) (req : ClusterStartPrimaryRequest) (p : StartProbes) :
    Except OpReply Unit :=
  let ahead := peersAhead p.localTl (p.views pool)
  requires (ahead.isEmpty || req.force) (OpReply.refused
    ("start_primary: local timeline is " ++ toString p.localTl ++ " but " ++
      ", ".intercalate ahead ++ " reports a higher one — this node was promoted past and its " ++
      "writes would fork the cluster. Recover it from that node instead, or pass --force if you " ++
      "have adjudicated otherwise"))

/-- Everything up to the start, from the document that was read. -/
def startAdmit (pool : NodePool) (req : ClusterStartPrimaryRequest) (p : StartProbes)
    (node : NodeConfig) (state : ClusterState) : Except OpReply (Option UInt64) := do
  let held ← leaseHeld node state
  timelineCheck pool req p
  .ok held

/-- `start_postgres`; one that runs already is left alone. -/
def LocalPostgres.afterStart (pg : LocalPostgres) (p : StartProbes) : LocalPostgres :=
  match p.start, pg with
  | .error _, _ => p.leftAs
  | .ok _, .stopped => if p.recovering then .recovering else .primary
  | .ok _, running => running

def roleUnknown (e : String) : OpReply :=
  OpReply.refused ("start_primary: PostgreSQL started but its role could not be confirmed (" ++ e ++
    "); lease NOT claimed — re-run once it answers")

def startedInRecovery : OpReply :=
  OpReply.refused
    ("start_primary: PostgreSQL started but is IN RECOVERY — not claiming the lease " ++
    "for a node that is not serving writes")

def leaseTaken (current : Option Lease) : OpReply :=
  OpReply.refused ("start_primary: PostgreSQL is running, but the lease was taken concurrently" ++
    (match current with
      | some l => " by node " ++ toString l.holder ++ " (term " ++ toString l.term ++ ")"
      | none => "") ++ " — check `cluster status` before doing anything else")

def claimFailed (e : String) : OpReply :=
  OpReply.refused ("start_primary: PostgreSQL is running but the lease claim failed (" ++ e ++
    "); the HA loop will claim it once consensus recovers")

def alreadyHolds (node : NodeConfig) (localTl : ℤ) (term : UInt64) : OpReply :=
  OpReply.accepted ("start_primary: node " ++ toString node.id ++ " is primary on TL" ++
    toString localTl ++ "; already holds the lease (term " ++ toString term ++ ")")

def leaseClaimed (node : NodeConfig) (localTl : ℤ) (term : UInt64) : OpReply :=
  OpReply.accepted ("start_primary: node " ++ toString node.id ++ " is primary on TL" ++
    toString localTl ++ "; lease claimed (term " ++ toString term ++ ")")

/-- The role of what was started: a refusal unless it is a primary. -/
def confirmRole (pg : LocalPostgres) (p : StartProbes) : Except OpReply Unit :=
  match p.role with
  | .error e => .error (roleUnknown e)
  | .ok _ => requires (pg != .recovering) startedInRecovery

/-- The claim: none if the lease is held, else a takeover of a vacant lease. -/
def claimLease (node : NodeConfig) (held : Option UInt64) (p : StartProbes)
    (store : ClusterState) : ClusterState × OpReply :=
  match held with
  | some term => (store, alreadyHolds node p.localTl term)
  | none =>
      let (store', response) := applyCommand store (.takeover node.id none p.now)
      match p.claim with
      | .failed e committed => (if committed then store' else store, claimFailed e)
      | .answered =>
          (store', match response with
            | .takeover (.won lease) => leaseClaimed node p.localTl lease.term
            | .takeover (.lost current) => leaseTaken current
            | _ => claimFailed "consensus: takeover got the wrong response variant")

/-- From the start on. -/
def startAndClaim (node : NodeConfig) (held : Option UInt64) (p : StartProbes)
    (pg : LocalPostgres) (store : ClusterState) : StartRun :=
  let pg' := pg.afterStart p
  let store := commitAll store p.beforeClaim
  match p.start with
  | .error e =>
      ⟨pg', store, true, OpReply.internal ("start_primary: start postgres: " ++ e)⟩
  | .ok _ =>
      match confirmRole pg' p with
      | .error reply => ⟨pg', store, true, reply⟩
      | .ok _ =>
          let (store, reply) := claimLease node held p store
          ⟨pg', commitAll store p.beforeReply, true, reply⟩

/-- `cluster_start_primary`. -/
def clusterStartPrimary (pool : NodePool) (req : ClusterStartPrimaryRequest) (p : StartProbes)
    (pg : LocalPostgres) (store : ClusterState) : StartRun :=
  match startPreflight pool p with
  | .error reply => ⟨pg, commitAll store p.beforeRead, false, reply⟩
  | .ok node =>
      let store := commitAll store p.beforeRead
      match p.read with
      | .error e => ⟨pg, store, false, .error ⟨.failedPrecondition,
          "start_primary: consensus unreadable (" ++ e ++
            ") — an unknown lease is not a vacant one; " ++
            "resolve consensus first (`cluster status` reports whether membership is formed)"⟩⟩
      | .ok _ =>
          match startAdmit pool req p node store with
          | .error reply => ⟨pg, commitAll store p.beforeClaim, false, reply⟩
          | .ok held => startAndClaim node held p pg store

/-! ## How it goes -/

section Spec

variable {pool : NodePool} {req : ClusterStartPrimaryRequest} {p : StartProbes} {node : NodeConfig}
  {pg : LocalPostgres} {store : ClusterState}

/-- The document the call reads. -/
def StartProbes.readStore (p : StartProbes) (store : ClusterState) : ClusterState :=
  commitAll store p.beforeRead

/-- The document its claim meets. -/
def StartProbes.claimStore (p : StartProbes) (store : ClusterState) : ClusterState :=
  commitAll (p.readStore store) p.beforeClaim

theorem afterStart_ne_stopped (h : p.start = .ok ()) : pg.afterStart p ≠ .stopped := by
  unfold LocalPostgres.afterStart
  rw [h]
  cases pg with
  | stopped =>
    dsimp only
    split <;> exact fun hh => LocalPostgres.noConfusion hh
  | recovering => exact fun hh => LocalPostgres.noConfusion hh
  | primary => exact fun hh => LocalPostgres.noConfusion hh

theorem confirmRole_eq_ok_iff :
    confirmRole pg p = .ok () ↔ p.role = .ok () ∧ pg ≠ .recovering := by
  unfold confirmRole
  cases p.role with
  | error e => simp
  | ok u => simp [requires_eq_ok_iff]

theorem confirmRole_error {reply : OpReply} (h : confirmRole pg p = .error reply) :
    (∃ e, p.role = .error e ∧ reply = roleUnknown e) ∨
      (pg = .recovering ∧ reply = startedInRecovery) := by
  unfold confirmRole at h
  cases hrole : p.role with
  | error e =>
    rw [hrole] at h
    exact Or.inl ⟨e, rfl, (Except.error.inj h).symm⟩
  | ok u =>
    rw [hrole] at h
    refine Or.inr ?_
    by_cases hpg : pg = .recovering
    · subst hpg
      exact ⟨rfl, (Except.error.inj h).symm⟩
    · have hok : requires (pg != .recovering) startedInRecovery = .ok () :=
        requires_eq_ok_iff.mpr (by simpa using hpg)
      rw [hok] at h
      cases h

/-- A lease that was read and is no refusal is the node's own, or there is none. -/
theorem leaseHeld_eq_ok {state : ClusterState} {held : Option UInt64}
    (h : leaseHeld node state = .ok held) :
    (state.lease = none ∧ held = none) ∨
      ∃ l, state.lease = some l ∧ l.holder = node.id ∧ held = some l.term := by
  unfold leaseHeld at h
  cases hl : state.lease with
  | none =>
    rw [hl] at h
    exact Or.inl ⟨rfl, (Except.ok.inj h).symm⟩
  | some l =>
    rw [hl] at h
    dsimp only at h
    by_cases hown : l.holder = node.id
    · rw [if_neg (not_not.mpr hown)] at h
      exact Or.inr ⟨l, rfl, hown, (Except.ok.inj h).symm⟩
    · rw [if_pos hown] at h
      cases h

theorem neverAccepts_startPreflight (pool : NodePool) (p : StartProbes) :
    NeverAccepts (startPreflight pool p) := by
  refine neverAccepts_bind ?_ fun node => ?_
  · intro reply h
    cases hl : pool.localNode with
    | ok n =>
      rw [hl] at h
      cases h
    | error e =>
      rw [hl] at h
      obtain rfl := Except.error.inj h
      rfl
  · refine neverAccepts_bind (neverAccepts_requires rfl) fun _ => ?_
    refine neverAccepts_bind (neverAccepts_requires rfl) fun _ => ?_
    refine neverAccepts_bind (neverAccepts_requires rfl) fun _ reply h => ?_
    cases h

theorem neverAccepts_startAdmit (pool : NodePool) (req : ClusterStartPrimaryRequest)
    (p : StartProbes) (node : NodeConfig) (state : ClusterState) :
    NeverAccepts (startAdmit pool req p node state) := by
  refine neverAccepts_bind ?_ fun held => ?_
  · intro reply h
    unfold leaseHeld at h
    split at h
    · cases h
    · split at h
      · obtain rfl := Except.error.inj h
        rfl
      · cases h
  · refine neverAccepts_bind (neverAccepts_requires rfl) fun _ reply h => ?_
    cases h

/-- A call that comes to the start has found the local node. -/
theorem localNode_of_startPreflight (h : startPreflight pool p = .ok node) :
    pool.localNode = .ok node := by
  simp only [startPreflight, bind_eq_ok_iff, mapError_eq_ok_iff] at h
  obtain ⟨n, hlocal, _, -, _, -, _, -, hn⟩ := h
  rw [hlocal, Except.ok.inj hn]

/-- How the call can end, in the order of its exits. -/
inductive StartEnds (pool : NodePool) (p : StartProbes) (pg : LocalPostgres)
    (store : ClusterState) : StartRun → Prop where
  | untouched {s : ClusterState} {reply : OpReply} (h : reply.isAccepted = false) :
      StartEnds pool p pg store ⟨pg, s, false, reply⟩
  | startFails {e : String} (h : p.start = .error e) :
      StartEnds pool p pg store ⟨pg.afterStart p, p.claimStore store, true,
        OpReply.internal ("start_primary: start postgres: " ++ e)⟩
  | unconfirmed {e : String} (h : p.role = .error e) :
      StartEnds pool p pg store ⟨pg.afterStart p, p.claimStore store, true, roleUnknown e⟩
  | recovering (hpg : pg.afterStart p = .recovering) :
      StartEnds pool p pg store ⟨pg.afterStart p, p.claimStore store, true, startedInRecovery⟩
  | held {node : NodeConfig} {l : Lease} (hpg : pg.afterStart p = .primary)
      (hlocal : pool.localNode = .ok node) (hl : (p.readStore store).lease = some l)
      (hown : l.holder = node.id) :
      StartEnds pool p pg store ⟨pg.afterStart p, commitAll (p.claimStore store) p.beforeReply,
        true, alreadyHolds node p.localTl l.term⟩
  | won {node : NodeConfig} {l : Lease} {s : ClusterState} (hpg : pg.afterStart p = .primary)
      (hlocal : pool.localNode = .ok node)
      (hclaim : applyCommand (p.claimStore store) (.takeover node.id none p.now) =
        (s, .takeover (.won l))) :
      StartEnds pool p pg store ⟨pg.afterStart p, commitAll s p.beforeReply, true,
        leaseClaimed node p.localTl l.term⟩
  | taken {l : Lease} {s : ClusterState} (hvacant : (p.readStore store).lease = none)
      (hl : (p.claimStore store).lease = some l) :
      StartEnds pool p pg store ⟨pg.afterStart p, s, true, leaseTaken (some l)⟩
  | claimFails {e : String} {committed : Bool} {s : ClusterState}
      (h : p.claim = .failed e committed) :
      StartEnds pool p pg store ⟨pg.afterStart p, s, true, claimFailed e⟩

/-- The claim of a lease that was read as vacant or as the node's own. -/
theorem startEnds_claimLease {held : Option UInt64} (hpg : pg.afterStart p = .primary)
    (hlocal : pool.localNode = .ok node)
    (hheld : leaseHeld node (p.readStore store) = .ok held) :
    StartEnds pool p pg store
      ⟨pg.afterStart p, commitAll (claimLease node held p (p.claimStore store)).1 p.beforeReply,
        true,
        (claimLease node held p (p.claimStore store)).2⟩ := by
  rcases leaseHeld_eq_ok hheld with ⟨hvacant, rfl⟩ | ⟨l, hl, hown, rfl⟩
  · unfold claimLease
    cases hclaim : p.claim with
    | failed e committed => exact .claimFails hclaim
    | answered =>
      -- the takeover expects a vacant lease, so it is won exactly if nobody came between
      cases hnow : (p.claimStore store).lease with
      | none =>
        obtain ⟨s, l, hwon⟩ : ∃ s l, applyCommand (p.claimStore store)
            (.takeover node.id none p.now) = (s, .takeover (.won l)) := by
          simp only [applyCommand, hnow, observedHolds_none, Option.isNone_none, if_true]
          exact ⟨_, _, rfl⟩
        rw [hwon]
        exact .won hpg hlocal hwon
      | some l =>
        have hlost : applyCommand (p.claimStore store) (.takeover node.id none p.now) =
            (p.claimStore store, .takeover (.lost (some l))) := by
          simp only [applyCommand, hnow, observedHolds_some_none, Bool.false_eq_true, if_false]
        rw [hlost]
        exact .taken hvacant hnow
  · exact .held hpg hlocal hl hown

theorem startEnds_startAndClaim {held : Option UInt64} (hlocal : pool.localNode = .ok node)
    (hheld : leaseHeld node (p.readStore store) = .ok held) :
    StartEnds pool p pg store (startAndClaim node held p pg (p.readStore store)) := by
  unfold startAndClaim
  cases hstart : p.start with
  | error e => exact .startFails hstart
  | ok u =>
    dsimp only
    cases hrole : confirmRole (pg.afterStart p) p with
    | error reply =>
      rcases confirmRole_error hrole with ⟨e, he, rfl⟩ | ⟨hpg, rfl⟩
      · exact .unconfirmed he
      · exact .recovering hpg
    | ok u =>
      have hprimary : pg.afterStart p = .primary := by
        have hne : pg.afterStart p ≠ .stopped := afterStart_ne_stopped hstart
        have hne' := (confirmRole_eq_ok_iff.mp hrole).2
        cases hpg : pg.afterStart p with
        | stopped => exact absurd hpg hne
        | recovering => exact absurd hpg hne'
        | primary => rfl
      exact startEnds_claimLease hprimary hlocal hheld

theorem startAdmit_eq_ok_iff {held : Option UInt64} {state : ClusterState} :
    startAdmit pool req p node state = .ok held ↔
      leaseHeld node state = .ok held ∧ timelineCheck pool req p = .ok () := by
  simp only [startAdmit, bind_eq_ok_iff]
  constructor
  · rintro ⟨held', hlease, u, htl, h⟩
    rw [← Except.ok.inj h]
    exact ⟨hlease, htl⟩
  · rintro ⟨hlease, htl⟩
    exact ⟨held, hlease, (), htl, rfl⟩

/-- A call that asks for the start has passed the checks. -/
theorem startAdmit_of_started
    (h : (clusterStartPrimary pool req p pg store).started = true) :
    ∃ node held, pool.localNode = .ok node ∧
      startAdmit pool req p node (p.readStore store) = .ok held := by
  unfold clusterStartPrimary at h
  cases hpre : startPreflight pool p with
  | error reply => simp [hpre] at h
  | ok node =>
    rw [hpre] at h
    dsimp only at h
    split at h
    · cases h
    · cases hadmitted : startAdmit pool req p node (p.readStore store) with
      | error reply =>
        rw [StartProbes.readStore] at hadmitted
        simp [hadmitted] at h
      | ok held => exact ⟨node, held, localNode_of_startPreflight hpre, hadmitted⟩

theorem startEnds (pool : NodePool) (req : ClusterStartPrimaryRequest) (p : StartProbes)
    (pg : LocalPostgres) (store : ClusterState) :
    StartEnds pool p pg store (clusterStartPrimary pool req p pg store) := by
  unfold clusterStartPrimary
  cases hpre : startPreflight pool p with
  | error reply => exact .untouched (neverAccepts_startPreflight pool p reply hpre)
  | ok node =>
    dsimp only
    split
    · exact .untouched rfl
    · split
      · rename_i reply hadmitted
        exact .untouched (neverAccepts_startAdmit _ _ _ _ _ reply hadmitted)
      · rename_i held hadmitted
        exact startEnds_startAndClaim (localNode_of_startPreflight hpre)
          (startAdmit_eq_ok_iff.mp hadmitted).1

end Spec

/-! ## What the reply is worth -/

section Reply

variable (pool : NodePool) (req : ClusterStartPrimaryRequest) (p : StartProbes)
  (pg : LocalPostgres) (store : ClusterState)

/-- A lease of the local node: the one the call has read, or the one its takeover wins. -/
def OwnLease (l : Lease) : Prop :=
  ∃ node, pool.localNode = .ok node ∧ l.holder = node.id ∧
    ((p.readStore store).lease = some l ∨
      (applyCommand (p.claimStore store) (.takeover node.id none p.now)).2 = .takeover (.won l))

/-- A primary that the call has started has the lease, and a refusal leaves PostgreSQL as it
was. -/
def NeverLeaseless : Prop :=
  let run := clusterStartPrimary pool req p pg store
  (run.started = true → run.postgres = .primary →
    ∃ l, OwnLease pool p store l ∧ run.store.lease = some l) ∧
  ∀ message, run.reply = .ok ⟨false, message⟩ → run.postgres = pg

/-- The lease behind a reply `ok = true`: the document `since` has it, and from there on only
the commands `others` have been committed.  It was read, or it was won at the end. -/
structure LeaseBehind (run : StartRun) (node : NodeConfig) (l : Lease) (since : ClusterState)
    (others : List ConsensusCommand) : Prop where
  localNode : pool.localNode = .ok node
  holder : l.holder = node.id
  lease : since.lease = some l
  final : run.store = commitAll since others
  obtained : (since = p.readStore store ∧ others = p.beforeClaim ++ p.beforeReply ∧
      run.reply = alreadyHolds node p.localTl l.term) ∨
    (applyCommand (p.claimStore store) (.takeover node.id none p.now) =
        (since, .takeover (.won l)) ∧ others = p.beforeReply ∧
      run.reply = leaseClaimed node p.localTl l.term)

/-- Why a call that has started PostgreSQL does not reply `ok = true`, and what it says instead. -/
inductive LeftRunning (run : StartRun) : Prop where
  | startFails (e : String) (h : p.start = .error e)
      (hreply : run.reply = OpReply.internal ("start_primary: start postgres: " ++ e))
  | unconfirmed (e : String) (h : p.role = .error e) (hreply : run.reply = roleUnknown e)
  | recovering (h : run.postgres = .recovering) (hreply : run.reply = startedInRecovery)
  | taken (l : Lease) (hvacant : (p.readStore store).lease = none)
      (hl : (p.claimStore store).lease = some l) (hreply : run.reply = leaseTaken (some l))
  | claimFails (e : String) (committed : Bool) (h : p.claim = .failed e committed)
      (hreply : run.reply = claimFailed e)

/-- What the reply of a call says about PostgreSQL and the lease. -/
structure StartReported (run : StartRun) : Prop where
  untouched : run.started = false → run.postgres = pg ∧ run.reply.isAccepted = false
  accepted : run.reply.isAccepted = true → run.started = true ∧ run.postgres = .primary ∧
    ∃ node l since others, LeaseBehind pool p store run node l since others
  left : run.started = true → run.reply.isAccepted = false →
    run.postgres = pg.afterStart p ∧ LeftRunning p store run

end Reply

theorem commitAll_append (store : ClusterState) (cmds cmds' : List ConsensusCommand) :
    commitAll store (cmds ++ cmds') = commitAll (commitAll store cmds) cmds' :=
  List.foldl_append

/-- A call replies `ok = true` only with PostgreSQL started as a primary and with **a lease of the
local node that it has read or won, which only others' commands can have ended since**.  Without
the start PostgreSQL is as it was; and where it was started all the same, the reply says so. -/
theorem startReported (pool : NodePool) (req : ClusterStartPrimaryRequest) (p : StartProbes)
    (pg : LocalPostgres) (store : ClusterState) :
    StartReported pool p pg store (clusterStartPrimary pool req p pg store) := by
  have hends := startEnds pool req p pg store
  generalize clusterStartPrimary pool req p pg store = run at hends
  cases hends with
  | untouched h =>
    exact ⟨fun _ => ⟨rfl, h⟩, fun hacc =>
      absurd (h.symm.trans hacc) (by simp), fun hs => by cases hs⟩
  | startFails h =>
    exact ⟨fun hs => (by cases hs), fun hacc => (by cases hacc),
      fun _ _ => ⟨rfl, .startFails _ h rfl⟩⟩
  | unconfirmed h =>
    exact ⟨fun hs => (by cases hs), fun hacc => (by cases hacc),
      fun _ _ => ⟨rfl, .unconfirmed _ h rfl⟩⟩
  | recovering hpg =>
    exact ⟨fun hs => (by cases hs), fun hacc => (by cases hacc),
      fun _ _ => ⟨rfl, .recovering hpg rfl⟩⟩
  | held hpg hlocal hl hown =>
    refine ⟨fun hs => (by cases hs), fun _ => ⟨rfl, hpg, ?_⟩, fun _ hacc => (by cases hacc)⟩
    exact ⟨_, _, _, _, hlocal, hown, hl, (commitAll_append _ _ _).symm,
      Or.inl ⟨rfl, rfl, rfl⟩⟩
  | @won node l s hpg hlocal hclaim =>
    have hminted : (applyCommand (p.claimStore store)
        (.takeover node.id none p.now)).2.minted = some l := by
      rw [hclaim, CommandResponse.minted_won]
    obtain ⟨e, stamp, hcmd, -, -, hlease, -⟩ := applyCommand_minted hminted
    rw [hclaim] at hlease
    refine ⟨fun hs => (by cases hs), fun _ => ⟨rfl, hpg, ?_⟩, fun _ hacc => (by cases hacc)⟩
    exact ⟨node, l, s, p.beforeReply, hlocal, (ConsensusCommand.takeover.inj hcmd).1.symm, hlease,
      rfl, Or.inr ⟨hclaim, rfl, rfl⟩⟩
  | taken hvacant hl =>
    exact ⟨fun hs => (by cases hs), fun hacc => (by cases hacc),
      fun _ _ => ⟨rfl, .taken _ hvacant hl rfl⟩⟩
  | claimFails h =>
    exact ⟨fun hs => (by cases hs), fun hacc => (by cases hacc),
      fun _ _ => ⟨rfl, .claimFails _ _ h rfl⟩⟩

/-- A call on `db0`, whose control file reads as given, with nothing in its way: its one peer does
not answer. -/
def startAlone (controlTimeline : Except String ℤ) : StartProbes where
  dataDir := "/var/lib/postgresql"
  standbySignal := false
  pgVersion := true
  consensus := true
  read := .ok ()
  controlTimeline := controlTimeline
  ends _ := .late
  start := .ok ()
  recovering := false
  leftAs := .stopped
  role := .ok ()
  now := 0
  claim := .answered
  beforeRead := []
  beforeClaim := []
  beforeReply := []

def startPool : NodePool := ⟨[⟨0, "db0"⟩, ⟨1, "db1"⟩], 0⟩

/-- The peer takes the vacant lease while PostgreSQL is starting. -/
def overtaken : StartProbes := { startAlone (.ok 3) with beforeClaim := [.takeover 1 none 5] }

theorem overtaken_leaseless :
    let run := clusterStartPrimary startPool ⟨false⟩ overtaken .stopped ClusterState.default
    run.started = true ∧ run.postgres = .primary ∧ run.store.lease = some ⟨1, 1, 5⟩ ∧
      ¬ NeverLeaseless startPool ⟨false⟩ overtaken .stopped ClusterState.default := by
  refine ⟨rfl, rfl, rfl, ?_⟩
  rintro ⟨-, hrefused⟩
  have hpg := hrefused _ (rfl : (clusterStartPrimary startPool ⟨false⟩ overtaken .stopped
    ClusterState.default).reply = leaseTaken (some ⟨1, 1, 5⟩))
  cases hpg

/-! ## The timelines -/

/-- A start without `force` has a known local timeline, and no peer has answered with a higher
one. -/
def RefusesStale (pool : NodePool) (req : ClusterStartPrimaryRequest) (p : StartProbes)
    (pg : LocalPostgres) (store : ClusterState) : Prop :=
  req.force = false → (clusterStartPrimary pool req p pg store).started = true →
    ∃ tl, p.controlTimeline = .ok tl ∧ 0 < tl ∧
      ∀ n ∈ pool.members, pool.isLocal n = false → ∀ s, (p.ends n).answer = some s →
        0 < s.timelineId → s.timelineId ≤ tl

theorem peersAhead_eq_nil_iff {localTl : ℤ} {views : List PeerStatusView} :
    peersAhead localTl views = [] ↔ ∀ v ∈ views, ∀ s, v.status = some s →
      0 < s.timelineId → 0 < localTl → s.timelineId ≤ localTl := by
  rw [peersAhead, List.filterMap_eq_nil_iff]
  refine forall₂_congr fun v _ => ?_
  cases v.status with
  | none => simp
  | some s =>
    simp only [Option.some.injEq, forall_eq']
    by_cases hahead : s.timelineId > 0 ∧ localTl > 0 ∧ s.timelineId > localTl
    · rw [if_pos hahead]
      constructor
      · intro h
        cases h
      · intro h
        exact absurd (h hahead.1 hahead.2.1) (by omega)
    · rw [if_neg hahead]
      constructor
      · intro _ hs hl
        omega
      · intro _
        rfl

/-- Past the timeline check without `force`, a known local timeline is not behind the answer of
any peer. -/
theorem timeline_le_of_check {pool : NodePool} {req : ClusterStartPrimaryRequest} {p : StartProbes}
    (hforce : req.force = false) (hcheck : timelineCheck pool req p = .ok ())
    (hknown : 0 < p.localTl) {n : NodeConfig} (hn : n ∈ pool.members)
    (hpeer : pool.isLocal n = false) {s : NodeStatus} (hs : (p.ends n).answer = some s)
    (htl : 0 < s.timelineId) : s.timelineId ≤ p.localTl := by
  have hempty : peersAhead p.localTl (p.views pool) = [] := by
    rw [timelineCheck, requires_eq_ok_iff, hforce, Bool.or_false, List.isEmpty_iff] at hcheck
    exact hcheck
  have hmem : ⟨n, some s⟩ ∈ p.views pool :=
    mem_collectStatuses_of_answer (List.mem_filter.mpr ⟨hn, by rw [hpeer]; rfl⟩) hs
  exact peersAhead_eq_nil_iff.mp hempty _ hmem s rfl htl hknown

/-- Without `force` PostgreSQL is started only if **no peer has answered with a higher timeline
than the local one, or the local one is unknown**. -/
theorem start_timelines (pool : NodePool) (req : ClusterStartPrimaryRequest) (p : StartProbes)
    (pg : LocalPostgres) (store : ClusterState) (hforce : req.force = false)
    (hstarted : (clusterStartPrimary pool req p pg store).started = true) :
    (∃ tl, p.controlTimeline = .ok tl ∧ 0 < tl ∧
      ∀ n ∈ pool.members, pool.isLocal n = false → ∀ s, (p.ends n).answer = some s →
        0 < s.timelineId → s.timelineId ≤ tl) ∨
      ∀ tl, p.controlTimeline = .ok tl → tl ≤ 0 := by
  obtain ⟨node, held, -, hadmitted⟩ := startAdmit_of_started hstarted
  have hcheck := (startAdmit_eq_ok_iff.mp hadmitted).2
  cases hread : p.controlTimeline with
  | error e =>
    refine Or.inr fun tl htl => ?_
    cases htl
  | ok tl =>
    have hlocal : p.localTl = tl := by
      rw [StartProbes.localTl, hread]
    by_cases hknown : 0 < tl
    · refine Or.inl ⟨tl, rfl, hknown, fun n hn hpeer s hs htl => ?_⟩
      rw [← hlocal]
      exact timeline_le_of_check hforce hcheck (hlocal ▸ hknown) hn hpeer hs htl
    · refine Or.inr fun tl' htl' => ?_
      rw [← Except.ok.inj htl']
      exact not_lt.mp hknown

/-- A node that answers, from a timeline. -/
def onTimeline (timelineId : ℤ) : TaskEnd :=
  .answered 0 (some
    { isRunning := true, isInRecovery := false, isReady := true, replicationLagBytes := 0,
      replicationState := "", isPostgresRunning := true, isPgpoolRunning := false,
      isPostgresStatusOk := true, isPgpoolStatusOk := true, timelineId := timelineId,
      currentWalLsn := 0, lastFlushLsn := 0, peerPrimarySeenAgeMs := ∅ })

/-- `db0` is on timeline 3, `db1` answers from timeline 2 and `db2` from timeline 3. -/
def startHeard : StartProbes :=
  { startAlone (.ok 3) with ends := fun n => onTimeline (n.id + 1) }

def startTrio : NodePool := ⟨[⟨0, "db0"⟩, ⟨1, "db1"⟩, ⟨2, "db2"⟩], 0⟩

theorem startHeard_timelines :
    (clusterStartPrimary startTrio ⟨false⟩ startHeard .stopped ClusterState.default).started =
        true ∧
      ∃ tl, startHeard.controlTimeline = .ok tl ∧ ∀ n ∈ startTrio.members,
        startTrio.isLocal n = false → ∃ s, (startHeard.ends n).answer = some s ∧
          0 < s.timelineId ∧ s.timelineId ≤ tl := by
  refine ⟨rfl, ?_⟩
  rcases start_timelines startTrio ⟨false⟩ startHeard .stopped ClusterState.default rfl rfl with
    ⟨tl, htl, -, hpeers⟩ | hunknown
  · refine ⟨tl, htl, fun n hn hpeer => ?_⟩
    have hid : 0 ≤ n.id := by
      simp only [startTrio, List.mem_cons, List.not_mem_nil, or_false] at hn
      rcases hn with rfl | rfl | rfl <;> decide
    have hknown : (0 : ℤ) < n.id + 1 := Int.lt_add_one_of_le hid
    exact ⟨_, rfl, hknown, hpeers n hn hpeer _ rfl hknown⟩
  · exact absurd (hunknown 3 rfl) (by decide)

/-- `db1` runs on timeline 7, and the control file of `db0` cannot be read. -/
def promotedPast : StartProbes :=
  { startAlone (.error "pg_controldata: no such file") with ends := fun _ => onTimeline 7 }

theorem promotedPast_started :
    ¬ RefusesStale startPool ⟨false⟩ promotedPast .stopped ClusterState.default := by
  intro h
  obtain ⟨tl, htl, -⟩ := h rfl rfl
  cases htl

end PgAgent
