import PgAgent.Library.Resumable
import PgAgent.Ops.Resume

/-!
# A handoff whose process dies

The process that drives a handoff may die between any two calls: before a step, after the
step's effect and before its entry in the journal, or after the entry.  The operator then
asks `resume_inflight_op` to drive it on.  Nothing else touches the two nodes, and the calls
succeed; only a rewind may fail, which a base backup makes up for, and pgpool's attach.

`verify_handoff_state` takes the recorded phase for the state of the cluster.  At three
points the cluster is one effect ahead of the journal, in a way it looks at: between the
promotion of the target, the stop and the start of the local PostgreSQL, and their entries.
A death there is taken for somebody else's doing, and the resumption is refused.  And only
`cluster_handoff` itself begins the re-pointing of the other standbys.

* `Alive` --- what the ladder has done when it is about to make a call;
* `endsIn_fresh` --- what an uninterrupted handoff comes to;
* `resumesWell_iff` --- when a resumption comes to the same.
-/

namespace PgAgent

open Resumable

/-- The two nodes, the entry of the handoff, and the members for which a re-pointing has been
begun. -/
structure HandoffSite where
  entry : InflightOp
  targetRunning : Bool
  targetInRecovery : Bool
  slot : Bool
  localRunning : Bool
  localInRecovery : Bool
  synced : Bool
  repointed : Bool
  followed : List NodeId

/-- Where the process is: on the ladder, past its last call with a reply, or in the fan-out that
a fresh handoff ends with. -/
inductive HandoffDriver where
  | ladder (fresh : Bool) (pos : LadderPosition)
  | returned (fresh : Bool) (reply : OpReply)
  | fanOut (rest : List NodeConfig)

/-- The outcome of a call that may fail, and the clock of the journal. -/
structure HandoffInput where
  outcome : Except String Unit
  now : UtcNanos

/-- A handoff that the preflight has admitted. -/
structure HandoffSetup where
  pool : NodePool
  localNode : NodeConfig
  target : NodeConfig
  opId : String
  allowLag : Bool
  localNode_eq : pool.localNode = .ok localNode
  target_eq : pool.nodeById target.id = .ok target
  peer : target.id ≠ localNode.id
  opId_ne : opId ≠ ""

namespace HandoffSetup

variable (h : HandoffSetup)

def op : HandoffOp := ⟨h.opId, h.localNode, h.target, h.localNode.slotName⟩

def payload : InflightPayload :=
  .handoff h.localNode.id h.target.id h.target.hostname h.localNode.slotName h.allowLag

/-- The members that are neither of the two nodes. -/
def others : List NodeConfig := followers h.pool h.localNode h.target

end HandoffSetup

/-! ## The calls -/

/-- The calls that may fail without ending the handoff. -/
def HandoffCall.mayFail : HandoffCall → Bool
  | .rewind => true
  | .attachNode => true
  | _ => false

namespace HandoffSite

/-- What a call does to the site. -/
def perform (site : HandoffSite) (call : HandoffCall) (outcome : Except String Unit)
    (now : UtcNanos) : HandoffSite :=
  match call, outcome with
  | _, .error _ => site
  | .promote, .ok _ => { site with targetInRecovery := false }
  | .updatePhase phase, .ok _ =>
      { site with entry := (JournalCall.updatePhase phase.name none).write site.entry now }
  | .createSlot, .ok _ => { site with slot := true }
  | .stopPostgres, .ok _ => { site with localRunning := false }
  | .rewind, .ok _ => { site with synced := true }
  | .basebackup, .ok _ => { site with synced := true }
  | .dropSlot _, .ok _ => { site with slot := false }
  | .abandon e, .ok _ =>
      { site with
        entry := (JournalCall.abandon ("rewind+basebackup both failed: " ++ e)).write
            site.entry now }
  | .writeRecoveryConf, .ok _ => { site with repointed := true }
  -- it comes up as a standby if its configuration says so
  | .startPostgres, .ok _ =>
      if site.localRunning then site
      else { site with localRunning := true, localInRecovery := site.repointed }
  | .complete, .ok _ => { site with entry := JournalCall.complete.write site.entry now }
  | .checkpoint, .ok _ => site
  | .attachNode, .ok _ => site

/-- The status a node answers with. -/
def statusOf (running inRecovery : Bool) : NodeStatus where
  isRunning := running
  isInRecovery := inRecovery
  isReady := true
  replicationLagBytes := 0
  replicationState := ""
  isPostgresRunning := running
  isPgpoolRunning := true
  isPostgresStatusOk := true
  isPgpoolStatusOk := true
  timelineId := 1
  currentWalLsn := 1
  lastFlushLsn := 1
  peerPrimarySeenAgeMs := ∅

/-- What a resumption finds. -/
def probes (site : HandoffSite) : ResumeProbes where
  client := .ok ()
  targetStatus := .ok (statusOf site.targetRunning site.targetInRecovery)
  statusPostgres := .ok site.localRunning
  isInRecovery := .ok site.localInRecovery

end HandoffSite

/-- The process and the requests to resume it. -/
def HandoffSetup.program (h : HandoffSetup) :
    Program HandoffSite HandoffDriver HandoffInput Unit where
  act site driver input :=
    match driver with
    | .ladder fresh pos =>
        let outcome := if pos.call.mayFail then input.outcome else .ok ()
        let site := site.perform pos.call outcome input.now
        match h.op.next pos outcome with
        | .inl pos => (site, some (.ladder fresh pos))
        | .inr reply => (site, some (.returned fresh reply))
    | .returned fresh reply =>
        if fresh && reply.isAccepted then (site, some (.fanOut h.others)) else (site, none)
    | .fanOut [] => (site, none)
    | .fanOut (member :: rest) =>
        ({ site with followed := member.id :: site.followed }, some (.fanOut rest))
  resume site _ :=
    match resumeInflightOp h.pool site.entry.id (.ok site.entry) site.probes with
    | .ok (.handoff _ phase) => some (.ladder false phase.start)
    | _ => none

/-! ## What the ladder has done -/

/-- The place of a call on the ladder; the clean-up after a failed copy comes behind it. -/
def HandoffCall.rank : HandoffCall → ℕ
  | .checkpoint => 0
  | .promote => 1
  | .updatePhase .targetPromoted => 2
  | .createSlot => 3
  | .updatePhase .slotCreated => 4
  | .stopPostgres => 5
  | .updatePhase .localStopped => 6
  | .rewind => 7
  | .basebackup => 8
  | .updatePhase .dataCopied => 9
  | .writeRecoveryConf => 10
  | .updatePhase .recoveryConfWritten => 11
  | .startPostgres => 12
  | .updatePhase .localStarted => 13
  | .attachNode => 14
  | .updatePhase .attached => 15
  | .complete => 16
  | .updatePhase .preflightDone => 17
  | .dropSlot _ => 17
  | .abandon _ => 17

/-- The phase that is recorded while the ladder is at a call. -/
def HandoffCall.recorded : HandoffCall → HandoffPhase
  | .checkpoint => .preflightDone
  | .promote => .preflightDone
  | .updatePhase .targetPromoted => .preflightDone
  | .createSlot => .targetPromoted
  | .updatePhase .slotCreated => .targetPromoted
  | .stopPostgres => .slotCreated
  | .updatePhase .localStopped => .slotCreated
  | .rewind => .localStopped
  | .basebackup => .localStopped
  | .updatePhase .dataCopied => .localStopped
  | .writeRecoveryConf => .dataCopied
  | .updatePhase .recoveryConfWritten => .dataCopied
  | .startPostgres => .recoveryConfWritten
  | .updatePhase .localStarted => .recoveryConfWritten
  | .attachNode => .localStarted
  | .updatePhase .attached => .localStarted
  | .complete => .attached
  | .updatePhase .preflightDone => .preflightDone
  | .dropSlot _ => .localStopped
  | .abandon _ => .localStopped

/-- At this call the cluster is an effect ahead of the journal, where a resumption looks: the
process has promoted the target, stopped or started the local PostgreSQL, and not recorded
it. -/
def HandoffCall.aheadOfJournal : HandoffCall → Bool
  | .updatePhase .targetPromoted => true
  | .updatePhase .localStopped => true
  | .updatePhase .localStarted => true
  | _ => false

/-- The call behind one that succeeds. -/
def HandoffCall.following : HandoffCall → HandoffCall
  | .checkpoint => .promote
  | .promote => .updatePhase .targetPromoted
  | .updatePhase phase => phase.firstCall
  | .createSlot => .updatePhase .slotCreated
  | .stopPostgres => .updatePhase .localStopped
  | .rewind => .updatePhase .dataCopied
  | .basebackup => .updatePhase .dataCopied
  | .dropSlot e => .abandon e
  | .abandon e => .abandon e
  | .writeRecoveryConf => .updatePhase .recoveryConfWritten
  | .startPostgres => .updatePhase .localStarted
  | .attachNode => .updatePhase .attached
  | .complete => .complete

/-- Up to its last call the ladder goes to the following call if the call succeeds, or if it is
pgpool's attach; a rewind that fails is followed by a base backup. -/
theorem HandoffOp.next_ladder (op : HandoffOp) {pos : LadderPosition} (hladder : pos.call.rank < 16)
    {outcome : Except String Unit} (hok : pos.call.mayFail = false → outcome = .ok ()) :
    ∃ pos', op.next pos outcome = .inl pos' ∧
      (pos'.call = pos.call.following ∧ (pos.call = .rewind → outcome = .ok ()) ∨
        pos.call = .rewind ∧ pos'.call = .basebackup ∧ ∃ e, outcome = .error e) := by
  obtain ⟨call, ran, note⟩ := pos
  cases call with
  | rewind =>
    cases outcome with
    | ok u => exact ⟨_, rfl, Or.inl ⟨rfl, fun _ => rfl⟩⟩
    | error e => exact ⟨_, rfl, Or.inr ⟨rfl, rfl, e, rfl⟩⟩
  | attachNode =>
    cases outcome with
    | ok u => exact ⟨_, rfl, Or.inl ⟨rfl, fun hcall => by cases hcall⟩⟩
    | error e => exact ⟨_, rfl, Or.inl ⟨rfl, fun hcall => by cases hcall⟩⟩
  | dropSlot e => exact absurd hladder (by simp [HandoffCall.rank])
  | abandon e => exact absurd hladder (by simp [HandoffCall.rank])
  | complete => exact absurd hladder (by simp [HandoffCall.rank])
  | _ =>
    obtain rfl := hok rfl
    exact ⟨_, rfl, Or.inl ⟨rfl, fun hcall => by cases hcall⟩⟩

theorem HandoffCall.rank_following {call : HandoffCall} (h : call.rank < 16) :
    call.rank < call.following.rank ∧ call.following.rank ≤ 16 := by
  cases call with
  | updatePhase phase =>
    cases phase with
    | preflightDone => exact absurd h (by simp [rank])
    | _ => decide
  | dropSlot e => exact absurd h (by simp [rank])
  | abandon e => exact absurd h (by simp [rank])
  | complete => exact absurd h (by simp [rank])
  | _ => decide

namespace HandoffSetup

variable (h : HandoffSetup)

/-- What holds when the ladder is about to make a call. -/
structure Facts (site : HandoffSite) (call : HandoffCall) : Prop where
  onLadder : call.rank ≤ 16
  id : site.entry.id = h.opId
  payload : site.entry.payload = h.payload
  status : site.entry.status = .inProgress
  phase : site.entry.phase = call.recorded.name
  followed : site.followed = []
  targetRunning : site.targetRunning = true
  targetInRecovery : site.targetInRecovery = decide (call.rank ≤ 1)
  slot : 4 ≤ call.rank → site.slot = true
  localRunning : site.localRunning = decide (call.rank ≤ 5 ∨ 13 ≤ call.rank)
  synced : 9 ≤ call.rank → site.synced = true
  repointed : 11 ≤ call.rank → site.repointed = true
  localInRecovery : 13 ≤ call.rank → site.localInRecovery = true

variable {h} {site : HandoffSite} {now : UtcNanos}

/-- A call that succeeds does what is to hold at the following one. -/
theorem Facts.perform {call : HandoffCall} (hf : h.Facts site call) (hladder : call.rank < 16) :
    h.Facts (site.perform call (.ok ()) now) call.following := by
  obtain ⟨-, hid, hpayload, hstatus, hphase, hfollowed, hrunning, hrecovery, hslot, hlocal,
    hsynced, hrepointed, hstandby⟩ := hf
  cases call with
  | updatePhase phase =>
    cases phase with
    | preflightDone => exact absurd hladder (by simp [HandoffCall.rank])
    | _ =>
      -- a fact that the call leaves alone, or what the call has done
      constructor <;>
        first
        | assumption
        | simp_all [HandoffCall.rank, HandoffCall.following, HandoffCall.recorded,
            HandoffPhase.firstCall, HandoffSite.perform, JournalCall.write]
  | dropSlot e => exact absurd hladder (by simp [HandoffCall.rank])
  | abandon e => exact absurd hladder (by simp [HandoffCall.rank])
  | complete => exact absurd hladder (by simp [HandoffCall.rank])
  | _ =>
    constructor <;>
      first
      | assumption
      | simp_all [HandoffCall.rank, HandoffCall.following, HandoffCall.recorded,
          HandoffSite.perform]

/-- A rewind that fails changes nothing. -/
theorem Facts.basebackup (hf : h.Facts site .rewind) : h.Facts site .basebackup :=
  ⟨by decide, hf.id, hf.payload, hf.status, hf.phase, hf.followed, hf.targetRunning,
    hf.targetInRecovery, fun _ => hf.slot (by decide), hf.localRunning, by simp [HandoffCall.rank],
    by simp [HandoffCall.rank], by simp [HandoffCall.rank]⟩

/-- The two nodes have changed places, and the entry says so. -/
structure Done (site : HandoffSite) : Prop where
  status : site.entry.status = .done
  targetRunning : site.targetRunning = true
  targetInRecovery : site.targetInRecovery = false
  slot : site.slot = true
  localRunning : site.localRunning = true
  localInRecovery : site.localInRecovery = true
  synced : site.synced = true
  repointed : site.repointed = true

theorem Facts.complete (hf : h.Facts site .complete) :
    Done (site.perform .complete (.ok ()) now) :=
  ⟨rfl, hf.targetRunning, hf.targetInRecovery, hf.slot (by decide), hf.localRunning,
    hf.localInRecovery (by decide), hf.synced (by decide), hf.repointed (by decide)⟩

/-! ## A process that is left alone -/

variable (h)

/-- What an uninterrupted handoff comes to: the target is the primary, the local node a running
standby of it, the entry is done, and a re-pointing is begun for every other member. -/
def HandedOver (site : HandoffSite) : Prop :=
  Done site ∧ ∀ member ∈ h.others, member.id ∈ site.followed

/-- What holds while the process is under way. -/
def Alive (site : HandoffSite) : HandoffDriver → Prop
  | .ladder _ pos => h.Facts site pos.call
  | .returned _ reply => reply.isAccepted = true ∧ Done site ∧ site.followed = []
  | .fanOut rest => Done site ∧
      ∀ member ∈ h.others, member.id ∈ site.followed ∨ member ∈ rest

/-- How far the process has to go. -/
def remaining : HandoffDriver → ℕ
  | .ladder _ pos => h.others.length + 4 + (16 - pos.call.rank)
  | .returned _ _ => h.others.length + 2
  | .fanOut rest => rest.length + 1

variable {h}

/-- The calls of the ladder keep `Alive`. -/
theorem Alive.ladder {fresh : Bool} {pos : LadderPosition} (ha : h.Alive site (.ladder fresh pos))
    (input : HandoffInput) :
    ∃ site' driver, h.program.act site (.ladder fresh pos) input = (site', some driver) ∧
      h.Alive site' driver ∧ h.remaining driver < h.remaining (.ladder fresh pos) ∧
      ((∃ pos', driver = .ladder fresh pos') ∨ ∃ reply, driver = .returned fresh reply) := by
  have hf : h.Facts site pos.call := ha
  let outcome := if pos.call.mayFail then input.outcome else .ok ()
  have hok : pos.call.mayFail = false → outcome = .ok () := fun hfail => by
    simp [outcome, hfail]
  rcases Nat.lt_or_ge pos.call.rank 16 with hlt | hge
  · obtain ⟨pos', hnext, hpos⟩ := h.op.next_ladder hlt hok
    have hact : h.program.act site (.ladder fresh pos) input =
        (site.perform pos.call outcome input.now, some (.ladder fresh pos')) := by
      simp only [program]
      rw [hnext]
    refine ⟨_, _, hact, ?_, ?_, Or.inl ⟨pos', rfl⟩⟩
    · rcases hpos with ⟨hcall, hrewind⟩ | ⟨hcall, hnextCall, e, he⟩
      · show h.Facts _ pos'.call
        rw [hcall]
        rcases houtcome : outcome with e | u
        · -- only pgpool's attach can have failed here
          have hattach : pos.call = .attachNode := by
            cases hc : pos.call with
            | attachNode => rfl
            | rewind =>
              rw [hrewind hc] at houtcome
              cases houtcome
            | _ =>
              rw [hok (by rw [hc]; rfl)] at houtcome
              cases houtcome
          rw [hattach] at hf ⊢
          have hattached : h.Facts (site.perform .attachNode (.ok ()) input.now) _ :=
            hf.perform (by decide)
          exact hattached
        · exact hf.perform hlt
      · show h.Facts _ pos'.call
        rw [hcall] at hf ⊢
        rw [hnextCall, he]
        exact hf.basebackup
    · simp only [remaining]
      rcases hpos with ⟨hcall, -⟩ | ⟨hcall, hnextCall, -⟩
      · have hrank := HandoffCall.rank_following hlt
        rw [hcall]
        omega
      · rw [hcall, hnextCall]
        simp only [HandoffCall.rank]
        omega
  · have hcall : pos.call = .complete := by
      have hrank : pos.call.rank = 16 := Nat.le_antisymm hf.onLadder hge
      cases hc : pos.call with
      | complete => rfl
      | updatePhase phase =>
        rw [hc] at hrank
        cases phase <;> cases hrank
      | _ =>
        rw [hc] at hrank
        cases hrank
    obtain ⟨call, ran, note⟩ := pos
    obtain rfl := hcall
    refine ⟨_, _, rfl, ⟨rfl, hf.complete, hf.followed⟩, ?_, Or.inr ⟨_, rfl⟩⟩
    simp only [remaining, HandoffCall.rank]
    omega

theorem fanOut_goes {rest : List NodeConfig} {member : NodeConfig}
    (ha : h.Alive site (.fanOut (member :: rest))) :
    h.Alive { site with followed := member.id :: site.followed } (.fanOut rest) := by
  refine ⟨⟨ha.1.status, ha.1.targetRunning, ha.1.targetInRecovery, ha.1.slot, ha.1.localRunning,
    ha.1.localInRecovery, ha.1.synced, ha.1.repointed⟩, fun m hm => ?_⟩
  rcases ha.2 m hm with hbegun | hrest
  · exact Or.inl (List.mem_cons_of_mem _ hbegun)
  · rcases List.mem_cons.mp hrest with rfl | hrest
    · exact Or.inl List.mem_cons_self
    · exact Or.inr hrest

variable (h)

/-- The process is one that was started fresh, or one that was resumed. -/
def Began (fresh : Bool) : HandoffDriver → Prop
  | .ladder f _ => f = fresh
  | .returned f _ => f = fresh
  | .fanOut _ => fresh = true

/-- Where a process ends.  Only a fresh one begins the re-pointings. -/
def Ended (fresh : Bool) (site : HandoffSite) : Prop :=
  Done site ∧ if fresh then ∀ member ∈ h.others, member.id ∈ site.followed
    else site.followed = []

variable {h}

theorem Alive.goes {driver driver' : HandoffDriver} {site' : HandoffSite} {input : HandoffInput}
    {fresh : Bool} (ha : h.Alive site driver) (hbegan : Began fresh driver)
    (hact : h.program.act site driver input = (site', some driver')) :
    h.Alive site' driver' ∧ Began fresh driver' ∧ h.remaining driver' < h.remaining driver := by
  cases driver with
  | ladder f pos =>
    obtain ⟨site₁, d, hstep, halive, hlt, hshape⟩ := Alive.ladder ha input
    rw [hstep] at hact
    obtain ⟨rfl, hd⟩ := Prod.mk.inj hact
    obtain rfl := Option.some.inj hd
    refine ⟨halive, ?_, hlt⟩
    rcases hshape with ⟨pos', rfl⟩ | ⟨reply, rfl⟩
    · exact hbegan
    · exact hbegan
  | returned f reply =>
    obtain ⟨haccepted, hdone, hnone⟩ := ha
    cases f with
    | false => cases hact
    | true =>
      simp only [program, haccepted, Bool.and_self, if_true] at hact
      obtain ⟨rfl, hd⟩ := Prod.mk.inj hact
      obtain rfl := Option.some.inj hd
      exact ⟨⟨hdone, fun member hm => Or.inr hm⟩, hbegan.symm, by simp [remaining]⟩
  | fanOut rest =>
    cases rest with
    | nil => cases hact
    | cons member rest =>
      obtain ⟨rfl, hd⟩ := Prod.mk.inj hact
      obtain rfl := Option.some.inj hd
      exact ⟨fanOut_goes ha, hbegan, by simp [remaining]⟩

theorem Alive.ends {driver : HandoffDriver} {site' : HandoffSite} {input : HandoffInput}
    {fresh : Bool} (ha : h.Alive site driver) (hbegan : Began fresh driver)
    (hact : h.program.act site driver input = (site', none)) : h.Ended fresh site' := by
  cases driver with
  | ladder f pos =>
    obtain ⟨site₁, d, hstep, -⟩ := Alive.ladder ha input
    rw [hstep] at hact
    cases hact
  | returned f reply =>
    obtain ⟨haccepted, hdone, hnone⟩ := ha
    cases f with
    | false =>
      obtain ⟨rfl, -⟩ := Prod.mk.inj hact
      obtain rfl : false = fresh := hbegan
      exact ⟨hdone, hnone⟩
    | true => simp [program, haccepted] at hact
  | fanOut rest =>
    cases rest with
    | nil =>
      obtain ⟨rfl, -⟩ := Prod.mk.inj hact
      obtain rfl : fresh = true := hbegan
      refine ⟨ha.1, ?_⟩
      rw [if_pos rfl]
      intro member hm
      rcases ha.2 member hm with hbegun | hrest
      · exact hbegun
      · cases hrest
    | cons member rest => cases hact

/-- A process that is not interrupted comes to its end. -/
theorem endsIn_of_alive {fresh : Bool} {driver : HandoffDriver} (ha : h.Alive site driver)
    (hbegan : Began fresh driver) : EndsIn h.program site driver (h.Ended fresh) := by
  refine endsIn_of_rank (fun site driver => h.Alive site driver ∧ Began fresh driver) h.remaining
    ?_ ?_ ⟨ha, hbegan⟩
  · rintro w pos input w' pos' ⟨hw, hpos⟩ hact
    obtain ⟨hw', hpos', hlt⟩ := hw.goes hpos hact
    exact ⟨⟨hw', hpos'⟩, hlt⟩
  · rintro w pos input w' ⟨hw, hpos⟩ hact
    exact hw.ends hpos hact

/-- A fresh handoff that is not interrupted hands over and begins the re-pointings. -/
theorem endsIn_fresh {pos : LadderPosition} (ha : h.Alive site (.ladder true pos)) :
    EndsIn h.program site (.ladder true pos) h.HandedOver :=
  (endsIn_of_alive ha rfl).mono fun _ hended => hended

/-! ## A process that is resumed -/

/-- The cluster is as a recorded phase implies, as far as the resumption looks. -/
def consistent (site : HandoffSite) : HandoffPhase → Bool
  | .preflightDone => site.targetInRecovery
  | .targetPromoted | .slotCreated =>
      site.targetRunning && !site.targetInRecovery && site.localRunning
  | .localStopped | .dataCopied | .recoveryConfWritten =>
      site.targetRunning && !site.targetInRecovery && !site.localRunning
  | .localStarted | .attached =>
      site.targetRunning && !site.targetInRecovery && site.localRunning && site.localInRecovery

theorem verifyHandoffState_probes (site : HandoffSite) (phase : HandoffPhase)
    (target : NodeConfig) :
    ∃ diverged, verifyHandoffState (some phase) target site.probes = .ok diverged ∧
      (diverged.isNone = consistent site phase) := by
  obtain ⟨entry, targetRunning, targetInRecovery, slot, localRunning, localInRecovery, synced,
    repointed, followed⟩ := site
  cases phase with
  | preflightDone =>
    cases targetInRecovery with
    | true => exact ⟨_, rfl, rfl⟩
    | false => exact ⟨_, rfl, rfl⟩
  | _ =>
    cases targetRunning <;> cases targetInRecovery <;> cases localRunning <;>
      cases localInRecovery <;> exact ⟨_, rfl, rfl⟩

theorem resumeHandoff_eq {phase : HandoffPhase} (hid : site.entry.id = h.opId)
    (hpayload : site.entry.payload = h.payload) (hphase : site.entry.phase = phase.name)
    {diverged : Option String}
    (hverify : verifyHandoffState (some phase) h.target site.probes = .ok diverged) :
    resumeHandoff h.pool site.entry site.probes =
      (answering (diverged.map fun reason => OpReply.refused
        ("resume_handoff: cluster state diverged from recorded phase " ++ debugStr phase.name ++
          ": " ++ reason ++ "; run `pg_agentctl ops abandon " ++ h.opId ++
          "` if this op is unrecoverable"))).bind fun _ => .ok (h.op, phase) := by
  have hclient : site.probes.client = .ok () := rfl
  unfold resumeHandoff
  rw [hpayload]
  simp only [HandoffSetup.payload]
  rw [h.localNode_eq, hphase, HandoffPhase.ofName_name, hid, hclient]
  simp only [internally, Except.mapError, bind, Except.bind, requires, recordedNode, h.target_eq,
    beq_self_eq_true, if_true, hverify, answering, op]

/-- A resumption drives on from the recorded phase, or is refused. -/
theorem resume_eq {phase : HandoffPhase} (hid : site.entry.id = h.opId)
    (hpayload : site.entry.payload = h.payload) (hstatus : site.entry.status = .inProgress)
    (hphase : site.entry.phase = phase.name) :
    h.program.resume site () =
      if consistent site phase then some (.ladder false phase.start) else none := by
  obtain ⟨diverged, hverify, hdiverged⟩ := verifyHandoffState_probes site phase h.target
  have hne : site.entry.id ≠ "" := by
    rw [hid]
    exact h.opId_ne
  simp only [program]
  rw [resumeInflightOp_handoff h.pool site.probes hne hstatus hpayload,
    resumeHandoff_eq hid hpayload hphase hverify, ← hdiverged]
  cases diverged with
  | none => rfl
  | some reason => rfl

/-- An entry that is done is not resumed. -/
theorem resume_of_done (hstatus : site.entry.status = .done) : h.program.resume site () = none := by
  obtain ⟨reply, hreply⟩ := resumeInflightOp_of_not_inProgress h.pool site.probes site.entry.id
    (fun hne => InflightStatus.noConfusion (hstatus.symm.trans hne))
  simp only [program, hreply]

/-- The program resumes at the recorded phase exactly if the call it was at is not ahead of the
journal. -/
theorem Facts.resume {call : HandoffCall} (hf : h.Facts site call) :
    h.program.resume site () =
      if call.aheadOfJournal then none else some (.ladder false call.recorded.start) := by
  rw [resume_eq hf.id hf.payload hf.status hf.phase]
  have hrecovery := hf.targetInRecovery
  have hlocal := hf.localRunning
  have hladder := hf.onLadder
  have hstandby := hf.localInRecovery
  cases call with
  | updatePhase phase =>
    cases phase with
    | preflightDone => exact absurd hladder (by simp [HandoffCall.rank])
    | _ =>
      simp_all [HandoffCall.recorded, HandoffCall.rank, HandoffCall.aheadOfJournal, consistent,
        hf.targetRunning]
  | dropSlot e => exact absurd hladder (by simp [HandoffCall.rank])
  | abandon e => exact absurd hladder (by simp [HandoffCall.rank])
  | _ =>
    simp_all [HandoffCall.recorded, HandoffCall.rank, HandoffCall.aheadOfJournal, consistent,
      hf.targetRunning]

/-- Where the journal is not behind, the site is also as it was before the first call of the
recorded phase. -/
theorem Facts.restart {call : HandoffCall} (hf : h.Facts site call)
    (hbehind : call.aheadOfJournal = false) : h.Facts site call.recorded.firstCall := by
  obtain ⟨hladder, hid, hpayload, hstatus, hphase, hfollowed, hrunning, hrecovery, hslot, hlocal,
    hsynced, hrepointed, hstandby⟩ := hf
  cases call with
  | updatePhase phase =>
    cases phase with
    | preflightDone => exact absurd hladder (by simp [HandoffCall.rank])
    | targetPromoted => cases hbehind
    | localStopped => cases hbehind
    | localStarted => cases hbehind
    | _ =>
      constructor <;>
        first
        | assumption
        | simp_all [HandoffCall.rank, HandoffCall.recorded, HandoffPhase.firstCall]
  | dropSlot e => exact absurd hladder (by simp [HandoffCall.rank])
  | abandon e => exact absurd hladder (by simp [HandoffCall.rank])
  | _ =>
    constructor <;>
      first
      | assumption
      | simp_all [HandoffCall.rank, HandoffCall.recorded, HandoffPhase.firstCall]

variable (h)

/-- What holds when the process is gone: a resumption that is not refused goes well. -/
def ResumesAlive (site : HandoffSite) : Prop :=
  ∀ driver, h.program.resume site () = some driver → h.Alive site driver

variable {h}

theorem Alive.resumable {driver : HandoffDriver} (ha : h.Alive site driver) :
    h.ResumesAlive site := by
  intro driver' hresume
  have hdone : Done site → False := fun hdone => by
    rw [resume_of_done hdone.status] at hresume
    cases hresume
  cases driver with
  | ladder fresh pos =>
    have hf : h.Facts site pos.call := ha
    rw [hf.resume] at hresume
    cases hahead : pos.call.aheadOfJournal with
    | true =>
      rw [hahead] at hresume
      cases hresume
    | false =>
      rw [hahead] at hresume
      obtain rfl := Option.some.inj hresume
      exact hf.restart hahead
  | returned fresh reply => exact absurd ha.2.1 hdone
  | fanOut rest => exact absurd ha.1 hdone

/-- Calls, deaths anywhere and resumptions keep what holds of the process. -/
theorem keeps (h : HandoffSetup) :
    Keeps h.program h.Alive h.ResumesAlive fun _ _ => True where
  acts site driver input ha := by
    obtain ⟨fresh, hbegan⟩ : ∃ fresh, Began fresh driver := by
      cases driver with
      | ladder f pos => exact ⟨f, rfl⟩
      | returned f reply => exact ⟨f, rfl⟩
      | fanOut rest => exact ⟨true, rfl⟩
    rcases hact : h.program.act site driver input with ⟨site', _ | driver'⟩
    · intro d hresume
      rw [resume_of_done (ha.ends hbegan hact).1.status] at hresume
      cases hresume
    · exact (ha.goes hbegan hact).1
  dies site driver ha _ := ha.resumable
  resumes site request hr := by
    cases hresume : h.program.resume site request with
    | none => exact hr
    | some driver => exact hr driver hresume

/-! ## The runs of a handoff -/

variable (h)

/-- The entry that `begin` has written. -/
def entry (now : UtcNanos) : InflightOp where
  id := h.opId
  status := .inProgress
  payload := h.payload
  phase := HandoffPhase.preflightDone.name
  startedAt := now
  updatedAt := now
  completedAt := none
  dischargedAt := none
  lastError := none

/-- A handoff that has just been begun: the local node is a primary, the target its standby. -/
def begun (now : UtcNanos) : State HandoffSite HandoffDriver where
  world :=
    { entry := h.entry now
      targetRunning := true
      targetInRecovery := true
      slot := false
      localRunning := true
      localInRecovery := false
      synced := false
      repointed := false
      followed := [] }
  driver := some (.ladder true HandoffPhase.preflightDone.start)

theorem holds_begun (now : UtcNanos) : Holds h.Alive h.ResumesAlive (h.begun now) :=
  ⟨by decide, rfl, rfl, rfl, rfl, rfl, rfl, rfl, fun hrank => absurd hrank (by decide), rfl,
    fun hrank => absurd hrank (by decide), fun hrank => absurd hrank (by decide),
    fun hrank => absurd hrank (by decide)⟩

/-- A resumption is not refused, and comes to what an uninterrupted handoff comes to. -/
def ResumesWell (site : HandoffSite) : Prop :=
  ∃ driver, h.program.resume site () = some driver ∧ EndsIn h.program site driver h.HandedOver

/-- The process is at a point where its death can be made up for: it has calls of the ladder left
to make, and the journal is not behind. -/
def DiesSafely : HandoffDriver → Prop
  | .ladder _ pos => pos.call.aheadOfJournal = false
  | .returned _ _ => False
  | .fanOut _ => False

variable {h}

theorem Facts.endsIn_resumed {call : HandoffCall} (hf : h.Facts site call)
    (hbehind : call.aheadOfJournal = false) :
    EndsIn h.program site (.ladder false call.recorded.start) (h.Ended false) := by
  have halive : h.Alive site (.ladder false call.recorded.start) := hf.restart hbehind
  exact endsIn_of_alive halive rfl

theorem Facts.resumesWell_iff_recorded {call : HandoffCall} (hf : h.Facts site call) :
    h.ResumesWell site ↔ call.aheadOfJournal = false ∧ h.others = [] := by
  constructor
  · rintro ⟨driver, hresume, hends⟩
    rw [hf.resume] at hresume
    cases hahead : call.aheadOfJournal with
    | true =>
      rw [hahead] at hresume
      cases hresume
    | false =>
      rw [hahead] at hresume
      obtain rfl := Option.some.inj hresume
      refine ⟨rfl, ?_⟩
      -- where it ends no re-pointing has been begun
      by_contra hothers
      obtain ⟨member, hmember⟩ := List.exists_mem_of_ne_nil _ hothers
      have hinhabited : Nonempty HandoffInput := ⟨⟨.ok (), 0⟩⟩
      refine not_endsIn ((hf.endsIn_resumed hahead).mono fun w hw hover => ?_) hends
      have hbegun := hover.2 member hmember
      have hnone : w.followed = [] := hw.2
      rw [hnone] at hbegun
      cases hbegun
  · rintro ⟨hahead, hothers⟩
    refine ⟨.ladder false call.recorded.start, ?_, ?_⟩
    · rw [hf.resume, hahead]
      rfl
    · refine (hf.endsIn_resumed hahead).mono fun w hw => ⟨hw.1, fun m hm => ?_⟩
      rw [hothers] at hm
      cases hm

/-- Node `0` hands over to node `1`; there is no third member. -/
def pairSetup : HandoffSetup where
  pool := ⟨[⟨0, "db0"⟩, ⟨1, "db1"⟩], 0⟩
  localNode := ⟨0, "db0"⟩
  target := ⟨1, "db1"⟩
  opId := "0-handoff-0"
  allowLag := false
  localNode_eq := rfl
  target_eq := rfl
  peer := by decide
  opId_ne := by decide

/-- All calls succeed. -/
def undisturbed : ℕ → Event HandoffInput Unit := fun _ => .acts ⟨.ok (), 0⟩

end HandoffSetup

end PgAgent
