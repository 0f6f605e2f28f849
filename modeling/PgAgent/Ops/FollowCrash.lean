import PgAgent.Library.Resumable
import PgAgent.Ops.Resume

/-!
# A re-pointing whose process dies

The driver of a re-pointing stops the standby, copies the new primary's data, points the
standby at it and starts it again.  Its process may die between any two calls, any number of
times, and the operator resumes the entry.  Nothing else touches the nodes, and the calls
succeed; only a rewind may fail, which a base backup makes up for.

A driver that is resumed at `queued` or `dialing` asks for the standby's status first, and
takes a stopped standby for one that the operator has stopped: there is nothing to do, and
the entry is completed.  Between the stop and its entry in the journal this is the driver's
own stop.

* `Facts` --- what the driver has done when it is about to make a call;
* `doneIsDone_of_stopRecorded` --- if no process dies between the stop and its entry, an entry
  that is done stands for a standby that follows the new primary.
-/

namespace PgAgent

open Resumable

/-- The standby and the entry of its re-pointing. -/
structure FollowSite where
  entry : InflightOp
  running : Bool
  slot : Bool
  stopped : Bool
  synced : Bool
  repointed : Bool
  follows : Bool

/-- The outcome of a rewind, and the clock of the journal. -/
structure FollowInput where
  outcome : Except String Unit
  now : UtcNanos

/-- A re-pointing that has been begun. -/
structure FollowSetup where
  pool : NodePool
  detached : NodeConfig
  newPrimary : NodeConfig
  opId : String
  detached_eq : pool.nodeById detached.id = .ok detached
  newPrimary_eq : pool.nodeById newPrimary.id = .ok newPrimary
  opId_ne : opId ≠ ""

namespace FollowSetup

variable (h : FollowSetup)

def op : FollowOp := ⟨h.opId, h.detached, h.newPrimary⟩

def payload : InflightPayload :=
  .followPrimary h.detached.id h.detached.hostname h.newPrimary.id h.newPrimary.hostname

end FollowSetup

/-! ## The calls -/

/-- What a call does to the site. -/
def FollowSite.perform (site : FollowSite) (call : FollowCall) (outcome : Except String Unit)
    (now : UtcNanos) : FollowSite :=
  match call, outcome with
  | _, .error _ => site
  | .updatePhase phase, .ok _ =>
      { site with entry := (JournalCall.updatePhase phase.name none).write site.entry now }
  | .stop, .ok _ => { site with running := false, stopped := true, follows := false }
  | .createSlot, .ok _ => { site with slot := true }
  -- the data of a running server is not touched
  | .rewind, .ok _ => if site.running then site else { site with synced := true }
  | .basebackup, .ok _ => if site.running then site else { site with synced := true }
  | .configureStandby, .ok _ => { site with repointed := true }
  | .start, .ok _ =>
      if site.running then site
      else { site with running := true, follows := site.synced && site.repointed }
  | .dropSlot _ _, .ok _ => { site with slot := false }
  | .complete, .ok _ => { site with entry := JournalCall.complete.write site.entry now }
  | .abandon reason, .ok _ =>
      { site with entry := (JournalCall.abandon reason).write site.entry now }
  | .dialDetached, .ok _ => site
  | .dialNewPrimary, .ok _ => site
  | .getStatus, .ok _ => site
  | .attachNode, .ok _ => site
  | .queueCleanup _ _ _, .ok _ => site

/-- The driver and the requests to resume it. -/
def FollowSetup.program (h : FollowSetup) :
    Program FollowSite FollowPosition FollowInput ResumeProbes where
  act site pos input :=
    let outcome := if pos.call = .rewind then input.outcome else .ok ()
    let site' := site.perform pos.call outcome input.now
    match h.op.next pos site.running outcome with
    | .inl pos' => (site', some pos')
    | .inr _ => (site', none)
  resume site p :=
    match resumeInflightOp h.pool site.entry.id (.ok site.entry) p with
    | .ok (.follow _ pos) => some pos
    | _ => none

/-! ## What the driver has done -/

/-- The place of a call on the ladder.  The two dials have none: they are made at every start. -/
def FollowCall.rank : FollowCall → ℕ
  | .updatePhase .dialing => 0
  | .getStatus => 1
  | .stop => 2
  | .updatePhase .detachedStopped => 3
  | .createSlot => 4
  | .updatePhase .slotCreated => 5
  | .rewind => 6
  | .basebackup => 7
  | .updatePhase .dataCopied => 8
  | .configureStandby => 9
  | .updatePhase .recoveryConfWritten => 10
  | .start => 11
  | .updatePhase .detachedStarted => 12
  | .attachNode => 13
  | .updatePhase .attached => 14
  | .complete => 15
  | _ => 16

/-- The phase that is recorded while the ladder is at a call. -/
def FollowCall.recorded : FollowCall → FollowPhase
  | .updatePhase .dialing => .queued
  | .getStatus => .dialing
  | .stop => .dialing
  | .updatePhase .detachedStopped => .dialing
  | .createSlot => .detachedStopped
  | .updatePhase .slotCreated => .detachedStopped
  | .rewind => .slotCreated
  | .basebackup => .slotCreated
  | .updatePhase .dataCopied => .slotCreated
  | .configureStandby => .dataCopied
  | .updatePhase .recoveryConfWritten => .dataCopied
  | .start => .recoveryConfWritten
  | .updatePhase .detachedStarted => .recoveryConfWritten
  | .attachNode => .detachedStarted
  | .updatePhase .attached => .detachedStarted
  | _ => .attached

/-- The call of the ladder a position is at; behind the dials, the one they lead to. -/
def FollowPosition.ahead (pos : FollowPosition) : FollowCall :=
  match pos.call with
  | .dialDetached => pos.startPhase.firstCall
  | .dialNewPrimary => pos.startPhase.firstCall
  | call => call

/-- The call behind one that succeeds. -/
def FollowCall.following : FollowCall → FollowCall
  | .updatePhase phase => phase.firstCall
  | .getStatus => .stop
  | .stop => .updatePhase .detachedStopped
  | .createSlot => .updatePhase .slotCreated
  | .rewind => .updatePhase .dataCopied
  | .basebackup => .updatePhase .dataCopied
  | .configureStandby => .updatePhase .recoveryConfWritten
  | .start => .updatePhase .detachedStarted
  | .attachNode => .updatePhase .attached
  | call => call

namespace FollowSetup

variable (h : FollowSetup)

/-- What holds when the driver is about to make a call.  At the start the standby may be running
already, from a start that was not recorded. -/
structure Facts (site : FollowSite) (call : FollowCall) : Prop where
  onLadder : call.rank ≤ 15
  id : site.entry.id = h.opId
  payload : site.entry.payload = h.payload
  status : site.entry.status = .inProgress
  phase : site.entry.phase = call.recorded.name
  runs : call.rank ≤ 2 → site.running = true
  rests : 3 ≤ call.rank → call.rank ≤ 10 → site.running = false
  stopped : 3 ≤ call.rank → site.stopped = true
  synced : 8 ≤ call.rank → site.synced = true
  repointed : 10 ≤ call.rank → site.repointed = true
  follows : 11 ≤ call.rank → site.running = true → site.follows = true
  started : 12 ≤ call.rank → site.running = true

/-- The standby has been stopped, has the new primary's data, points at it, and runs as its
standby. -/
structure RePointed (site : FollowSite) : Prop where
  stopped : site.stopped = true
  synced : site.synced = true
  repointed : site.repointed = true
  running : site.running = true
  follows : site.follows = true

variable {h} {site : FollowSite}

/-- A call that succeeds does what is to hold at the following one. -/
theorem Facts.perform {call : FollowCall} (hf : h.Facts site call) (hladder : call.rank < 15)
    (now : UtcNanos) :
    h.Facts (site.perform call (.ok ()) now) call.following := by
  obtain ⟨-, hid, hpayload, hstatus, hphase, hruns, hrests, hstopped, hsynced, hrepointed,
    hfollows, hstarted⟩ := hf
  cases call with
  | updatePhase phase =>
    cases phase with
    | queued => exact absurd hladder (by simp [FollowCall.rank])
    | _ =>
      -- a fact that the call leaves alone, one of later calls only, or what the call has done
      constructor <;>
        first
        | assumption
        | exact fun hrank => absurd hrank (by decide)
        | simp_all [FollowCall.rank, FollowCall.following, FollowCall.recorded,
            FollowPhase.firstCall, FollowSite.perform, JournalCall.write]
  | dropSlot cause e => exact absurd hladder (by simp [FollowCall.rank])
  | queueCleanup cause dropError e => exact absurd hladder (by simp [FollowCall.rank])
  | abandon e => exact absurd hladder (by simp [FollowCall.rank])
  | complete => exact absurd hladder (by simp [FollowCall.rank])
  | dialDetached => exact absurd hladder (by simp [FollowCall.rank])
  | dialNewPrimary => exact absurd hladder (by simp [FollowCall.rank])
  | start =>
    cases hrunning : site.running <;>
      constructor <;>
        first
        | assumption
        | exact fun hrank => absurd hrank (by decide)
        | simp_all [FollowCall.rank, FollowCall.following, FollowCall.recorded, FollowSite.perform]
  | _ =>
    constructor <;>
      first
      | assumption
      | exact fun hrank => absurd hrank (by decide)
      | simp_all [FollowCall.rank, FollowCall.following, FollowCall.recorded, FollowSite.perform]

/-- A rewind that fails changes nothing. -/
theorem Facts.basebackup (hf : h.Facts site .rewind) : h.Facts site .basebackup :=
  ⟨by decide, hf.id, hf.payload, hf.status, hf.phase, by simp [FollowCall.rank],
    fun _ _ => hf.rests (by decide) (by decide), fun _ => hf.stopped (by decide),
    by simp [FollowCall.rank], by simp [FollowCall.rank], by simp [FollowCall.rank],
    by simp [FollowCall.rank]⟩

theorem Facts.complete (hf : h.Facts site .complete) (now : UtcNanos) :
    RePointed (site.perform .complete (.ok ()) now) := by
  have hrunning := hf.started (by decide)
  exact ⟨hf.stopped (by decide), hf.synced (by decide), hf.repointed (by decide), hrunning,
    hf.follows (by decide) hrunning⟩

/-- Where a stop is not left unrecorded, the site is also as it was when the recorded phase was
started. -/
theorem Facts.restart {call : FollowCall} (hf : h.Facts site call)
    (hstop : call ≠ .updatePhase .detachedStopped) :
    h.Facts site call.recorded.start.ahead := by
  obtain ⟨hladder, hid, hpayload, hstatus, hphase, hruns, hrests, hstopped, hsynced, hrepointed,
    hfollows, hstarted⟩ := hf
  cases call with
  | updatePhase phase =>
    cases phase with
    | queued => exact absurd hladder (by simp [FollowCall.rank])
    | detachedStopped => exact absurd rfl hstop
    | _ =>
      constructor <;>
        first
        | assumption
        | exact fun hrank => absurd hrank (by decide)
        | simp_all [FollowCall.rank, FollowCall.recorded, FollowPhase.firstCall, FollowPhase.start,
            FollowPosition.ahead]
  | dropSlot cause e => exact absurd hladder (by simp [FollowCall.rank])
  | queueCleanup cause dropError e => exact absurd hladder (by simp [FollowCall.rank])
  | abandon e => exact absurd hladder (by simp [FollowCall.rank])
  | dialDetached => exact absurd hladder (by simp [FollowCall.rank])
  | dialNewPrimary => exact absurd hladder (by simp [FollowCall.rank])
  | _ =>
    constructor <;>
      first
      | assumption
      | exact fun hrank => absurd hrank (by decide)
      | simp_all [FollowCall.rank, FollowCall.recorded, FollowPhase.firstCall, FollowPhase.start,
          FollowPosition.ahead]

/-! ## Deaths and resumptions -/

variable (h)

/-- What holds while the driver is under way. -/
def Alive (site : FollowSite) (pos : FollowPosition) : Prop :=
  h.Facts site pos.ahead ∧
    (pos.call = .updatePhase .dialing → pos.startPhase.firstCall = .getStatus)

/-- What holds when it is gone: the standby follows the new primary, or the entry can be driven
on. -/
def Gone (site : FollowSite) : Prop :=
  (site.entry.status = .done ∧ RePointed site) ∨
    ∃ phase : FollowPhase, site.entry.phase = phase.name ∧ h.Facts site phase.start.ahead

variable {h}

/-- A call that succeeds goes on to the following one. -/
theorem Facts.goes {call : FollowCall} (hf : h.Facts site call) (hladder : call.rank < 15)
    (startPhase : FollowPhase) (now : UtcNanos) :
    h.Alive (site.perform call (.ok ()) now) ⟨call.following, startPhase⟩ := by
  have hnext := hf.perform hladder now
  have hahead : (⟨call.following, startPhase⟩ : FollowPosition).ahead = call.following ∧
      call.following ≠ .updatePhase .dialing := by
    cases call with
    | updatePhase phase => cases phase <;> exact ⟨rfl, by simp [FollowCall.following,
        FollowPhase.firstCall]⟩
    | dialDetached => exact absurd hladder (by simp [FollowCall.rank])
    | dialNewPrimary => exact absurd hladder (by simp [FollowCall.rank])
    | _ => exact ⟨rfl, by simp [FollowCall.following]⟩
  refine ⟨?_, fun hcall => absurd hcall hahead.2⟩
  rw [hahead.1]
  exact hnext

/-- The calls of the ladder keep what holds. -/
theorem Alive.acts {pos : FollowPosition} (ha : h.Alive site pos) (input : FollowInput) :
    Holds h.Alive h.Gone ⟨(h.program.act site pos input).1,
      (h.program.act site pos input).2⟩ := by
  obtain ⟨hf, hqueued⟩ := ha
  obtain ⟨call, startPhase⟩ := pos
  cases call with
  | dialDetached => exact ⟨hf, fun hcall => by cases hcall⟩
  | dialNewPrimary =>
    cases startPhase with
    | _ => exact ⟨hf, fun hcall => by cases hcall⟩
  | getStatus =>
    dsimp only [FollowPosition.ahead] at hf
    -- the standby runs: nothing has been stopped yet
    have hrunning : site.running = true := hf.runs (by decide)
    have hact : h.program.act site ⟨.getStatus, startPhase⟩ input =
        (site.perform .getStatus (.ok ()) input.now, some ⟨.stop, startPhase⟩) := by
      simp [program, FollowOp.next, hrunning]
    rw [hact]
    exact hf.goes (by decide) startPhase input.now
  | rewind =>
    dsimp only [FollowPosition.ahead] at hf
    obtain ⟨outcome, now⟩ := input
    cases outcome with
    | ok u => exact hf.goes (by decide) startPhase now
    | error e => exact ⟨hf.basebackup, fun hcall => by cases hcall⟩
  | updatePhase phase =>
    dsimp only [FollowPosition.ahead] at hf
    cases phase with
    | queued => exact absurd hf.onLadder (by simp [FollowCall.rank])
    | dialing =>
      -- the dials lead to the first call of `queued`, which is that of `dialing`
      have hstart := (hf.goes (by decide) startPhase input.now).1
      refine ⟨?_, fun hcall => by cases hcall⟩
      show h.Facts _ startPhase.firstCall
      rw [hqueued rfl]
      exact hstart
    | _ => exact hf.goes (by decide) startPhase input.now
  | complete =>
    dsimp only [FollowPosition.ahead] at hf
    exact Or.inl ⟨rfl, hf.complete input.now⟩
  | dropSlot cause e => exact absurd hf.onLadder (by simp [FollowPosition.ahead, FollowCall.rank])
  | queueCleanup cause dropError e =>
    exact absurd hf.onLadder (by simp [FollowPosition.ahead, FollowCall.rank])
  | abandon e => exact absurd hf.onLadder (by simp [FollowPosition.ahead, FollowCall.rank])
  | _ =>
    dsimp only [FollowPosition.ahead] at hf
    exact hf.goes (by decide) startPhase input.now

/-- The driver must not die between the stop and its entry. -/
def StopRecorded (_ : FollowSite) (pos : FollowPosition) : Prop :=
  pos.call ≠ .updatePhase .detachedStopped

theorem Alive.gone {pos : FollowPosition} (ha : h.Alive site pos) (hstop : StopRecorded site pos) :
    h.Gone site := by
  have hahead : pos.ahead ≠ .updatePhase .detachedStopped := by
    unfold FollowPosition.ahead
    obtain ⟨call, startPhase⟩ := pos
    cases call with
    | dialDetached => cases startPhase <;> simp [FollowPhase.firstCall]
    | dialNewPrimary => cases startPhase <;> simp [FollowPhase.firstCall]
    | _ => exact hstop
  exact Or.inr ⟨_, ha.1.phase, ha.1.restart hahead⟩

theorem resume_of_done (hstatus : site.entry.status = .done) (p : ResumeProbes) :
    h.program.resume site p = none := by
  obtain ⟨reply, hreply⟩ := resumeInflightOp_of_not_inProgress h.pool p site.entry.id
    (fun hne => InflightStatus.noConfusion (hstatus.symm.trans hne))
  simp only [program, hreply]

/-- An entry in progress is resumed at its recorded phase. -/
theorem resume_eq {phase : FollowPhase} (hid : site.entry.id = h.opId)
    (hpayload : site.entry.payload = h.payload) (hstatus : site.entry.status = .inProgress)
    (hphase : site.entry.phase = phase.name) (p : ResumeProbes) :
    h.program.resume site p = some phase.start := by
  have hfollow : resumeFollowPrimary h.pool site.entry = .ok (h.op, phase.start) := by
    unfold resumeFollowPrimary
    rw [hpayload]
    simp only [payload]
    rw [hphase, FollowPhase.ofName_name, hid]
    simp only [recordedNode, h.detached_eq, h.newPrimary_eq, if_true, bind, Except.bind, op]
  have hne : site.entry.id ≠ "" := by
    rw [hid]
    exact h.opId_ne
  simp only [program]
  rw [resumeInflightOp_followPrimary h.pool p hne hstatus hpayload, hfollow]
  rfl

/-- Calls, deaths that leave no stop unrecorded, and resumptions keep what holds. -/
theorem keeps (h : FollowSetup) : Keeps h.program h.Alive h.Gone StopRecorded where
  acts site pos input ha := ha.acts input
  dies site pos ha hstop := ha.gone hstop
  resumes site p hgone := by
    rcases hgone with ⟨hdone, hrepointed⟩ | ⟨phase, hphase, hf⟩
    · rw [resume_of_done hdone]
      exact Or.inl ⟨hdone, hrepointed⟩
    · rw [resume_eq hf.id hf.payload hf.status hphase]
      refine ⟨hf, fun hcall => ?_⟩
      cases phase <;> first | rfl | cases hcall

/-! ## The runs of a re-pointing -/

variable (h)

/-- A re-pointing that has just been begun, of a standby that runs. -/
def begun (now : UtcNanos) : State FollowSite FollowPosition where
  world :=
    { entry :=
        { id := h.opId
          status := .inProgress
          payload := h.payload
          phase := FollowPhase.queued.name
          startedAt := now
          updatedAt := now
          completedAt := none
          dischargedAt := none
          lastError := none }
      running := true
      slot := false
      stopped := false
      synced := false
      repointed := false
      follows := false }
  driver := some FollowPhase.queued.start

theorem holds_begun (now : UtcNanos) : Holds h.Alive h.Gone (h.begun now) := by
  refine ⟨⟨by decide, rfl, rfl, rfl, rfl, fun _ => rfl, ?_, ?_, ?_, ?_, ?_, ?_⟩,
    fun _ => rfl⟩
  -- the others are about later calls
  all_goals
    intro hrank
    exact absurd hrank (by decide)

/-- Along the run, an entry that is done stands for a standby that follows the new primary. -/
def DoneIsDone (now : UtcNanos) (u : ℕ → Event FollowInput ResumeProbes) : Prop :=
  ∀ k, (stateAt h.program (h.begun now) u k).world.entry.status = .done →
    RePointed (stateAt h.program (h.begun now) u k).world

/-- A re-pointing that is done **has stopped the standby, copied the data, pointed the standby at
the new primary and started it, in every run in which no process dies between the stop and its
entry in the journal**. -/
theorem doneIsDone_of_stopRecorded (h : FollowSetup) (now : UtcNanos)
    (u : ℕ → Event FollowInput ResumeProbes)
    (hu : ∀ k, Spares StopRecorded (stateAt h.program (h.begun now) u k) (u k)) :
    h.DoneIsDone now u := by
  intro k hdone
  have hholds := holds_stateAt h.keeps (h.holds_begun now) hu k
  unfold Holds at hholds
  split at hholds
  · rw [hholds.1.status] at hdone
    cases hdone
  · rcases hholds with ⟨-, hrepointed⟩ | ⟨phase, -, hf⟩
    · exact hrepointed
    · rw [hf.status] at hdone
      cases hdone

/-! ### Deaths of one re-pointing -/

/-- Node `2` follows node `1`. -/
def trioSetup : FollowSetup where
  pool := ⟨[⟨0, "db0"⟩, ⟨1, "db1"⟩, ⟨2, "db2"⟩], 0⟩
  detached := ⟨2, "db2"⟩
  newPrimary := ⟨1, "db1"⟩
  opId := "0-follow_primary-0"
  detached_eq := rfl
  newPrimary_eq := rfl
  opId_ne := by decide

/-- What the operator's requests find; nothing of it is asked. -/
def anyProbes : ResumeProbes where
  client := .ok ()
  targetStatus := .error "not asked"
  statusPostgres := .ok true
  isInRecovery := .ok true

/-- The driver calls on; the process dies before call `n`, and the entry is resumed. -/
def diesBefore (n : ℕ) : ℕ → Event FollowInput ResumeProbes := fun k =>
  if k = n then .dies else if k = n + 1 then .resumes anyProbes else .acts ⟨.ok (), 0⟩

/-- The process dies right after the stop has been recorded. -/
theorem doneIsDone_stopRecorded : trioSetup.DoneIsDone 0 (diesBefore 6) := by
  refine doneIsDone_of_stopRecorded trioSetup 0 (diesBefore 6) fun k => ?_
  by_cases hk : k = 6
  · subst hk
    intro pos hpos
    have hat : (stateAt trioSetup.program (trioSetup.begun 0) (diesBefore 6) 6).driver =
        some ⟨.createSlot, .queued⟩ := by decide
    rw [hat] at hpos
    obtain rfl := Option.some.inj hpos
    intro hcall
    cases hcall
  · unfold diesBefore
    rw [if_neg hk]
    split
    · trivial
    · trivial

/-- The process dies right after the stop, before that is recorded: the entry is completed with
the standby stopped. -/
theorem stopUnrecorded_done :
    (stateAt trioSetup.program (trioSetup.begun 0) (diesBefore 5) 5).driver =
        some ⟨.updatePhase .detachedStopped, .queued⟩ ∧
      (stateAt trioSetup.program (trioSetup.begun 0) (diesBefore 5) 11).world.running = false ∧
      ¬ trioSetup.DoneIsDone 0 (diesBefore 5) := by
  have hstopped : (stateAt trioSetup.program (trioSetup.begun 0) (diesBefore 5) 11).world.running =
      false := by decide
  refine ⟨by decide, hstopped, fun hdone => ?_⟩
  have hrepointed := hdone 11 (by decide)
  rw [hrepointed.running] at hstopped
  cases hstopped

end FollowSetup

end PgAgent
