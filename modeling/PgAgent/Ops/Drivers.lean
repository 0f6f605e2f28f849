import PgAgent.Library.Resumable
import PgAgent.Ops.Resume

/-!
# The drivers of one operation

An operation is driven by the request that has begun it: `cluster_handoff` itself, or a task
that `fan_out_follow_primary` has spawned.  `resume_inflight_op` drives it too, as often as
it is asked to.  A request reads the entry, looks at the cluster, and goes on where the entry
says; all of this is interleaved with the calls of the drivers that are under way, and with
other requests.

Nothing tells a request that the operation has a driver.  It asks for an entry that is in
progress, and the entry of a running driver is.

* `admitted_iff` --- what a request asks for;
* `oneDriver_iff` --- there is one driver at a time exactly when no request that is admitted
  comes to its decision beside a driver.
-/

namespace PgAgent

open Resumable

/-! ## What a request asks for -/

/-- The pool still has the node, under its recorded name. -/
def Recorded (pool : NodePool) (id : NodeId) (hostname : String) (n : NodeConfig) : Prop :=
  pool.nodeById id = .ok n ∧ n.hostname = hostname

/-- The requests that are admitted, by the entry they read and by what they find: the entry is in
progress, the pool still has its nodes, and for a handoff the cluster is as the recorded phase
implies. -/
def Admitted (pool : NodePool) (op : InflightOp) (p : ResumeProbes) : Prop :=
  op.status = .inProgress ∧
    match op.payload with
    | .handoff fromNodeId toNodeId toHostname _ _ =>
        ∃ localNode target phase, pool.localNode = .ok localNode ∧ localNode.id = fromNodeId ∧
          Recorded pool toNodeId toHostname target ∧ p.client = .ok () ∧
          HandoffPhase.ofName op.phase = some phase ∧
          verifyHandoffState (some phase) target p = .ok none
    | .followPrimary detachedNodeId detachedHostname newPrimaryNodeId newPrimaryHostname =>
        ∃ detached newPrimary, Recorded pool detachedNodeId detachedHostname detached ∧
          Recorded pool newPrimaryNodeId newPrimaryHostname newPrimary
    | _ => False

theorem resumeHandoff_ok_iff {pool : NodePool} {op : InflightOp} {p : ResumeProbes}
    {fromNodeId toNodeId : NodeId} {toHostname slotName : String} {allowLag : Bool}
    (hpayload : op.payload = .handoff fromNodeId toNodeId toHostname slotName allowLag) :
    (∃ r, resumeHandoff pool op p = .ok r) ↔
      ∃ localNode target phase, pool.localNode = .ok localNode ∧ localNode.id = fromNodeId ∧
        Recorded pool toNodeId toHostname target ∧ p.client = .ok () ∧
        HandoffPhase.ofName op.phase = some phase ∧
        verifyHandoffState (some phase) target p = .ok none := by
  unfold resumeHandoff Recorded
  rw [hpayload]
  simp only [bind_eq_ok_iff, internally_eq_ok_iff, mapError_eq_ok_iff, requires_eq_ok_iff,
    answering_eq_ok_iff, recordedNode_eq_ok_iff, beq_iff_eq, Option.map_eq_none_iff]
  constructor
  · rintro ⟨r, localNode, hlocal, _, hfrom, target, htarget, _, hclient, diverged, hverify, _,
      rfl, hphase⟩
    cases hname : HandoffPhase.ofName op.phase with
    | none =>
      rw [hname] at hphase
      cases hphase
    | some phase =>
      rw [hname] at hverify
      exact ⟨localNode, target, phase, hlocal, hfrom, htarget, hclient, rfl, hverify⟩
  · rintro ⟨localNode, target, phase, hlocal, hfrom, htarget, hclient, hname, hverify⟩
    refine ⟨(⟨op.id, localNode, target, slotName⟩, phase), localNode, hlocal, (),
      hfrom, target,
      htarget, (), hclient, none, ?_, (), rfl, ?_⟩
    · rw [hname]
      exact hverify
    · rw [hname]

theorem resumeFollowPrimary_ok_iff {pool : NodePool} {op : InflightOp}
    {detachedNodeId newPrimaryNodeId : NodeId} {detachedHostname newPrimaryHostname : String}
    (hpayload : op.payload =
      .followPrimary detachedNodeId detachedHostname newPrimaryNodeId newPrimaryHostname) :
    (∃ r, resumeFollowPrimary pool op = .ok r) ↔
      ∃ detached newPrimary, Recorded pool detachedNodeId detachedHostname detached ∧
        Recorded pool newPrimaryNodeId newPrimaryHostname newPrimary := by
  unfold resumeFollowPrimary Recorded
  rw [hpayload]
  simp only [bind_eq_ok_iff, recordedNode_eq_ok_iff]
  constructor
  · rintro ⟨r, detached, hdetached, newPrimary, hnewPrimary, -⟩
    exact ⟨detached, newPrimary, hdetached, hnewPrimary⟩
  · rintro ⟨detached, newPrimary, hdetached, hnewPrimary⟩
    exact ⟨_, detached, hdetached, newPrimary, hnewPrimary, rfl⟩

/-- `resume_inflight_op` starts a driver exactly for the requests that are admitted. -/
theorem admitted_iff {pool : NodePool} {id : String} (hid : id ≠ "") (op : InflightOp)
    (p : ResumeProbes) :
    (∃ driver, resumeInflightOp pool id (.ok op) p = .ok driver) ↔ Admitted pool op p := by
  unfold Admitted
  by_cases hstatus : op.status = .inProgress
  · simp only [hstatus, true_and]
    cases hpayload : op.payload with
    | handoff fromNodeId toNodeId toHostname slotName allowLag =>
      rw [resumeInflightOp_handoff pool p hid hstatus hpayload, map_eq_ok_iff]
      exact resumeHandoff_ok_iff hpayload
    | followPrimary detachedNodeId detachedHostname newPrimaryNodeId newPrimaryHostname =>
      rw [resumeInflightOp_followPrimary pool p hid hstatus hpayload, map_eq_ok_iff]
      exact resumeFollowPrimary_ok_iff hpayload
    | _ => simp [resumeInflightOp, hid, hstatus, hpayload]
  · obtain ⟨reply, hreply⟩ := resumeInflightOp_of_not_inProgress pool p id hstatus
    rw [hreply]
    simp [hstatus]

/-! ## The tasks of an operation -/

/-- A driver under way: its operation, and the call it makes next. -/
inductive OpDriver where
  | handoff (op : HandoffOp) (pos : LadderPosition)
  | follow (op : FollowOp) (pos : FollowPosition)
  deriving DecidableEq, Repr

/-- Where a resumption goes on. -/
def ResumedDriver.driver : ResumedDriver → OpDriver
  | handoff op phase => .handoff op phase.start
  | follow op pos => .follow op pos

/-- A driver, or a request that has read the entry and has not decided yet. -/
inductive OpTask where
  | asking (read : Except String InflightOp)
  | driving (driver : OpDriver)

def OpTask.drives : OpTask → Bool
  | asking _ => false
  | driving _ => true

/-- What the world answers: the outcome of a driver's call and, for the status of a standby,
whether it runs; or what a request finds. -/
structure OpInput where
  outcome : Except String Unit
  running : Bool
  probes : ResumeProbes
  now : UtcNanos

/-- What a call of a handoff asks of the journal. -/
def HandoffCall.journalCall : HandoffCall → Option JournalCall
  | .updatePhase phase => some (.updatePhase phase.name none)
  | .abandon e => some (.abandon ("rewind+basebackup both failed: " ++ e))
  | .complete => some .complete
  | _ => none

/-- What a call of a re-pointing asks of the journal. -/
def FollowCall.journalCall : FollowCall → Option JournalCall
  | .updatePhase phase => some (.updatePhase phase.name none)
  | .abandon e => some (.abandon e)
  | .complete => some .complete
  | _ => none

/-- What a call leaves of the entry, and its outcome.  The journal answers for its own calls as far
as the entry decides. -/
def attempt (entry : Except String InflightOp) (call : Option JournalCall)
    (outcome : Except String Unit) (now : UtcNanos) :
    Except String InflightOp × Except String Unit :=
  match call, entry with
  | none, _ => (entry, outcome)
  | some _, .error e => (entry, .error e)
  | some call, .ok op =>
      match call.stops op, outcome with
      | some answer, _ => (entry, answer)
      | none, .error e => (entry, .error e)
      | none, .ok _ => (.ok (call.write op now), .ok ())

/-- The next call of a driver. -/
def OpDriver.act (entry : Except String InflightOp) (driver : OpDriver) (input : OpInput) :
    Except String InflightOp × Option OpDriver :=
  match driver with
  | handoff op pos =>
      let (entry, outcome) := attempt entry pos.call.journalCall input.outcome input.now
      match op.next pos outcome with
      | .inl pos => (entry, some (.handoff op pos))
      | .inr _ => (entry, none)
  | follow op pos =>
      let (entry, outcome) := attempt entry pos.call.journalCall input.outcome input.now
      match op.next pos input.running outcome with
      | .inl pos => (entry, some (.follow op pos))
      | .inr _ => (entry, none)

/-- The tasks of the operation `id`.  The world is what the journal has for it. -/
def opProgram (pool : NodePool) (id : String) :
    Program (Except String InflightOp) OpTask OpInput Unit where
  act entry task input :=
    match task with
    | .asking read =>
        match resumeInflightOp pool id read input.probes with
        | .ok resumed => (entry, some (.driving resumed.driver))
        | .error _ => (entry, none)
    | .driving driver =>
        let (entry, driver) := driver.act entry input
        (entry, driver.map .driving)
  resume entry _ := some (.asking entry)

/-! ## One driver at a time -/

/-- The tasks when a driver has been started. -/
def soleDriver (entry : Except String InflightOp) (driver : OpDriver) :
    Crew (Except String InflightOp) OpTask :=
  ⟨entry, [.driving driver]⟩

/-- The run never has two drivers of the operation under way. -/
def OneDriver (pool : NodePool) (id : String) (entry : Except String InflightOp)
    (driver : OpDriver) (u : ℕ → CrewEvent (Except String InflightOp) OpInput Unit) : Prop :=
  ∀ k, AtMostOne OpTask.drives (crewAt (opProgram pool id) (soleDriver entry driver) u k)

/-- The event is no decision about an admitted request, or there is no driver. -/
def Unattended (pool : NodePool) (s : Crew (Except String InflightOp) OpTask) :
    CrewEvent (Except String InflightOp) OpInput Unit → Prop
  | .acts i input => ∀ op, s.tasks[i]? = some (.asking (.ok op)) →
      Admitted pool op input.probes → ∀ task ∈ s.tasks, task.drives = false
  | _ => True

/-- A decision starts a driver exactly if the request is admitted. -/
theorem starts_acts_iff {pool : NodePool} {id : String} (hid : id ≠ "")
    (s : Crew (Except String InflightOp) OpTask) (i : ℕ) (input : OpInput) :
    Starts (opProgram pool id) OpTask.drives s (.acts i input) ↔
      ∃ op, s.tasks[i]? = some (.asking (.ok op)) ∧ Admitted pool op input.probes := by
  constructor
  · rintro ⟨task, task', htask, hasks, hact, -⟩
    cases task with
    | driving driver => cases hasks
    | asking read =>
      cases read with
      | error e =>
        simp only [opProgram, resumeInflightOp, if_neg hid] at hact
        cases hact
      | ok op =>
        refine ⟨op, htask, (admitted_iff hid op input.probes).mp ?_⟩
        cases hresume : resumeInflightOp pool id (.ok op) input.probes with
        | ok resumed => exact ⟨resumed, rfl⟩
        | error reply =>
          simp only [opProgram, hresume] at hact
          cases hact
  · rintro ⟨op, htask, hadmitted⟩
    obtain ⟨resumed, hresume⟩ := (admitted_iff hid op input.probes).mpr hadmitted
    refine ⟨_, .driving resumed.driver, htask, rfl, ?_, rfl⟩
    simp only [opProgram, hresume]

theorem waits_iff {pool : NodePool} {id : String} (hid : id ≠ "")
    (s : Crew (Except String InflightOp) OpTask)
    (e : CrewEvent (Except String InflightOp) OpInput Unit) :
    Waits (opProgram pool id) OpTask.drives s e ↔ Unattended pool s e := by
  cases e with
  | acts i input =>
    unfold Waits
    rw [starts_acts_iff hid]
    constructor
    · intro h op htask hadmitted
      exact h ⟨op, htask, hadmitted⟩
    · rintro h ⟨op, htask, hadmitted⟩
      exact h op htask hadmitted
  | resumes request =>
    -- a request has to decide first
    refine iff_of_true ?_ trivial
    rintro ⟨task, htask, hdrives⟩
    obtain rfl := Option.some.inj htask
    cases hdrives
  | leaves i => exact iff_of_true (fun hstarts => hstarts.elim) trivial
  | dies => exact iff_of_true (fun hstarts => hstarts.elim) trivial
  | elapses entry => exact iff_of_true (fun hstarts => hstarts.elim) trivial

/-- There is one driver of an operation at a time **exactly when no request to resume it that reads
an entry in progress, of nodes that the pool still has and in the state of the cluster that the
recorded phase implies, comes to its decision while a driver is under way**. -/
theorem oneDriver_iff (pool : NodePool) {id : String} (hid : id ≠ "")
    (entry : Except String InflightOp) (driver : OpDriver)
    (u : ℕ → CrewEvent (Except String InflightOp) OpInput Unit) :
    OneDriver pool id entry driver u ↔
      ∀ k, Unattended pool (crewAt (opProgram pool id) (soleDriver entry driver) u k) (u k) := by
  have hsole : AtMostOne OpTask.drives (soleDriver entry driver) := Nat.le_refl 1
  unfold OneDriver
  rw [atMostOne_iff hsole]
  exact forall_congr' fun k => waits_iff hid _ _

/-! ### Requests for one re-pointing -/

/-- Node `2` is to follow node `1`. -/
def trioPool : NodePool := ⟨[⟨0, "db0"⟩, ⟨1, "db1"⟩, ⟨2, "db2"⟩], 0⟩

def trioFollow : FollowOp := ⟨"0-follow_primary-0", ⟨2, "db2"⟩, ⟨1, "db1"⟩⟩

/-- The entry that has been begun for it. -/
def trioEntry : InflightOp where
  id := trioFollow.opId
  status := .inProgress
  payload := .followPrimary 2 "db2" 1 "db1"
  phase := FollowPhase.queued.name
  startedAt := 0
  updatedAt := 0
  completedAt := none
  dischargedAt := none
  lastError := none

/-- All calls succeed, and the standby runs. -/
def fairInput : OpInput where
  outcome := .ok ()
  running := true
  probes := ⟨.ok (), .error "not asked", .ok true, .ok true⟩
  now := 0

/-- The process dies, and the entry is resumed. -/
def resumedAfterDeath : ℕ → CrewEvent (Except String InflightOp) OpInput Unit
  | 1 => .resumes ()
  | 2 => .acts 0 fairInput
  | _ => .dies

theorem oneDriver_resumedAfterDeath :
    OneDriver trioPool trioFollow.opId (.ok trioEntry) (.follow trioFollow FollowPhase.queued.start)
      resumedAfterDeath := by
  refine (oneDriver_iff trioPool (by decide) _ _ _).mpr fun k => ?_
  match k with
  | 0 => trivial
  | 1 => trivial
  | 2 =>
    intro op _ _ task htask
    obtain rfl := List.mem_singleton.mp htask
    rfl
  | _ + 3 => trivial

/-- The driver comes to the rewind; the entry is resumed then, and the second driver goes on. -/
def resumedAtRewind : ℕ → CrewEvent (Except String InflightOp) OpInput Unit := fun k =>
  if k < 8 then .acts 0 fairInput else if k = 8 then .resumes () else .acts 1 fairInput

/-- Both drivers are about to rewind the standby. -/
theorem rewind_twice :
    (crewAt (opProgram trioPool trioFollow.opId)
        (soleDriver (.ok trioEntry) (.follow trioFollow FollowPhase.queued.start))
        resumedAtRewind 12).tasks =
      [.driving (.follow trioFollow ⟨.rewind, .queued⟩),
        .driving (.follow trioFollow ⟨.rewind, .slotCreated⟩)] ∧
      ¬ OneDriver trioPool trioFollow.opId (.ok trioEntry)
        (.follow trioFollow FollowPhase.queued.start) resumedAtRewind := by
  have htasks : (crewAt (opProgram trioPool trioFollow.opId)
      (soleDriver (.ok trioEntry) (.follow trioFollow FollowPhase.queued.start))
      resumedAtRewind 12).tasks =
    [.driving (.follow trioFollow ⟨.rewind, .queued⟩),
      .driving (.follow trioFollow ⟨.rewind, .slotCreated⟩)] := rfl
  refine ⟨htasks, fun hone => ?_⟩
  have hcount := hone 12
  unfold AtMostOne at hcount
  rw [htasks] at hcount
  exact absurd hcount (by decide)

end PgAgent
