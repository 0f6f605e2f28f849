import PgAgent.Library.Tasks
import PgAgent.Ops.FollowPrimary
import PgAgent.Ops.Rebuild

/-!
# The tasks that drop slots

One agent, its journal, its maintenance queue and the slots of its PostgreSQL, and the tasks that
work on them side by side:

* the rebuilds of `Ops.Rebuild`, which drop the slot they have created when they fail;
* the drivers that `fan_out_follow_primary` spawns, whose slot is on another node;
* the `failover` hook, the maintenance worker and `drop_slot` of `peerserver.rs`, which look for
  an owner of the slot first and drop it in a later call.

Each call is one step; a call of the journal or of the queue is taken as a whole here.  The
`failover` hook and the worker were modelled in one piece before, and `failover_alone` and
`sweep_alone` say that the pieces make up that whole.
-/

namespace PgAgent

open Compensation

/-! ## The agent -/

/-- Why the worker marks an intent as done: the slots after the drop do not have the slot, the peer
has dropped it, the peer has answered `ok` and kept it, or an orchestration owns it. -/
inductive DischargeReason where
  | dropped (slots : List String)
  | droppedByPeer
  | keptByPeer
  | owned (owner : InflightOp)
  deriving DecidableEq, Repr

/-- An intent that has been marked as done. -/
structure Discharge where
  intent : MaintenanceIntent
  reason : DischargeReason
  deriving DecidableEq, Repr

/-- The agent's world; beside it, which operation's failure has queued which intent, and which
intents have been marked as done. -/
structure SlotWorld where
  hook : HookState
  queuedBy : List (String × String)
  discharged : List Discharge

namespace HookState

/-- A call of the queue on one of its intents, and whether it was written. -/
def recordIntent (s : HookState) (id : String) (call : MaintenanceCall) (now : UtcNanos)
    (written : Except String Unit) : HookState × Bool :=
  match s.queue.find? fun i => i.id == id with
  | none => (s, false)
  | some intent =>
      if call.stops intent then (s, false)
      else match written with
        | .error _ => (s, false)
        | .ok _ =>
            ({ s with queue := s.queue.filter (fun i => i.id != id) ++ [call.write intent now] },
              true)

end HookState

namespace SlotWorld

/-- What is known about the queue after an append by a task; one that has no entry in the journal
leaves no name. -/
def queuedAfter (w : SlotWorld) (opId : String) (payload : MaintenancePayload) (now : UtcNanos)
    (outcome : Except String Unit) : List (String × String) :=
  match outcome with
  | .ok _ =>
      if opId = "" then w.queuedBy
      else ((MaintenanceIntent.append payload now w.hook.queueSeq).id, opId) :: w.queuedBy
  | .error _ => w.queuedBy

/-- An append to the queue by an operation that gives up. -/
def appendBy (w : SlotWorld) (opId : String) (payload : MaintenancePayload) (now : UtcNanos)
    (outcome : Except String Unit) : SlotWorld :=
  { w with
    hook := w.hook.append payload now outcome
    queuedBy := w.queuedAfter opId payload now outcome }

end SlotWorld

/-! ## The tasks -/

inductive FailoverAt where
  | consulting
  | checking
  | dropping
  | queueing (dropErr : String)
  | marking (message : String)
  deriving DecidableEq, Repr

inductive SweepAt where
  | consulting (node : NodeConfig)
  | dropping (node : NodeConfig)
  | recording (call : MaintenanceCall) (reason : Option DischargeReason)
  deriving DecidableEq, Repr

inductive PeerDropAt where
  | consulting
  | dropping
  deriving DecidableEq, Repr

inductive SlotTask where
  | rebuild (r : Rebuild) (pos : RebuildAt) (opId : String)
  | fanOut (detached newPrimary : NodeConfig)
  | follow (op : FollowOp) (pos : FollowPosition)
  | failover (key : String) (detached oldPrimary : NodeConfig) (at' : FailoverAt)
  | sweep (intent : MaintenanceIntent) (at' : SweepAt)
  | peerDrop (slotName : String) (at' : PeerDropAt)
  deriving DecidableEq, Repr

/-- What a call of the worker meets. -/
structure SweepInput where
  consult : SlotConsult
  client : Except String Unit
  drop : Except String Unit
  timedOut : Bool
  retained : Bool
  now : UtcNanos
  written : Except String Unit

/-- What the worker consults with: of a slot on another node it has no evidence. -/
def SweepInput.consultFor (pool : NodePool) (node : NodeConfig) (input : SweepInput) :
    SlotConsult :=
  if pool.isLocal node then input.consult else { input.consult with slotActive := .ok false }

/-- What a call meets, by the task that makes it. -/
inductive SlotInput where
  | rebuild (input : RebuildInput)
  | failover (p : FailoverProbes)
  | sweep (input : SweepInput)
  | peerDrop (consult : SlotConsult) (drop : Except String Unit)

/-- A rebuild of `Ops.Rebuild`. -/
def actRebuild (digest : String → String) (w : SlotWorld) (r : Rebuild) (pos : RebuildAt)
    (opId : String) (input : RebuildInput) : SlotWorld × Option SlotTask :=
  let (after, answer) := (r.site digest).perform ⟨w.hook, opId⟩ pos input
  let queuedBy := match pos with
    | .deferring stage _ dropErr =>
        w.queuedAfter opId
          (.dropSlotCleanup r.slotName r.primary.hostname (r.cause stage) dropErr) input.now
          input.outcome
    | _ => w.queuedBy
  ({ w with hook := after.hook, queuedBy := queuedBy },
    match pos.next r.journaled answer with
    | .inl pos' => some (.rebuild r pos' after.opId)
    | .inr _ => none)

/-- `fan_out_follow_primary` begins the entry of a standby and spawns its driver. -/
def actFanOut (w : SlotWorld) (detached newPrimary : NodeConfig) (input : RebuildInput) :
    SlotWorld × Option SlotTask :=
  let payload := InflightPayload.followPrimary detached.id detached.hostname newPrimary.id
    newPrimary.hostname
  match w.hook.journal.begin payload FollowPhase.queued.name false input.now input.outcome with
  | (journal, .ok op) =>
      ({ w with hook := { w.hook with journal := journal } },
        some (.follow ⟨op.id, detached, newPrimary⟩ FollowPhase.queued.start))
  | (journal, .error _) => ({ w with hook := { w.hook with journal := journal } }, none)

/-- A driver that `fan_out_follow_primary` has spawned. -/
def actFollow (w : SlotWorld) (op : FollowOp) (pos : FollowPosition) (input : RebuildInput) :
    SlotWorld × Option SlotTask :=
  let journaled (call : JournalCall) : SlotWorld × Except String Unit :=
    let (journal, answer) := w.hook.journal.change op.opId call input.now input.outcome
    ({ w with hook := { w.hook with journal := journal } }, answer)
  let (w', answer) : SlotWorld × Except String Unit := match pos.call with
    | .updatePhase phase => journaled (.updatePhase phase.name none)
    | .complete => journaled .complete
    | .abandon reason => journaled (.abandon reason)
    | .queueCleanup cause dropError _ =>
        (w.appendBy op.opId
          (.dropSlotCleanup op.detached.slotName op.newPrimary.hostname cause dropError) input.now
          input.outcome, input.outcome)
    | _ => (w, input.outcome)
  (w', (op.next pos input.running answer).getLeft?.map fun pos' => .follow op pos')

/-- The consult of a query that observes. -/
def SlotWorld.consult (w : SlotWorld) (slotName : String) (c : SlotConsult) :
    Option InflightOp × SlotWorld :=
  let (owner, journal) := ownerOfSlotObserving w.hook.journal slotName crossOpGrace c
  (owner, { w with hook := { w.hook with journal := journal } })

/-- The `failover` hook, for a standby that is down. -/
def actFailover (digest : String → String) (w : SlotWorld) (key : String)
    (detached oldPrimary : NodeConfig) (at' : FailoverAt) (p : FailoverProbes) :
    SlotWorld × Option SlotTask :=
  let goto (at' : FailoverAt) : Option SlotTask := some (.failover key detached oldPrimary at')
  match at' with
  | .consulting =>
      match w.consult ("node" ++ toString detached.id) p.consult with
      | (some owner, w) =>
          (w, goto (.marking ("standby failover: slot " ++ detached.slotName ++
            " retained — in-flight " ++ owner.payload.opName ++ " (id=" ++
              owner.id ++ ", phase=" ++
            owner.phase ++ ") owns node " ++ toString detached.id)))
      | (none, w) => (w, goto .checking)
  | .checking =>
      match preconditionRefusal detached p with
      | some _ => (w, none)
      | none => (w, goto .dropping)
  | .dropping =>
      match p.drop with
      | .ok _ =>
          ({ w with hook := w.hook.removeSlot detached.slotName },
            goto (.marking ("standby failover: slot " ++ detached.slotName ++ " dropped")))
      | .error e => (w, goto (.queueing e))
  | .queueing dropErr =>
      let (hook, message) := w.hook.queueDropSlotCleanup detached.slotName oldPrimary.hostname
        "standby_down_local_drop_error" dropErr p
      ({ w with hook := hook }, goto (.marking message))
  | .marking message =>
      ({ w with hook := (w.hook.writeReplayMarkerThenOk digest "failover" key message p).1 }, none)

/-- The worker, with one intent. -/
def actSweep (pool : NodePool) (w : SlotWorld) (intent : MaintenanceIntent) (at' : SweepAt)
    (input : SweepInput) : SlotWorld × Option SlotTask :=
  let slotName := intent.payload.slotName
  match at' with
  | .consulting node =>
      match w.consult slotName (input.consultFor pool node) with
      | (some owner, w) => (w, some (.sweep intent (.recording .markDone (some (.owned owner)))))
      | (none, w) => (w, some (.sweep intent (.dropping node)))
  | .dropping node =>
      let p : DropProbes := ⟨none, input.client, input.drop, input.timedOut⟩
      let call := (processDropSlot pool intent p input.now).1
      match dropOutcome pool node slotName intent.payload.targetHostname p with
      | .error _ => (w, some (.sweep intent (.recording call none)))
      | .ok _ =>
          if pool.isLocal node then
            let hook := w.hook.removeSlot slotName
            ({ w with hook := hook },
              some (.sweep intent (.recording call (some (.dropped hook.slots)))))
          else
            (w, some (.sweep intent (.recording call
              (some (if input.retained then .keptByPeer else .droppedByPeer)))))
  | .recording call reason =>
      let (hook, written) := w.hook.recordIntent intent.id call input.now input.written
      ({ w with
          hook := hook
          discharged := match reason with
            | some reason => if written then ⟨intent, reason⟩ :: w.discharged else w.discharged
            | none => w.discharged },
        none)

/-- `drop_slot` of `peerserver.rs`. -/
def actPeerDrop (w : SlotWorld) (slotName : String) (at' : PeerDropAt) (c : SlotConsult)
    (drop : Except String Unit) : SlotWorld × Option SlotTask :=
  match at' with
  | .consulting =>
      match w.consult slotName c with
      | (some _, w) => (w, none)
      | (none, w) => (w, some (.peerDrop slotName .dropping))
  | .dropping =>
      match drop with
      | .ok _ => ({ w with hook := w.hook.removeSlot slotName }, none)
      | .error _ => (w, none)

/-- A call of a task; an input that is not for the task is no call. -/
def SlotTask.act (digest : String → String) (pool : NodePool) (w : SlotWorld) (task : SlotTask)
    (input : SlotInput) : SlotWorld × Option SlotTask :=
  match task, input with
  | .rebuild r pos opId, .rebuild input => actRebuild digest w r pos opId input
  | .fanOut detached newPrimary, .rebuild input => actFanOut w detached newPrimary input
  | .follow op pos, .rebuild input => actFollow w op pos input
  | .failover key detached oldPrimary at', .failover p =>
      actFailover digest w key detached oldPrimary at' p
  | .sweep intent at', .sweep input => actSweep pool w intent at' input
  | .peerDrop slotName at', .peerDrop c drop => actPeerDrop w slotName at' c drop
  | task, _ => (w, some task)

/-! ## How they start, and what else happens -/

/-- `failover` up to the consult of the journal: the nodes of a report that is about a standby. -/
def failoverAdmit (digest : String → String) (pool : NodePool) (s : HookState)
    (r : FailoverReport) (lookup : Except String Unit) : Option (NodeConfig × NodeConfig) :=
  if r.newMain.id = -1 then none
  else if r.detached.id = r.oldPrimary.id then none
  else match lookup with
    | .error _ => none
    | .ok _ =>
        if hasMarker digest s.markers "failover" r.replayKey then none
        else match HookState.resolveFor pool "detached" r.detached,
            HookState.resolveFor pool "new_main" r.newMain,
            HookState.resolveFor pool "old_primary" r.oldPrimary with
          | .ok detached, .ok _, .ok oldPrimary => some (detached, oldPrimary)
          | _, _, _ => none

/-- `validate_slot_name`. -/
def validSlotName (name : String) : Bool :=
  name != "" && name.toList.all fun c => c.isAlphanum || c == '_' || c == '.' || c == '-'

/-- The worker takes up an intent that is due; one whose host is not in the pool has failed. -/
def sweepStart (pool : NodePool) (w : SlotWorld) (id : String) (now : UtcNanos) : Option SlotTask :=
  match w.hook.queue.find? fun i => i.id == id with
  | none => none
  | some intent =>
      if intent.status = .pending ∧ intent.due now = true then
        match pool.nodeByHostname intent.payload.targetHostname with
        | .ok node => some (.sweep intent (.consulting node))
        | .error e =>
            some (.sweep intent (.recording
              (recordFailure intent ("resolve target host " ++
                debugStr intent.payload.targetHostname ++ ": " ++ e.display) now) none))
      else none

/-- What starts a task.  Of a request for several rebuilds each is a task of its own. -/
inductive SlotRequest where
  | rebuild (req : RebuildRequest) (p : RebuildProbes) (r : Rebuild)
  | fanOut (localNode newPrimary member : NodeConfig)
  | failover (r : FailoverReport) (lookup : Except String Unit)
  | sweep (id : String) (now : UtcNanos)
  | peerDrop (slotName : String)

def SlotRequest.start (digest : String → String) (pool : NodePool) (w : SlotWorld) :
    SlotRequest → Option SlotTask
  | .rebuild req p r =>
      match req.admitted digest pool w.hook p with
      | .ok rs => if r ∈ rs then some (.rebuild r r.first "") else none
      | .error _ => none
  | .fanOut localNode newPrimary member =>
      if member ∈ followers pool localNode newPrimary then
        some (.fanOut member newPrimary) else none
  | .failover r lookup =>
      (failoverAdmit digest pool w.hook r lookup).map fun nodes =>
        .failover r.replayKey nodes.1 nodes.2 .consulting
  | .sweep id now => sweepStart pool w id now
  | .peerDrop slotName =>
      if validSlotName slotName then some (.peerDrop slotName .consulting) else none

namespace InflightPayload

/-- The orchestrations that rebuild a standby. -/
def rebuilds : InflightPayload → Bool
  | recovery _ _ _ _ => true
  | followPrimary _ _ _ _ => true
  | _ => false

end InflightPayload

/-- What the rest of the agent, and its operator, do to the journal: they begin and complete
entries of their own, and abandon, discharge and prune any. -/
def Journal.foreign (j : Journal) : JournalStep → Bool
  | .begin payload _ _ _ _ => !payload.rebuilds
  | .change id .complete _ _ => j.ops.all fun o => !(o.id == id && o.payload.rebuilds)
  | _ => true

/-- A step of theirs. -/
def SlotWorld.change (w : SlotWorld) (step : JournalStep) : SlotWorld :=
  if w.hook.journal.foreign step then
    { w with hook := { w.hook with journal := w.hook.journal.step inflightRetention step } }
  else w

/-- The tasks of one agent. -/
def slotTasks (digest : String → String) (pool : NodePool) :
    Tasks.Program SlotWorld SlotTask SlotInput SlotRequest JournalStep where
  act := SlotTask.act digest pool
  start := SlotRequest.start digest pool
  change := SlotWorld.change

abbrev SlotState := Tasks.State SlotWorld SlotTask

abbrev SlotEvent := Tasks.Event SlotInput SlotRequest JournalStep

/-- The state before event `k`, in a run of an agent that has queued nothing and discharged nothing
before. -/
abbrev slotStateAt (digest : String → String) (pool : NodePool) (hook : HookState)
    (u : ℕ → SlotEvent) (k : ℕ) : SlotState :=
  Tasks.stateAt (slotTasks digest pool) (.idle ⟨hook, [], []⟩) u k

/-! ## Alone they are what they were -/

section Alone

variable {digest : String → String} {pool : NodePool}

theorem failover_eq_standbyDown {s : HookState} {r : FailoverReport} {p : FailoverProbes}
    {detached oldPrimary : NodeConfig}
    (h : failoverAdmit digest pool s r p.lookup = some (detached, oldPrimary)) :
    s.failover digest pool r p = s.standbyDown digest r.replayKey detached oldPrimary p := by
  unfold failoverAdmit at h
  unfold HookState.failover
  by_cases hcandidate : r.newMain.id = -1
  · rw [if_pos hcandidate] at h
    cases h
  · rw [if_neg hcandidate] at h ⊢
    by_cases hprimary : r.detached.id = r.oldPrimary.id
    · rw [if_pos hprimary] at h
      cases h
    · rw [if_neg hprimary] at h ⊢
      cases hlookup : p.lookup with
      | error e =>
        rw [hlookup] at h
        cases h
      | ok u =>
        rw [hlookup] at h
        dsimp only at h ⊢
        by_cases hmarker : hasMarker digest s.markers "failover" r.replayKey = true
        · rw [if_pos hmarker] at h
          cases h
        · rw [if_neg hmarker] at h ⊢
          split at h
          · rename_i hdetached hmain hold
            obtain ⟨rfl, rfl⟩ := Prod.mk.inj (Option.some.inj h)
            rw [hdetached, hmain, hold]
          · cases h

/-- The calls of the hook, one after the other, make up `standbyDown`. -/
theorem standbyDown_alone (w : SlotWorld) (key : String) (detached oldPrimary : NodeConfig)
    (p : FailoverProbes) :
    ∃ w', Tasks.alone (slotTasks digest pool) 5 w (.failover key detached oldPrimary .consulting)
        (.failover p) = (w', none) ∧
      w'.hook = (w.hook.standbyDown digest key detached oldPrimary p).1 := by
  cases hconsult : ownerOfSlotObserving w.hook.journal ("node" ++ toString detached.id)
      crossOpGrace p.consult with
  | mk owner journal =>
    cases owner with
    | some owner =>
      simp only [Tasks.alone, slotTasks, SlotTask.act, actFailover, SlotWorld.consult, hconsult,
        HookState.standbyDown]
      exact ⟨_, rfl, rfl⟩
    | none =>
      cases hrefusal : preconditionRefusal detached p with
      | some message =>
        simp only [Tasks.alone, slotTasks, SlotTask.act, actFailover, SlotWorld.consult, hconsult,
          hrefusal, HookState.standbyDown]
        exact ⟨_, rfl, rfl⟩
      | none =>
        cases hdrop : p.drop with
        | ok u =>
          simp only [Tasks.alone, slotTasks, SlotTask.act, actFailover, SlotWorld.consult,
            hconsult, hrefusal, hdrop, HookState.standbyDown, HookState.dropSlot]
          exact ⟨_, rfl, rfl⟩
        | error e =>
          simp only [Tasks.alone, slotTasks, SlotTask.act, actFailover, SlotWorld.consult,
            hconsult, hrefusal, hdrop, HookState.standbyDown, HookState.dropSlot]
          exact ⟨_, rfl, rfl⟩

/-- A report that is taken up comes to what `failover` says. -/
theorem failover_alone (w : SlotWorld) {r : FailoverReport} {p : FailoverProbes}
    {detached oldPrimary : NodeConfig}
    (h : failoverAdmit digest pool w.hook r p.lookup = some (detached, oldPrimary)) :
    ∃ w', Tasks.alone (slotTasks digest pool) 5 w
        (.failover r.replayKey detached oldPrimary .consulting) (.failover p) = (w', none) ∧
      w'.hook = (w.hook.failover digest pool r p).1 := by
  rw [failover_eq_standbyDown h]
  exact standbyDown_alone w r.replayKey detached oldPrimary p

theorem queue_recordIntent {s s' : HookState} (h : s'.queue = s.queue) (id : String)
    (call : MaintenanceCall) (now : UtcNanos) (written : Except String Unit) :
    (s'.recordIntent id call now written).1.queue =
      (s.recordIntent id call now written).1.queue := by
  unfold HookState.recordIntent
  rw [h]
  cases s.queue.find? fun i => i.id == id with
  | none => exact h
  | some intent =>
    dsimp only
    split
    · exact h
    · cases written with
      | error e => exact h
      | ok u => rfl

/-- The calls of the worker, one after the other, do to the queue what `processDropSlot` says. -/
theorem sweep_alone (w : SlotWorld) (intent : MaintenanceIntent) {node : NodeConfig}
    (hnode : pool.nodeByHostname intent.payload.targetHostname = .ok node) (input : SweepInput) :
    ∃ owner w', Tasks.alone (slotTasks digest pool) 3 w (.sweep intent (.consulting node))
        (.sweep input) = (w', none) ∧
      w'.hook.queue = (w.hook.recordIntent intent.id (processDropSlot pool intent
        ⟨owner, input.client, input.drop, input.timedOut⟩ input.now).1 input.now
        input.written).1.queue := by
  cases hconsult : ownerOfSlotObserving w.hook.journal intent.payload.slotName crossOpGrace
      (input.consultFor pool node) with
  | mk owner journal =>
    refine ⟨owner, ?_⟩
    cases owner with
    | some owner =>
      simp only [Tasks.alone, slotTasks, SlotTask.act, actSweep, SlotWorld.consult, hconsult,
        processDropSlot, hnode, Option.isSome_some, if_true]
      refine ⟨_, rfl, ?_⟩
      apply queue_recordIntent
      rfl
    | none =>
      simp only [Tasks.alone, slotTasks, SlotTask.act, actSweep, SlotWorld.consult, hconsult,
        processDropSlot, hnode, Option.isSome_none, Bool.false_eq_true, if_false]
      cases hdrop : dropOutcome pool node intent.payload.slotName intent.payload.targetHostname
          ⟨none, input.client, input.drop, input.timedOut⟩ with
      | error e =>
        refine ⟨_, rfl, ?_⟩
        apply queue_recordIntent
        rfl
      | ok u =>
        cases pool.isLocal node <;>
        · refine ⟨_, rfl, ?_⟩
          apply queue_recordIntent
          rfl

end Alone

/-! ## What a call does to the journal -/

/-- How the ladders are built: an entry is begun at the bottom and completed at the top, and the
handler ends if either fails. -/
def Orderly : List RebuildRung → Prop
  | [] => True
  | rung :: rest =>
      (∀ payload, rung.call = .begin payload → ∃ stage, rung.onError = .answers stage) ∧
      (rung.call = .complete → rest = [] ∧ ∃ stage, rung.onError = .answers stage) ∧
      (∀ call stage, rung.onError = .fallsBack call stage →
        call ≠ .complete ∧ ∀ payload, call ≠ .begin payload) ∧
      (∀ above ∈ rest, ∀ payload, above.call ≠ .begin payload) ∧ Orderly rest

theorem Rebuild.orderly (r : Rebuild) : Orderly r.rungs := by
  cases r <;> simp [Rebuild.rungs, Rebuild.followPrimaryRungs, Rebuild.recoveryRungs,
    Rebuild.initStandbyRungs, Orderly]

namespace SlotTask

/-- The task's entry in the journal, once it has one. -/
def opId : SlotTask → String
  | rebuild _ _ opId => opId
  | follow op _ => op.opId
  | _ => ""

/-- The rebuild that the task makes. -/
def rebuildOf : SlotTask → Option Rebuild
  | rebuild r _ _ => some r
  | _ => none

/-- The intent that the worker has taken up. -/
def intentOf : SlotTask → Option MaintenanceIntent
  | sweep intent _ => some intent
  | _ => none

theorem eq_rebuild {task : SlotTask} {r : Rebuild} (h : task.rebuildOf = some r) :
    ∃ pos, task = rebuild r pos task.opId := by
  cases task with
  | rebuild r' pos opId =>
    obtain rfl := Option.some.inj h
    exact ⟨pos, rfl⟩
  | _ => cases h

theorem eq_sweep {task : SlotTask} {intent : MaintenanceIntent} (h : task.intentOf = some intent) :
    ∃ at', task = sweep intent at' := by
  cases task with
  | sweep intent' at' =>
    obtain rfl := Option.some.inj h
    exact ⟨at', rfl⟩
  | _ => cases h

/-- The payload of the entry that the task is about to begin. -/
def begins : SlotTask → Option InflightPayload
  | rebuild _ (.climbing ⟨.begin payload, _⟩ _) _ => some payload
  | fanOut detached newPrimary =>
      some (.followPrimary detached.id detached.hostname newPrimary.id newPrimary.hostname)
  | _ => none

/-- The task is about to complete its entry. -/
def completes : SlotTask → Bool
  | rebuild _ (.climbing ⟨.complete, _⟩ _) _ => true
  | follow _ ⟨.complete, _⟩ => true
  | _ => false

/-- The task has failed and is cleaning up. -/
def failing : SlotTask → Bool
  | rebuild _ (.climbing _ _) _ => false
  | rebuild _ _ _ => true
  | follow _ ⟨.dropSlot _ _, _⟩ => true
  | follow _ ⟨.queueCleanup _ _ _, _⟩ => true
  | follow _ ⟨.abandon _, _⟩ => true
  | _ => false

/-- The task is on a ladder that is built so; what it begins is the entry of a recovery. -/
def OnLadder : SlotTask → Prop
  | rebuild r (.climbing rung rest) _ => Orderly (rung :: rest) ∧
      ∀ payload, rung.call = .begin payload → r.journaled = true ∧ payload.rebuilds = true
  | _ => True

/-- What a call can do to the journal that begins no entry: nothing, a call on the task's own
entry, or the discharge of one that was consulted. -/
inductive Moves (task : SlotTask) (j : Journal) : Journal → Prop where
  | same : Moves task j j
  | own (call : JournalCall) (now : UtcNanos) (written : Except String Unit)
      (h : call = .complete → task.completes = true) :
      Moves task j (j.change task.opId call now written).1
  | observed (id : String) (now : UtcNanos) (written : Except String Unit) :
      Moves task j (j.change id .discharge now written).1

/-- What a call does that begins no entry: the task keeps its entry and stays on its ladder, and
once it has failed it goes on to clean up.  Only then it may queue something. -/
structure Continues (task : SlotTask) (w : SlotWorld) (result : SlotWorld × Option SlotTask) :
    Prop where
  journal : task.Moves w.hook.journal result.1.hook.journal
  queued : result.1.queuedBy = w.queuedBy ∨ task.failing = true ∧ task.opId ≠ "" ∧
    ∃ id, result.1.queuedBy = (id, task.opId) :: w.queuedBy
  opId : ∀ task', result.2 = some task' → task'.opId = task.opId
  onLadder : task.OnLadder → ∀ task', result.2 = some task' →
    task'.OnLadder ∧ task'.begins = none
  failing : task.failing = true → ∀ task', result.2 = some task' → task'.failing = true

/-- A task that has no entry and no ladder. -/
def bare : SlotTask → Bool
  | failover _ _ _ _ => true
  | sweep _ _ => true
  | peerDrop _ _ => true
  | _ => false

theorem of_bare {task : SlotTask} (h : task.bare = true) :
    task.opId = "" ∧ task.begins = none ∧ task.failing = false ∧ task.OnLadder := by
  cases task with
  | failover key detached oldPrimary at' => exact ⟨rfl, rfl, rfl, trivial⟩
  | sweep intent at' => exact ⟨rfl, rfl, rfl, trivial⟩
  | peerDrop slotName at' => exact ⟨rfl, rfl, rfl, trivial⟩
  | _ => cases h

theorem continues_of_bare {task : SlotTask} {w : SlotWorld} {result : SlotWorld × Option SlotTask}
    (hbare : task.bare = true) (hjournal : task.Moves w.hook.journal result.1.hook.journal)
    (hqueued : result.1.queuedBy = w.queuedBy)
    (hnext : ∀ task', result.2 = some task' → task'.bare = true) : task.Continues w result where
  journal := hjournal
  queued := Or.inl hqueued
  opId task' h := (of_bare (hnext task' h)).1.trans (of_bare hbare).1.symm
  onLadder _ task' h := ⟨(of_bare (hnext task' h)).2.2.2, (of_bare (hnext task' h)).2.1⟩
  failing hfailing := absurd ((of_bare hbare).2.2.1.symm.trans hfailing) Bool.false_ne_true

/-- What a call does of a task that has no entry: the hook, the worker and the peer's request
consult the journal, drop the slot, and record what has come of it. -/
inductive Checks (pool : NodePool) (w : SlotWorld) :
    SlotTask → SlotInput → SlotWorld × Option SlotTask → Prop where
  | hookOwned (key : String) (detached oldPrimary : NodeConfig) (p : FailoverProbes)
      (message : String) :
      Checks pool w (failover key detached oldPrimary .consulting) (.failover p)
        ((w.consult detached.slotName p.consult).2,
          some (failover key detached oldPrimary (.marking message)))
  | hookFree (key : String) (detached oldPrimary : NodeConfig) (p : FailoverProbes)
      (h : (w.consult detached.slotName p.consult).1 = none) :
      Checks pool w (failover key detached oldPrimary .consulting) (.failover p)
        ((w.consult detached.slotName p.consult).2,
          some (failover key detached oldPrimary .checking))
  | hookRefused (key : String) (detached oldPrimary : NodeConfig) (p : FailoverProbes) :
      Checks pool w (failover key detached oldPrimary .checking) (.failover p) (w, none)
  | hookChecked (key : String) (detached oldPrimary : NodeConfig) (p : FailoverProbes) :
      Checks pool w (failover key detached oldPrimary .checking) (.failover p)
        (w, some (failover key detached oldPrimary .dropping))
  | hookDropped (key : String) (detached oldPrimary : NodeConfig) (p : FailoverProbes)
      (message : String) :
      Checks pool w (failover key detached oldPrimary .dropping) (.failover p)
        ({ w with hook := w.hook.removeSlot detached.slotName },
          some (failover key detached oldPrimary (.marking message)))
  | hookKept (key : String) (detached oldPrimary : NodeConfig) (p : FailoverProbes) (e : String) :
      Checks pool w (failover key detached oldPrimary .dropping) (.failover p)
        (w, some (failover key detached oldPrimary (.queueing e)))
  | hookQueued (key : String) (detached oldPrimary : NodeConfig) (dropErr message : String)
      (payload : MaintenancePayload) (p : FailoverProbes) :
      Checks pool w (failover key detached oldPrimary (.queueing dropErr)) (.failover p)
        ({ w with hook := w.hook.append payload p.appendedAt p.appended },
          some (failover key detached oldPrimary (.marking message)))
  | hookMarked (key : String) (detached oldPrimary : NodeConfig) (message : String)
      (markers : List MarkerFile) (p : FailoverProbes) :
      Checks pool w (failover key detached oldPrimary (.marking message)) (.failover p)
        ({ w with hook := { w.hook with markers := markers } }, none)
  | workerOwned (intent : MaintenanceIntent) (node : NodeConfig) (input : SweepInput)
      (owner : InflightOp)
      (h : (w.consult intent.payload.slotName (input.consultFor pool node)).1 = some owner) :
      Checks pool w (sweep intent (.consulting node)) (.sweep input)
        ((w.consult intent.payload.slotName (input.consultFor pool node)).2,
          some (sweep intent (.recording .markDone (some (.owned owner)))))
  | workerFree (intent : MaintenanceIntent) (node : NodeConfig) (input : SweepInput)
      (h : (w.consult intent.payload.slotName (input.consultFor pool node)).1 = none) :
      Checks pool w (sweep intent (.consulting node)) (.sweep input)
        ((w.consult intent.payload.slotName (input.consultFor pool node)).2,
          some (sweep intent (.dropping node)))
  | workerFailed (intent : MaintenanceIntent) (node : NodeConfig) (input : SweepInput)
      (call : MaintenanceCall) :
      Checks pool w (sweep intent (.dropping node)) (.sweep input)
        (w, some (sweep intent (.recording call none)))
  | workerDropped (intent : MaintenanceIntent) (node : NodeConfig) (input : SweepInput)
      (call : MaintenanceCall) (h : pool.isLocal node = true) :
      Checks pool w (sweep intent (.dropping node)) (.sweep input)
        ({ w with hook := w.hook.removeSlot intent.payload.slotName },
          some (sweep intent (.recording call
            (some (.dropped (w.hook.removeSlot intent.payload.slotName).slots)))))
  | workerAsked (intent : MaintenanceIntent) (node : NodeConfig) (input : SweepInput)
      (call : MaintenanceCall) (h : pool.isLocal node = false) :
      Checks pool w (sweep intent (.dropping node)) (.sweep input)
        (w, some (sweep intent (.recording call
          (some (if input.retained then .keptByPeer else .droppedByPeer)))))
  | workerRecorded (intent : MaintenanceIntent) (call : MaintenanceCall)
      (reason : Option DischargeReason) (input : SweepInput) (discharged : List Discharge)
      (h : discharged = w.discharged ∨
        ∃ given, reason = some given ∧ discharged = ⟨intent, given⟩ :: w.discharged) :
      Checks pool w (sweep intent (.recording call reason)) (.sweep input)
        ({ w with
            hook := (w.hook.recordIntent intent.id call input.now input.written).1
            discharged := discharged },
          none)
  | peerOwned (slotName : String) (c : SlotConsult) (drop : Except String Unit) :
      Checks pool w (peerDrop slotName .consulting) (.peerDrop c drop)
        ((w.consult slotName c).2, none)
  | peerFree (slotName : String) (c : SlotConsult) (drop : Except String Unit)
      (h : (w.consult slotName c).1 = none) :
      Checks pool w (peerDrop slotName .consulting) (.peerDrop c drop)
        ((w.consult slotName c).2, some (peerDrop slotName .dropping))
  | peerDropped (slotName : String) (c : SlotConsult) (drop : Except String Unit) :
      Checks pool w (peerDrop slotName .dropping) (.peerDrop c drop)
        ({ w with hook := w.hook.removeSlot slotName }, none)
  | peerKept (slotName : String) (c : SlotConsult) (drop : Except String Unit) :
      Checks pool w (peerDrop slotName .dropping) (.peerDrop c drop) (w, none)

end SlotTask

section Calls

variable {digest : String → String} {pool : NodePool} {w : SlotWorld} {task task' : SlotTask}
  {input : SlotInput}

/-- The consult discharges at most one entry. -/
theorem consult_moves (task : SlotTask) (w : SlotWorld) (slotName : String) (c : SlotConsult) :
    task.Moves w.hook.journal (w.consult slotName c).2.hook.journal := by
  show task.Moves w.hook.journal (ownerOfSlotObserving w.hook.journal slotName crossOpGrace c).2
  unfold ownerOfSlotObserving
  split
  · exact .same
  · split
    · exact .same
    · split
      · exact .observed _ _ _
      · exact .same
      · exact .same

theorem actFailover_checks (key : String) (detached oldPrimary : NodeConfig) (at' : FailoverAt)
    (p : FailoverProbes) :
    SlotTask.Checks pool w (.failover key detached oldPrimary at') (.failover p)
      (actFailover digest w key detached oldPrimary at' p) := by
  cases at' with
  | consulting =>
    have hname : "node" ++ toString detached.id = detached.slotName := rfl
    simp only [actFailover, hname]
    cases hconsult : w.consult detached.slotName p.consult with
    | mk owner w' =>
      obtain rfl : (w.consult detached.slotName p.consult).2 = w' := by rw [hconsult]
      cases owner with
      | some owner => exact .hookOwned key detached oldPrimary p _
      | none => exact .hookFree key detached oldPrimary p (by rw [hconsult])
  | checking =>
    simp only [actFailover]
    cases preconditionRefusal detached p with
    | some message => exact .hookRefused key detached oldPrimary p
    | none => exact .hookChecked key detached oldPrimary p
  | dropping =>
    simp only [actFailover]
    cases p.drop with
    | ok u => exact .hookDropped key detached oldPrimary p _
    | error e => exact .hookKept key detached oldPrimary p e
  | queueing dropErr =>
    simp only [actFailover, HookState.queueDropSlotCleanup_fst]
    exact .hookQueued key detached oldPrimary dropErr _ _ p
  | marking message =>
    simp only [actFailover, HookState.writeReplayMarkerThenOk]
    cases p.marked with
    | ok u => exact .hookMarked key detached oldPrimary message _ p
    | error e => exact .hookMarked key detached oldPrimary message w.hook.markers p

theorem actSweep_checks (intent : MaintenanceIntent) (at' : SweepAt) (input : SweepInput) :
    SlotTask.Checks pool w (.sweep intent at') (.sweep input)
      (actSweep pool w intent at' input) := by
  cases at' with
  | consulting node =>
    simp only [actSweep]
    cases hconsult : w.consult intent.payload.slotName (input.consultFor pool node) with
    | mk owner w' =>
      obtain rfl : (w.consult intent.payload.slotName (input.consultFor pool node)).2 = w' := by
        rw [hconsult]
      cases owner with
      | some owner => exact .workerOwned intent node input owner (by rw [hconsult])
      | none => exact .workerFree intent node input (by rw [hconsult])
  | dropping node =>
    simp only [actSweep]
    cases dropOutcome pool node intent.payload.slotName intent.payload.targetHostname
        ⟨none, input.client, input.drop, input.timedOut⟩ with
    | error e => exact .workerFailed intent node input _
    | ok u =>
      cases hlocal : pool.isLocal node with
      | true => exact .workerDropped intent node input _ hlocal
      | false => exact .workerAsked intent node input _ hlocal
  | recording call reason =>
    simp only [actSweep]
    cases hrecord : w.hook.recordIntent intent.id call input.now input.written with
    | mk hook written =>
      obtain rfl : (w.hook.recordIntent intent.id call input.now input.written).1 = hook := by
        rw [hrecord]
      refine .workerRecorded intent call reason input _ ?_
      cases reason with
      | none => exact Or.inl rfl
      | some given =>
        cases written with
        | true => exact Or.inr ⟨given, rfl, rfl⟩
        | false => exact Or.inl rfl

theorem actPeerDrop_checks (slotName : String) (at' : PeerDropAt) (c : SlotConsult)
    (drop : Except String Unit) :
    SlotTask.Checks pool w (.peerDrop slotName at') (.peerDrop c drop)
      (actPeerDrop w slotName at' c drop) := by
  cases at' with
  | consulting =>
    simp only [actPeerDrop]
    cases hconsult : w.consult slotName c with
    | mk owner w' =>
      obtain rfl : (w.consult slotName c).2 = w' := by rw [hconsult]
      cases owner with
      | some owner => exact .peerOwned slotName c drop
      | none => exact .peerFree slotName c drop (by rw [hconsult])
  | dropping =>
    cases drop with
    | ok u => exact .peerDropped slotName c _
    | error e => exact .peerKept slotName c _

/-- A task without an entry makes one of these calls; an input that is not for it is none. -/
theorem act_checks (digest : String → String) (pool : NodePool) (w : SlotWorld)
    (h : task.bare = true) (input : SlotInput) :
    task.act digest pool w input = (w, some task) ∨
      task.Checks pool w input (task.act digest pool w input) := by
  cases task with
  | failover key detached oldPrimary at' =>
    cases input with
    | failover p => exact Or.inr (actFailover_checks key detached oldPrimary at' p)
    | _ => exact Or.inl rfl
  | sweep intent at' =>
    cases input with
    | sweep input => exact Or.inr (actSweep_checks intent at' input)
    | _ => exact Or.inl rfl
  | peerDrop slotName at' =>
    cases input with
    | peerDrop c drop => exact Or.inr (actPeerDrop_checks slotName at' c drop)
    | _ => exact Or.inl rfl
  | _ => cases h

theorem perform_of_begin {r : Rebuild} {w : RebuildWorld} {payload : InflightPayload}
    {onError : Compensation.OnError RebuildCall Stage} {rest : List RebuildRung}
    {input : RebuildInput} :
    (r.site digest).perform w (.climbing ⟨.begin payload, onError⟩ rest) input =
      match w.hook.journal.begin payload RecoveryPhase.started.name false input.now
          input.outcome with
      | (journal, .ok op) => (⟨{ w.hook with journal := journal }, op.id⟩, .ok true)
      | (journal, .error e) => ({ w with hook := { w.hook with journal := journal } }, .error e) :=
  rfl

/-- A call of a rebuild that begins nothing. -/
theorem perform_moves (digest : String → String) (hook : HookState) {r : Rebuild} {opId : String}
    {pos : RebuildAt} (h : (SlotTask.rebuild r pos opId).begins = none) (input : RebuildInput) :
    ((r.site digest).perform ⟨hook, opId⟩ pos input).1.opId = opId ∧
      (SlotTask.rebuild r pos opId).Moves hook.journal
        ((r.site digest).perform ⟨hook, opId⟩ pos input).1.hook.journal := by
  cases pos with
  | climbing rung rest =>
    obtain ⟨call, onError⟩ := rung
    cases call with
    | begin payload => cases h
    | updatePhase phase =>
      exact ⟨rfl, .own (.updatePhase phase.name none) input.now input.outcome
        fun hh => JournalCall.noConfusion hh⟩
    | complete => exact ⟨rfl, .own .complete input.now input.outcome fun _ => rfl⟩
    | createSlot =>
      simp only [Rebuild.site, RebuildWorld.climb]
      cases input.outcome <;> exact ⟨rfl, .same⟩
    | markDone replayKey =>
      simp only [Rebuild.site, RebuildWorld.climb]
      cases input.outcome <;> exact ⟨rfl, .same⟩
    | _ => exact ⟨rfl, .same⟩
  | releasing stage e =>
    simp only [Rebuild.site]
    cases input.outcome <;> exact ⟨rfl, .same⟩
  | deferring stage e dropErr =>
    refine ⟨rfl, ?_⟩
    simp only [Rebuild.site, HookState.append]
    cases input.outcome <;> exact .same
  | givingUp stage e =>
    exact ⟨rfl, .own (.abandon (stage.text e)) input.now input.outcome
      fun hh => JournalCall.noConfusion hh⟩

/-- What stands above a rung that begins nothing, or in its place, begins nothing. -/
theorem orderly_next {rung : RebuildRung} {rest : List RebuildRung} (h : Orderly (rung :: rest))
    {gives : Bool} {answer : Except String Bool} {rung' : RebuildRung} {rest' : List RebuildRung}
    (hnext : At.next gives (.climbing rung rest) answer = .inl (.climbing rung' rest')) :
    Orderly (rung' :: rest') ∧ ∀ payload, rung'.call ≠ .begin payload := by
  obtain ⟨-, -, hback, habove, hrest⟩ := h
  obtain ⟨rung, rest, hpos, hnext⟩ := At.climbing_of_next hnext
  obtain ⟨rfl, rfl⟩ := At.climbing.inj hpos
  rcases hnext with rfl | ⟨call, stage, herror, rfl, rfl⟩
  · exact ⟨hrest, habove _ List.mem_cons_self⟩
  · obtain ⟨hcomplete, hbegin⟩ := hback call stage herror
    refine ⟨⟨fun payload h => absurd h (hbegin payload),
      fun h => absurd h hcomplete, ?_, habove,
      hrest⟩, hbegin⟩
    intro other stage' h
    cases h

theorem begins_of_climbing (r : Rebuild) {rung : RebuildRung} (rest : List RebuildRung)
    (opId : String) (h : ∀ payload, rung.call ≠ .begin payload) :
    (SlotTask.rebuild r (.climbing rung rest) opId).begins = none := by
  obtain ⟨call, onError⟩ := rung
  cases call with
  | begin payload => exact absurd rfl (h payload)
  | _ => rfl

theorem next_of_actRebuild {r : Rebuild} {pos : RebuildAt} {opId : String} {input : RebuildInput}
    (h : (actRebuild digest w r pos opId input).2 = some task') :
    ∃ pos', pos.next r.journaled ((r.site digest).perform ⟨w.hook, opId⟩ pos input).2 =
      .inl pos' ∧
      task' = .rebuild r pos' ((r.site digest).perform ⟨w.hook, opId⟩ pos input).1.opId := by
  simp only [actRebuild] at h
  split at h
  · rename_i pos' hp
    exact ⟨pos', hp, (Option.some.inj h).symm⟩
  · cases h

/-- A rebuild that is on its ladder stays there, and begins nothing more. -/
theorem onLadder_of_next {r : Rebuild} {pos pos' : RebuildAt} {opId : String} {gives : Bool}
    {answer : Except String Bool} (hladder : (SlotTask.rebuild r pos opId).OnLadder)
    (hp : pos.next gives answer = .inl pos') (opId' : String) :
    (SlotTask.rebuild r pos' opId').OnLadder ∧ (SlotTask.rebuild r pos' opId').begins = none := by
  cases pos' with
  | climbing rung' rest' =>
    obtain ⟨rung, rest, rfl, -⟩ := At.climbing_of_next hp
    obtain ⟨horderly, hbegin⟩ := orderly_next hladder.1 hp
    exact ⟨⟨horderly, fun payload h => absurd h (hbegin payload)⟩,
      begins_of_climbing r rest' opId' hbegin⟩
  | _ => exact ⟨trivial, rfl⟩

theorem actRebuild_continues {r : Rebuild} {pos : RebuildAt} {opId : String}
    (h : (SlotTask.rebuild r pos opId).begins = none) (input : RebuildInput) :
    (SlotTask.rebuild r pos opId).Continues w (actRebuild digest w r pos opId input) := by
  obtain ⟨hid, hmoves⟩ := perform_moves digest w.hook h input
  refine ⟨hmoves, ?_, fun task' ht => ?_, fun hladder task' ht => ?_,
    fun hfailing task' ht => ?_⟩
  · cases pos with
    | deferring stage e dropErr =>
      simp only [actRebuild, SlotWorld.queuedAfter]
      cases input.outcome with
      | error e' => exact Or.inl rfl
      | ok u =>
        by_cases hop : opId = ""
        · exact Or.inl (if_pos hop)
        · exact Or.inr ⟨rfl, hop, _, if_neg hop⟩
    | _ => exact Or.inl rfl
  · obtain ⟨pos', -, rfl⟩ := next_of_actRebuild ht
    exact hid
  · obtain ⟨pos', hp, rfl⟩ := next_of_actRebuild ht
    exact onLadder_of_next hladder hp _
  · -- the cleanup does not lead back to the ladder
    obtain ⟨pos', hp, rfl⟩ := next_of_actRebuild ht
    cases pos' with
    | climbing rung' rest' =>
      obtain ⟨rung, rest, rfl, -⟩ := At.climbing_of_next hp
      cases hfailing
    | _ => rfl

theorem actFollow_continues (op : FollowOp) (pos : FollowPosition) (input : RebuildInput) :
    (SlotTask.follow op pos).Continues w (actFollow w op pos input) := by
  have hnext : ∀ task', (actFollow w op pos input).2 = some task' →
      ∃ pos' answer, op.next pos input.running answer = .inl pos' ∧
        task' = .follow op pos' := by
    intro task' ht
    simp only [actFollow, Option.map_eq_some_iff, Sum.getLeft?_eq_some_iff] at ht
    obtain ⟨pos', hp, rfl⟩ := ht
    exact ⟨pos', _, hp, rfl⟩
  refine ⟨?_, ?_, fun task' ht => ?_, fun _ task' ht => ?_, fun hfailing task' ht => ?_⟩
  · obtain ⟨call, phase⟩ := pos
    cases call with
    | updatePhase phase =>
      exact .own (.updatePhase phase.name none) input.now input.outcome
        fun hh => JournalCall.noConfusion hh
    | complete => exact .own .complete input.now input.outcome fun _ => rfl
    | abandon reason =>
      exact .own (.abandon reason) input.now input.outcome fun hh => JournalCall.noConfusion hh
    | queueCleanup cause dropError e =>
      simp only [actFollow, SlotWorld.appendBy, HookState.append]
      cases input.outcome <;> exact .same
    | _ => exact .same
  · obtain ⟨call, phase⟩ := pos
    cases call with
    | queueCleanup cause dropError e =>
      simp only [actFollow, SlotWorld.appendBy, SlotWorld.queuedAfter]
      cases input.outcome with
      | error e' => exact Or.inl rfl
      | ok u =>
        by_cases hop : op.opId = ""
        · exact Or.inl (if_pos hop)
        · exact Or.inr ⟨rfl, hop, _, if_neg hop⟩
    | _ => exact Or.inl rfl
  · obtain ⟨pos', answer, -, rfl⟩ := hnext task' ht
    rfl
  · obtain ⟨pos', answer, -, rfl⟩ := hnext task' ht
    exact ⟨trivial, rfl⟩
  · obtain ⟨pos', answer, hp, rfl⟩ := hnext task' ht
    obtain ⟨call, phase⟩ := pos
    cases call with
    | dropSlot cause e =>
      cases answer <;>
      · obtain rfl := Sum.inl.inj hp
        rfl
    | queueCleanup cause dropError e =>
      obtain rfl := Sum.inl.inj hp
      rfl
    | abandon reason => cases hp
    | _ => cases hfailing

/-- The queue's calls leave the journal and the slots alone. -/
theorem recordIntent_frame (s : HookState) (id : String) (call : MaintenanceCall) (now : UtcNanos)
    (written : Except String Unit) : (s.recordIntent id call now written).1.journal = s.journal ∧
      (s.recordIntent id call now written).1.slots = s.slots := by
  unfold HookState.recordIntent
  split
  · exact ⟨rfl, rfl⟩
  · split
    · exact ⟨rfl, rfl⟩
    · split <;> exact ⟨rfl, rfl⟩

theorem append_frame (s : HookState) (payload : MaintenancePayload) (now : UtcNanos)
    (outcome : Except String Unit) :
    (s.append payload now outcome).journal = s.journal ∧
      (s.append payload now outcome).slots = s.slots := by
  unfold HookState.append
  cases outcome <;> exact ⟨rfl, rfl⟩

theorem checks_continues {result : SlotWorld × Option SlotTask}
    (h : task.Checks pool w input result) : task.Continues w result := by
  cases h with
  | hookOwned | hookFree | workerOwned | workerFree | peerFree =>
    refine SlotTask.continues_of_bare rfl (consult_moves _ w _ _) rfl fun task' ht => ?_
    rw [← Option.some.inj ht]
    rfl
  | peerOwned slotName c drop =>
    exact SlotTask.continues_of_bare rfl (consult_moves _ w _ _) rfl fun task' ht => by cases ht
  | hookQueued key detached oldPrimary dropErr message payload p =>
    refine SlotTask.continues_of_bare rfl ?_ rfl fun task' ht => ?_
    · rw [(append_frame w.hook payload p.appendedAt p.appended).1]
      exact .same
    · rw [← Option.some.inj ht]
      rfl
  | workerRecorded intent call reason input discharged h =>
    refine SlotTask.continues_of_bare rfl ?_ rfl fun task' ht => by cases ht
    rw [(recordIntent_frame w.hook intent.id call input.now input.written).1]
    exact .same
  | hookRefused | hookMarked | peerDropped | peerKept =>
    exact SlotTask.continues_of_bare rfl .same rfl fun task' ht => by cases ht
  | hookChecked | hookDropped | hookKept | workerFailed | workerDropped | workerAsked =>
    refine SlotTask.continues_of_bare rfl .same rfl fun task' ht => ?_
    rw [← Option.some.inj ht]
    rfl

/-- An input that is for another task leaves everything as it is. -/
theorem continues_refl (h : task.begins = none) : task.Continues w (w, some task) where
  journal := .same
  queued := Or.inl rfl
  opId task' ht := by rw [← Option.some.inj ht]
  onLadder hladder task' ht := by
    rw [← Option.some.inj ht]
    exact ⟨hladder, h⟩
  failing hfailing task' ht := by
    rw [← Option.some.inj ht]
    exact hfailing

/-- A call that begins no entry. -/
theorem act_continues (h : task.begins = none) :
    task.Continues w (task.act digest pool w input) := by
  by_cases hbare : task.bare = true
  · rcases act_checks digest pool w hbare input with hsame | hchecks
    · rw [hsame]
      exact continues_refl h
    · exact checks_continues hchecks
  · cases task with
    | rebuild r pos opId =>
      cases input with
      | rebuild input => exact actRebuild_continues h input
      | _ => exact continues_refl h
    | fanOut detached newPrimary => cases h
    | follow op pos =>
      cases input with
      | rebuild input => exact actFollow_continues op pos input
      | _ => exact continues_refl h
    | _ => exact absurd rfl hbare

/-- A call that begins an entry: the task goes on only if it has the entry. -/
structure SlotTask.Begun (w w' : SlotWorld) (next : Option SlotTask) (payload : InflightPayload)
    (phase : String) (now : UtcNanos) (written : Except String Unit) : Prop where
  journal : w'.hook.journal = (w.hook.journal.begin payload phase false now written).1
  queued : w'.queuedBy = w.queuedBy
  next : ∀ task', next = some task' → ∃ op,
    (w.hook.journal.begin payload phase false now written).2 = .ok op ∧ task'.opId = op.id ∧
      task'.OnLadder ∧ task'.begins = none

/-- A begin that fails ends the handler, so a rebuild that goes on has its entry. -/
theorem actRebuild_begins {r : Rebuild} {payload : InflightPayload}
    {onError : Compensation.OnError RebuildCall Stage} {rest : List RebuildRung} {opId : String}
    (hladder : (SlotTask.rebuild r (.climbing ⟨.begin payload, onError⟩ rest) opId).OnLadder)
    (input : RebuildInput) :
    SlotTask.Begun w
      (actRebuild digest w r (.climbing ⟨.begin payload, onError⟩ rest) opId input).1
      (actRebuild digest w r (.climbing ⟨.begin payload, onError⟩ rest) opId input).2 payload
      RecoveryPhase.started.name input.now input.outcome := by
  obtain ⟨stage, rfl⟩ := hladder.1.1 payload rfl
  refine ⟨?_, rfl, fun task' ht => ?_⟩
  · simp only [actRebuild, perform_of_begin]
    split <;>
    · rename_i hbegin
      rw [hbegin]
  · obtain ⟨pos', hp, rfl⟩ := next_of_actRebuild ht
    obtain ⟨hladder', hnone⟩ := onLadder_of_next hladder hp
      ((r.site digest).perform ⟨w.hook, opId⟩
        (.climbing ⟨.begin payload, .answers stage⟩ rest) input).1.opId
    rw [perform_of_begin] at hp hladder' hnone ⊢
    cases hbegin : w.hook.journal.begin payload RecoveryPhase.started.name false input.now
        input.outcome with
    | mk journal result =>
      rw [hbegin] at hp hladder' hnone
      cases result with
      | error e => cases hp
      | ok op => exact ⟨op, rfl, rfl, hladder', hnone⟩

theorem actFanOut_begins (detached newPrimary : NodeConfig) (input : RebuildInput) :
    SlotTask.Begun w (actFanOut w detached newPrimary input).1
      (actFanOut w detached newPrimary input).2
      (.followPrimary detached.id detached.hostname newPrimary.id newPrimary.hostname)
      FollowPhase.queued.name input.now input.outcome := by
  unfold actFanOut
  dsimp only
  cases hbegin : w.hook.journal.begin
      (.followPrimary detached.id detached.hostname newPrimary.id newPrimary.hostname)
      FollowPhase.queued.name false input.now input.outcome with
  | mk journal result =>
    cases result with
    | error e =>
      refine ⟨by rw [hbegin], rfl, fun task' ht => ?_⟩
      cases ht
    | ok op =>
      refine ⟨by rw [hbegin], rfl, fun task' ht => ?_⟩
      obtain rfl := Option.some.inj ht
      exact ⟨op, by rw [hbegin], rfl, trivial, rfl⟩

theorem act_begins {payload : InflightPayload} (hladder : task.OnLadder)
    (h : task.begins = some payload) :
    task.act digest pool w input = (w, some task) ∨
      ∃ phase now written, SlotTask.Begun w (task.act digest pool w input).1
        (task.act digest pool w input).2 payload phase now written := by
  cases task with
  | rebuild r pos opId =>
    cases input with
    | rebuild input =>
      cases pos with
      | climbing rung rest =>
        obtain ⟨call, onError⟩ := rung
        cases call with
        | begin payload' =>
          obtain rfl := Option.some.inj h
          exact Or.inr ⟨_, _, _, actRebuild_begins hladder input⟩
        | _ => cases h
      | _ => cases h
    | _ => exact Or.inl rfl
  | fanOut detached newPrimary =>
    cases input with
    | rebuild input =>
      obtain rfl := Option.some.inj h
      exact Or.inr ⟨_, _, _, actFanOut_begins detached newPrimary input⟩
    | _ => exact Or.inl rfl
  | _ => cases h

theorem begins_rebuilds {payload : InflightPayload} (hladder : task.OnLadder)
    (h : task.begins = some payload) : payload.rebuilds = true := by
  cases task with
  | rebuild r pos opId =>
    cases pos with
    | climbing rung rest =>
      obtain ⟨call, onError⟩ := rung
      cases call with
      | begin payload' =>
        obtain rfl := Option.some.inj h
        exact (hladder.2 _ rfl).2
      | _ => cases h
    | _ => cases h
  | fanOut detached newPrimary =>
    obtain rfl := Option.some.inj h
    rfl
  | _ => cases h

/-- A task goes on with what it is about. -/
theorem about_of_next (h : (task.act digest pool w input).2 = some task') :
    task'.rebuildOf = task.rebuildOf ∧ task'.intentOf = task.intentOf := by
  have hsame : task = task' →
      task'.rebuildOf = task.rebuildOf ∧ task'.intentOf = task.intentOf := by
    rintro rfl
    exact ⟨rfl, rfl⟩
  by_cases hbare : task.bare = true
  · rcases act_checks digest pool w hbare input with hact | hchecks
    · rw [hact] at h
      exact hsame (Option.some.inj h)
    · generalize task.act digest pool w input = result at h hchecks
      cases hchecks <;> cases h <;> exact ⟨rfl, rfl⟩
  · cases task with
    | rebuild r pos opId =>
      cases input with
      | rebuild input =>
        obtain ⟨pos', -, rfl⟩ := next_of_actRebuild h
        exact ⟨rfl, rfl⟩
      | _ => exact hsame (Option.some.inj h)
    | fanOut detached newPrimary =>
      cases input with
      | rebuild input =>
        simp only [SlotTask.act, actFanOut] at h
        split at h
        · obtain rfl := Option.some.inj h
          exact ⟨rfl, rfl⟩
        · cases h
      | _ => exact hsame (Option.some.inj h)
    | follow op pos =>
      cases input with
      | rebuild input =>
        obtain ⟨pos', -, rfl⟩ := Option.map_eq_some_iff.mp h
        exact ⟨rfl, rfl⟩
      | _ => exact hsame (Option.some.inj h)
    | _ => exact absurd rfl hbare

/-- Where a task starts. -/
theorem start_cases {request : SlotRequest} (h : request.start digest pool w = some task) :
    (∃ req p r, request = .rebuild req p r ∧ task = .rebuild r r.first "") ∨
      (∃ detached newPrimary, task = .fanOut detached newPrimary) ∨
      (∃ key detached oldPrimary, task = .failover key detached oldPrimary .consulting) ∨
      (∃ intent node, task = .sweep intent (.consulting node)) ∨
      (∃ intent call, task = .sweep intent (.recording call none)) ∨
      ∃ slotName, task = .peerDrop slotName .consulting := by
  cases request with
  | rebuild req p r =>
    simp only [SlotRequest.start] at h
    split at h
    · split at h
      · exact Or.inl ⟨req, p, r, rfl, (Option.some.inj h).symm⟩
      · cases h
    · cases h
  | fanOut localNode newPrimary member =>
    simp only [SlotRequest.start] at h
    split at h
    · exact Or.inr (Or.inl ⟨member, newPrimary, (Option.some.inj h).symm⟩)
    · cases h
  | failover r lookup =>
    obtain ⟨nodes, -, rfl⟩ := Option.map_eq_some_iff.mp h
    exact Or.inr (Or.inr (Or.inl ⟨_, _, _, rfl⟩))
  | sweep id now =>
    simp only [SlotRequest.start, sweepStart] at h
    split at h
    · cases h
    · split at h
      · split at h
        · exact Or.inr (Or.inr (Or.inr (Or.inl ⟨_, _, (Option.some.inj h).symm⟩)))
        · exact Or.inr (Or.inr (Or.inr (Or.inr (Or.inl ⟨_, _, (Option.some.inj h).symm⟩))))
      · cases h
  | peerDrop slotName =>
    simp only [SlotRequest.start] at h
    split at h
    · exact Or.inr (Or.inr (Or.inr (Or.inr (Or.inr ⟨slotName, (Option.some.inj h).symm⟩))))
    · cases h

/-- A task starts on its ladder. -/
theorem start_onLadder {request : SlotRequest}
    (h : request.start digest pool w = some task) : task.OnLadder := by
  rcases start_cases h with ⟨req, p, r, -, rfl⟩ | ⟨detached, newPrimary, rfl⟩ |
    ⟨key, detached, oldPrimary, rfl⟩ | ⟨intent, node, rfl⟩ | ⟨intent, call, rfl⟩ |
      ⟨slotName, rfl⟩
  · refine ⟨?_, fun payload hcall => ?_⟩
    · rw [List.cons_head_tail]
      exact r.orderly
    · cases r with
      | recovery primary standby =>
        obtain rfl := RebuildCall.begin.inj hcall
        exact ⟨rfl, rfl⟩
      | followPrimary detached newPrimary key => cases hcall
      | initStandby standby primary => cases hcall
  all_goals trivial

end Calls

end PgAgent
