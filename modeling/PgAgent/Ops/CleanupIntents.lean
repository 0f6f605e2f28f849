import PgAgent.Ops.SlotDrivers

/-!
# What becomes of a queued cleanup

An orchestration that fails drops the slot it has created, and queues the drop if it cannot.  The
worker takes the intent out of the queue when the slot is dropped, but also when it finds an owner
of the slot in the journal: an owner that is done needs the slot, and one in progress is expected
to come to need it.

The orchestration that has queued the intent is itself in progress until it abandons its entry,
which it does after the append.  A worker that looks in between takes the intent out of the queue
because of the very orchestration that has put it there, and nobody drops the slot.  The same
happens with any other orchestration in progress that fails later or has lost its driver.

`intents_justified`: where the orchestrations in progress that the worker finds get through, an
intent is taken out of the queue for a reason.
-/

namespace PgAgent

/-! ## Reasons -/

/-- The event is the worker's consult about the intent's slot, and reports the owner. -/
def FindsOwner (pool : NodePool) (s : SlotState) (e : SlotEvent) (intent : MaintenanceIntent)
    (owner : InflightOp) : Prop :=
  ∃ i input node, e = .acts i (.sweep input) ∧
    s.tasks i = some (.sweep intent (.consulting node)) ∧
    (ownerOfSlotObserving s.world.hook.journal intent.payload.slotName crossOpGrace
      (input.consultFor pool node)).1 = some owner

section Runs

variable (digest : String → String) (pool : NodePool) (hook : HookState) (u : ℕ → SlotEvent)

/-- The intent has been marked as done for a reason: after the drop its slot is not there, or the
owner that the worker has found is not the operation whose failure has queued the intent, and is
done then or later. -/
def Justified (d : Discharge) : Prop :=
  match d.reason with
  | .dropped slots => d.intent.payload.slotName ∉ slots
  | .droppedByPeer => True
  | .keptByPeer => False
  | .owned owner => ∃ k,
      FindsOwner pool (slotStateAt digest pool hook u k) (u k) d.intent owner ∧
      (d.intent.id, owner.id) ∉ (slotStateAt digest pool hook u k).world.queuedBy ∧
      ∃ m, k ≤ m ∧ (slotStateAt digest pool hook u m).world.hook.journal.Finished owner.id

/-- The rest of the agent completes an entry of its own later. -/
def CompletedByOthers (k : ℕ) (id : String) : Prop :=
  id ≠ "" ∧ ∃ m now, k ≤ m ∧ u m = .changes (.change id .complete now (.ok ())) ∧
    ∃ o ∈ (slotStateAt digest pool hook u m).world.hook.journal.ops,
      o.id = id ∧ o.payload.rebuilds = false

/-- What the run has to keep to at event `k`: an orchestration in progress that the worker finds
gets through, or it is a handoff and is completed later; and a peer that is asked for a drop does
not answer `ok` and keep the slot. -/
structure Expected (k : ℕ) : Prop where
  consults : ∀ intent owner,
    FindsOwner pool (slotStateAt digest pool hook u k) (u k) intent owner →
    owner.status = .inProgress →
    GetsThrough digest pool hook u k owner.id ∨
      owner.payload.rebuilds = false ∧ CompletedByOthers digest pool hook u k owner.id
  drops : ∀ i input intent node, u k = .acts i (.sweep input) →
    (slotStateAt digest pool hook u k).tasks i = some (.sweep intent (.dropping node)) →
    pool.isLocal node = false → input.retained = false

end Runs

/-! ## What the calls do to the queue's history -/

section Calls

variable {digest : String → String} {pool : NodePool} {w : SlotWorld} {task : SlotTask}
  {input : SlotInput}

/-- The worker's last call is the only one that discharges. -/
theorem discharged_act (digest : String → String) (pool : NodePool) (w : SlotWorld)
    (task : SlotTask) (input : SlotInput) :
    (task.act digest pool w input).1.discharged = w.discharged ∨
      ∃ intent call reason, task = .sweep intent (.recording call (some reason)) ∧
        (task.act digest pool w input).1.discharged = ⟨intent, reason⟩ :: w.discharged := by
  by_cases hbare : task.bare = true
  · rcases act_checks digest pool w hbare input with hsame | hchecks
    · exact Or.inl (by rw [hsame])
    · generalize task.act digest pool w input = result at hchecks
      cases hchecks with
      | workerRecorded intent call reason input discharged h =>
        rcases h with hsame | ⟨given, rfl, hnew⟩
        · exact Or.inl hsame
        · exact Or.inr ⟨intent, call, given, rfl, hnew⟩
      | _ => exact Or.inl rfl
  · left
    cases task with
    | rebuild r pos opId => cases input <;> rfl
    | fanOut detached newPrimary =>
      cases input with
      | rebuild input =>
        simp only [SlotTask.act, actFanOut]
        split <;> rfl
      | _ => rfl
    | follow op pos =>
      cases input with
      | rebuild input =>
        obtain ⟨call, phase⟩ := pos
        cases call <;> rfl
      | _ => rfl
    | _ => exact absurd rfl hbare

/-- Where the worker has a reason, it was there before or the call has given it. -/
theorem recording_of_act {intent : MaintenanceIntent} {call : MaintenanceCall}
    {reason : DischargeReason}
    (h : (task.act digest pool w input).2 = some (.sweep intent (.recording call (some reason)))) :
    task = .sweep intent (.recording call (some reason)) ∨
      ∃ input' node, input = .sweep input' ∧
        ((task = .sweep intent (.consulting node) ∧ ∃ owner, reason = .owned owner ∧
            (ownerOfSlotObserving w.hook.journal intent.payload.slotName crossOpGrace
              (input'.consultFor pool node)).1 = some owner) ∨
          (task = .sweep intent (.dropping node) ∧
            ((∃ slots, reason = .dropped slots ∧ intent.payload.slotName ∉ slots) ∨
              reason = .droppedByPeer ∨
                reason = .keptByPeer ∧ pool.isLocal node = false ∧
                input'.retained = true))) := by
  obtain ⟨at', rfl⟩ := SlotTask.eq_sweep (about_of_next h).2.symm
  have hbare : (SlotTask.sweep intent at').bare = true := rfl
  rcases act_checks digest pool w hbare input with hsame | hchecks
  · rw [hsame] at h
    exact Or.inl (Option.some.inj h)
  · generalize SlotTask.act digest pool w _ input = result at h hchecks
    have hgiven : ∀ {call' reason'},
        some (SlotTask.sweep intent (.recording call' (some reason'))) =
        some (.sweep intent (.recording call (some reason))) → reason = reason' := by
      intro call' reason' heq
      obtain ⟨-, hat⟩ := SlotTask.sweep.inj (Option.some.inj heq)
      exact (Option.some.inj (SweepAt.recording.inj hat).2).symm
    cases hchecks with
    | workerOwned _ node input owner howner =>
      exact Or.inr ⟨input, node, rfl, Or.inl ⟨rfl, owner, hgiven h, howner⟩⟩
    | workerFree _ node input hfree => cases h
    | workerFailed _ node input call' => cases h
    | workerDropped _ node input call' hlocal =>
      refine Or.inr ⟨input, node, rfl, Or.inr ⟨rfl, Or.inl ⟨_, hgiven h, ?_⟩⟩⟩
      simp [HookState.removeSlot]
    | workerAsked _ node input call' hremote =>
      refine Or.inr ⟨input, node, rfl, Or.inr ⟨rfl, Or.inr ?_⟩⟩
      have hreason := hgiven h
      cases hretained : input.retained with
      | true =>
        rw [hretained, if_pos rfl] at hreason
        exact Or.inr ⟨hreason, hremote, rfl⟩
      | false =>
        rw [hretained, if_neg Bool.false_ne_true] at hreason
        exact Or.inl hreason
    | workerRecorded _ call' reason' input discharged hd => cases h

end Calls

/-! ## Expected runs -/

section

variable {digest : String → String} {pool : NodePool} {hook : HookState} {u : ℕ → SlotEvent}
  {k : ℕ}

/-- An entry that others complete is done then. -/
theorem finished_of_completedByOthers {id : String}
    (h : CompletedByOthers digest pool hook u k id) :
    ∃ m, k ≤ m ∧ (slotStateAt digest pool hook u m).world.hook.journal.Finished id := by
  obtain ⟨hid, m, now, hm, hevent, o, ho, rfl, hother⟩ := h
  have hforeign : (slotStateAt digest pool hook u m).world.hook.journal.foreign
      (.change o.id .complete now (.ok ())) = true := by
    refine List.all_eq_true.mpr fun d hd => ?_
    by_cases hsame : d.id = o.id
    · simp [Journal.eq_of_id hd ho hsame, hother]
    · simp [hsame]
  refine ⟨m + 1, by omega, JournalCall.complete.write o now, ?_, rfl, rfl⟩
  change _ ∈ (Tasks.step (slotTasks digest pool) (slotStateAt digest pool hook u m)
    (u m)).world.hook.journal.ops
  rw [hevent]
  simp only [Tasks.step, slotTasks, SlotWorld.change, hforeign, if_true, Journal.step]
  rw [Journal.change_of_mem ho hid rfl now]
  exact Journal.mem_put.mpr (Or.inr rfl)

/-- An owner that the worker finds is not the operation that has queued the intent, and it is done
then or later. -/
theorem justified_of_owner (hexpected : Expected digest pool hook u k) {intent : MaintenanceIntent}
    {owner : InflightOp}
    (hfinds : FindsOwner pool (slotStateAt digest pool hook u k) (u k) intent owner) :
    Justified digest pool hook u ⟨intent, .owned owner⟩ := by
  have hdrivers := drivers_stateAt digest pool hook u k
  obtain ⟨i, input, node, -, -, howner⟩ := id hfinds
  obtain ⟨-, nodeId, -, hmem⟩ := mem_of_ownerOfSlotObserving howner
  obtain ⟨hmem, hlive, -⟩ := Journal.mem_owners.mp hmem
  refine ⟨k, hfinds, fun hqueued => ?_, ?_⟩
  · obtain ⟨-, -, hundone, hfails⟩ := hdrivers.failed intent.id owner.id hqueued
    cases hstatus : owner.status with
    | inProgress =>
      rcases hexpected.consults intent owner hfinds hstatus with
        ⟨-, j, task, htask, hopId, hfailing, -⟩ | ⟨hother, -⟩
      · -- its driver has not failed, and the one that has queued the intent has
        rw [hfails j task htask hopId] at hfailing
        cases hfailing
      · rw [(hundone owner hmem rfl).2] at hother
        cases hother
    | done => exact (hundone owner hmem rfl).1 hstatus
    | abandoned => exact hlive hstatus
  · cases hstatus : owner.status with
    | inProgress =>
      rcases hexpected.consults intent owner hfinds hstatus with hthrough | ⟨-, hothers⟩
      · exact finished_of_getsThrough hthrough ⟨owner, hmem, rfl, hstatus⟩
      · exact finished_of_completedByOthers hothers
    | done => exact ⟨k, le_refl k, owner, hmem, rfl, hstatus⟩
    | abandoned => exact absurd hstatus hlive

/-- What the worker has done, and is about to record, has a reason. -/
structure Reasoned (digest : String → String) (pool : NodePool) (hook : HookState)
    (u : ℕ → SlotEvent) (s : SlotState) : Prop where
  discharged : ∀ d ∈ s.world.discharged, Justified digest pool hook u d
  recording : ∀ i intent call reason,
    s.tasks i = some (.sweep intent (.recording call (some reason))) →
    Justified digest pool hook u ⟨intent, reason⟩

/-- A call records what has a reason, and the reasons it gives are good. -/
theorem Reasoned.acts (hexpected : Expected digest pool hook u k)
    (h : Reasoned digest pool hook u (slotStateAt digest pool hook u k)) {i : ℕ}
    {input : SlotInput} (hevent : u k = .acts i input) {task : SlotTask}
    (htask : (slotStateAt digest pool hook u k).tasks i = some task) :
    Reasoned digest pool hook u
      ⟨(task.act digest pool (slotStateAt digest pool hook u k).world input).1,
        Function.update (slotStateAt digest pool hook u k).tasks i
          (task.act digest pool (slotStateAt digest pool hook u k).world input).2⟩ := by
  refine ⟨fun d hd => ?_, fun j intent call reason ho => ?_⟩
  · rcases discharged_act digest pool (slotStateAt digest pool hook u k).world task input with
      hsame | ⟨intent, call, reason, rfl, hnew⟩
    · exact h.discharged d (hsame ▸ hd)
    · rcases List.mem_cons.mp (hnew ▸ hd) with rfl | hd
      · exact h.recording i intent call reason htask
      · exact h.discharged d hd
  · rcases Tasks.update_eq_some ho with ⟨-, hnext⟩ | ⟨-, hold⟩
    · rcases recording_of_act hnext with rfl | ⟨input', node, rfl, hgives⟩
      · exact h.recording i intent call reason htask
      · rcases hgives with ⟨rfl, owner, rfl, howner⟩ | ⟨rfl, hdrop⟩
        · exact justified_of_owner hexpected ⟨i, input', node, hevent, htask, howner⟩
        · rcases hdrop with ⟨slots, rfl, hgone⟩ | rfl | ⟨rfl, hremote, hretained⟩
          · exact hgone
          · trivial
          · rw [hexpected.drops i input' intent node hevent htask hremote] at hretained
            cases hretained
    · exact h.recording j intent call reason hold

theorem Reasoned.step (hexpected : Expected digest pool hook u k)
    (h : Reasoned digest pool hook u (slotStateAt digest pool hook u k)) :
    Reasoned digest pool hook u (slotStateAt digest pool hook u (k + 1)) := by
  change Reasoned digest pool hook u
    (Tasks.step (slotTasks digest pool) (slotStateAt digest pool hook u k) (u k))
  cases hevent : u k with
  | starts i request =>
    simp only [Tasks.step]
    cases (slotStateAt digest pool hook u k).tasks i with
    | some task => exact h
    | none =>
      refine ⟨h.discharged, fun j intent call reason ho => ?_⟩
      rcases Tasks.update_eq_some ho with ⟨-, hstart⟩ | ⟨-, hold⟩
      · rcases start_cases hstart with
          ⟨req, p, r, -, htask⟩ | ⟨detached, newPrimary, htask⟩ |
          ⟨key, detached, oldPrimary, htask⟩ | ⟨intent', node, htask⟩ |
          ⟨intent', call', htask⟩ | ⟨slotName, htask⟩ <;> cases htask
      · exact h.recording j intent call reason hold
  | acts i input =>
    simp only [Tasks.step]
    cases htask : (slotStateAt digest pool hook u k).tasks i with
    | none => exact h
    | some task => exact h.acts hexpected hevent htask
  | leaves i =>
    refine ⟨h.discharged, fun j intent call reason ho => ?_⟩
    rcases Tasks.update_eq_some ho with ⟨-, hnone⟩ | ⟨-, hold⟩
    · cases hnone
    · exact h.recording j intent call reason hold
  | dies => exact ⟨h.discharged, fun j intent call reason ho => by cases ho⟩
  | changes step =>
    refine ⟨fun d hd => h.discharged d ?_, h.recording⟩
    simp only [Tasks.step, slotTasks, SlotWorld.change] at hd
    split at hd <;> exact hd

/-- In a run that keeps to what is expected, **an intent is marked as done for a reason**: its slot
is not there after the drop, or an operation owns it that is done then or later, and that is not
the one whose failure has queued the intent. -/
theorem intents_justified (digest : String → String) (pool : NodePool) (hook : HookState)
    (u : ℕ → SlotEvent) (hexpected : ∀ k, Expected digest pool hook u k) (k : ℕ) :
    ∀ d ∈ (slotStateAt digest pool hook u k).world.discharged,
      Justified digest pool hook u d := by
  have hreasoned : Reasoned digest pool hook u (slotStateAt digest pool hook u k) := by
    induction k with
    | zero =>
      refine ⟨fun d hd => ?_, fun i intent call reason ho => ?_⟩
      · cases hd
      · cases ho
    | succ k ih => exact ih.step (hexpected k)
  exact hreasoned.discharged

end

/-! ### Node 2 is recovered, and a drop of its slot is pending -/

/-- The drop that an earlier recovery of node `2` has left behind. -/
def dropOfTwo : MaintenanceIntent :=
  .append (.dropSlotCleanup "node2" "db0" "recovery_1st_stage_basebackup_failed" "busy") 0 0

/-- A call of the worker at time `0` that goes through. -/
def sweeps : SweepInput :=
  ⟨⟨0, .ok (), .ok false, 0, .ok ()⟩, .ok (), .ok (), false, false, 0, .ok ()⟩

/-- A call of a recovery at time `0` that succeeds. -/
def succeeds : SlotInput := .rebuild ⟨.ok (), true, 0⟩

/-- A new recovery is under way when the worker consults, and gets through. -/
def recoveryGetsThrough : ℕ → SlotEvent
  | 0 => .starts 1
      (.rebuild (.recovery hookRecovery) freeProbes (.recovery ⟨0, "db0"⟩ ⟨2, "db2"⟩))
  | 1 => .acts 1 succeeds
  | 2 => .starts 0 (.sweep dropOfTwo.id 0)
  | 3 => .acts 0 (.sweep sweeps)
  | 4 => .acts 0 (.sweep sweeps)
  | _ => .acts 1 succeeds

def pendingHook : HookState := ⟨Journal.empty, [dropOfTwo], 1, [], []⟩

/-- From the consult on nothing happens to the recovery but its own calls, which succeed. -/
theorem attended_recovery (s : SlotState) {m : ℕ} (hm : 3 ≤ m) (opId : String) :
    Attended s (recoveryGetsThrough m) 1 opId := by
  obtain ⟨n, rfl⟩ := Nat.exists_eq_add_of_le' hm
  rcases n with _ | _ | n
  · exact attended_acts s opId fun hi => absurd hi (by decide)
  · exact attended_acts s opId fun hi => absurd hi (by decide)
  · refine attended_acts s opId fun _ input hinput => ?_
    rw [← SlotInput.rebuild.inj hinput]

theorem recovery_getsThrough :
    GetsThrough id rebuildPool pendingHook recoveryGetsThrough 3 "0-recovery-0" :=
  ⟨by decide, 1, _, rfl, rfl, rfl, fun m hm _ =>
    ⟨attended_recovery _ hm _, m + 5, by omega, ⟨.ok (), true, 0⟩, rfl⟩⟩

/-- The worker finds the recovery in progress, and marks the drop as done; the recovery
completes. -/
theorem recoveryGetsThrough_justified :
    (slotStateAt id rebuildPool pendingHook recoveryGetsThrough 5).world.discharged ≠ [] ∧
      ∀ d ∈ (slotStateAt id rebuildPool pendingHook recoveryGetsThrough 5).world.discharged,
        Justified id rebuildPool pendingHook recoveryGetsThrough d := by
  refine ⟨List.cons_ne_nil _ _,
    intents_justified id rebuildPool pendingHook recoveryGetsThrough (fun k => ?_) 5⟩
  refine ⟨fun intent owner hfinds _ => ?_, fun i input intent node hevent htask _ => ?_⟩
  · obtain ⟨i, input, node, hevent, htask, howner⟩ := hfinds
    rcases k with _ | _ | _ | _ | _ | k
    · cases hevent
    · cases hevent
    · cases hevent
    · -- the consult: the owner is the entry of the task at `1`
      obtain ⟨rfl, hinput⟩ := Tasks.Event.acts.inj hevent
      obtain rfl := SlotInput.sweep.inj hinput
      obtain ⟨rfl, hat⟩ := SlotTask.sweep.inj (Option.some.inj htask)
      obtain rfl := SweepAt.consulting.inj hat
      obtain rfl := Option.some.inj howner
      exact Or.inl recovery_getsThrough
    · obtain ⟨rfl, -⟩ := Tasks.Event.acts.inj hevent
      cases htask
    · cases hevent
  · rcases k with _ | _ | _ | _ | _ | k
    · cases hevent
    · cases hevent
    · cases hevent
    · obtain ⟨rfl, -⟩ := Tasks.Event.acts.inj hevent
      cases htask
    · obtain ⟨rfl, -⟩ := Tasks.Event.acts.inj hevent
      cases htask
    · cases hevent

/-- The recovery of node `2` fails, and the worker looks between the append and the abandonment. -/
def sweepBetween : ℕ → SlotEvent
  | 0 => .starts 0
      (.rebuild (.recovery hookRecovery) freeProbes (.recovery ⟨0, "db0"⟩ ⟨2, "db2"⟩))
  | 1 => .acts 0 succeeds
  | 2 => .acts 0 succeeds
  | 3 => .acts 0 succeeds
  | 4 => .acts 0 succeeds
  | 5 => .acts 0 (.rebuild ⟨.error "unreachable", true, 0⟩)
  | 6 => .acts 0 (.rebuild ⟨.error "busy", true, 0⟩)
  | 7 => .acts 0 succeeds
  | 8 => .starts 1 (.sweep "0-drop_slot_cleanup-0" 0)
  | 9 => .acts 1 (.sweep sweeps)
  | 10 => .acts 1 (.sweep sweeps)
  | 11 => .acts 0 succeeds
  | _ => .leaves 0

theorem sweepBetween_lost :
    ¬ ∀ k, ∀ d ∈ (slotStateAt id rebuildPool idleHook sweepBetween k).world.discharged,
      Justified id rebuildPool idleHook sweepBetween d := by
  intro h
  obtain ⟨k, ⟨i, input, node, hevent, -⟩, hother, -⟩ := h 12 _ (List.mem_singleton.mpr rfl)
  rcases k with _ | _ | _ | _ | _ | _ | _ | _ | _ | _ | _ | _ | k
  all_goals first
    | exact hother (List.mem_singleton.mpr rfl)
    | cases hevent

end PgAgent
