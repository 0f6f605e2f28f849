import PgAgent.Ops.SlotTasks

/-!
# Whose slot is dropped

A standby is rebuilt under an entry of the journal, and the entry is what keeps others from
dropping its slot.  Three of the parties that drop slots ask the journal first and drop in a later
call, and nothing is held between the two; two of the rebuilds have no entry and do not ask.

A task is *armed* for a slot from the moment on from which it asks nobody before it drops it.
`Careful` says of one event that no entry is begun for a node while another task is armed for its
slot, and the other way round; `slots_keptInUse` carries it along every run.
-/

namespace PgAgent

/-! ## Armed tasks -/

namespace SlotTask

/-- The slot that the task may drop without asking the journal again. -/
def armed (pool : NodePool) : SlotTask → Option String
  | rebuild r (.climbing ⟨.begin _, _⟩ _) _ => if r.journaled then none else some r.slotName
  | rebuild r _ _ => some r.slotName
  | failover _ detached _ .checking => some detached.slotName
  | failover _ detached _ .dropping => some detached.slotName
  | sweep intent (.dropping node) =>
      if pool.isLocal node then some intent.payload.slotName else none
  | peerDrop slotName .dropping => some slotName
  | _ => none

/-- The consult of the journal that the task makes, if its next call is one. -/
def consults (pool : NodePool) : SlotTask → SlotInput → Option (String × SlotConsult)
  | failover _ detached _ .consulting, .failover p => some (detached.slotName, p.consult)
  | sweep intent (.consulting node), .sweep input =>
      if pool.isLocal node then some (intent.payload.slotName, input.consult) else none
  | peerDrop slotName .consulting, .peerDrop c _ => some (slotName, c)
  | _, _ => none

/-- The entry is the one under which the task rebuilds the standby. -/
def Owns (task : SlotTask) (o : InflightOp) : Prop :=
  ∃ r pos, task = rebuild r pos o.id ∧ r.journaled = true

/-- The entries in progress that rebuild the slot's node are the task's own. -/
def OnlyOwn (task : SlotTask) (j : Journal) (slotName : String) : Prop :=
  ∀ n o, nodeIdFromSlot slotName = some n → j.InFlightOn n o → o.payload.rebuilds = true →
    task.Owns o

end SlotTask

/-- A slot that an event takes away is not in use by the rebuild of another. -/
def KeptInUse (digest : String → String) (pool : NodePool) (s : SlotState) (e : SlotEvent) :
    Prop :=
  ∀ i input task slotName, e = .acts i input → s.tasks i = some task →
    slotName ∈ s.world.hook.slots →
    slotName ∉ (task.act digest pool s.world input).1.hook.slots →
    task.OnlyOwn s.world.hook.journal slotName

/-- What an event has to respect.  A rebuild without an entry starts, and a recovery begins its
entry, only on a node that nobody else is rebuilding; an entry is begun for a node only while no
other task is armed for its slot; and a consult does not look past an entry in progress. -/
structure Careful (pool : NodePool) (s : SlotState) (e : SlotEvent) : Prop where
  starts : ∀ i req p r n o, e = .starts i (.rebuild req p r) → r.journaled = false →
    nodeIdFromSlot r.slotName = some n → s.world.hook.journal.InFlightOn n o →
    o.payload.rebuilds = false
  alone : ∀ i input r pos opId n o, e = .acts i input →
    s.tasks i = some (.rebuild r pos opId) →
    (SlotTask.rebuild r pos opId).begins ≠ none → nodeIdFromSlot r.slotName = some n →
    s.world.hook.journal.InFlightOn n o → o.payload.rebuilds = false
  begins : ∀ i input task payload n j other slotName, e = .acts i input →
    s.tasks i = some task → task.begins = some payload →
    payload.targetNodeId = some n → j ≠ i →
    s.tasks j = some other → other.armed pool = some slotName →
    nodeIdFromSlot slotName ≠ some n
  consults : ∀ i input task slotName c n o, e = .acts i input → s.tasks i = some task →
    task.consults pool input = some (slotName, c) → nodeIdFromSlot slotName = some n →
    s.world.hook.journal.InFlightOn n o →
    SeesInFlight s.world.hook.journal n crossOpGrace c

/-! ## Entries in progress -/

section InFlight

variable {j : Journal} {n : NodeId} {o : InflightOp} {task : SlotTask}

/-- An entry that is in progress after an operation of the store was in progress before, unless
it has been begun. -/
theorem inFlightOn_step {retention : ℤ} {step : JournalStep}
    (h : (j.step retention step).InFlightOn n o) :
    (∃ o', j.InFlightOn n o' ∧ o'.id = o.id ∧ o'.payload = o.payload) ∨
      ∃ payload phase exclusive now written,
        step = .begin payload phase exclusive now written ∧ o.payload = payload := by
  obtain ⟨hmem, hstatus, htarget⟩ := h
  rcases Journal.mem_step hmem with hold | ⟨payload, phase, exclusive, now, written, hstep, -, -,
    hpayload⟩ | ⟨op, hop, call, now, written, -, -, rfl⟩
  · exact Or.inl ⟨o, ⟨hold, hstatus, htarget⟩, rfl, rfl⟩
  · exact Or.inr ⟨payload, phase, exclusive, now, written, hstep, hpayload⟩
  · refine Or.inl ⟨op, ⟨hop, Journal.inProgress_of_write hstatus, ?_⟩,
      (JournalCall.write_id call op now).symm, (JournalCall.write_payload call op now).symm⟩
    rw [← htarget, JournalCall.write_payload]

theorem inFlightOn_moves {j' : Journal} (hmoves : task.Moves j j') (h : j'.InFlightOn n o) :
    ∃ o', j.InFlightOn n o' ∧ o'.id = o.id ∧ o'.payload = o.payload := by
  have hchange : ∀ id call now written, (j.change id call now written).1.InFlightOn n o →
      ∃ o', j.InFlightOn n o' ∧ o'.id = o.id ∧ o'.payload = o.payload := by
    intro id call now written hc
    have hstep : (j.step 0 (.change id call now written)).InFlightOn n o := hc
    rcases inFlightOn_step hstep with
      hold | ⟨payload, phase, exclusive, now', written', hstep, -⟩
    · exact hold
    · cases hstep
  cases hmoves with
  | same => exact ⟨o, h, rfl, rfl⟩
  | own call now written _ => exact hchange _ _ _ _ h
  | observed id now written => exact hchange _ _ _ _ h

/-- After a begin an entry in progress was so before, or it is the new one. -/
theorem inFlightOn_begin {payload : InflightPayload} {phase : String} {exclusive : Bool}
    {now : UtcNanos} {written : Except String Unit}
    (h : (j.begin payload phase exclusive now written).1.InFlightOn n o) :
    j.InFlightOn n o ∨ (j.begin payload phase exclusive now written).2 = .ok o ∧
      payload.targetNodeId = some n := by
  obtain ⟨hmem, hstatus, htarget⟩ := h
  rcases Journal.begin_cases j payload phase exclusive now written with
    ⟨hsame, -⟩ | ⟨-, op, hok, hops, -, -, hpayload⟩
  · rw [hsame] at hmem
    exact Or.inl ⟨hmem, hstatus, htarget⟩
  · rw [hops, Journal.mem_put] at hmem
    rcases hmem with ⟨hold, -⟩ | rfl
    · exact Or.inl ⟨hold, hstatus, htarget⟩
    · exact Or.inr ⟨hok, by rw [← hpayload]; exact htarget⟩

/-- What is only the task's own stays so while no entry is begun. -/
theorem SlotTask.OnlyOwn.of_forall {j' : Journal} {slotName : String}
    (h : task.OnlyOwn j slotName)
    (hback : ∀ n o, j'.InFlightOn n o → o.payload.rebuilds = true →
      ∃ o', j.InFlightOn n o' ∧ o'.id = o.id ∧ o'.payload = o.payload) :
    task.OnlyOwn j' slotName := by
  intro n o hslot ho hrebuilds
  obtain ⟨o', ho', hid, hpayload⟩ := hback n o ho hrebuilds
  obtain ⟨r, pos, htask, hjournaled⟩ := h n o' hslot ho' (hpayload ▸ hrebuilds)
  exact ⟨r, pos, by rw [htask, hid], hjournaled⟩

end InFlight

/-! ## Only armed tasks drop -/

section Drops

variable {digest : String → String} {pool : NodePool} {w : SlotWorld} {task task' : SlotTask}
  {input : SlotInput} {slotName : String}

theorem HookState.mem_removeSlot {s : HookState} {x : String} :
    x ∈ (s.removeSlot slotName).slots ↔ x ∈ s.slots ∧ x ≠ slotName := by
  simp [HookState.removeSlot]

theorem HookState.mem_createSlot {s : HookState} {x : String} (h : x ∈ s.slots) :
    x ∈ (s.createSlot slotName).slots := by
  by_cases hx : x = slotName
  · simp [HookState.createSlot, hx]
  · simp [HookState.createSlot, hx, h]

/-- A rebuild takes away no slot but its own, and that when it cleans up. -/
theorem slots_perform {r : Rebuild} {v : RebuildWorld} {pos : RebuildAt} {input : RebuildInput}
    (hmem : slotName ∈ v.hook.slots)
    (hgone : slotName ∉ ((r.site digest).perform v pos input).1.hook.slots) :
    slotName = r.slotName ∧ ∃ stage e, pos = .releasing stage e := by
  cases pos with
  | climbing rung rest =>
    refine absurd ?_ hgone
    obtain ⟨call, onError⟩ := rung
    cases call with
    | begin payload =>
      rw [perform_of_begin]
      split <;> exact hmem
    | createSlot =>
      simp only [Rebuild.site, RebuildWorld.climb]
      cases input.outcome with
      | ok u => exact HookState.mem_createSlot hmem
      | error e => exact hmem
    | markDone replayKey =>
      simp only [Rebuild.site, RebuildWorld.climb]
      cases input.outcome <;> exact hmem
    | _ => exact hmem
  | releasing stage e =>
    simp only [Rebuild.site] at hgone
    cases houtcome : input.outcome with
    | error e' =>
      rw [houtcome] at hgone
      exact absurd hmem hgone
    | ok u =>
      rw [houtcome] at hgone
      refine ⟨?_, stage, e, rfl⟩
      by_contra hne
      exact hgone (HookState.mem_removeSlot.mpr ⟨hmem, hne⟩)
  | deferring stage e dropErr =>
    refine absurd ?_ hgone
    simp only [Rebuild.site, HookState.append]
    cases input.outcome <;> exact hmem
  | givingUp stage e => exact absurd hmem hgone

/-- Only an armed task takes a slot away. -/
theorem armed_of_removed (hmem : slotName ∈ w.hook.slots)
    (hgone : slotName ∉ (task.act digest pool w input).1.hook.slots) :
    task.armed pool = some slotName := by
  have hremoved : ∀ name, slotName ∉ (w.hook.removeSlot name).slots →
      some name = some slotName := by
    intro name hname
    by_contra hne
    exact hname (HookState.mem_removeSlot.mpr ⟨hmem, fun h => hne (congrArg some h.symm)⟩)
  by_cases hbare : task.bare = true
  · rcases act_checks digest pool w hbare input with hsame | hchecks
    · rw [hsame] at hgone
      exact absurd hmem hgone
    · generalize task.act digest pool w input = result at hgone hchecks
      cases hchecks with
      | hookDropped key detached oldPrimary p message => exact hremoved _ hgone
      | workerDropped intent node input call hlocal =>
        simp only [SlotTask.armed, hlocal, if_true]
        exact hremoved _ hgone
      | peerDropped name c drop => exact hremoved _ hgone
      | hookQueued key detached oldPrimary dropErr message payload p =>
        rw [(append_frame w.hook payload p.appendedAt p.appended).2] at hgone
        exact absurd hmem hgone
      | workerRecorded intent call reason input discharged h =>
        rw [(recordIntent_frame w.hook intent.id call input.now input.written).2] at hgone
        exact absurd hmem hgone
      | _ => exact absurd hmem hgone
  · cases task with
    | rebuild r pos opId =>
      cases input with
      | rebuild input =>
        obtain ⟨rfl, stage, e, rfl⟩ := slots_perform hmem hgone
        rfl
      | _ => exact absurd hmem hgone
    | fanOut detached newPrimary =>
      cases input with
      | rebuild input =>
        refine absurd ?_ hgone
        simp only [SlotTask.act, actFanOut]
        split <;> exact hmem
      | _ => exact absurd hmem hgone
    | follow op pos =>
      cases input with
      | rebuild input =>
        refine absurd ?_ hgone
        obtain ⟨call, phase⟩ := pos
        cases call with
        | queueCleanup cause dropError e =>
          simp only [SlotTask.act, actFollow, SlotWorld.appendBy]
          rw [(append_frame w.hook _ input.now input.outcome).2]
          exact hmem
        | _ => exact hmem
      | _ => exact absurd hmem hgone
    | _ => exact absurd rfl hbare

/-- A rebuild goes on as the same rebuild. -/
theorem rebuild_of_next {r : Rebuild} {pos : RebuildAt} {opId : String}
    (h : ((SlotTask.rebuild r pos opId).act digest pool w input).2 = some task') :
    ∃ pos', task' = .rebuild r pos' task'.opId :=
  SlotTask.eq_rebuild (about_of_next h).1

/-- A rebuild that is past its entry, or has none, is armed for the slot it creates. -/
theorem armed_rebuild {r : Rebuild} {pos : RebuildAt} {opId : String}
    (h : (SlotTask.rebuild r pos opId).begins = none) :
    (SlotTask.rebuild r pos opId).armed pool = some r.slotName := by
  cases pos with
  | climbing rung rest =>
    obtain ⟨call, onError⟩ := rung
    cases call with
    | begin payload => cases h
    | _ => rfl
  | _ => rfl

/-- A call of a task without an entry arms it only if its consult has reported the slot free. -/
theorem armed_of_checks {result : SlotWorld × Option SlotTask}
    (hchecks : task.Checks pool w input result)
    (h : result.2 = some task') (harmed : task'.armed pool = some slotName) :
    task.armed pool = some slotName ∨ ∃ c, task.consults pool input = some (slotName, c) ∧
      (ownerOfSlotObserving w.hook.journal slotName crossOpGrace c).1 = none := by
  cases hchecks with
  | hookFree key detached oldPrimary p hfree =>
    obtain rfl := Option.some.inj h
    obtain rfl := Option.some.inj harmed
    exact Or.inr ⟨p.consult, rfl, hfree⟩
  | hookChecked key detached oldPrimary p =>
    obtain rfl := Option.some.inj h
    exact Or.inl harmed
  | workerFree intent node input hfree =>
    obtain rfl := Option.some.inj h
    cases hlocal : pool.isLocal node with
    | false =>
      simp only [SlotTask.armed, hlocal, Bool.false_eq_true, if_false] at harmed
      cases harmed
    | true =>
      simp only [SlotTask.armed, hlocal, if_true] at harmed
      simp only [SweepInput.consultFor, hlocal, if_true] at hfree
      obtain rfl := Option.some.inj harmed
      refine Or.inr ⟨input.consult, ?_, hfree⟩
      simp only [SlotTask.consults, hlocal, if_true]
  | peerFree name c drop hfree =>
    obtain rfl := Option.some.inj h
    obtain rfl := Option.some.inj harmed
    exact Or.inr ⟨c, rfl, hfree⟩
  | _ => cases h <;> cases harmed

/-- A task that begins no entry is armed for a slot after its call only if it was before, or if
its consult has reported the slot free. -/
theorem armed_of_next (hladder : task.OnLadder) (hbegins : task.begins = none)
    (h : (task.act digest pool w input).2 = some task')
    (harmed : task'.armed pool = some slotName) :
    task.armed pool = some slotName ∨ ∃ c, task.consults pool input = some (slotName, c) ∧
      (ownerOfSlotObserving w.hook.journal slotName crossOpGrace c).1 = none := by
  by_cases hbare : task.bare = true
  · rcases act_checks digest pool w hbare input with hsame | hchecks
    · rw [hsame] at h
      obtain rfl := Option.some.inj h
      exact Or.inl harmed
    · exact armed_of_checks hchecks h harmed
  · cases task with
    | rebuild r pos opId =>
      obtain ⟨pos', hpos⟩ := rebuild_of_next h
      obtain ⟨-, hbegins'⟩ := (act_continues hbegins).onLadder hladder task' h
      rw [hpos] at harmed hbegins'
      rw [armed_rebuild hbegins'] at harmed
      rw [armed_rebuild hbegins]
      exact Or.inl harmed
    | fanOut detached newPrimary => cases hbegins
    | follow op pos =>
      cases input with
      | rebuild input =>
        simp only [SlotTask.act, actFollow, Option.map_eq_some_iff] at h
        obtain ⟨pos', -, rfl⟩ := h
        cases harmed
      | _ =>
        obtain rfl := Option.some.inj h
        cases harmed
    | _ => exact absurd rfl hbare

end Drops

/-! ## Careful runs -/

section Runs

variable {digest : String → String} {pool : NodePool} {s : SlotState} {e : SlotEvent}

/-- An event is careful at which no rebuild without an entry starts, and which neither begins an
entry nor consults the journal. -/
theorem careful_of_quiet
    (hstarts : ∀ i req p r, e = .starts i (.rebuild req p r) → r.journaled = true)
    (hacts : ∀ i input task, e = .acts i input → s.tasks i = some task →
      task.begins = none ∧ task.consults pool input = none) : Careful pool s e where
  starts i req p r n o he hbare _ _ := by
    rw [hstarts i req p r he] at hbare
    cases hbare
  alone i input r pos opId n o he htask hbegins _ _ :=
    absurd (hacts i input _ he htask).1 hbegins
  begins i input task payload n j other slotName he htask hbegins _ _ _ _ := by
    rw [(hacts i input task he htask).1] at hbegins
    cases hbegins
  consults i input task slotName c n o he htask hconsult _ _ := by
    rw [(hacts i input task he htask).2] at hconsult
    cases hconsult

/-- What a task relies on: it is on its ladder, and where it is armed the entries in progress are
its own. -/
def Safe (pool : NodePool) (w : SlotWorld) (task : SlotTask) : Prop :=
  task.OnLadder ∧
    ∀ slotName, task.armed pool = some slotName → task.OnlyOwn w.hook.journal slotName

/-- Of the tasks that start only the rebuilds without an entry are armed. -/
theorem armed_of_start {w : SlotWorld} {request : SlotRequest} {task : SlotTask} {slotName : String}
    (hstart : request.start digest pool w = some task)
    (harmed : task.armed pool = some slotName) :
    ∃ req p r, request = .rebuild req p r ∧ r.journaled = false ∧ slotName = r.slotName := by
  rcases start_cases hstart with ⟨req, p, r, rfl, rfl⟩ | ⟨detached, newPrimary, rfl⟩ |
    ⟨key, detached, oldPrimary, rfl⟩ | ⟨intent, node, rfl⟩ |
      ⟨intent, call, rfl⟩ | ⟨name, rfl⟩
  · cases r with
    | recovery primary standby => cases harmed
    | followPrimary detached newPrimary key =>
      exact ⟨req, p, _, rfl, rfl, (Option.some.inj harmed).symm⟩
    | initStandby standby primary =>
      exact ⟨req, p, _, rfl, rfl, (Option.some.inj harmed).symm⟩
  all_goals cases harmed

/-- A task that begins no entry stays safe. -/
theorem safe_of_continues {i : ℕ} {input : SlotInput} {task task' : SlotTask}
    (hcareful : Careful pool s (.acts i input)) (htask : s.tasks i = some task)
    (hsafe : Safe pool s.world task) (hbegins : task.begins = none)
    (hnext : (task.act digest pool s.world input).2 = some task') :
    Safe pool (task.act digest pool s.world input).1 task' := by
  have hcont : task.Continues s.world (task.act digest pool s.world input) := act_continues hbegins
  refine ⟨(hcont.onLadder hsafe.1 task' hnext).1, fun slotName harmed => ?_⟩
  rcases armed_of_next hsafe.1 hbegins hnext harmed with hbefore | ⟨c, hconsult, hfree⟩
  · -- armed already: the entries are those from before, and the task keeps its own
    intro n o hslot ho hrebuilds
    obtain ⟨o', ho', hid, hpayload⟩ := inFlightOn_moves hcont.journal ho
    obtain ⟨r, pos, rfl, hjournaled⟩ :=
      hsafe.2 slotName hbefore n o' hslot ho' (hpayload ▸ hrebuilds)
    obtain ⟨pos', hpos'⟩ := rebuild_of_next hnext
    refine ⟨r, pos', ?_, hjournaled⟩
    rw [hpos', hcont.opId task' hnext, ← hid]
    rfl
  · -- the consult has found no owner, so there is no entry in progress
    intro n o hslot ho hrebuilds
    obtain ⟨o', ho', -, -⟩ := inFlightOn_moves hcont.journal ho
    have hsees := hcareful.consults i input task slotName c n o' rfl htask hconsult hslot ho'
    have hnever : NeverFree s.world.hook.journal slotName crossOpGrace c := by
      refine neverFree_of_sees fun n' hn' _ => ?_
      rw [← Option.some.inj (hslot.symm.trans hn')]
      exact hsees
    exact absurd ho' (hnever hfree n hslot o')

/-- A task that has begun its entry is safe. -/
theorem safe_of_begun {i : ℕ} {input : SlotInput} {task task' : SlotTask}
    {payload : InflightPayload} (hcareful : Careful pool s (.acts i input))
    (htask : s.tasks i = some task) (hsafe : Safe pool s.world task)
    (hbegins : task.begins = some payload)
    (hnext : (task.act digest pool s.world input).2 = some task') :
    Safe pool (task.act digest pool s.world input).1 task' := by
  rcases act_begins hsafe.1 hbegins with hsame | ⟨phase, now, written, hbegun⟩
  · rw [hsame] at hnext ⊢
    obtain rfl := Option.some.inj hnext
    exact hsafe
  · obtain ⟨op, hop, hid, hladder, hnone⟩ := hbegun.next task' hnext
    refine ⟨hladder, fun slotName harmed n o hslot ho hrebuilds => ?_⟩
    rw [hbegun.journal] at ho
    cases task with
    | rebuild r pos opId =>
      obtain ⟨pos', hpos'⟩ := rebuild_of_next hnext
      have hname : slotName = r.slotName := by
        rw [hpos'] at harmed hnone
        exact Option.some.inj (harmed.symm.trans (armed_rebuild hnone))
      rcases inFlightOn_begin ho with hold | ⟨hnew, -⟩
      · have hidle := hcareful.alone i input r pos opId n o rfl htask
          (by rw [hbegins]; simp) (hname ▸ hslot) hold
        rw [hrebuilds] at hidle
        cases hidle
      · obtain rfl := Except.ok.inj (hop.symm.trans hnew)
        have hjournaled : r.journaled = true := by
          cases pos with
          | climbing rung rest =>
            obtain ⟨call, onError⟩ := rung
            cases call with
            | begin payload' => exact (hsafe.1.2 payload' rfl).1
            | _ => cases hbegins
          | _ => cases hbegins
        exact ⟨r, pos', by rw [hpos', hid], hjournaled⟩
    | fanOut detached newPrimary =>
      cases input with
      | rebuild input =>
        simp only [SlotTask.act, actFanOut] at hnext
        split at hnext
        · obtain rfl := Option.some.inj hnext
          cases harmed
        · cases hnext
      | _ =>
        obtain rfl := Option.some.inj hnext
        cases harmed
    | _ => cases hbegins

/-- A call leaves the other tasks safe. -/
theorem safe_of_other {i j : ℕ} {input : SlotInput} {task other : SlotTask}
    (hcareful : Careful pool s (.acts i input)) (htask : s.tasks i = some task) (hj : j ≠ i)
    (hother : s.tasks j = some other) (hsafe : Safe pool s.world task)
    (hsafe' : Safe pool s.world other) :
    Safe pool (task.act digest pool s.world input).1 other := by
  refine ⟨hsafe'.1, fun slotName harmed => ?_⟩
  have hown := hsafe'.2 slotName harmed
  cases hbegins : task.begins with
  | none =>
    have hcont : task.Continues s.world (task.act digest pool s.world input) :=
      act_continues hbegins
    exact hown.of_forall fun n o ho _ => inFlightOn_moves hcont.journal ho
  | some payload =>
    rcases act_begins hsafe.1 hbegins with hsame | ⟨phase, now, written, hbegun⟩
    · rw [hsame]
      exact hown
    · intro n o hslot ho hrebuilds
      rw [hbegun.journal] at ho
      rcases inFlightOn_begin ho with hold | ⟨-, htarget⟩
      · exact hown n o hslot hold hrebuilds
      · -- nobody begins an entry for the node of a slot that this task is armed for
        exact absurd hslot (hcareful.begins i input task payload n j other slotName rfl htask
          hbegins htarget hj hother harmed)

/-- The rest of the agent begins no rebuild. -/
theorem safe_of_change {w : SlotWorld} {step : JournalStep} {task : SlotTask}
    (hsafe : Safe pool w task) : Safe pool (w.change step) task := by
  refine ⟨hsafe.1, fun slotName harmed => ?_⟩
  unfold SlotWorld.change
  cases hforeign : w.hook.journal.foreign step with
  | false => exact hsafe.2 slotName harmed
  | true =>
    refine (hsafe.2 slotName harmed).of_forall fun n o ho hrebuilds => ?_
    rcases inFlightOn_step ho with hold |
        ⟨payload, phase, exclusive, now, written, rfl, hpayload⟩
    · exact hold
    · rw [hpayload] at hrebuilds
      simp [Journal.foreign, hrebuilds] at hforeign

theorem keeps_of_careful (hcareful : Careful pool s e) :
    Tasks.Keeps (slotTasks digest pool) (Safe pool) s e where
  starts i request task he hstart := by
    subst he
    refine ⟨start_onLadder hstart, fun slotName harmed n o hslot ho hrebuilds => ?_⟩
    obtain ⟨req, p, r, rfl, hjournaled, rfl⟩ := armed_of_start hstart harmed
    have hnone := hcareful.starts i req p r n o rfl hjournaled hslot ho
    rw [hrebuilds] at hnone
    cases hnone
  acts i input task task' he htask hsafe hnext := by
    subst he
    cases hbegins : task.begins with
    | none => exact safe_of_continues hcareful htask hsafe hbegins hnext
    | some payload => exact safe_of_begun hcareful htask hsafe hbegins hnext
  others i input task j other he htask hj hother hsafe hsafe' := by
    subst he
    exact safe_of_other hcareful htask hj hother hsafe hsafe'
  changes step j other _ _ hsafe := safe_of_change hsafe

/-- A run of the agent's tasks in which every event is careful **takes no slot away from the
rebuild of another**. -/
theorem slots_keptInUse (digest : String → String) (pool : NodePool) (w : SlotWorld)
    (u : ℕ → SlotEvent)
    (hcareful : ∀ k, Careful pool (Tasks.stateAt (slotTasks digest pool) (.idle w) u k) (u k))
    (k : ℕ) :
    KeptInUse digest pool (Tasks.stateAt (slotTasks digest pool) (.idle w) u k) (u k) := by
  have hsafe := Tasks.forall_task_stateAt (Tasks.forall_task_idle (Safe pool) w)
    (fun k _ => keeps_of_careful (hcareful k)) k
  intro i input task slotName _ htask hmem hgone
  exact (hsafe i task htask).2 slotName (armed_of_removed hmem hgone)

end Runs

/-! ### Node 2 is reported down, and recovered -/

/-- The report that node `2` is down, to the agent of the primary, node `0`. -/
def standbyTwoDown : FailoverReport := ⟨⟨2, "db2"⟩, ⟨0, "db0"⟩, ⟨0, "db0"⟩⟩

/-- A recovery of node `2` has begun its entry and created the slot when the hook is told that
the node is down; afterwards the standby does not answer, and the recovery cleans up. -/
def recoveryConsulted : ℕ → SlotEvent
  | 0 => .starts 0 (.rebuild (.recovery hookRecovery) freeProbes
      (.recovery ⟨0, "db0"⟩ ⟨2, "db2"⟩))
  | 1 => .acts 0 (.rebuild ⟨.ok (), true, 0⟩)
  | 2 => .acts 0 (.rebuild ⟨.ok (), true, 0⟩)
  | 3 => .acts 0 (.rebuild ⟨.ok (), true, 0⟩)
  | 4 => .starts 1 (.failover standbyTwoDown (.ok ()))
  | 5 => .acts 1 (.failover HookState.dropsAtOnce)
  | 6 => .acts 1 (.failover HookState.dropsAtOnce)
  | 7 => .acts 0 (.rebuild ⟨.ok (), true, 0⟩)
  | 8 => .acts 0 (.rebuild ⟨.error "connection refused", true, 0⟩)
  | 9 => .acts 0 (.rebuild ⟨.ok (), true, 0⟩)
  | _ => .leaves 0

abbrev consultedAt (k : ℕ) : SlotState :=
  Tasks.stateAt (slotTasks id rebuildPool) (.idle ⟨idleHook, [], []⟩) recoveryConsulted k

theorem recoveryConsulted_careful (k : ℕ) :
    Careful rebuildPool (consultedAt k) (recoveryConsulted k) := by
  by_cases hbegin : k = 1
  · -- the entry is begun while nothing is in progress and no other task is there
    subst hbegin
    refine ⟨fun i req p r n o he => (by cases he), fun i input r pos opId n o he _ _ _ ho => ?_,
      fun i input task payload n j other slotName he _ _ _ hj hother => ?_,
      fun i input task slotName c n o he _ _ _ ho => ?_⟩
    · cases ho.1
    · obtain ⟨rfl, -⟩ := Tasks.Event.acts.inj he
      have hnone : (consultedAt 1).tasks j = none := Function.update_of_ne hj _ _
      rw [hnone] at hother
      cases hother
    · cases ho.1
  by_cases hconsult : k = 5
  · -- the consult can read the journal and does not see the slot active
    subst hconsult
    refine ⟨fun i req p r n o he => (by cases he), fun i input r pos opId n o he htask => ?_,
      fun i input task payload n j other slotName he htask hbegins => ?_,
      fun i input task slotName c n o he htask hc _ _ => ?_⟩
    · obtain ⟨rfl, -⟩ := Tasks.Event.acts.inj he
      cases htask
    · obtain ⟨rfl, -⟩ := Tasks.Event.acts.inj he
      obtain rfl := Option.some.inj htask
      cases hbegins
    · obtain ⟨rfl, rfl⟩ := Tasks.Event.acts.inj he
      obtain rfl := Option.some.inj htask
      obtain ⟨-, rfl⟩ := Prod.mk.inj (Option.some.inj hc)
      exact ⟨rfl, Or.inl (by decide)⟩
  refine careful_of_quiet (fun i req p r he => ?_) (fun i input task he htask => ?_)
  · rcases k with _ | _ | _ | _ | _ | _ | _ | _ | _ | _ | k <;> cases he
    rfl
  · rcases k with _ | _ | _ | _ | _ | _ | _ | _ | _ | _ | k <;> cases he
    any_goals contradiction
    all_goals
      obtain rfl := Option.some.inj htask
      exact ⟨rfl, rfl⟩

theorem recoveryConsulted_kept :
    (∃ o, (consultedAt 7).world.hook.journal.InFlightOn 2 o ∧ o.payload.rebuilds = true) ∧
      (consultedAt 7).tasks 1 = none ∧ (consultedAt 7).world.hook.slots = ["node2"] ∧
      (consultedAt 10).world.hook.slots = [] ∧
      ∀ k, KeptInUse id rebuildPool (consultedAt k) (recoveryConsulted k) :=
  ⟨⟨_, ⟨List.mem_singleton.mpr rfl, rfl, rfl⟩, rfl⟩, rfl, rfl, rfl,
    slots_keptInUse id rebuildPool ⟨idleHook, [], []⟩ recoveryConsulted
      recoveryConsulted_careful⟩

/-- A world with the slot of node `2` and an empty journal. -/
def slotOfTwo : SlotWorld := ⟨⟨Journal.empty, [], 0, [], ["node2"]⟩, [], []⟩

/-- A recovery of node `2` begins between the consult of the hook and its drop. -/
def recoveryBetween : ℕ → SlotEvent
  | 0 => .starts 0 (.failover standbyTwoDown (.ok ()))
  | 1 => .acts 0 (.failover HookState.dropsAtOnce)
  | 2 => .starts 1 (.rebuild (.recovery hookRecovery) freeProbes
      (.recovery ⟨0, "db0"⟩ ⟨2, "db2"⟩))
  | 3 => .acts 1 (.rebuild ⟨.ok (), true, 0⟩)
  | 4 => .acts 0 (.failover HookState.dropsAtOnce)
  | 5 => .acts 0 (.failover HookState.dropsAtOnce)
  | _ => .leaves 0

theorem recoveryBetween_taken :
    ¬ ∀ k, KeptInUse id rebuildPool
      (Tasks.stateAt (slotTasks id rebuildPool) (.idle slotOfTwo) recoveryBetween k)
      (recoveryBetween k) := by
  intro h
  have hown := h 5 0 _ _ "node2" rfl rfl (by decide) (by decide)
  obtain ⟨r, pos, htask, -⟩ :=
    hown 2 _ (by decide) ⟨List.mem_singleton.mpr rfl, rfl, rfl⟩ rfl
  cases htask

end PgAgent
