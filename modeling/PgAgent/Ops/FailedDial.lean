import PgAgent.Ops.Rebuild

/-!
# A rebuild that cannot dial its standby

`init_standby` and `recovery_first_stage` create the slot of a standby before they dial its agent.
If the dial fails nothing has been done to the standby, and the slot is cleaned up like after any
later failure: it is dropped, or its drop is queued.

The creation also succeeds for a slot that was there before, and nothing records which of the two it
was. So the slot that is cleaned up may be the one that a standby has been using all along.

* `RebuildWorld.climb_hook` --- what a call of the ladder does to the slots and the queue;
* `tidy` --- the slot is created below the dial, and below every rung that cleans up;
* `slotsKept_iff` --- the failed dials that cost no slot.
-/

namespace PgAgent

open Compensation Resumable

/-- The intent is to drop the slot. -/
def MaintenanceIntent.Drops (i : MaintenanceIntent) (slot : String) : Prop :=
  ∃ host cause initialError, i.payload = .dropSlotCleanup slot host cause initialError

/-- What a call of the ladder does to the slots and the queue. -/
theorem RebuildWorld.climb_hook (digest : String → String) (r : Rebuild) (w : RebuildWorld)
    (call : RebuildCall) (input : RebuildInput) :
    (w.climb digest r call input).1.hook.queue = w.hook.queue ∧
      ((call = .createSlot ∧ (w.climb digest r call input).2 = .ok true ∧
          (w.climb digest r call input).1.hook.slots = (w.hook.createSlot r.slotName).slots) ∨
        ((call = .createSlot → ∃ e, (w.climb digest r call input).2 = .error e) ∧
          (w.climb digest r call input).1.hook.slots = w.hook.slots)) := by
  unfold climb
  cases call with
  | begin payload =>
    dsimp only
    split
    · exact ⟨rfl, Or.inr ⟨fun h => (nomatch h), rfl⟩⟩
    · exact ⟨rfl, Or.inr ⟨fun h => (nomatch h), rfl⟩⟩
  | createSlot =>
    dsimp only
    cases input.outcome with
    | ok u => exact ⟨rfl, Or.inl ⟨rfl, rfl, rfl⟩⟩
    | error e => exact ⟨rfl, Or.inr ⟨fun _ => ⟨e, rfl⟩, rfl⟩⟩
  | markDone replayKey =>
    dsimp only
    cases input.outcome <;> exact ⟨rfl, Or.inr ⟨fun h => (nomatch h), rfl⟩⟩
  | _ => exact ⟨rfl, Or.inr ⟨fun h => (nomatch h), rfl⟩⟩

namespace FailedDial

/-- A dial was tried and failed. -/
def DialFailed (calls : Calls RebuildCall Stage String) : Prop :=
  ∃ rung rest e, rung.call = .dial ∧ (At.climbing rung rest, Except.error e) ∈ calls

/-- The drop failed, and its intent could not be queued. -/
def CleanupFailed (calls : Calls RebuildCall Stage String) : Prop :=
  ∃ stage e dropErr queueErr, (At.deferring stage e dropErr, Except.error queueErr) ∈ calls

/-- Every slot that was there before is there afterwards, and no drop of it was queued: none was
appended, and those in the queue were in it before. -/
structure SlotsKept (r : Rebuild) (before after : HookState)
    (calls : Calls RebuildCall Stage String) :
    Prop where
  slots : ∀ slot ∈ before.slots, slot ∈ after.slots
  appended : r.slotName ∈ before.slots → ∀ stage e dropErr more,
    (At.deferring stage e dropErr, Except.ok more) ∉ calls
  queue : ∀ slot ∈ before.slots, ∀ i ∈ after.queue, i.Drops slot → i ∈ before.queue

/-! ## The ladders -/

/-- The slot has been created before the rung is cleaned up after, and a dial is cleaned up
after. -/
def tidyRung (created : Bool) (rung : RebuildRung) : Bool :=
  match rung.onError with
  | .answers _ => rung.call != .dial
  | .givesUp _ => rung.call != .dial
  | .cleansUp _ => created
  | .goesOn => rung.call != .dial && rung.call != .createSlot
  | .fallsBack _ _ => false

/-- All rungs of a ladder are tidy. -/
def tidy : Bool → List RebuildRung → Bool
  | _, [] => true
  | created, rung :: rest =>
      tidyRung created rung && tidy (created || rung.call == .createSlot) rest

section

variable {r : Rebuild} {before hook : HookState} {calls : Calls RebuildCall Stage String}
  {created : Bool}

/-- Below the cleanup: the queue is as it was, and so are the slots but for the one that has been
created. -/
structure Below (r : Rebuild) (before : HookState) (created : Bool) (hook : HookState)
    (calls : Calls RebuildCall Stage String) : Prop where
  queue : hook.queue = before.queue
  slots : ∀ slot, slot ∈ hook.slots ↔ slot ∈ before.slots ∨ created = true ∧
      slot = r.slotName
  undeferred : ∀ stage e dropErr answer, (At.deferring stage e dropErr, answer) ∉ calls

/-- What is claimed of the end. -/
def Told (r : Rebuild) (before hook : HookState) (calls : Calls RebuildCall Stage String) : Prop :=
  DialFailed calls →
    (SlotsKept r before hook calls ↔ r.slotName ∉ before.slots ∨ CleanupFailed calls)

theorem Below.cons (h : Below r before created hook calls) {pos : RebuildAt}
    {answer : Except String Bool} (hpos : ∀ stage e dropErr, pos ≠ .deferring stage e dropErr) :
    Below r before created hook ((pos, answer) :: calls) := by
  refine ⟨h.queue, h.slots, fun stage e dropErr answer' hmem => ?_⟩
  rcases List.mem_cons.mp hmem with heq | hmem
  · exact hpos stage e dropErr (Prod.mk.inj heq).1.symm
  · exact h.undeferred stage e dropErr answer' hmem

theorem Below.not_cleanupFailed (h : Below r before created hook calls) :
    ¬ CleanupFailed calls := by
  rintro ⟨stage, e, dropErr, queueErr, hmem⟩
  exact h.undeferred stage e dropErr _ hmem

/-- A call of the ladder that succeeds. -/
theorem Below.climb_ok {digest : String → String} {w : RebuildWorld} {call : RebuildCall}
    {input : RebuildInput} {more : Bool} (h : Below r before created w.hook calls)
    (hok : (w.climb digest r call input).2 = .ok more) :
    Below r before (created || call == .createSlot) (w.climb digest r call input).1.hook calls := by
  obtain ⟨hqueue, ⟨rfl, -, hslots⟩ | ⟨hnot, hslots⟩⟩ := w.climb_hook digest r call input
  · refine ⟨hqueue.trans h.queue, fun slot => ?_, h.undeferred⟩
    rw [hslots, HookState.createSlot, List.mem_append, List.mem_filter, h.slots slot]
    by_cases heq : slot = r.slotName <;> simp [heq]
  · have hcall : (call == .createSlot) = false := by
      refine beq_eq_false_iff_ne.mpr fun hcall => ?_
      obtain ⟨e, he⟩ := hnot hcall
      rw [hok] at he
      cases he
    rw [hcall, Bool.or_false]
    exact ⟨hqueue.trans h.queue, fun slot => by rw [hslots, h.slots slot], h.undeferred⟩

/-- A call of the ladder that fails. -/
theorem Below.climb_error {digest : String → String} {w : RebuildWorld} {call : RebuildCall}
    {input : RebuildInput} {e : String} (h : Below r before created w.hook calls)
    (herror : (w.climb digest r call input).2 = .error e) :
    Below r before created (w.climb digest r call input).1.hook calls := by
  obtain ⟨hqueue, ⟨-, hok, -⟩ | ⟨-, hslots⟩⟩ := w.climb_hook digest r call input
  · rw [hok] at herror
    cases herror
  · exact ⟨hqueue.trans h.queue, fun slot => by rw [hslots, h.slots slot], h.undeferred⟩

theorem not_dialFailed_cons (h : ¬ DialFailed calls) {pos : RebuildAt}
    {answer : Except String Bool} (hpos : ∀ rung rest e, rung.call = .dial →
      (pos, answer) ≠ (.climbing rung rest, .error e)) :
    ¬ DialFailed ((pos, answer) :: calls) := by
  rintro ⟨rung, rest, e, hdial, hmem⟩
  rcases List.mem_cons.mp hmem with heq | hmem
  · exact hpos rung rest e hdial heq.symm
  · exact h ⟨rung, rest, e, hdial, hmem⟩

/-! ## The cleanup -/

/-- The slot is dropped. -/
theorem Below.told_released (h : Below r before true hook calls) :
    Told r before (hook.removeSlot r.slotName) calls := by
  intro _
  constructor
  · intro hkept
    refine Or.inl fun hbefore => ?_
    have hafter := hkept.slots r.slotName hbefore
    simp [HookState.removeSlot] at hafter
  · rintro (hnew | hfailed)
    · refine ⟨fun slot hslot => ?_, fun hold => absurd hold hnew,
        fun slot _ i hi _ => h.queue ▸ hi⟩
      have hne : slot ≠ r.slotName := by
        rintro rfl
        exact hnew hslot
      exact List.mem_filter.mpr ⟨(h.slots slot).mpr (Or.inl hslot), by simpa using hne⟩
    · exact absurd hfailed h.not_cleanupFailed

/-- The drop is put in the queue, or that fails too. -/
theorem Below.told_deferred (h : Below r before true hook calls) (stage : Stage)
    (e dropErr : String) (input : RebuildInput) :
    Told r before
      (hook.append (.dropSlotCleanup r.slotName r.primary.hostname (r.cause stage) dropErr)
        input.now
        input.outcome)
      ((.deferring stage e dropErr, input.outcome.map fun _ => true) :: calls) := by
  intro _
  have hslots : ∀ slot ∈ before.slots, slot ∈ (hook.append (.dropSlotCleanup r.slotName
      r.primary.hostname (r.cause stage) dropErr) input.now input.outcome).slots := by
    intro slot hslot
    have hmem := (h.slots slot).mpr (Or.inl hslot)
    unfold HookState.append
    cases input.outcome <;> exact hmem
  cases houtcome : input.outcome with
  | error queueErr =>
    rw [houtcome] at hslots
    refine iff_of_true ⟨hslots, fun _ stage' e' dropErr' more hmem => ?_,
      fun slot _ i hi _ => h.queue ▸ hi⟩
      (Or.inr ⟨stage, e, dropErr, queueErr, List.mem_cons_self⟩)
    rcases List.mem_cons.mp hmem with heq | hmem
    · cases (Prod.mk.inj heq).2
    · exact h.undeferred stage' e' dropErr' _ hmem
  | ok u =>
    rw [houtcome] at hslots
    constructor
    · intro hkept
      exact Or.inl fun hold => hkept.appended hold stage e dropErr true List.mem_cons_self
    · rintro (hnew | ⟨stage', e', dropErr', queueErr, hmem⟩)
      · refine ⟨hslots, fun hold => absurd hold hnew, fun slot hslot i hi hdrops => ?_⟩
        rcases List.mem_append.mp hi with hi | hi
        · exact h.queue ▸ (List.mem_filter.mp hi).1
        · obtain rfl := List.mem_singleton.mp hi
          obtain ⟨host, cause, initialError, heq⟩ := hdrops
          obtain ⟨rfl, -⟩ := MaintenancePayload.dropSlotCleanup.inj heq
          exact absurd hslot hnew
      · rcases List.mem_cons.mp hmem with heq | hmem
        · cases (Prod.mk.inj heq).2
        · exact absurd hmem (h.undeferred stage' e' dropErr' _)

/-- Giving up touches neither the slots nor the queue. -/
theorem Told.givenUp {hook' : HookState} (h : Told r before hook calls)
    (hslots : hook'.slots = hook.slots) (hqueue : hook'.queue = hook.queue) (stage : Stage)
    (e : String) (answer : Except String Bool) :
    Told r before hook' ((.givingUp stage e, answer) :: calls) := by
  have hdial : DialFailed ((.givingUp stage e, answer) :: calls) ↔ DialFailed calls := by
    simp [DialFailed]
  have hcleanup : CleanupFailed ((.givingUp stage e, answer) :: calls) ↔ CleanupFailed calls := by
    simp [CleanupFailed]
  have hkept : SlotsKept r before hook' ((.givingUp stage e, answer) :: calls) ↔
      SlotsKept r before hook calls := by
    constructor
    · rintro ⟨hs, ha, hq⟩
      refine ⟨hslots ▸ hs, fun hold stage' e' dropErr more hin => ?_, hqueue ▸ hq⟩
      exact ha hold stage' e' dropErr more (List.mem_cons_of_mem _ hin)
    · rintro ⟨hs, ha, hq⟩
      refine ⟨hslots ▸ hs, fun hold stage' e' dropErr more hin => ?_, hqueue ▸ hq⟩
      rcases List.mem_cons.mp hin with heq | hin
      · cases (Prod.mk.inj heq).1
      · exact ha hold stage' e' dropErr more hin
  unfold Told
  rw [hdial, hkept, hcleanup]
  exact h

/-! ## Whole runs -/

/-- What holds of a handler, by where it is. -/
def OnTheWay (r : Rebuild) (before : HookState) (run : Run RebuildWorld RebuildCall Stage String) :
    RebuildAt → Prop
  | .climbing rung rest => ¬ DialFailed run.calls ∧ ∃ created,
      tidy created (rung :: rest) = true ∧ Below r before created run.world.hook run.calls
  | .releasing _ _ => Below r before true run.world.hook run.calls
  | .deferring _ _ _ => Below r before true run.world.hook run.calls
  | .givingUp _ _ => Told r before run.world.hook run.calls

/-- What is claimed of a run that has ended. -/
def ToldAtEnd (r : Rebuild) (before : HookState) (run : Run RebuildWorld RebuildCall Stage String) :
    Prop :=
  Told r before run.world.hook run.calls

/-- A failure that is not cleaned up any more. -/
theorem Told.fails {w : RebuildWorld} (h : Told r before w.hook calls) (gives : Bool)
    (stage : Stage) (e : String) :
    After (OnTheWay r before) (ToldAtEnd r before) w calls
      (if gives then .inl (.givingUp stage e) else .inr (.failed stage e)) := by
  cases gives <;> exact h

/-- The rest of a tidy ladder. -/
theorem after_climb {w : RebuildWorld} {rest : List RebuildRung} (hdial : ¬ DialFailed calls)
    (htidy : tidy created rest = true) (h : Below r before created w.hook calls) :
    After (OnTheWay r before) (ToldAtEnd r before) w calls (Compensation.climb rest) := by
  cases rest with
  | nil => exact fun hfailed => absurd hfailed hdial
  | cons rung rest => exact ⟨hdial, created, htidy, h⟩

/-- A rung that fails. -/
theorem after_error {w : RebuildWorld} {rung : RebuildRung} {rest : List RebuildRung} {e : String}
    (gives : Bool) (hdial : ¬ DialFailed calls) (htidy : tidy created (rung :: rest) = true)
    (h : Below r before created w.hook ((.climbing rung rest, .error e) :: calls)) :
    After (OnTheWay r before) (ToldAtEnd r before) w ((.climbing rung rest, .error e) :: calls)
      ((At.climbing rung rest).next gives (.error e)) := by
  obtain ⟨hrung, hrest⟩ := Bool.and_eq_true_iff.mp htidy
  -- nothing is claimed of the failure of a call that is no dial
  have hstill : rung.call ≠ .dial →
      ¬ DialFailed ((.climbing rung rest, .error e) :: calls) := by
    intro hcall
    refine not_dialFailed_cons hdial fun rung' rest' e' hdial' heq => ?_
    obtain ⟨rfl, -⟩ := At.climbing.inj (Prod.mk.inj heq).1
    exact hcall hdial'
  unfold tidyRung at hrung
  simp only [At.next]
  cases honError : rung.onError with
  | answers label =>
    rw [honError] at hrung
    exact fun hfailed => absurd hfailed (hstill (by simpa using hrung))
  | givesUp label =>
    rw [honError] at hrung
    exact Told.fails (fun hfailed => absurd hfailed (hstill (by simpa using hrung))) gives label e
  | cleansUp label =>
    rw [honError] at hrung
    obtain rfl : created = true := hrung
    exact h
  | goesOn =>
    rw [honError] at hrung
    obtain ⟨hnotDial, hnotCreate⟩ := Bool.and_eq_true_iff.mp hrung
    have hcall : (rung.call == .createSlot) = false := by simpa using hnotCreate
    rw [hcall, Bool.or_false] at hrest
    exact after_climb (hstill (by simpa using hnotDial)) hrest h
  | fallsBack call label =>
    rw [honError] at hrung
    cases hrung

/-- Every call keeps what holds of a handler. -/
theorem after_perform (digest : String → String) (run : Run RebuildWorld RebuildCall Stage String)
    (pos : RebuildAt) (input : RebuildInput) (h : OnTheWay r before run pos) :
    After (OnTheWay r before) (ToldAtEnd r before)
      ((r.site digest).perform run.world pos input).1
      ((pos, ((r.site digest).perform run.world pos input).2) :: run.calls)
      (pos.next r.journaled ((r.site digest).perform run.world pos input).2) := by
  cases pos with
  | climbing rung rest =>
    obtain ⟨hdial, created, htidy, hbelow⟩ := h
    change After _ _ (run.world.climb digest r rung.call input).1
      ((.climbing rung rest, (run.world.climb digest r rung.call input).2) :: run.calls)
      ((At.climbing rung rest).next r.journaled (run.world.climb digest r rung.call input).2)
    cases hanswer : (run.world.climb digest r rung.call input).2 with
    | error e =>
      exact after_error r.journaled hdial htidy ((hbelow.climb_error hanswer).cons (by simp))
    | ok more =>
      have hstill : ¬ DialFailed ((.climbing rung rest, .ok more) :: run.calls) :=
        not_dialFailed_cons hdial (by simp)
      cases more with
      | false => exact fun hfailed => absurd hfailed hstill
      | true =>
        exact after_climb hstill (Bool.and_eq_true_iff.mp htidy).2
          ((hbelow.climb_ok hanswer).cons (by simp))
  | releasing stage e =>
    have hbelow : ∀ answer, Below r before true run.world.hook
        ((.releasing stage e, answer) :: run.calls) := fun answer => h.cons (by simp)
    simp only [Rebuild.site]
    cases input.outcome with
    | error e' => exact hbelow _
    | ok u => exact Told.fails (hbelow _).told_released r.journaled stage e
  | deferring stage e dropErr =>
    exact Told.fails (h.told_deferred stage e dropErr input) r.journaled stage e
  | givingUp stage e =>
    have hend : Told r before ((r.site digest).perform run.world (.givingUp stage e) input).1.hook
        ((.givingUp stage e, ((r.site digest).perform run.world (.givingUp stage e) input).2) ::
          run.calls) := by
      refine Told.givenUp h ?_ ?_ stage e _
      · rfl
      · rfl
    exact hend

end

/-- **A rebuild whose dial fails costs no slot exactly if the slot of its standby was not there
before it**, or if neither the drop of the slot nor the queueing of the drop has succeeded. -/
theorem slotsKept_iff (digest : String → String) (r : Rebuild) (primary standby : NodeConfig)
    (hr : r = .recovery primary standby ∨ r = .initStandby standby primary) (w : RebuildWorld) :
    EndsIn (r.program digest) (Run.start w) r.first fun run => DialFailed run.calls →
      (SlotsKept r w.hook run.world.hook run.calls ↔
        r.slotName ∉ w.hook.slots ∨ CleanupFailed run.calls) := by
  have htidy : tidy false r.rungs = true := by
    rcases hr with rfl | rfl <;> rfl
  have hfirst : OnTheWay r w.hook (Run.start w) r.first := by
    refine ⟨?_, false, ?_, rfl, fun slot => ?_, fun stage e dropErr answer => List.not_mem_nil⟩
    · rintro ⟨rung, rest, e, -, hmem⟩
      cases hmem
    · rw [List.cons_head_tail]
      exact htidy
    · simp [Run.start]
  exact endsIn_of_after (fun run pos input h => after_perform digest run pos input h) hfirst

/-! ### A standby that streams -/

/-- Node `0`, on which the slot of node `2` is in use or not. -/
def primaryWith (slots : List String) : RebuildWorld := ⟨{ idleHook with slots := slots }, ""⟩

/-- The second call, which is the dial of `init_standby`, fails. -/
def dialDown : ℕ → RebuildInput
  | 1 => ⟨.error "connection refused", true, 0⟩
  | _ => ⟨.ok (), true, 0⟩

/-- The slot that the run itself has created is dropped, and that is all. -/
theorem slotsKept_newSlot :
    ∃ run, drive ((Rebuild.initStandby ⟨2, "db2"⟩ ⟨0, "db0"⟩).program id) 3
        (Run.start (primaryWith ["node1"]))
        (Rebuild.initStandby ⟨2, "db2"⟩ ⟨0, "db0"⟩).first
        dialDown = (run, none) ∧
      SlotsKept (.initStandby ⟨2, "db2"⟩ ⟨0, "db0"⟩) (primaryWith ["node1"]).hook
        run.world.hook
        run.calls := by
  obtain ⟨n, run, hdrive, hiff⟩ := slotsKept_iff id
    (.initStandby ⟨2, "db2"⟩ ⟨0, "db0"⟩) ⟨0, "db0"⟩ ⟨2, "db2"⟩ (Or.inr rfl)
    (primaryWith ["node1"])
    dialDown
  refine ⟨_, rfl, ?_⟩
  obtain rfl := drive_unique hdrive (rfl : drive
    ((Rebuild.initStandby ⟨2, "db2"⟩ ⟨0, "db0"⟩).program id) 3
    (Run.start (primaryWith ["node1"]))
    (Rebuild.initStandby ⟨2, "db2"⟩ ⟨0, "db0"⟩).first dialDown = (_, none))
  exact (hiff ⟨_, _, _, rfl, List.mem_cons_of_mem _ List.mem_cons_self⟩).mpr
    (Or.inl (by decide))

/-- The slot `node2` was there before the run. Nothing has been done to node `2`, and its slot is
gone. -/
theorem not_slotsKept_oldSlot :
    ∃ run, drive ((Rebuild.initStandby ⟨2, "db2"⟩ ⟨0, "db0"⟩).program id) 3
        (Run.start (primaryWith ["node1", "node2"]))
        (Rebuild.initStandby ⟨2, "db2"⟩ ⟨0, "db0"⟩).first dialDown = (run, none) ∧
      DialFailed run.calls ∧ run.world.hook.slots = ["node1"] ∧
      ¬ SlotsKept (.initStandby ⟨2, "db2"⟩ ⟨0, "db0"⟩)
        (primaryWith ["node1", "node2"]).hook
        run.world.hook run.calls := by
  refine ⟨_, rfl, ⟨_, _, _, rfl, List.mem_cons_of_mem _ List.mem_cons_self⟩, by decide, ?_⟩
  intro hkept
  have hslot := hkept.slots "node2" (by decide)
  exact absurd hslot (by decide)

end FailedDial

end PgAgent
