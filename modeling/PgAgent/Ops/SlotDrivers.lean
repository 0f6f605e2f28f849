import PgAgent.Ops.LadderSlots
import PgAgent.Ops.SlotTasks

/-!
# The drivers of the rebuilds

A recovery, and a driver that `fan_out_follow_primary` has spawned, has an entry in the journal.
Several of them work side by side with whatever else touches the journal.

* `drivers_stateAt` --- an entry has at most one driver, and one whose driver has queued a cleanup
  is never completed;
* `finished_of_getsThrough` --- a driver that is left alone and whose calls succeed completes its
  entry.
-/

namespace PgAgent

/-! ## Entries and their ids -/

/-- The sequence number can be read off an id. -/
theorem seq_of_makeId {payload payload' : InflightPayload} {now now' : UtcNanos} {seq seq' : ℕ}
    (h : makeId payload now seq = makeId payload' now' seq') : seq = seq' := by
  have hdash : ∀ n : ℕ, '-' ∉ (toString n).toList := by
    intro n hmem
    have hdigit := Decimal.isDigit_of_mem_repr hmem
    exact absurd hdigit (by decide)
  have hsplit : ∀ front digits : String,
      (front ++ "-" ++ digits).toList = front.toList ++ '-' :: digits.toList := by
    intro front digits
    simp [String.toList_append]
  have hlist := congrArg String.toList h
  simp only [makeId, hsplit] at hlist
  exact Nat.repr_injective
    (String.toList_inj.mp (Decimal.append_cons_inj_right (hdash seq) (hdash seq') hlist).2)

namespace Journal

variable {j : Journal} {id : String}

/-- The id has been drawn from the store's sequence. -/
def Drawn (j : Journal) (id : String) : Prop :=
  ∃ payload now seq, seq < j.seq ∧ id = makeId payload now seq

/-- The entry of the id, if there is one, rebuilds a standby and is not done. -/
def Undone (j : Journal) (id : String) : Prop :=
  ∀ o ∈ j.ops, o.id = id → o.status ≠ .done ∧ o.payload.rebuilds = true

theorem Drawn.mono {j' : Journal} (h : j.Drawn id) (hseq : j.seq ≤ j'.seq) : j'.Drawn id := by
  obtain ⟨payload, now, seq, hlt, rfl⟩ := h
  exact ⟨payload, now, seq, lt_of_lt_of_le hlt hseq, rfl⟩

@[simp] theorem seq_change (id : String) (call : JournalCall) (now : UtcNanos)
    (written : Except String Unit) : (j.change id call now written).1.seq = j.seq := by
  rcases change_cases j id call now written with hsame | ⟨op, -, -, -, hput⟩
  · rw [hsame]
  · rw [hput]
    rfl

variable (payload : InflightPayload) (phase : String) (exclusive : Bool) (now : UtcNanos)
  (written : Except String Unit)

theorem seq_le_begin : j.seq ≤ (j.begin payload phase exclusive now written).1.seq := by
  unfold begin
  dsimp only
  split
  · exact Nat.le_succ _
  · exact Nat.le_succ _
  · exact le_refl _

/-- A new entry has the next number of the sequence. -/
theorem begin_drawn {op : InflightOp}
    (h : (j.begin payload phase exclusive now written).2 = .ok op) :
    op.id = makeId payload now j.seq ∧
      (j.begin payload phase exclusive now written).1.Drawn op.id ∧
      (j.begin payload phase exclusive now written).1.ops = (j.put op).ops ∧
      op.status = .inProgress ∧ op.payload = payload := by
  rcases begin_cases j payload phase exclusive now written with
    ⟨-, e, he⟩ | ⟨hgate, op', hop', hops, hid, hstatus, hpayload⟩
  · rw [he] at h
    cases h
  · obtain rfl := Except.ok.inj (hop'.symm.trans h)
    refine ⟨hid, ⟨payload, now, j.seq, ?_, hid⟩, hops, hstatus, hpayload⟩
    unfold begin at h ⊢
    dsimp only at h ⊢
    split at h
    · exact Nat.lt_succ_self _
    · exact Nat.lt_succ_self _
    · rename_i hrejected
      rw [hgate] at hrejected
      cases hrejected

variable {payload phase exclusive now written}

/-- A new entry has an id that has not been drawn before. -/
theorem Drawn.ne_begin (h : j.Drawn id) {op : InflightOp}
    (hop : (j.begin payload phase exclusive now written).2 = .ok op) : op.id ≠ id := by
  obtain ⟨hid, -⟩ := begin_drawn payload phase exclusive now written hop
  obtain ⟨payload', now', seq, hlt, rfl⟩ := h
  intro heq
  have hseq := seq_of_makeId (hid.symm.trans heq)
  omega

theorem Undone.begin (h : j.Undone id) (hdrawn : j.Drawn id) :
    (j.begin payload phase exclusive now written).1.Undone id := by
  intro o ho hid
  rcases begin_cases j payload phase exclusive now written with
    ⟨hsame, -⟩ | ⟨-, op, hop, hops, -⟩
  · rw [hsame] at ho
    exact h o ho hid
  · rw [hops, mem_put] at ho
    rcases ho with ⟨hold, -⟩ | rfl
    · exact h o hold hid
    · exact absurd hid (hdrawn.ne_begin hop)

theorem undone_begin {op : InflightOp} (hrebuilds : payload.rebuilds = true)
    (h : (j.begin payload phase exclusive now written).2 = .ok op) :
    (j.begin payload phase exclusive now written).1.Undone op.id := by
  obtain ⟨-, -, hops, hstatus, hpayload⟩ := begin_drawn payload phase exclusive now written h
  intro o ho hid
  rw [hops, mem_put] at ho
  rcases ho with ⟨-, hne⟩ | rfl
  · exact absurd hid hne
  · rw [hstatus, hpayload]
    exact ⟨by decide, hrebuilds⟩

/-- Only `complete` makes an entry done. -/
theorem status_write_ne_done {call : JournalCall} {op : InflightOp} (hcall : call ≠ .complete)
    (h : op.status ≠ .done) : (call.write op now).status ≠ .done := by
  cases call with
  | updatePhase phase lastError => exact h
  | complete => exact absurd rfl hcall
  | abandon reason => simp [JournalCall.write]
  | discharge => exact h

theorem Undone.change (h : j.Undone id) {other : String} {call : JournalCall}
    (hcall : call = .complete → other ≠ id) :
    (j.change other call now written).1.Undone id := by
  intro o ho hid
  rcases change_cases j other call now written with hsame | ⟨op, hop, rfl, -, hput⟩
  · rw [hsame] at ho
    exact h o ho hid
  · rw [hput, mem_put] at ho
    rcases ho with ⟨hold, -⟩ | rfl
    · exact h o hold hid
    · rw [JournalCall.write_id] at hid
      obtain ⟨hstatus, hrebuilds⟩ := h op hop hid
      rw [JournalCall.write_payload]
      exact ⟨status_write_ne_done (fun hc => hcall hc hid) hstatus, hrebuilds⟩

/-- The rest of the agent completes no rebuild. -/
theorem Undone.step (h : j.Undone id) (hdrawn : j.Drawn id) {retention : ℤ} {step : JournalStep}
    (hforeign : j.foreign step = true) :
    (j.step retention step).Undone id ∧ (j.step retention step).Drawn id := by
  cases step with
  | begin payload phase exclusive now written =>
    exact ⟨h.begin hdrawn, hdrawn.mono (seq_le_begin payload phase exclusive now written)⟩
  | change other call now written =>
    refine ⟨?_, hdrawn.mono (le_of_eq (seq_change other call now written).symm)⟩
    by_cases hcall : call = .complete
    · subst hcall
      intro o ho hid
      change o ∈ (j.change other .complete now written).1.ops at ho
      rcases change_cases j other .complete now written with hsame | ⟨op, hop, rfl, -, hput⟩
      · rw [hsame] at ho
        exact h o ho hid
      · rw [hput, mem_put] at ho
        rcases ho with ⟨hold, -⟩ | rfl
        · exact h o hold hid
        · rw [JournalCall.write_id] at hid
          have hother := List.all_eq_true.mp hforeign op hop
          simp [(h op hop hid).2] at hother
    · exact h.change fun hc => absurd hc hcall
  | sweep now removes => exact ⟨fun o ho hid => h o (List.mem_of_mem_filter ho) hid, hdrawn⟩

/-- The entry is in progress. -/
def Underway (j : Journal) (id : String) : Prop :=
  ∃ o ∈ j.ops, o.id = id ∧ o.status = .inProgress

/-- The entry is done. -/
def Finished (j : Journal) (id : String) : Prop := ∃ o ∈ j.ops, o.id = id ∧ o.status = .done

theorem Underway.begin (h : j.Underway id) (hdrawn : j.Drawn id) :
    (j.begin payload phase exclusive now written).1.Underway id := by
  obtain ⟨o, ho, rfl, hstatus⟩ := h
  refine ⟨o, ?_, rfl, hstatus⟩
  rcases begin_cases j payload phase exclusive now written with
    ⟨hsame, -⟩ | ⟨-, op, hop, hops, -⟩
  · rw [hsame]
    exact ho
  · rw [hops, mem_put]
    exact Or.inl ⟨ho, (hdrawn.ne_begin hop).symm⟩

/-- Only `complete` and `abandon` end an entry. -/
theorem Underway.change (h : j.Underway id) {other : String} {call : JournalCall}
    (hcall : other = id → call ≠ .complete ∧ ∀ reason, call ≠ .abandon reason) :
    (j.change other call now written).1.Underway id := by
  obtain ⟨o, ho, rfl, hstatus⟩ := h
  by_cases hother : other = o.id
  · rcases change_cases j other call now written with hsame | ⟨op, hop, hid, -, hput⟩
    · rw [hsame]
      exact ⟨o, ho, rfl, hstatus⟩
    · obtain rfl := eq_of_id hop ho (hid.trans hother)
      rw [hput]
      refine ⟨call.write op now, mem_put.mpr (Or.inr rfl), JournalCall.write_id call op now, ?_⟩
      cases call with
      | updatePhase phase lastError => exact hstatus
      | complete => exact absurd rfl (hcall hother).1
      | abandon reason => exact absurd rfl ((hcall hother).2 reason)
      | discharge => exact hstatus
  · exact ⟨o, mem_change_of_ne ho (fun h => hother h.symm) call now written, rfl, hstatus⟩

theorem Underway.step (h : j.Underway id) (hdrawn : j.Drawn id) (hundone : j.Undone id)
    {retention : ℤ} {step : JournalStep} (hforeign : j.foreign step = true)
    (hkept : ∀ reason now written, step ≠ .change id (.abandon reason) now written) :
    (j.step retention step).Underway id := by
  cases step with
  | begin payload phase exclusive now written => exact h.begin hdrawn
  | change other call now written =>
    refine h.change fun hother => ⟨?_, ?_⟩
    · -- what others complete is no rebuild
      rintro rfl
      obtain ⟨o, ho, hid, -⟩ := h
      have hfalse := List.all_eq_true.mp hforeign o ho
      simp [hid, hother, (hundone o ho hid).2] at hfalse
    · rintro reason rfl
      exact hkept reason now written (by rw [hother])
  | sweep now removes =>
    obtain ⟨o, ho, hid, hstatus⟩ := h
    refine ⟨o, List.mem_filter.mpr ⟨ho, ?_⟩, hid, hstatus⟩
    simp [expired, hstatus, InflightStatus.isTerminal]

/-- A call of the driver on an entry in progress. -/
theorem change_of_underway (h : j.Underway id) (hid : id ≠ "") (call : JournalCall)
    (hcall : call ≠ .discharge) (now : UtcNanos) (written : Except String Unit) :
    (j.change id call now written).2 = written ∧
      (call = .complete → written = .ok () → (j.change id call now written).1.Finished id) := by
  obtain ⟨o, ho, rfl, hstatus⟩ := h
  have hstops : call.stops o = none := by
    cases call with
    | updatePhase phase lastError => simp [JournalCall.stops, hstatus, InflightStatus.isTerminal]
    | complete => rfl
    | abandon reason => rfl
    | discharge => exact absurd rfl hcall
  unfold Journal.change
  rw [get_of_mem ho hid]
  dsimp only
  rw [hstops]
  cases written with
  | error e => exact ⟨rfl, fun _ hw => by cases hw⟩
  | ok u =>
    refine ⟨rfl, fun hc _ => ?_⟩
    subst hc
    exact ⟨JournalCall.complete.write o now, mem_put.mpr (Or.inr rfl), rfl, rfl⟩

end Journal

/-! ## Drivers -/

section Drivers

variable {digest : String → String} {pool : NodePool} {w : SlotWorld} {task task' : SlotTask}
  {input : SlotInput} {s : SlotState}

theorem failing_of_completes (h : task.completes = true) : task.failing = false := by
  cases task with
  | rebuild r pos opId =>
    cases pos with
    | climbing rung rest => rfl
    | _ => cases h
  | follow op pos =>
    obtain ⟨call, phase⟩ := pos
    cases call with
    | complete => rfl
    | _ => cases h
  | _ => cases h

/-- The call that completes the entry is the task's last. -/
theorem act_of_completes (hladder : task.OnLadder) (h : task.completes = true) :
    task.act digest pool w input = (w, some task) ∨ (task.act digest pool w input).2 = none := by
  cases task with
  | rebuild r pos opId =>
    cases input with
    | rebuild input =>
      cases pos with
      | climbing rung rest =>
        obtain ⟨call, onError⟩ := rung
        cases call with
        | complete =>
          obtain ⟨hrest, stage, hon⟩ := hladder.1.2.1 rfl
          subst hrest
          obtain rfl : onError = .answers stage := hon
          refine Or.inr ?_
          simp only [SlotTask.act, actRebuild]
          split
          · rename_i pos' hnext
            generalize ((r.site digest).perform ⟨w.hook, opId⟩
              (.climbing ⟨.complete, .answers stage⟩ []) input).2 = answer at hnext
            rcases answer with e | more
            · cases hnext
            · cases more <;> cases hnext
          · rfl
        | _ => cases h
      | _ => cases h
    | _ => exact Or.inl rfl
  | follow op pos =>
    cases input with
    | rebuild input =>
      obtain ⟨call, phase⟩ := pos
      cases call with
      | complete =>
        refine Or.inr ?_
        simp only [SlotTask.act, actFollow]
        generalize (w.hook.journal.change op.opId .complete input.now input.outcome).2 = answer
        cases answer <;> rfl
      | _ => cases h
    | _ => exact Or.inl rfl
  | _ => cases h

/-- A task starts without an entry. -/
theorem opId_of_start {request : SlotRequest} (h : request.start digest pool w = some task) :
    task.opId = "" := by
  rcases start_cases h with ⟨req, p, r, -, rfl⟩ | ⟨detached, newPrimary, rfl⟩ |
    ⟨key, detached, oldPrimary, rfl⟩ | ⟨intent, node, rfl⟩ | ⟨intent, call, rfl⟩ |
      ⟨slotName, rfl⟩
  all_goals rfl

theorem seq_moves {j j' : Journal} (hmoves : task.Moves j j') : j.seq ≤ j'.seq := by
  cases hmoves with
  | same => exact le_refl _
  | own call now written _ => exact le_of_eq (Journal.seq_change _ _ _ _).symm
  | observed other now written => exact le_of_eq (Journal.seq_change _ _ _ _).symm

theorem undone_moves {j j' : Journal} {id : String} (hmoves : task.Moves j j') (h : j.Undone id)
    (hown : task.completes = true → task.opId ≠ id) : j'.Undone id := by
  cases hmoves with
  | same => exact h
  | own call now written hcomplete => exact h.change fun hc => hown (hcomplete hc)
  | observed other now written => exact h.change fun hc => JournalCall.noConfusion hc

theorem underway_moves {j j' : Journal} {id : String} (hmoves : task.Moves j j')
    (h : j.Underway id) (hother : task.opId ≠ id) : j'.Underway id := by
  cases hmoves with
  | same => exact h
  | own call now written _ => exact h.change fun hid => absurd hid hother
  | observed other now written =>
    exact h.change fun _ => ⟨fun hc => JournalCall.noConfusion hc,
      fun reason hc => JournalCall.noConfusion hc⟩

/-- The operation has been given up: its entry is not done, and whoever drives it is cleaning up. -/
structure GivenUp (s : SlotState) (op : String) : Prop where
  ne : op ≠ ""
  drawn : s.world.hook.journal.Drawn op
  undone : s.world.hook.journal.Undone op
  failing : ∀ i task, s.tasks i = some task → task.opId = op → task.failing = true

/-- The entry of a driver is its alone and is not done; an operation that has queued a cleanup has
been given up. -/
structure Drivers (s : SlotState) : Prop where
  onLadder : ∀ i task, s.tasks i = some task → task.OnLadder
  entry : ∀ i task, s.tasks i = some task → task.opId ≠ "" →
    s.world.hook.journal.Drawn task.opId ∧ s.world.hook.journal.Undone task.opId
  distinct : ∀ i i' task task', s.tasks i = some task → s.tasks i' = some task' →
    task.opId ≠ "" → task.opId = task'.opId → i = i'
  failed : ∀ id op, (id, op) ∈ s.world.queuedBy → GivenUp s op

theorem drivers_idle (hook : HookState) : Drivers (.idle ⟨hook, [], []⟩) where
  onLadder i task h := by cases h
  entry i task h := by cases h
  distinct i i' task task' h := by cases h
  failed id op h := by cases h

/-- Fewer tasks. -/
theorem Drivers.of_subset (h : Drivers s) {tasks : ℕ → Option SlotTask}
    (hsub : ∀ i task, tasks i = some task → s.tasks i = some task) :
    Drivers ⟨s.world, tasks⟩ where
  onLadder i task ht := h.onLadder i task (hsub i task ht)
  entry i task ht := h.entry i task (hsub i task ht)
  distinct i i' task task' ht ht' := h.distinct i i' task task' (hsub i task ht) (hsub i' task' ht')
  failed id op hq := by
    obtain ⟨hne, hdrawn, hundone, hfailing⟩ := h.failed id op hq
    exact ⟨hne, hdrawn, hundone, fun i task ht => hfailing i task (hsub i task ht)⟩

/-- A task more, which has no entry. -/
theorem Drivers.start (h : Drivers s) {i : ℕ} (hladder : task.OnLadder) (hid : task.opId = "") :
    Drivers ⟨s.world, Function.update s.tasks i (some task)⟩ := by
  have hold : ∀ j other, Function.update s.tasks i (some task) j = some other →
      s.tasks j = some other ∨ other = task := by
    intro j other ho
    rcases Tasks.update_eq_some ho with ⟨-, hnew⟩ | ⟨-, hold⟩
    · exact Or.inr (Option.some.inj hnew).symm
    · exact Or.inl hold
  refine ⟨fun j other ho => ?_, fun j other ho hne => ?_,
    fun j j' other other' ho ho' hne heq => ?_, fun id op hq => ?_⟩
  · rcases hold j other ho with ho | rfl
    · exact h.onLadder j other ho
    · exact hladder
  · rcases hold j other ho with ho | rfl
    · exact h.entry j other ho hne
    · exact absurd hid hne
  · rcases hold j other ho with ho | rfl
    · rcases hold j' other' ho' with ho' | rfl
      · exact h.distinct j j' other other' ho ho' hne heq
      · exact absurd (heq.trans hid) hne
    · exact absurd hid hne
  · obtain ⟨hne, hdrawn, hundone, hfailing⟩ := h.failed id op hq
    refine ⟨hne, hdrawn, hundone, fun j other ho hop => ?_⟩
    rcases hold j other ho with ho | rfl
    · exact hfailing j other ho hop
    · exact absurd (hop.symm.trans hid) hne

section

variable {i : ℕ} {result : SlotWorld × Option SlotTask}

/-- An operation that has been given up stays so: its driver does not get back to the completion. -/
theorem GivenUp.continues {op : String} (h : GivenUp s op) (htask : s.tasks i = some task)
    (hcont : task.Continues s.world result) :
    GivenUp ⟨result.1, Function.update s.tasks i result.2⟩ op where
  ne := h.ne
  drawn := h.drawn.mono (seq_moves hcont.journal)
  undone := by
    refine undone_moves hcont.journal h.undone fun hcompletes hop => ?_
    have hfails := h.failing i task htask hop
    rw [failing_of_completes hcompletes] at hfails
    cases hfails
  failing j other ho hop := by
    rcases Tasks.update_eq_some ho with ⟨-, hnext⟩ | ⟨-, hold⟩
    · rw [hcont.opId other hnext] at hop
      exact hcont.failing (h.failing i task htask hop) other hnext
    · exact h.failing j other hold hop

/-- A task that has failed has given up its operation: nobody else drives it. -/
theorem Drivers.givenUp (h : Drivers s) (htask : s.tasks i = some task)
    (hfailing : task.failing = true) (hne : task.opId ≠ "") : GivenUp s task.opId := by
  obtain ⟨hdrawn, hundone⟩ := h.entry i task htask hne
  refine ⟨hne, hdrawn, hundone, fun j other ho hop => ?_⟩
  obtain rfl := h.distinct i j task other htask ho hne hop.symm
  obtain rfl := Option.some.inj (htask.symm.trans ho)
  exact hfailing

/-- A call that begins no entry. -/
theorem Drivers.continues (h : Drivers s) (htask : s.tasks i = some task)
    (hcont : task.Continues s.world result)
    (hlast : task.completes = true → result.1 = s.world ∨ result.2 = none) :
    Drivers ⟨result.1, Function.update s.tasks i result.2⟩ := by
  have hdrawn : ∀ id, s.world.hook.journal.Drawn id → result.1.hook.journal.Drawn id :=
    fun id hid => hid.mono (seq_moves hcont.journal)
  refine ⟨fun j other ho => ?_, fun j other ho hne => ?_,
    fun j j' other other' ho ho' hne heq => ?_, fun id op hq => ?_⟩
  · rcases Tasks.update_eq_some ho with ⟨-, hnext⟩ | ⟨-, hold⟩
    · exact (hcont.onLadder (h.onLadder i task htask) other hnext).1
    · exact h.onLadder j other hold
  · rcases Tasks.update_eq_some ho with ⟨-, hnext⟩ | ⟨hj, hold⟩
    · rw [hcont.opId other hnext] at hne ⊢
      obtain ⟨hd, hu⟩ := h.entry i task htask hne
      refine ⟨hdrawn _ hd, ?_⟩
      by_cases hcompletes : task.completes = true
      · rcases hlast hcompletes with hsame | hnone
        · rw [hsame]
          exact hu
        · rw [hnone] at hnext
          cases hnext
      · exact undone_moves hcont.journal hu fun hc => absurd hc hcompletes
    · obtain ⟨hd, hu⟩ := h.entry j other hold hne
      refine ⟨hdrawn _ hd, undone_moves hcont.journal hu fun _ hsame => ?_⟩
      exact hj (h.distinct j i other task hold htask hne hsame.symm)
  · rcases Tasks.update_eq_some ho with ⟨hj, hnext⟩ | ⟨-, hold⟩
    · rcases Tasks.update_eq_some ho' with ⟨hj', -⟩ | ⟨-, hold'⟩
      · rw [hj, hj']
      · rw [hcont.opId other hnext] at hne heq
        rw [hj]
        exact h.distinct i j' task other' htask hold' hne heq
    · rcases Tasks.update_eq_some ho' with ⟨hj', hnext'⟩ | ⟨-, hold'⟩
      · rw [hcont.opId other' hnext'] at heq
        rw [hj']
        exact h.distinct j i other task hold htask hne heq
      · exact h.distinct j j' other other' hold hold' hne heq
  · change (id, op) ∈ result.1.queuedBy at hq
    rcases hcont.queued with hsame | ⟨hfailing, hne, id', hnew⟩
    · rw [hsame] at hq
      exact (h.failed id op hq).continues htask hcont
    · rw [hnew] at hq
      rcases List.mem_cons.mp hq with heq | hq
      · obtain ⟨-, rfl⟩ := Prod.mk.inj heq
        exact (h.givenUp htask hfailing hne).continues htask hcont
      · exact (h.failed id op hq).continues htask hcont

end

/-- A call that begins an entry: nobody else has it. -/
theorem Drivers.begun (h : Drivers s) {i : ℕ} (htask : s.tasks i = some task)
    {payload : InflightPayload} (hbegins : task.begins = some payload) {phase : String}
    {now : UtcNanos} {written : Except String Unit} {w' : SlotWorld} {next : Option SlotTask}
    (hbegun : SlotTask.Begun s.world w' next payload phase now written) :
    Drivers ⟨w', Function.update s.tasks i next⟩ := by
  have hrebuilds := begins_rebuilds (h.onLadder i task htask) hbegins
  have hdrawn : ∀ id, s.world.hook.journal.Drawn id → w'.hook.journal.Drawn id := by
    intro id hid
    rw [hbegun.journal]
    exact hid.mono (Journal.seq_le_begin payload phase false now written)
  have hundone : ∀ id, s.world.hook.journal.Drawn id → s.world.hook.journal.Undone id →
      w'.hook.journal.Undone id := by
    intro id hd hu
    rw [hbegun.journal]
    exact hu.begin hd
  have hfresh : ∀ other id, next = some other → s.world.hook.journal.Drawn id →
      other.opId ≠ id := by
    intro other id hnext hid
    obtain ⟨op, hop, hopId, -⟩ := hbegun.next other hnext
    rw [hopId]
    exact hid.ne_begin hop
  refine ⟨fun j other ho => ?_, fun j other ho hne => ?_,
    fun j j' other other' ho ho' hne heq => ?_, fun id op hq => ?_⟩
  · rcases Tasks.update_eq_some ho with ⟨-, hnext⟩ | ⟨-, hold⟩
    · obtain ⟨op, -, -, hladder, -⟩ := hbegun.next other hnext
      exact hladder
    · exact h.onLadder j other hold
  · rcases Tasks.update_eq_some ho with ⟨-, hnext⟩ | ⟨-, hold⟩
    · obtain ⟨op, hop, hopId, -⟩ := hbegun.next other hnext
      change w'.hook.journal.Drawn _ ∧ w'.hook.journal.Undone _
      rw [hbegun.journal, hopId]
      exact ⟨(Journal.begin_drawn payload phase false now written hop).2.1,
        Journal.undone_begin hrebuilds hop⟩
    · obtain ⟨hd, hu⟩ := h.entry j other hold hne
      exact ⟨hdrawn _ hd, hundone _ hd hu⟩
  · rcases Tasks.update_eq_some ho with ⟨hj, hnext⟩ | ⟨-, hold⟩
    · rcases Tasks.update_eq_some ho' with ⟨hj', -⟩ | ⟨-, hold'⟩
      · rw [hj, hj']
      · have hd := (h.entry j' other' hold' (heq ▸ hne)).1
        exact absurd heq (hfresh other _ hnext hd)
    · rcases Tasks.update_eq_some ho' with ⟨-, hnext'⟩ | ⟨-, hold'⟩
      · have hd := (h.entry j other hold hne).1
        exact absurd heq.symm (hfresh other' _ hnext' hd)
      · exact h.distinct j j' other other' hold hold' hne heq
  · change (id, op) ∈ w'.queuedBy at hq
    rw [hbegun.queued] at hq
    obtain ⟨hne, hd, hu, hfailing⟩ := h.failed id op hq
    refine ⟨hne, hdrawn op hd, hundone op hd hu, fun j other ho hop => ?_⟩
    rcases Tasks.update_eq_some ho with ⟨-, hnext⟩ | ⟨-, hold⟩
    · exact absurd hop (hfresh other op hnext hd)
    · exact hfailing j other hold hop

theorem Drivers.acts (h : Drivers s) {i : ℕ} (htask : s.tasks i = some task) :
    Drivers ⟨(task.act digest pool s.world input).1,
      Function.update s.tasks i (task.act digest pool s.world input).2⟩ := by
  have hladder := h.onLadder i task htask
  cases hbegins : task.begins with
  | none =>
    refine h.continues htask (act_continues hbegins) fun hcompletes => ?_
    rcases act_of_completes hladder hcompletes with hsame | hnone
    · exact Or.inl (by rw [hsame])
    · exact Or.inr hnone
  | some payload =>
    rcases act_begins hladder hbegins with hsame | ⟨phase, now, written, hbegun⟩
    · rw [hsame]
      refine h.of_subset fun j other ho => ?_
      rcases Tasks.update_eq_some ho with ⟨rfl, hnext⟩ | ⟨-, hold⟩
      · exact htask.trans hnext
      · exact hold
    · exact h.begun htask hbegins hbegun

theorem Drivers.changes (h : Drivers s) (step : JournalStep) :
    Drivers ⟨s.world.change step, s.tasks⟩ := by
  unfold SlotWorld.change
  cases hforeign : s.world.hook.journal.foreign step with
  | false => exact h
  | true =>
    refine ⟨h.onLadder, fun i task htask hne => ?_, h.distinct, fun id op hq => ?_⟩
    · obtain ⟨hd, hu⟩ := h.entry i task htask hne
      exact (hu.step hd hforeign).symm
    · obtain ⟨hne, hd, hu, hfailing⟩ := h.failed id op hq
      exact ⟨hne, (hu.step hd hforeign).2, (hu.step hd hforeign).1, hfailing⟩

theorem Drivers.step (h : Drivers s) (e : SlotEvent) :
    Drivers (Tasks.step (slotTasks digest pool) s e) := by
  cases e with
  | starts i request =>
    simp only [Tasks.step]
    cases s.tasks i with
    | some task => exact h
    | none =>
      cases hstart : (slotTasks digest pool).start s.world request with
      | none =>
        refine h.of_subset fun j other ho => ?_
        rcases Tasks.update_eq_some ho with ⟨-, hnone⟩ | ⟨-, hold⟩
        · cases hnone
        · exact hold
      | some task => exact h.start (start_onLadder hstart) (opId_of_start hstart)
  | acts i input =>
    simp only [Tasks.step]
    cases htask : s.tasks i with
    | none => exact h
    | some task => exact h.acts htask
  | leaves i =>
    refine h.of_subset fun j other ho => ?_
    rcases Tasks.update_eq_some ho with ⟨-, hnone⟩ | ⟨-, hold⟩
    · cases hnone
    · exact hold
  | dies =>
    refine h.of_subset fun j other ho => ?_
    cases ho
  | changes step => exact h.changes step

/-- Along every run from an idle agent an entry has at most one driver, and **an entry whose driver
has queued a cleanup is never completed**. -/
theorem drivers_stateAt (digest : String → String) (pool : NodePool) (hook : HookState)
    (u : ℕ → SlotEvent) (k : ℕ) :
    Drivers (slotStateAt digest pool hook u k) := by
  induction k with
  | zero => exact drivers_idle hook
  | succ k ih => exact ih.step (u k)

end Drivers

/-! ## Drivers that get through -/

/-- The ladder of an entry: it leads to the completion of the entry, no call of it says that there
is nothing to do, and none has a substitute. -/
def Completing : List RebuildRung → Prop
  | [] => False
  | rung :: rest =>
      rung.call ≠ .getStatus ∧ (∀ call stage, rung.onError ≠ .fallsBack call stage) ∧
        (rung.call = .complete ∨ Completing rest)

theorem Rebuild.completing {r : Rebuild} (h : r.journaled = true) : Completing r.rungs := by
  cases r with
  | recovery primary standby => simp [Rebuild.rungs, Rebuild.recoveryRungs, Completing]
  | _ => cases h

namespace SlotTask

/-- A rebuild with an entry is past its begin, and a recovery is on its way to the completion. -/
def Bound : SlotTask → Prop
  | rebuild r (.climbing rung rest) opId =>
      (opId ≠ "" → r.journaled = true ∧ ∀ payload, rung.call ≠ .begin payload) ∧
        (r.journaled = true → Completing (rung :: rest))
  | _ => True

/-- The task goes on when the call it is at fails. -/
def tolerates : SlotTask → Bool
  | rebuild _ (.climbing ⟨_, .goesOn⟩ _) _ => true
  | rebuild _ (.climbing ⟨_, .fallsBack _ _⟩ _) _ => true
  | follow _ ⟨.rewind, _⟩ => true
  | _ => false

/-- How far the task is from its end. -/
def height : SlotTask → ℕ
  | rebuild _ pos _ => pos.rank
  | follow _ pos => pos.call.height
  | _ => 0

end SlotTask

section Progress

open Compensation

variable {digest : String → String} {pool : NodePool} {w : SlotWorld} {task task' : SlotTask}
  {input : SlotInput} {s : SlotState}

theorem bound_act (hladder : task.OnLadder) (hbound : task.Bound)
    (hnext : (task.act digest pool w input).2 = some task') : task'.Bound := by
  cases task' with
  | rebuild r pos' opId' =>
    obtain ⟨pos, hpos⟩ := SlotTask.eq_rebuild (about_of_next hnext).1.symm
    generalize task.opId = opId at hpos
    subst hpos
    cases input with
    | rebuild input =>
      cases pos' with
      | climbing rung' rest' =>
        obtain ⟨pos'', hp, htask⟩ := next_of_actRebuild hnext
        obtain ⟨-, rfl, rfl⟩ := SlotTask.rebuild.inj htask
        obtain ⟨rung, rest, rfl, hup⟩ := At.climbing_of_next hp
        obtain ⟨-, hbegin'⟩ := orderly_next hladder.1 hp
        refine ⟨fun hid => ⟨?_, hbegin'⟩, fun hjournaled => ?_⟩
        · -- the entry is the one of before, unless it has just been begun
          by_cases hbegin : ∃ payload, rung.call = .begin payload
          · obtain ⟨payload, hcall⟩ := hbegin
            exact (hladder.2 payload hcall).1
          · push Not at hbegin
            rw [(perform_moves digest w.hook (begins_of_climbing r rest opId hbegin) input).1]
              at hid
            exact (hbound.1 hid).1
        · obtain ⟨-, hback, hleads⟩ := hbound.2 hjournaled
          rcases hup with hrest | ⟨call, stage, herror, -⟩
          · rcases hleads with hcomplete | hleads
            · rw [(hladder.1.2.1 hcomplete).1] at hrest
              cases hrest
            · rwa [hrest] at hleads
          · exact absurd herror (hback call stage)
      | _ => trivial
    | _ =>
      obtain ⟨-, rfl, rfl⟩ := SlotTask.rebuild.inj (Option.some.inj hnext)
      exact hbound
  | _ => trivial

theorem bound_start {request : SlotRequest} (h : request.start digest pool w = some task) :
    task.Bound := by
  rcases start_cases h with ⟨req, p, r, -, rfl⟩ | ⟨detached, newPrimary, rfl⟩ |
    ⟨key, detached, oldPrimary, rfl⟩ | ⟨intent, node, rfl⟩ | ⟨intent, call, rfl⟩ |
      ⟨slotName, rfl⟩
  · refine ⟨fun hid => absurd rfl hid, fun hjournaled => ?_⟩
    rw [List.cons_head_tail]
    exact Rebuild.completing hjournaled
  all_goals trivial

/-- A call of the ladder on an entry in progress is answered by its outcome. -/
theorem climb_of_underway {v : RebuildWorld} (h : v.hook.journal.Underway v.opId)
    (hid : v.opId ≠ "") {r : Rebuild} {call : RebuildCall}
    (hbegin : ∀ payload, call ≠ .begin payload)
    (hstatus : call ≠ .getStatus) (input : RebuildInput) :
    (v.climb digest r call input).2 = input.outcome.map fun _ => true := by
  cases call with
  | begin payload => exact absurd rfl (hbegin payload)
  | getStatus => exact absurd rfl hstatus
  | updatePhase phase =>
    have hanswer := (Journal.change_of_underway h hid (.updatePhase phase.name none)
      (fun hc => JournalCall.noConfusion hc) input.now input.outcome).1
    simp only [RebuildWorld.climb, RebuildWorld.journalCall, hanswer]
  | complete =>
    have hanswer := (Journal.change_of_underway h hid .complete
      (fun hc => JournalCall.noConfusion hc) input.now input.outcome).1
    simp only [RebuildWorld.climb, RebuildWorld.journalCall, hanswer]
  | createSlot =>
    simp only [RebuildWorld.climb]
    cases input.outcome <;> rfl
  | markDone replayKey =>
    simp only [RebuildWorld.climb]
    cases input.outcome <;> rfl
  | _ => rfl

/-- A call of the ladder leaves the entry in progress, unless it completes it. -/
theorem underway_climb {v : RebuildWorld} (h : v.hook.journal.Underway v.opId) {r : Rebuild}
    {call : RebuildCall} (hbegin : ∀ payload, call ≠ .begin payload)
    (hcomplete : call ≠ .complete) (input : RebuildInput) :
    (v.climb digest r call input).1.hook.journal.Underway v.opId := by
  cases call with
  | begin payload => exact absurd rfl (hbegin payload)
  | complete => exact absurd rfl hcomplete
  | updatePhase phase =>
    exact h.change fun _ => ⟨fun hc => JournalCall.noConfusion hc,
      fun reason hc => JournalCall.noConfusion hc⟩
  | createSlot =>
    simp only [RebuildWorld.climb]
    cases input.outcome <;> exact h
  | markDone replayKey =>
    simp only [RebuildWorld.climb]
    cases input.outcome <;> exact h
  | _ => exact h

/-- What a call of a driver comes to that succeeds, or whose failure is tolerated: the driver gets
on, or the entry is done. -/
def GetsOn (task : SlotTask) (result : SlotWorld × Option SlotTask) : Prop :=
  (∃ task', result.2 = some task' ∧ task'.opId = task.opId ∧ task'.failing = false ∧
      task'.height < task.height ∧ result.1.hook.journal.Underway task.opId) ∨
    result.1.hook.journal.Finished task.opId

theorem actRebuild_getsOn {r : Rebuild} {rung : RebuildRung} {rest : List RebuildRung}
    {opId : String} (hladder : (SlotTask.rebuild r (.climbing rung rest) opId).OnLadder)
    (hbound : (SlotTask.rebuild r (.climbing rung rest) opId).Bound) (hid : opId ≠ "")
    (hunderway : w.hook.journal.Underway opId) (input : RebuildInput)
    (hok : input.outcome = .ok () ∨
      (SlotTask.rebuild r (.climbing rung rest) opId).tolerates = true) :
    GetsOn (.rebuild r (.climbing rung rest) opId)
      (actRebuild digest w r (.climbing rung rest) opId input) := by
  obtain ⟨hjournaled, hbegin⟩ := hbound.1 hid
  obtain ⟨hstatus, hback, hleads⟩ := hbound.2 hjournaled
  have hopId := (perform_moves digest w.hook (begins_of_climbing r rest opId hbegin) input).1
  have hanswer : ((r.site digest).perform ⟨w.hook, opId⟩ (.climbing rung rest) input).2 =
      input.outcome.map fun _ => true :=
    climb_of_underway (v := ⟨w.hook, opId⟩) hunderway hid hbegin hstatus input
  by_cases hcomplete : rung.call = .complete
  · -- the last call, which is not tolerated to fail
    right
    obtain ⟨-, stage, hon⟩ := hladder.1.2.1 hcomplete
    have hwritten : input.outcome = .ok () := by
      rcases hok with hok | htolerates
      · exact hok
      · obtain ⟨call, onError⟩ := rung
        obtain rfl : onError = .answers stage := hon
        cases htolerates
    obtain ⟨call, onError⟩ := rung
    obtain rfl : call = .complete := hcomplete
    exact (Journal.change_of_underway hunderway hid .complete
      (fun hc => JournalCall.noConfusion hc) input.now input.outcome).2 rfl hwritten
  · left
    have hmore : Completing rest := hleads.resolve_left hcomplete
    cases rest with
    | nil => exact absurd hmore (by simp [Completing])
    | cons above rest =>
      have hnext : At.next r.journaled (.climbing rung (above :: rest))
          (input.outcome.map fun _ => true) =
          (.inl (.climbing above rest) : RebuildAt ⊕ Ending Stage String) := by
        rcases hok with hok | htolerates
        · rw [hok]
          rfl
        · cases input.outcome with
          | ok u => rfl
          | error e =>
            obtain ⟨call, onError⟩ := rung
            cases onError with
            | goesOn => rfl
            | fallsBack call stage => exact absurd rfl (hback call stage)
            | _ => cases htolerates
      refine ⟨.rebuild r (.climbing above rest) opId, ?_, rfl, rfl, At.rank_next hnext, ?_⟩
      · simp only [actRebuild, hanswer, hnext, hopId]
      · exact underway_climb (v := ⟨w.hook, opId⟩) hunderway hbegin hcomplete input

/-- The next call of a driver that fails nowhere; a rewind is made up for. -/
theorem next_getsOn (op : FollowOp) {call : FollowCall} (startPhase : FollowPhase) (running : Bool)
    {outcome : Except String Unit} (hok : outcome = .ok () ∨ call = .rewind)
    (hfailing : (SlotTask.follow op ⟨call, startPhase⟩).failing = false)
    (hcomplete : call ≠ .complete) :
    ∃ call', op.next ⟨call, startPhase⟩ running outcome = .inl ⟨call', startPhase⟩ ∧
      (SlotTask.follow op ⟨call', startPhase⟩).failing = false ∧
      call'.height < call.height := by
  rcases hok with rfl | rfl
  · cases call with
    | updatePhase phase => cases phase <;> exact ⟨_, rfl, rfl, by decide⟩
    | dialNewPrimary => cases startPhase <;> exact ⟨_, rfl, rfl, by decide⟩
    | getStatus => cases running <;> exact ⟨_, rfl, rfl, by decide⟩
    | dropSlot cause error => cases hfailing
    | queueCleanup cause dropError error => cases hfailing
    | complete => exact absurd rfl hcomplete
    | abandon error => cases hfailing
    | _ => exact ⟨_, rfl, rfl, by decide⟩
  · cases outcome <;> exact ⟨_, rfl, rfl, by decide⟩

theorem actFollow_getsOn {op : FollowOp} {pos : FollowPosition}
    (hfailing : (SlotTask.follow op pos).failing = false) (hid : op.opId ≠ "")
    (hunderway : w.hook.journal.Underway op.opId) (input : RebuildInput)
    (hok : input.outcome = .ok () ∨ (SlotTask.follow op pos).tolerates = true) :
    GetsOn (.follow op pos) (actFollow w op pos input) := by
  obtain ⟨call, startPhase⟩ := pos
  have hrewind : input.outcome = .ok () ∨ call = .rewind := by
    rcases hok with hok | htolerates
    · exact Or.inl hok
    · cases call with
      | rewind => exact Or.inr rfl
      | _ => cases htolerates
  by_cases hcomplete : call = .complete
  · right
    subst hcomplete
    have hwritten : input.outcome = .ok () := hrewind.resolve_right (by simp)
    exact (Journal.change_of_underway hunderway hid .complete
      (fun hc => JournalCall.noConfusion hc) input.now input.outcome).2 rfl hwritten
  · left
    obtain ⟨call', hnext, hfailing', hheight⟩ :=
      next_getsOn op startPhase input.running hrewind hfailing hcomplete
    refine ⟨.follow op ⟨call', startPhase⟩, ?_, rfl, hfailing', hheight, ?_⟩
    · cases call with
      | updatePhase phase =>
        have hanswer := (Journal.change_of_underway hunderway hid (.updatePhase phase.name none)
          (fun hc => JournalCall.noConfusion hc) input.now input.outcome).1
        simp only [actFollow, hanswer, hnext]
        rfl
      | complete => exact absurd rfl hcomplete
      | dropSlot cause error => cases hfailing
      | queueCleanup cause dropError error => cases hfailing
      | abandon error => cases hfailing
      | _ =>
        simp only [actFollow, hnext]
        rfl
    · cases call with
      | updatePhase phase =>
        exact hunderway.change fun _ => ⟨fun hc => JournalCall.noConfusion hc,
          fun reason hc => JournalCall.noConfusion hc⟩
      | complete => exact absurd rfl hcomplete
      | dropSlot cause error => cases hfailing
      | queueCleanup cause dropError error => cases hfailing
      | abandon error => cases hfailing
      | _ => exact hunderway

theorem act_getsOn (hladder : task.OnLadder) (hbound : task.Bound) (hid : task.opId ≠ "")
    (hfailing : task.failing = false) (hunderway : w.hook.journal.Underway task.opId)
    (input : RebuildInput) (hok : input.outcome = .ok () ∨ task.tolerates = true) :
    GetsOn task (task.act digest pool w (.rebuild input)) := by
  cases task with
  | rebuild r pos opId =>
    cases pos with
    | climbing rung rest => exact actRebuild_getsOn hladder hbound hid hunderway input hok
    | _ => cases hfailing
  | follow op pos => exact actFollow_getsOn hfailing hid hunderway input hok
  | _ => exact absurd rfl hid

/-- A driver is moved by the inputs of its calls only. -/
theorem act_of_driver (digest : String → String) (pool : NodePool) (w : SlotWorld)
    (hid : task.opId ≠ "") (input : SlotInput) :
    (∃ input', input = .rebuild input') ∨ task.act digest pool w input = (w, some task) := by
  cases input with
  | rebuild input => exact Or.inl ⟨input, rfl⟩
  | _ =>
    right
    cases task with
    | rebuild r pos opId => rfl
    | follow op pos => rfl
    | _ => exact absurd rfl hid

/-- What an event has to leave to the driver of an entry: the driver is not dropped, its own calls
succeed or their failures are tolerated, and nobody abandons the entry. -/
structure Attended (s : SlotState) (e : SlotEvent) (i : ℕ) (id : String) : Prop where
  lives : e ≠ .dies ∧ e ≠ .leaves i
  succeeds : ∀ input task, e = .acts i (.rebuild input) → s.tasks i = some task →
    input.outcome = .ok () ∨ task.tolerates = true
  keeps : ∀ reason now written, e ≠ .changes (.change id (.abandon reason) now written)

/-- A call of another task, or one of the driver that succeeds. -/
theorem attended_acts (s : SlotState) {i j : ℕ} {input : SlotInput} (id : String)
    (h : j = i → ∀ input', input = .rebuild input' → input'.outcome = .ok ()) :
    Attended s (.acts j input) i id where
  lives := ⟨nofun, nofun⟩
  succeeds input' task he _ := by
    obtain ⟨hj, hinput⟩ := Tasks.Event.acts.inj he
    exact Or.inl (h hj input' hinput)
  keeps := nofun

/-- The entry has a driver that has not failed; as long as it has the driver it is attended to, and
the driver gets to its next call. -/
def GetsThrough (digest : String → String) (pool : NodePool) (hook : HookState)
    (u : ℕ → SlotEvent) (k : ℕ) (id : String) : Prop :=
  id ≠ "" ∧ ∃ i task, (slotStateAt digest pool hook u k).tasks i = some task ∧
  task.opId = id ∧
    task.failing = false ∧
      ∀ m, k ≤ m → (∃ task, (slotStateAt digest pool hook u m).tasks i = some task ∧
        task.opId = id) →
        Attended (slotStateAt digest pool hook u m) (u m) i id ∧
          ∃ m', m ≤ m' ∧ ∃ input, u m' = .acts i (.rebuild input)

/-- The driver at `i` is at most `n` calls from the completion of its entry. -/
def Driving (s : SlotState) (i : ℕ) (id : String) (n : ℕ) : Prop :=
  ∃ task, s.tasks i = some task ∧ task.opId = id ∧ task.failing = false ∧
    task.height ≤ n ∧
    s.world.hook.journal.Underway id

/-- A call of another task leaves the entry in progress. -/
theorem underway_act (h : Drivers s) {j : ℕ} (htask : s.tasks j = some task) {id : String}
    (hother : task.opId ≠ id) (hdrawn : s.world.hook.journal.Drawn id)
    (hunderway : s.world.hook.journal.Underway id) :
    (task.act digest pool s.world input).1.hook.journal.Underway id := by
  cases hbegins : task.begins with
  | none =>
    have hcont : task.Continues s.world (task.act digest pool s.world input) :=
      act_continues hbegins
    exact underway_moves hcont.journal hunderway hother
  | some payload =>
    rcases act_begins (h.onLadder j task htask) hbegins with hsame |
        ⟨phase, now, written, hbegun⟩
    · rw [hsame]
      exact hunderway
    · rw [hbegun.journal]
      exact hunderway.begin hdrawn

section

variable {e : SlotEvent} {i n : ℕ} {id : String}

/-- The driver's own call. -/
theorem Driving.acts (h : Driving s i id n) (hdrivers : Drivers s)
    (hbound : Tasks.ForallTask (fun _ => SlotTask.Bound) s) (hid : id ≠ "") {input : RebuildInput}
    (hattended : Attended s (.acts i (.rebuild input)) i id) :
    (∃ n', n' < n ∧
        Driving (Tasks.step (slotTasks digest pool) s (.acts i (.rebuild input))) i id n') ∨
      (Tasks.step (slotTasks digest pool) s
        (.acts i (.rebuild input))).world.hook.journal.Finished id := by
  obtain ⟨task, htask, rfl, hfailing, hheight, hunderway⟩ := h
  have hgets : GetsOn task (task.act digest pool s.world (.rebuild input)) :=
    act_getsOn (hdrivers.onLadder i task htask) (hbound i task htask) hid hfailing hunderway input
      (hattended.succeeds input task rfl htask)
  simp only [Tasks.step, htask]
  rcases hgets with ⟨task', hnext, hopId, hfailing', hlower, hunderway'⟩ | hfinished
  · refine Or.inl ⟨task'.height, by omega, task', ?_, hopId, hfailing', le_refl _, hunderway'⟩
    exact (Function.update_self ..).trans hnext
  · exact Or.inr hfinished

theorem Driving.step (h : Driving s i id n) (hdrivers : Drivers s)
    (hbound : Tasks.ForallTask (fun _ => SlotTask.Bound) s) (hid : id ≠ "")
    (hattended : Attended s e i id) :
    Driving (Tasks.step (slotTasks digest pool) s e) i id n ∨
      (Tasks.step (slotTasks digest pool) s e).world.hook.journal.Finished id := by
  obtain ⟨task, htask, hopId, hfailing, hheight, hunderway⟩ := h
  obtain ⟨hdrawn, hundone⟩ := hdrivers.entry i task htask (hopId ▸ hid)
  rw [hopId] at hdrawn hundone
  cases e with
  | starts j request =>
    left
    simp only [Tasks.step]
    cases hfree : s.tasks j with
    | some other => exact ⟨task, htask, hopId, hfailing, hheight, hunderway⟩
    | none =>
      refine ⟨task, ?_, hopId, hfailing, hheight, hunderway⟩
      have hj : i ≠ j := by
        rintro rfl
        rw [htask] at hfree
        cases hfree
      exact (Function.update_of_ne hj ..).trans htask
  | acts j input =>
    by_cases hj : j = i
    · subst hj
      rcases act_of_driver digest pool s.world (hopId ▸ hid) input with
        ⟨input, rfl⟩ | hsame
      · have hdriving : Driving s j id n := ⟨task, htask, hopId, hfailing, hheight, hunderway⟩
        rcases hdriving.acts hdrivers hbound hid hattended with
          ⟨n', hlower, task', htask', hopId', hfailing', hheight', hunderway'⟩ | hfinished
        · exact Or.inl ⟨task', htask', hopId', hfailing', by omega, hunderway'⟩
        · exact Or.inr hfinished
      · left
        have hact : (slotTasks digest pool).act s.world task input = (s.world, some task) := hsame
        simp only [Tasks.step, htask, hact]
        exact ⟨task, Function.update_self .., hopId, hfailing, hheight, hunderway⟩
    · left
      simp only [Tasks.step]
      cases hother : s.tasks j with
      | none => exact ⟨task, htask, hopId, hfailing, hheight, hunderway⟩
      | some other =>
        have hne : other.opId ≠ id := by
          intro hsame
          exact hj (hdrivers.distinct i j task other htask hother (hopId ▸ hid)
            (hopId.trans hsame.symm)).symm
        refine ⟨task, ?_, hopId, hfailing, hheight,
          underway_act hdrivers hother hne hdrawn hunderway⟩
        exact (Function.update_of_ne (Ne.symm hj) ..).trans htask
  | leaves j =>
    left
    have hj : i ≠ j := by
      rintro rfl
      exact hattended.lives.2 rfl
    exact ⟨task, (Function.update_of_ne hj ..).trans htask, hopId, hfailing, hheight, hunderway⟩
  | dies => exact absurd rfl hattended.lives.1
  | changes step =>
    left
    refine ⟨task, htask, hopId, hfailing, hheight, ?_⟩
    change (s.world.change step).hook.journal.Underway id
    unfold SlotWorld.change
    cases hforeign : s.world.hook.journal.foreign step with
    | false => exact hunderway
    | true =>
      exact hunderway.step hdrawn hundone hforeign fun reason now written hstep =>
        hattended.keeps reason now written (by rw [hstep])

end

theorem bound_stateAt (digest : String → String) (pool : NodePool) (hook : HookState)
    (u : ℕ → SlotEvent) (k : ℕ) :
    Tasks.ForallTask (fun _ => SlotTask.Bound) (slotStateAt digest pool hook u k) := by
  refine Tasks.forall_task_stateAt (Tasks.forall_task_idle _ _) (fun k _ => ?_) k
  refine ⟨fun i request task _ hstart => bound_start hstart,
    fun i input task task' _ htask hbound hnext => ?_,
    fun i input task j other _ _ _ _ _ hbound => hbound, fun step j other _ _ hbound => hbound⟩
  exact bound_act ((drivers_stateAt digest pool hook u k).onLadder i task htask) hbound hnext

/-- A driver that **gets through completes its entry**. -/
theorem finished_of_getsThrough {digest : String → String} {pool : NodePool} {hook : HookState}
    {u : ℕ → SlotEvent} {k : ℕ} {id : String} (h : GetsThrough digest pool hook u k id)
    (hunderway : (slotStateAt digest pool hook u k).world.hook.journal.Underway id) :
    ∃ m, k ≤ m ∧ (slotStateAt digest pool hook u m).world.hook.journal.Finished id := by
  obtain ⟨hid, i, task, htask, hopId, hfailing, hattended⟩ := h
  have hdrives : ∀ {m n}, Driving (slotStateAt digest pool hook u m) i id n →
      ∃ task, (slotStateAt digest pool hook u m).tasks i = some task ∧ task.opId = id := by
    rintro m n ⟨task, htask, hopId, -⟩
    exact ⟨task, htask, hopId⟩
  have hstart : k ≤ k ∧ Driving (slotStateAt digest pool hook u k) i id task.height :=
    ⟨le_refl k, task, htask, hopId, hfailing, le_refl _, hunderway⟩
  refine Trace.exists_of_rank
    (P := fun m n => k ≤ m ∧ Driving (slotStateAt digest pool hook u m) i id n)
    (A := fun m => ∃ input, u m = .acts i (.rebuild input)) ?_ ?_ ?_ hstart
  · rintro m n ⟨hm, hdriving⟩
    have hstep : Driving (slotStateAt digest pool hook u (m + 1)) i id n ∨
        (slotStateAt digest pool hook u (m + 1)).world.hook.journal.Finished id :=
      hdriving.step (drivers_stateAt digest pool hook u m) (bound_stateAt digest pool hook u m) hid
        (hattended m hm (hdrives hdriving)).1
    rcases hstep with hnext | hfinished
    · exact Or.inl ⟨by omega, hnext⟩
    · exact Or.inr hfinished
  · rintro m n ⟨hm, hdriving⟩ ⟨input, hevent⟩
    have hattended' := (hattended m hm (hdrives hdriving)).1
    rw [hevent] at hattended'
    have hstate : slotStateAt digest pool hook u (m + 1) =
        Tasks.step (slotTasks digest pool) (slotStateAt digest pool hook u m)
          (.acts i (.rebuild input)) := by
      rw [← hevent]
      rfl
    rw [hstate]
    rcases hdriving.acts (drivers_stateAt digest pool hook u m) (bound_stateAt digest pool hook u m)
      hid hattended' with ⟨n', hlower, hnext⟩ | hfinished
    · exact Or.inl ⟨n', hlower, by omega, hnext⟩
    · exact Or.inr hfinished
  · rintro m n ⟨hm, hdriving⟩
    exact (hattended m hm (hdrives hdriving)).2

end Progress

end PgAgent
