import PgAgent.Ha.Run
import PgAgent.RoleExec.StalePrimary

/-!
# Reserving WAL at a promotion

A new primary creates the slots of all other members as soon as its promotion is complete, so that
WAL is kept for each of them from that instant on. This hangs off the success of `promote_and_wait`.
But the signal it sends cannot be recalled: after its deadline the promotion may still complete, and
then it is the next tick that finds a primary, and decides for the steady state. The steady state
creates no slots.

The slots are created one after the other, and the first failure ends the loop.

* `slotAttempts_apply_of_inTime`, `slotAttempts_apply_of_not_inTime` --- the attempts of one apply;
* `slotAttempts_createSlots_eq_iff` --- when the loop gets to its end;
* `membersReserved_iff` --- the runs in which every promotion reserves for every member.
-/

namespace PgAgent

open Rust

/-! ## The attempts of one apply -/

/-- The slot that an action tries to create here. -/
def ExecAction.slotAttempt : ExecAction → Option String
  | .createSlot slot => some slot
  | _ => none

def slotAttempts (actions : List ExecAction) : List String :=
  actions.filterMap ExecAction.slotAttempt

theorem slotAttempts_append (as bs : List ExecAction) :
    slotAttempts (as ++ bs) = slotAttempts as ++ slotAttempts bs :=
  List.filterMap_append

section Attempts

variable {rx : RoleExecutor} {es : ExecState} {inp : ExecInput} {created : String → Bool}

theorem slotAttempts_createSlots_cons (slot : String) (slots : List String) :
    slotAttempts (createSlots created (slot :: slots)) =
      slot :: if created slot then slotAttempts (createSlots created slots) else [] := by
  rw [createSlots]
  show slot :: slotAttempts (if created slot then createSlots created slots else []) = _
  cases created slot <;> rfl

/-- The loop begins with the first slot. -/
theorem slotAttempts_createSlots_ne_nil {slots : List String} (h : slots ≠ []) :
    slotAttempts (createSlots created slots) ≠ [] := by
  cases slots with
  | nil => exact absurd rfl h
  | cons slot slots =>
    rw [slotAttempts_createSlots_cons]
    exact List.cons_ne_nil _ _

/-- The loop gets to its end exactly if no slot before the last one fails. -/
theorem slotAttempts_createSlots_eq_iff (slots : List String) :
    slotAttempts (createSlots created slots) = slots ↔
      ∀ slot ∈ slots.dropLast, created slot = true := by
  induction slots with
  | nil => exact iff_of_true rfl fun slot h => absurd h List.not_mem_nil
  | cons slot slots ih =>
    rw [slotAttempts_createSlots_cons, List.cons.injEq, eq_self_iff_true, true_and]
    cases slots with
    | nil =>
      refine iff_of_true ?_ fun slot' h => absurd h List.not_mem_nil
      cases created slot <;> rfl
    | cons next rest =>
      rw [List.dropLast_cons_cons, List.forall_mem_cons]
      cases hslot : created slot with
      | true =>
        rw [if_pos rfl, ih]
        exact ⟨fun h => ⟨rfl, h⟩, fun h => h.2⟩
      | false =>
        rw [if_neg Bool.false_ne_true]
        exact iff_of_false (List.cons_ne_nil _ _).symm fun h => nomatch h.1

theorem slotAttempts_eq_nil {actions : List ExecAction}
    (h : ∀ a ∈ actions, a.slotAttempt = none) : slotAttempts actions = [] :=
  List.filterMap_eq_nil_iff.mpr h

theorem slotAttempts_ensureQuorumCommit (force : Bool) (now : Instant) :
    slotAttempts (ensureQuorumCommit rx es force now inp).2 = [] := by
  refine slotAttempts_eq_nil fun a ha => ?_
  rw [(ensureQuorumCommit_spec rx es force now inp).2 a ha]
  rfl

theorem slotAttempts_ensureSelfAttached (now : Instant) :
    slotAttempts (ensureSelfAttached rx es now).2 = [] := by
  refine slotAttempts_eq_nil fun a ha => ?_
  rw [(ensureSelfAttached_spec rx es now).2 a ha]
  rfl

theorem slotAttempts_servePrimary : slotAttempts (servePrimary rx es inp).2 = [] := by
  refine slotAttempts_eq_nil fun a ha => ?_
  rcases mem_servePrimary ha with rfl | rfl
  · rfl
  · rfl

theorem slotAttempts_convergeFollow (holder : NodeId) :
    slotAttempts (convergeFollow rx es holder inp).2 = [] := by
  have hfollow : slotAttempts (followHolder rx holder inp).2 = [] := by
    refine slotAttempts_eq_nil fun a ha => ?_
    rcases mem_followHolder ha with ⟨node, slot, rfl⟩ | ⟨upstream, rfl⟩
    · rfl
    · rfl
  unfold convergeFollow
  split
  · rfl
  · split
    · rfl
    · dsimp only
      split <;> exact hfollow
  · rfl
  · rfl

/-- `promote_and_wait` returns in time: recovery is over already, or ends before the deadline. -/
def ExecInput.EndsInTime (inp : ExecInput) : Prop :=
  inp.recovery = some false ∨
    inp.recovery = some true ∧ inp.signalled = true ∧ inp.recoveryEnded = true

theorem promoteAndWait_fst : (promoteAndWait inp).1 = true ↔ inp.EndsInTime := by
  unfold promoteAndWait ExecInput.EndsInTime
  cases inp.recovery with
  | none => simp
  | some recovering => cases recovering <;> simp

theorem slotAttempts_promoteAndWait : slotAttempts (promoteAndWait inp).2 = [] := by
  unfold promoteAndWait
  split <;> rfl

/-- A decision promotes, for a term. -/
def HaDecision.promotesFor : HaDecision → Option UInt64
  | .tookOver term false => some term
  | .awaitingPromotion term _ => some term
  | _ => none

/-- The decision promotes, the instance is not seen as a primary, and the promotion is complete
before the deadline. -/
structure InTime (d : HaDecision) (inp : ExecInput) : Prop where
  promotes : d.promotesFor.isSome = true
  notPrimary : instanceState inp.probes ≠ .primary
  ends : inp.EndsInTime

theorem apply_of_promotesFor {d : HaDecision} {term : UInt64} (h : d.promotesFor = some term) :
    rx.apply es inp d = ensurePrimary rx es term inp := by
  cases d with
  | tookOver term' already =>
    cases already with
    | false =>
      obtain rfl := Option.some.inj h
      rfl
    | true => cases h
  | awaitingPromotion term' waiting =>
    obtain rfl := Option.some.inj h
    rfl
  | _ => cases h

/-- The attempts of a promotion. -/
theorem slotAttempts_ensurePrimary (rx : RoleExecutor) (es : ExecState) (term : UInt64)
    (inp : ExecInput) :
    (instanceState inp.probes ≠ .primary ∧ inp.EndsInTime ∧
        slotAttempts (ensurePrimary rx es term inp).2 =
          slotAttempts (createSlots inp.slotCreated rx.memberSlots)) ∨
      ¬ (instanceState inp.probes ≠ .primary ∧ inp.EndsInTime) ∧
        slotAttempts (ensurePrimary rx es term inp).2 = [] := by
  have hjournal : ∀ f : String → ExecAction, (∀ id, (f id).slotAttempt = none) →
      slotAttempts (inp.journal.map f).toList = [] := by
    intro f hf
    cases inp.journal with
    | none => rfl
    | some id =>
      show ([f id].filterMap ExecAction.slotAttempt) = []
      rw [List.filterMap_cons, hf id]
      rfl
  unfold ensurePrimary
  by_cases hstate : instanceState inp.probes = .primary
  · rw [if_pos hstate]
    exact Or.inr ⟨fun h => h.1 hstate, rfl⟩
  rw [if_neg hstate]
  dsimp only
  by_cases hends : inp.EndsInTime
  · rw [if_pos (promoteAndWait_fst.mpr hends)]
    refine Or.inl ⟨hstate, hends, ?_⟩
    simp only [slotAttempts_append, slotAttempts_ensureQuorumCommit,
      slotAttempts_ensureSelfAttached, slotAttempts_promoteAndWait,
      hjournal ExecAction.journalComplete fun _ => rfl, List.append_nil]
    rfl
  · rw [if_neg fun h => hends (promoteAndWait_fst.mp h)]
    refine Or.inr ⟨fun h => hends h.2, ?_⟩
    simp only [slotAttempts_append, slotAttempts_promoteAndWait,
      hjournal ExecAction.journalAbandon fun _ => rfl, List.append_nil]
    rfl

theorem slotAttempts_apply_of_inTime {d : HaDecision} (h : InTime d inp) :
    slotAttempts (rx.apply es inp d).2 =
      slotAttempts (createSlots inp.slotCreated rx.memberSlots) := by
  obtain ⟨term, hterm⟩ := Option.isSome_iff_exists.mp h.promotes
  rw [apply_of_promotesFor hterm]
  rcases slotAttempts_ensurePrimary rx es term inp with
    ⟨-, -, heq⟩ | ⟨hnot, -⟩
  · exact heq
  · exact absurd ⟨h.notPrimary, h.ends⟩ hnot

theorem slotAttempts_apply_of_not_inTime {d : HaDecision} (h : ¬ InTime d inp) :
    slotAttempts (rx.apply es inp d).2 = [] := by
  cases hterm : d.promotesFor with
  | some term =>
    rw [apply_of_promotesFor hterm]
    rcases slotAttempts_ensurePrimary rx es term inp with
      ⟨hstate, hends, -⟩ | ⟨-, heq⟩
    · exact absurd ⟨Option.isSome_iff_exists.mpr ⟨term, hterm⟩, hstate, hends⟩ h
    · exact heq
  | none =>
    cases d with
    | tookOver term already =>
      cases already with
      | false => cases hterm
      | true => exact slotAttempts_servePrimary
    | awaitingPromotion term waiting => cases hterm
    | following holder => exact slotAttempts_convergeFollow holder
    | wouldFollowNewHolder prev holder => exact slotAttempts_convergeFollow holder
    | retainedLease term => exact slotAttempts_servePrimary
    | _ => rfl

end Attempts

/-! ## Runs -/

/-- A run of one node: its loop and its executor, and what each tick and each apply learns. -/
structure ExecRun where
  ha : HaLoop
  rx : RoleExecutor
  ticks : ℕ → TickInput
  inputs : ℕ → ExecInput

namespace ExecRun

def decision (r : ExecRun) (k : ℕ) : HaDecision := (r.ha.tickAt r.ticks k).decision

/-- The executor's memory before tick `k`. -/
def stateAt (r : ExecRun) : ℕ → ExecState :=
  Trace.stateAt (fun es i => (r.rx.apply es i.2 i.1).1) ExecState.new
    fun k => (r.decision k, r.inputs k)

/-- What the executor does at tick `k`. -/
def actions (r : ExecRun) (k : ℕ) : List ExecAction :=
  (r.rx.apply (r.stateAt k) (r.inputs k) (r.decision k)).2

/-- At tick `j` the executor requests the promotion for a term: it calls `promote_and_wait`, and
that sends the signal. -/
def Requests (r : ExecRun) (j : ℕ) (term : UInt64) : Prop :=
  .promoteAndWait term r.rx.promoteDeadline ∈ r.actions j ∧ .pgPromote ∈ r.actions j

/-- Tick `k` is the first to decide that the lease of the term is retained. -/
def FirstRetains (r : ExecRun) (k : ℕ) (term : UInt64) : Prop :=
  r.decision k = .retainedLease term ∧ ∀ i < k, r.decision i ≠ .retainedLease term

/-- Every promotion reserves for every member: once the first `RetainedLease` of a term has been
handled, the slot of every other member has been attempted since each request under that term; and
an apply that attempts one member's slot attempts all of them. -/
structure MembersReserved (r : ExecRun) : Prop where
  reserved : ∀ j k term, j < k → r.Requests j term → r.FirstRetains k term →
    ∀ member ∈ r.rx.pool.others, ∃ i, j ≤ i ∧ i ≤ k ∧
      member.slotName ∈ slotAttempts (r.actions i)
  attempted : ∀ i, slotAttempts (r.actions i) ≠ [] →
    slotAttempts (r.actions i) = r.rx.pool.others.map NodeConfig.slotName

/-- A promotion is complete before the deadline of some `promote_and_wait` that comes no earlier
than the request and before the lease is first found retained, and no slot but a last one fails. -/
structure CompletesInTime (r : ExecRun) : Prop where
  completes : ∀ j k term, j < k → r.Requests j term → r.FirstRetains k term →
    r.rx.memberSlots ≠ [] → ∃ i, j ≤ i ∧ i < k ∧ InTime (r.decision i) (r.inputs i)
  creates : ∀ i, InTime (r.decision i) (r.inputs i) →
    ∀ slot ∈ r.rx.memberSlots.dropLast, (r.inputs i).slotCreated slot = true

theorem slotAttempts_actions_of_inTime {r : ExecRun} {i : ℕ}
    (h : InTime (r.decision i) (r.inputs i)) :
    slotAttempts (r.actions i) =
      slotAttempts (createSlots (r.inputs i).slotCreated r.rx.memberSlots) :=
  slotAttempts_apply_of_inTime h

/-- Who attempts a slot has promoted in time. -/
theorem inTime_of_slotAttempts {r : ExecRun} {i : ℕ} (h : slotAttempts (r.actions i) ≠ []) :
    InTime (r.decision i) (r.inputs i) := by
  by_contra hnot
  exact h (slotAttempts_apply_of_not_inTime hnot)

theorem not_inTime_of_retains {r : ExecRun} {k : ℕ} {term : UInt64}
    (h : r.decision k = .retainedLease term) : ¬ InTime (r.decision k) (r.inputs k) := by
  intro hin
  have hpromotes := hin.promotes
  rw [h] at hpromotes
  cases hpromotes

/-- **Every promotion of a run reserves for every member exactly if it is complete before the
deadline of a `promote_and_wait`, and no slot but a last one fails.** -/
theorem membersReserved_iff (r : ExecRun) : r.MembersReserved ↔ r.CompletesInTime := by
  constructor
  · rintro ⟨hreserved, hattempted⟩
    refine ⟨fun j k term hjk hreq hfirst hmembers => ?_, fun i hin => ?_⟩
    · obtain ⟨slot, hslot⟩ := List.exists_mem_of_ne_nil _ hmembers
      obtain ⟨member, hmember, rfl⟩ := List.mem_map.mp hslot
      obtain ⟨i, hji, hik, hmem⟩ := hreserved j k term hjk hreq hfirst member hmember
      have hin := inTime_of_slotAttempts (List.ne_nil_of_mem hmem)
      have hne : i ≠ k := by
        rintro rfl
        exact not_inTime_of_retains hfirst.1 hin
      exact ⟨i, hji, by omega, hin⟩
    · rcases eq_or_ne r.rx.memberSlots [] with hnone | hmembers
      · rw [hnone]
        exact fun slot h => absurd h List.not_mem_nil
      · have hloop := slotAttempts_actions_of_inTime hin
        rw [← slotAttempts_createSlots_eq_iff, ← hloop]
        refine hattempted i ?_
        rw [hloop]
        exact slotAttempts_createSlots_ne_nil hmembers
  · rintro ⟨hcompletes, hcreates⟩
    have hall : ∀ i, InTime (r.decision i) (r.inputs i) →
        slotAttempts (r.actions i) = r.rx.memberSlots := by
      intro i hin
      rw [slotAttempts_actions_of_inTime hin, slotAttempts_createSlots_eq_iff]
      exact hcreates i hin
    refine ⟨fun j k term hjk hreq hfirst member hmember => ?_, fun i hne => ?_⟩
    · have hslot : member.slotName ∈ r.rx.memberSlots := List.mem_map_of_mem hmember
      obtain ⟨i, hji, hik, hin⟩ :=
        hcompletes j k term hjk hreq hfirst (List.ne_nil_of_mem hslot)
      refine ⟨i, hji, by omega, ?_⟩
      rw [hall i hin]
      exact hslot
    · exact hall i (inTime_of_slotAttempts hne)

/-- Node `1` holds the lease of term `1` and promotes; the promotion ends after the deadline, and
before the next tick. -/
def lateRun : ExecRun where
  ha := ⟨threeNodes 1, defaultTiming⟩
  rx := threeNodeExecutor 1
  ticks
    | 0 => { staleTick (fun _ => .late) with
        readResult := some (leaseOf 1 1), db := detachedStandby 100 }
    | _ => { staleTick (fun _ => .late) with now := secs 40, readResult := some (leaseOf 1 1) }
  inputs
    | 0 => { primaryExecInput with
        probes := ⟨some true, some true, none⟩, recovery := some true, recoveryEnded := false }
    | _ => { primaryExecInput with now := secs 40 }

/-- No slot is ever attempted. -/
theorem lateRun_reserves_nothing :
    lateRun.Requests 0 1 ∧ lateRun.FirstRetains 1 1 ∧
      slotAttempts (lateRun.actions 0) = [] ∧ slotAttempts (lateRun.actions 1) = [] ∧
      ¬ lateRun.MembersReserved := by
  have hrequests : lateRun.Requests 0 1 := by
    unfold Requests
    decide +kernel
  have hretains : lateRun.FirstRetains 1 1 := by
    refine ⟨by decide +kernel, fun i hi => ?_⟩
    obtain rfl : i = 0 := by omega
    decide +kernel
  have hzero : slotAttempts (lateRun.actions 0) = [] := by decide +kernel
  have hone : slotAttempts (lateRun.actions 1) = [] := by decide +kernel
  refine ⟨hrequests, hretains, hzero, hone, fun h => ?_⟩
  obtain ⟨i, -, hi, hmem⟩ :=
    h.reserved 0 1 1 (by decide) hrequests hretains ⟨0, "db0"⟩ (by decide)
  obtain rfl | rfl : i = 0 ∨ i = 1 := by omega
  · rw [hzero] at hmem
    cases hmem
  · rw [hone] at hmem
    cases hmem

end ExecRun

end PgAgent
