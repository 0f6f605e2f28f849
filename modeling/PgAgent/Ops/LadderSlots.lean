import PgAgent.Library.Resumable
import PgAgent.Ops.FollowPrimary
import PgAgent.Ops.Maintenance

/-!
# The slot of a ladder that is given up

A handoff and a re-pointing create a slot on the new primary, for the node that they rebuild.
When their ladder is given up the slot has to go: the driver of a re-pointing asks the new primary
to drop it, and puts the drop in the maintenance queue if that fails; a handoff only asks.

Not every failure takes that way.  A phase that cannot be written ends the driver of a re-pointing
at once, and so does a peer that cannot be dialed, also in a driver that is resumed above the
creation of the slot.  And the new primary answers `ok` when it keeps the slot for an orchestration
of its own.

`Exits` says what a ladder has to tell about its calls, and `Exits.endsIn` what follows for its
slot.  `ladders_accountedFor_iff`: a ladder that ends abandoned has seen to its slot exactly when
none of its calls was of these kinds.
-/

namespace PgAgent

open Resumable

/-- The new primary's slot and the entry of the operation, as far as they matter here: whether the
slot is there, whether the ladder has created it, whether the node that is rebuilt has been
started, and the maintenance queue. -/
structure LadderSite where
  slot : Bool
  created : Bool
  started : Bool
  status : InflightStatus
  queue : List MaintenanceIntent
  queueSeq : ℕ

/-- The outcome of a call; for the status of a node, whether its PostgreSQL runs, and for a drop,
whether the new primary keeps the slot for an orchestration of its own. -/
structure LadderInput where
  outcome : Except String Unit
  running : Bool
  retained : Bool
  now : UtcNanos

namespace LadderSite

/-- The ladder's slot is there, and the node that is to use it has not been started. -/
def Exposed (site : LadderSite) : Prop :=
  site.slot = true ∧ site.created = true ∧ site.started = false

/-- The drop of the slot on the host is pending in the queue. -/
def Pending (slotName host : String) (site : LadderSite) : Prop :=
  ∃ i ∈ site.queue, i.status = .pending ∧
    ∃ cause initialError, i.payload = .dropSlotCleanup slotName host cause initialError

/-- An abandoned operation whose node has not been started has no slot left, or has the drop in the
queue. -/
def AccountedFor (site : LadderSite) (Pending : LadderSite → Prop) : Prop :=
  site.status = .abandoned → site.started = false → site.created = true →
    site.slot = false ∨ Pending site

/-- `drop_slot` of the new primary; it says `ok` of a slot that it keeps. -/
def dropSlot (site : LadderSite) (input : LadderInput) : LadderSite :=
  match input.outcome with
  | .ok _ => if input.retained then site else { site with slot := false }
  | .error _ => site

/-- `MaintenanceStore::append`. -/
def append (site : LadderSite) (payload : MaintenancePayload) (input : LadderInput) : LadderSite :=
  let intent := MaintenanceIntent.append payload input.now site.queueSeq
  match input.outcome with
  | .ok _ =>
      { site with
        queue := site.queue.filter (fun i => i.id != intent.id) ++ [intent]
        queueSeq := site.queueSeq + 1 }
  | .error _ => { site with queueSeq := site.queueSeq + 1 }

end LadderSite

/-! ## Ladders and their exits -/

section

variable {π : Type}

/-- One call of a ladder: the site before it, the position and the input. -/
abbrev LadderCall (π : Type) := LadderSite × π × LadderInput

/-- What the calls of a ladder do, told apart by whether they lead to the call that abandons the
entry.  A call is safe if it does not lead there past an exposed slot. -/
structure Exits (P : Program LadderSite π LadderInput Unit) (abandons : π → Prop)
    (Safe : LadderCall π → Prop) (Taken : LadderCall π → Prop) (Pending : LadderSite → Prop)
    (rank : π → ℕ) : Prop where
  goes : ∀ site pos input site' pos', ¬ abandons pos →
    P.act site pos input = (site', some pos') →
    ¬ abandons pos' → Safe (site, pos, input) ∧ (Pending site' ↔ Pending site) ∧
      site'.status = site.status ∧ rank pos' < rank pos
  exits : ∀ site pos input site' pos', ¬ abandons pos →
    P.act site pos input = (site', some pos') →
    abandons pos' → site'.status = site.status ∧ rank pos' < rank pos ∧
      (Taken (site, pos, input) →
        (Safe (site, pos, input) ∧ (¬ site'.Exposed ∨ Pending site')) ∨
          (¬ Safe (site, pos, input) ∧ site'.Exposed ∧ (Pending site' ↔ Pending site)))
  ends : ∀ site pos input site', ¬ abandons pos → P.act site pos input = (site', none) →
    site.status = .inProgress → Safe (site, pos, input) ∧ site'.status ≠ .abandoned
  abandoned : ∀ site pos input, abandons pos → Safe (site, pos, input) ∧
    P.act site pos input =
      (if input.outcome = .ok () then { site with status := .abandoned } else site, none)
  frame : ∀ site status, Pending { site with status := status } ↔ Pending site

/-- What a run is judged by: all of its calls were safe, or the abandonment has not been written, or
the drop was in the queue from the start. -/
def Excused (abandons : π → Prop) (Safe : LadderCall π → Prop) (Pending : LadderSite → Prop)
    (site₀ : LadderSite) (log : List (LadderCall π)) : Prop :=
  (∀ call ∈ log, Safe call) ∨
  (∀ call ∈ log, abandons call.2.1 → call.2.2.outcome ≠ .ok ()) ∨
    Pending site₀

variable {P : Program LadderSite π LadderInput Unit} {abandons : π → Prop}
  {Safe Taken : LadderCall π → Prop} {Pending : LadderSite → Prop} {rank : π → ℕ}
  {site₀ site : LadderSite}

/-- What holds along a run.  Up to the abandonment all calls have been safe and the queue has not
changed; at the abandonment the last call tells how it stands with the slot. -/
structure OnLadder (abandons : π → Prop) (Safe Taken : LadderCall π → Prop)
    (Pending : LadderSite → Prop) (site₀ : LadderSite) (w : LadderSite × List (LadderCall π))
    (pos : π) : Prop where
  status : w.1.status = .inProgress
  before : ∀ call ∈ w.2, ¬ abandons call.2.1
  climbing : ¬ abandons pos → (∀ call ∈ w.2, Safe call) ∧ (Pending w.1 ↔ Pending site₀)
  leaving : abandons pos → (∀ call ∈ w.2, Taken call) →
    ((∀ call ∈ w.2, Safe call) ∧ (¬ w.1.Exposed ∨ Pending w.1)) ∨
      ((¬ ∀ call ∈ w.2, Safe call) ∧ w.1.Exposed ∧ (Pending w.1 ↔ Pending site₀))

theorem OnLadder.goes (h : Exits P abandons Safe Taken Pending rank)
    {log : List (LadderCall π)} {pos pos' : π} {input : LadderInput} {site' : LadderSite}
    (hon : OnLadder abandons Safe Taken Pending site₀ (site, log) pos)
    (hact : P.act site pos input = (site', some pos')) :
    OnLadder abandons Safe Taken Pending site₀ (site', (site, pos, input) :: log) pos' ∧
      rank pos' < rank pos := by
  have hclimbs : ¬ abandons pos := by
    intro habandons
    rw [(h.abandoned site pos input habandons).2] at hact
    cases (Prod.mk.inj hact).2
  have hbefore : ∀ call ∈ (site, pos, input) :: log, ¬ abandons call.2.1 := by
    intro call hcall
    rcases List.mem_cons.mp hcall with rfl | hcall
    · exact hclimbs
    · exact hon.before call hcall
  obtain ⟨hsafe, hpending⟩ := hon.climbing hclimbs
  by_cases habandons : abandons pos'
  · obtain ⟨hstatus, hrank, hexits⟩ := h.exits site pos input site' pos' hclimbs hact habandons
    refine ⟨⟨hstatus.trans hon.status, hbefore, fun hnot => absurd habandons hnot, ?_⟩,
      hrank⟩
    intro _ htaken
    rcases hexits (htaken _ List.mem_cons_self) with ⟨hsafe', hgone⟩ |
        ⟨hnotSafe, hexposed, hqueue⟩
    · exact Or.inl ⟨List.forall_mem_cons.mpr ⟨hsafe', hsafe⟩, hgone⟩
    · exact Or.inr ⟨fun hall => hnotSafe (hall _ List.mem_cons_self), hexposed,
        hqueue.trans hpending⟩
  · obtain ⟨hsafe', hqueue, hstatus, hrank⟩ :=
      h.goes site pos input site' pos' hclimbs hact habandons
    refine ⟨⟨hstatus.trans hon.status, hbefore, fun _ => ?_,
      fun hnot => absurd hnot habandons⟩,
      hrank⟩
    exact ⟨List.forall_mem_cons.mpr ⟨hsafe', hsafe⟩, hqueue.trans hpending⟩

theorem accountedFor_abandoned :
    LadderSite.AccountedFor { site with status := .abandoned } Pending ↔
      ¬ site.Exposed ∨ Pending { site with status := .abandoned } := by
  unfold LadderSite.AccountedFor LadderSite.Exposed
  cases site.slot <;> cases site.created <;> cases site.started <;> simp

/-- What the last call leaves. -/
theorem OnLadder.ends (h : Exits P abandons Safe Taken Pending rank)
    {log : List (LadderCall π)} {pos : π} {input : LadderInput} {site' : LadderSite}
    (hon : OnLadder abandons Safe Taken Pending site₀ (site, log) pos)
    (hact : P.act site pos input = (site', none))
    (htaken : ∀ call ∈ (site, pos, input) :: log, Taken call) :
    site'.AccountedFor Pending ↔
      Excused abandons Safe Pending site₀ ((site, pos, input) :: log) := by
  by_cases habandons : abandons pos
  · obtain ⟨hsafe', heq⟩ := h.abandoned site pos input habandons
    rw [heq] at hact
    obtain ⟨rfl, -⟩ := Prod.mk.inj hact
    by_cases hwritten : input.outcome = .ok ()
    · rw [if_pos hwritten, accountedFor_abandoned, h.frame]
      have hlost : ¬ ∀ call ∈ (site, pos, input) :: log, abandons call.2.1 →
          call.2.2.outcome ≠ .ok () :=
        fun hall => hall _ List.mem_cons_self habandons hwritten
      rcases hon.leaving habandons (fun call hcall => htaken call (List.mem_cons_of_mem _ hcall))
        with ⟨hsafe, hgone⟩ | ⟨hnotSafe, hexposed, hqueue⟩
      · exact iff_of_true hgone (Or.inl (List.forall_mem_cons.mpr ⟨hsafe', hsafe⟩))
      · have hnotSafe' : ¬ ∀ call ∈ (site, pos, input) :: log, Safe call :=
          fun hall => hnotSafe fun call hcall => hall call (List.mem_cons_of_mem _ hcall)
        constructor
        · rintro (hnot | hpending)
          · exact absurd hexposed hnot
          · exact Or.inr (Or.inr (hqueue.mp hpending))
        · rintro (hall | hall | hpending)
          · exact absurd hall hnotSafe'
          · exact absurd hall hlost
          · exact Or.inr (hqueue.mpr hpending)
    · rw [if_neg hwritten]
      refine iff_of_true (fun hstatus => ?_) (Or.inr (Or.inl ?_))
      · rw [hon.status] at hstatus
        cases hstatus
      · intro call hcall hcallAbandons
        rcases List.mem_cons.mp hcall with rfl | hcall
        · exact hwritten
        · exact absurd hcallAbandons (hon.before call hcall)
  · obtain ⟨hsafe', hstatus⟩ := h.ends site pos input site' habandons hact hon.status
    refine iff_of_true (fun habandoned => absurd habandoned hstatus) (Or.inl ?_)
    exact List.forall_mem_cons.mpr ⟨hsafe', (hon.climbing habandons).1⟩

/-- A ladder comes to its end, and there its slot is accounted for exactly if the run is excused. -/
theorem Exits.endsIn (h : Exits P abandons Safe Taken Pending rank)
    (hstatus : site₀.status = .inProgress) {pos : π} (hpos : ¬ abandons pos) :
    EndsIn (logged P) (site₀, []) pos fun w => (∀ call ∈ w.2, Taken call) →
      (w.1.AccountedFor Pending ↔ Excused abandons Safe Pending site₀ w.2) := by
  have hstart : OnLadder abandons Safe Taken Pending site₀ (site₀, []) pos := by
    refine ⟨hstatus, ?_, fun _ => ⟨?_, Iff.rfl⟩, fun habandons => absurd habandons hpos⟩
    · intro call hcall
      cases hcall
    · intro call hcall
      cases hcall
  refine endsIn_of_rank (OnLadder abandons Safe Taken Pending site₀) rank ?_ ?_ hstart
  · rintro ⟨site, log⟩ pos input w' pos' hon hact
    obtain ⟨rfl, hnext⟩ := Prod.mk.inj hact
    exact hon.goes h (Prod.ext rfl hnext)
  · rintro ⟨site, log⟩ pos input w' hon hact htaken
    obtain ⟨rfl, hnext⟩ := Prod.mk.inj hact
    exact hon.ends h (Prod.ext rfl hnext) htaken

end

/-! ## The driver of a re-pointing -/

/-- What the ladders' calls do to the site, apart from the cleanup. -/
inductive LadderEffect where
  | createsSlot
  | startsNode
  | completes
  | abandons
  | other
  deriving DecidableEq, Repr

/-- A call that succeeds has its effect. -/
def LadderSite.takes (site : LadderSite) (effect : LadderEffect) (input : LadderInput) :
    LadderSite :=
  match input.outcome, effect with
  | .error _, _ => site
  | .ok _, .createsSlot => { site with slot := true, created := true }
  | .ok _, .startsNode => { site with started := true }
  | .ok _, .completes => { site with status := .done }
  | .ok _, .abandons => { site with status := .abandoned }
  | .ok _, .other => site

namespace FollowOp

def effect : FollowCall → LadderEffect
  | .createSlot => .createsSlot
  | .start => .startsNode
  | .complete => .completes
  | .abandon _ => .abandons
  | _ => .other

/-- What a call does to the site. -/
def perform (op : FollowOp) (site : LadderSite) (call : FollowCall) (input : LadderInput) :
    LadderSite :=
  match call with
  | .dropSlot _ _ => site.dropSlot input
  | .queueCleanup cause dropError _ =>
      site.append (.dropSlotCleanup op.detached.slotName op.newPrimary.hostname cause dropError)
        input
  | call => site.takes (effect call) input

/-- `drive_follow_primary` and the end of its callers, with every call free to fail. -/
def ladder (op : FollowOp) : Program LadderSite FollowPosition LadderInput Unit where
  act site pos input :=
    (op.perform site pos.call input, (op.next pos input.running input.outcome).getLeft?)
  resume _ _ := none

/-- The drop of the ladder's slot, on the host of the new primary, is in the queue. -/
def Pending (op : FollowOp) : LadderSite → Prop :=
  LadderSite.Pending op.detached.slotName op.newPrimary.hostname

end FollowOp

namespace FollowCall

def isAbandon : FollowCall → Bool
  | abandon _ => true
  | _ => false

def isQueue : FollowCall → Bool
  | queueCleanup _ _ _ => true
  | _ => false

/-- The calls whose failure ends the driver without a cleanup: journal writes, dials, and the calls
before the slot and after the start. -/
def endsAtOnce : FollowCall → Bool
  | updatePhase _ => true
  | dialDetached => true
  | dialNewPrimary => true
  | getStatus => true
  | stop => true
  | createSlot => true
  | attachNode => true
  | _ => false

/-- The calls of the ladder itself. -/
def isRung : FollowCall → Bool
  | dropSlot _ _ => false
  | queueCleanup _ _ _ => false
  | complete => false
  | abandon _ => false
  | _ => true

/-- How far a call is from the end of the ladder. -/
def height : FollowCall → ℕ
  | updatePhase .queued => 40
  | updatePhase .dialing => 30
  | dialDetached => 29
  | dialNewPrimary => 28
  | getStatus => 27
  | stop => 26
  | updatePhase .detachedStopped => 25
  | createSlot => 24
  | updatePhase .slotCreated => 23
  | rewind => 22
  | basebackup => 21
  | updatePhase .dataCopied => 20
  | configureStandby => 19
  | updatePhase .recoveryConfWritten => 18
  | start => 17
  | updatePhase .detachedStarted => 16
  | attachNode => 15
  | updatePhase .attached => 14
  | dropSlot _ _ => 3
  | queueCleanup _ _ _ => 2
  | complete => 1
  | abandon _ => 0

theorem height_lt {call call' : FollowCall} (h : call.isAbandon = false)
    (h' : call'.isAbandon = true) : call'.height < call.height := by
  cases call' with
  | abandon error' =>
    cases call with
    | abandon error => cases h
    | updatePhase phase => cases phase <;> simp [height]
    | _ => simp [height]
  | _ => cases h'

end FollowCall

/-- A call of the driver that does not give an exposed slot away: no call that ends the driver at
once fails, and a drop is not answered `ok` for a slot that is kept. -/
def FollowSafe : LadderCall FollowPosition → Prop
  | (site, pos, input) => site.Exposed →
      (pos.call.endsAtOnce = true → input.outcome = .ok ()) ∧
        ∀ cause error, pos.call = .dropSlot cause error → input.outcome = .ok () →
          input.retained = false

/-- The queue has taken what was appended. -/
def FollowTaken (call : LadderCall FollowPosition) : Prop :=
  call.2.1.call.isQueue = true → call.2.2.outcome = .ok ()

instance (call : LadderCall FollowPosition) : Decidable (FollowTaken call) :=
  inferInstanceAs (Decidable (call.2.1.call.isQueue = true → call.2.2.outcome = .ok ()))

namespace FollowOp

variable (op : FollowOp) {call : FollowCall} (startPhase : FollowPhase) (running : Bool)

theorem next_endsAtOnce (h : call.endsAtOnce = true) (e : String) :
    ∃ reason, op.next ⟨call, startPhase⟩ running (.error e) =
      .inl ⟨.abandon reason, startPhase⟩ := by
  cases call with
  | updatePhase phase => cases phase <;> exact ⟨_, rfl⟩
  | dialDetached => exact ⟨_, rfl⟩
  | dialNewPrimary => exact ⟨_, rfl⟩
  | getStatus => exact ⟨_, rfl⟩
  | stop => exact ⟨_, rfl⟩
  | createSlot => exact ⟨_, rfl⟩
  | attachNode => exact ⟨_, rfl⟩
  | _ => cases h

/-- A rung leads down the ladder, to its end, or to the cleanup. -/
theorem next_rung (h : call.isRung = true) {outcome : Except String Unit}
    (hok : call.endsAtOnce = true → outcome = .ok ()) :
    ∃ call', op.next ⟨call, startPhase⟩ running outcome = .inl ⟨call', startPhase⟩ ∧
      call'.isAbandon = false ∧ call'.height < call.height := by
  rcases outcome with e | u
  · cases call with
    | rewind => exact ⟨_, rfl, rfl, by simp [FollowCall.height]⟩
    | basebackup => exact ⟨_, rfl, rfl, by simp [FollowCall.height]⟩
    | configureStandby => exact ⟨_, rfl, rfl, by simp [FollowCall.height]⟩
    | start => exact ⟨_, rfl, rfl, by simp [FollowCall.height]⟩
    | dropSlot cause error => cases h
    | queueCleanup cause dropError error => cases h
    | complete => cases h
    | abandon error => cases h
    | _ => cases hok rfl
  · cases call with
    | updatePhase phase => cases phase <;> exact ⟨_, rfl, rfl, by decide⟩
    | dialNewPrimary => cases startPhase <;> exact ⟨_, rfl, rfl, by decide⟩
    | getStatus => cases running <;> exact ⟨_, rfl, rfl, by decide⟩
    | dropSlot cause error => cases h
    | queueCleanup cause dropError error => cases h
    | complete => cases h
    | abandon error => cases h
    | _ => exact ⟨_, rfl, rfl, by decide⟩

end FollowOp

theorem LadderSite.pending_takes {slotName host : String} (site : LadderSite)
    (effect : LadderEffect) (input : LadderInput) :
    (site.takes effect input).Pending slotName host ↔ site.Pending slotName host := by
  unfold takes
  cases input.outcome <;> cases effect <;> exact Iff.rfl

/-- The effects that leave the entry in progress. -/
def LadderEffect.isOpen : LadderEffect → Bool
  | completes => false
  | abandons => false
  | _ => true

theorem LadderSite.status_takes (site : LadderSite) {effect : LadderEffect}
    (h : effect.isOpen = true) (input : LadderInput) :
    (site.takes effect input).status = site.status := by
  unfold takes
  cases input.outcome with
  | error e => rfl
  | ok u =>
    cases effect with
    | completes => cases h
    | abandons => cases h
    | _ => rfl

theorem LadderSite.takes_error (site : LadderSite) (effect : LadderEffect) {input : LadderInput}
    {e : String} (h : input.outcome = .error e) : site.takes effect input = site := by
  unfold takes
  rw [h]

/-- An append that is taken puts the intent in the queue. -/
theorem LadderSite.pending_append {slotName host cause dropError : String} (site : LadderSite)
    {input : LadderInput} (h : input.outcome = .ok ()) :
    (site.append (.dropSlotCleanup slotName host cause dropError) input).Pending slotName host := by
  unfold append
  rw [h]
  exact ⟨_, List.mem_append_right _ List.mem_cons_self, rfl, _, _, rfl⟩

/-- A drop that is answered `ok` either has removed the slot or left everything as it was. -/
theorem LadderSite.dropSlot_ok (site : LadderSite) {input : LadderInput}
    (h : input.outcome = .ok ()) :
    site.dropSlot input = if input.retained then site else { site with slot := false } := by
  unfold dropSlot
  rw [h]

theorem LadderSite.dropSlot_error (site : LadderSite) {input : LadderInput} {e : String}
    (h : input.outcome = .error e) : site.dropSlot input = site := by
  unfold dropSlot
  rw [h]

/-- After a drop that is answered `ok` the slot is exposed only if it was and has been kept. -/
theorem LadderSite.dropSlot_cases (site : LadderSite) {input : LadderInput}
    (h : input.outcome = .ok ()) :
    ((site.Exposed → input.retained = false) ∧ ¬ (site.dropSlot input).Exposed) ∨
      (site.Exposed ∧ input.retained = true ∧ site.dropSlot input = site) := by
  rw [site.dropSlot_ok h]
  cases hretained : input.retained with
  | false =>
    refine Or.inl ⟨fun _ => rfl, ?_⟩
    rintro ⟨hslot, -⟩
    cases hslot
  | true =>
    by_cases hexposed : site.Exposed
    · exact Or.inr ⟨hexposed, rfl, rfl⟩
    · exact Or.inl ⟨fun h' => absurd h' hexposed, hexposed⟩

namespace FollowOp

variable (op : FollowOp)

theorem perform_rung {call : FollowCall} (h : call.isRung = true) (site : LadderSite)
    (input : LadderInput) :
    op.perform site call input = site.takes (effect call) input ∧
    (effect call).isOpen = true := by
  cases call with
  | dropSlot cause error => cases h
  | queueCleanup cause dropError error => cases h
  | complete => cases h
  | abandon error => cases h
  | _ => exact ⟨rfl, rfl⟩

/-- What a rung does: it goes on safely, or it ends the driver at once and leaves the site. -/
theorem act_rung (site : LadderSite) {pos : FollowPosition} (input : LadderInput)
    (h : pos.call.isRung = true) :
    (FollowSafe (site, pos, input) ∧ ∃ pos', (op.ladder.act site pos input).2 = some pos' ∧
        pos'.call.isAbandon = false ∧ pos'.call.height < pos.call.height) ∨
      (pos.call.endsAtOnce = true ∧ (∃ e, input.outcome = .error e) ∧
        (op.ladder.act site pos input).1 = site ∧
        ∃ pos', (op.ladder.act site pos input).2 = some pos' ∧ pos'.call.isAbandon = true) := by
  obtain ⟨call, startPhase⟩ := pos
  by_cases hok : call.endsAtOnce = true → input.outcome = .ok ()
  · left
    obtain ⟨call', hnext, habandon, hheight⟩ := op.next_rung startPhase input.running h hok
    refine ⟨fun _ => ⟨hok, fun cause error hdrop => ?_⟩, ⟨call', startPhase⟩, ?_,
      habandon, hheight⟩
    · rw [show call = .dropSlot cause error from hdrop] at h
      cases h
    · exact congrArg Sum.getLeft? hnext
  · right
    push Not at hok
    obtain ⟨hends, hfails⟩ := hok
    rcases houtcome : input.outcome with e | u
    · obtain ⟨reason, hnext⟩ := op.next_endsAtOnce startPhase input.running hends e
      refine ⟨hends, ⟨e, rfl⟩, ?_, ⟨.abandon reason, startPhase⟩, ?_, rfl⟩
      · exact (op.perform_rung h site input).1.trans (site.takes_error _ houtcome)
      · simp only [ladder, houtcome]
        exact congrArg Sum.getLeft? hnext
    · exact absurd houtcome hfails

theorem pending_rung (site : LadderSite) {pos : FollowPosition} (input : LadderInput)
    (h : pos.call.isRung = true) :
    (op.Pending (op.ladder.act site pos input).1 ↔ op.Pending site) ∧
      (op.ladder.act site pos input).1.status = site.status := by
  obtain ⟨hperform, hopen⟩ := op.perform_rung h site input
  change (op.Pending (op.perform site pos.call input) ↔ op.Pending site) ∧
    (op.perform site pos.call input).status = site.status
  rw [hperform]
  exact ⟨site.pending_takes _ _, site.status_takes hopen _⟩

/-- Where the calls of the cleanup and the two ends lead. -/
theorem next_not_rung {pos : FollowPosition} (h : pos.call.isRung = false) (running : Bool)
    (outcome : Except String Unit) :
    (∃ cause error, pos.call = .dropSlot cause error ∧
        ((outcome = .ok () ∧
            (op.next pos running outcome).getLeft? = some ⟨.abandon error, pos.startPhase⟩) ∨
          ∃ dropError, outcome = .error dropError ∧ (op.next pos running outcome).getLeft? =
            some ⟨.queueCleanup cause dropError error, pos.startPhase⟩)) ∨
      (∃ cause dropError error, pos.call = .queueCleanup cause dropError error ∧
        (op.next pos running outcome).getLeft? = some ⟨.abandon error, pos.startPhase⟩) ∨
      (pos.call = .complete ∧ (op.next pos running outcome).getLeft? = none) ∨
      (pos.call.isAbandon = true ∧ (op.next pos running outcome).getLeft? = none) := by
  obtain ⟨call, startPhase⟩ := pos
  cases call with
  | dropSlot cause error =>
    refine Or.inl ⟨cause, error, rfl, ?_⟩
    rcases outcome with dropError | u
    · exact Or.inr ⟨dropError, rfl, rfl⟩
    · exact Or.inl ⟨rfl, rfl⟩
  | queueCleanup cause dropError error =>
    refine Or.inr (Or.inl ⟨cause, dropError, error, rfl, ?_⟩)
    cases outcome <;> rfl
  | complete =>
    refine Or.inr (Or.inr (Or.inl ⟨rfl, ?_⟩))
    cases outcome <;> rfl
  | abandon error =>
    refine Or.inr (Or.inr (Or.inr ⟨rfl, ?_⟩))
    cases outcome <;> rfl
  | _ => cases h

/-- A call that is no drop and ends nothing at once is safe. -/
theorem safe_of_not {site : LadderSite} {pos : FollowPosition} {input : LadderInput}
    (hends : pos.call.endsAtOnce = false)
    (hdrop : ∀ cause error, pos.call ≠ .dropSlot cause error) :
    FollowSafe (site, pos, input) := by
  intro _
  refine ⟨fun h => ?_, fun cause error h => absurd h (hdrop cause error)⟩
  rw [hends] at h
  cases h

/-- A call that does not lead to the abandonment. -/
theorem ladder_goes {site site' : LadderSite} {pos pos' : FollowPosition} {input : LadderInput}
    (hact : op.ladder.act site pos input = (site', some pos'))
    (hpos' : pos'.call.isAbandon = false) :
    FollowSafe (site, pos, input) ∧ (op.Pending site' ↔ op.Pending site) ∧
      site'.status = site.status ∧ pos'.call.height < pos.call.height := by
  have hsite : (op.ladder.act site pos input).1 = site' := congrArg Prod.fst hact
  have hnext : (op.ladder.act site pos input).2 = some pos' := congrArg Prod.snd hact
  cases hrung : pos.call.isRung with
  | true =>
    obtain ⟨hpending, hstatus⟩ := op.pending_rung site input hrung
    rw [hsite] at hpending hstatus
    rcases op.act_rung site input hrung with ⟨hsafe, q, hq, -, hheight⟩ |
        ⟨-, -, -, q, hq, habandon⟩
    · obtain rfl := Option.some.inj (hnext.symm.trans hq)
      exact ⟨hsafe, hpending, hstatus, hheight⟩
    · obtain rfl := Option.some.inj (hnext.symm.trans hq)
      rw [hpos'] at habandon
      cases habandon
  | false =>
    rcases op.next_not_rung hrung input.running input.outcome with
      ⟨cause, error, hcall, ⟨-, hq⟩ | ⟨dropError, houtcome, hq⟩⟩ |
        ⟨_, _, _, -, hq⟩ | ⟨-, hq⟩ | ⟨-, hq⟩
    · obtain rfl := Option.some.inj (hq.symm.trans hnext)
      cases hpos'
    · -- the drop has failed, and its cleanup is queued next
      obtain rfl := Option.some.inj (hq.symm.trans hnext)
      have hsame : site' = site := by
        rw [← hsite]
        simp only [ladder, perform, hcall]
        exact site.dropSlot_error houtcome
      rw [hsame, hcall]
      refine ⟨fun _ => ⟨fun hends => ?_, fun _ _ _ hok => ?_⟩, Iff.rfl, rfl,
        by simp [FollowCall.height]⟩
      · rw [hcall] at hends
        cases hends
      · rw [houtcome] at hok
        cases hok
    · obtain rfl := Option.some.inj (hq.symm.trans hnext)
      cases hpos'
    · cases hq.symm.trans hnext
    · cases hq.symm.trans hnext

/-- A call that leads to the abandonment. -/
theorem ladder_exits {site site' : LadderSite} {pos pos' : FollowPosition} {input : LadderInput}
    (hact : op.ladder.act site pos input = (site', some pos')) (hpos' : pos'.call.isAbandon = true)
    (htaken : FollowTaken (site, pos, input)) :
    (FollowSafe (site, pos, input) ∧ (¬ site'.Exposed ∨ op.Pending site')) ∨
      (¬ FollowSafe (site, pos, input) ∧ site'.Exposed ∧
        (op.Pending site' ↔ op.Pending site)) := by
  have hsite : (op.ladder.act site pos input).1 = site' := congrArg Prod.fst hact
  have hnext : (op.ladder.act site pos input).2 = some pos' := congrArg Prod.snd hact
  cases hrung : pos.call.isRung with
  | true =>
    rcases op.act_rung site input hrung with ⟨-, q, hq, hnot, -⟩ |
        ⟨hends, ⟨e, he⟩, hsame, -⟩
    · obtain rfl := Option.some.inj (hnext.symm.trans hq)
      rw [hpos'] at hnot
      cases hnot
    · -- the driver ends at once, whatever it leaves
      rw [hsite] at hsame
      subst hsame
      by_cases hexposed : site'.Exposed
      · refine Or.inr ⟨fun hsafe => ?_, hexposed, Iff.rfl⟩
        rw [(hsafe hexposed).1 hends] at he
        cases he
      · exact Or.inl ⟨fun h => absurd h hexposed, Or.inl hexposed⟩
  | false =>
    rcases op.next_not_rung hrung input.running input.outcome with
      ⟨cause, error, hcall, ⟨hok, -⟩ | ⟨dropError, -, hq⟩⟩ |
        ⟨cause, dropError, error, hcall, -⟩
        | ⟨-, hq⟩ | ⟨-, hq⟩
    · have hdropped : site' = site.dropSlot input := by
        rw [← hsite]
        simp only [ladder, perform, hcall]
      rcases site.dropSlot_cases hok with ⟨hkept, hgone⟩ | ⟨hexposed, hretained, hsame⟩
      · refine Or.inl ⟨fun hexposed => ⟨fun hends => ?_, fun _ _ _ _ => hkept hexposed⟩,
          ?_⟩
        · rw [hcall] at hends
          cases hends
        · rw [hdropped]
          exact Or.inl hgone
      · rw [hdropped, hsame]
        refine Or.inr ⟨fun hsafe => ?_, hexposed, Iff.rfl⟩
        rw [(hsafe hexposed).2 cause error hcall hok] at hretained
        cases hretained
    · obtain rfl := Option.some.inj (hq.symm.trans hnext)
      cases hpos'
    · left
      refine ⟨safe_of_not (by rw [hcall]; rfl) (by simp [hcall]), Or.inr ?_⟩
      rw [← hsite]
      simp only [ladder, perform, hcall]
      exact site.pending_append (htaken (congrArg FollowCall.isQueue hcall))
    · cases hq.symm.trans hnext
    · cases hq.symm.trans hnext

theorem status_exits {site site' : LadderSite} {pos pos' : FollowPosition} {input : LadderInput}
    (hact : op.ladder.act site pos input = (site', some pos')) : site'.status = site.status := by
  have hsite : (op.ladder.act site pos input).1 = site' := congrArg Prod.fst hact
  have hnext : (op.ladder.act site pos input).2 = some pos' := congrArg Prod.snd hact
  rw [← hsite]
  cases hrung : pos.call.isRung with
  | true => exact (op.pending_rung site input hrung).2
  | false =>
    rcases op.next_not_rung hrung input.running input.outcome with
      ⟨cause, error, hcall, -⟩ | ⟨cause, dropError, error, hcall, -⟩ |
        ⟨-, hq⟩ | ⟨-, hq⟩
    · simp only [ladder, perform, hcall, LadderSite.dropSlot]
      cases input.outcome with
      | error e => rfl
      | ok u => cases input.retained <;> rfl
    · simp only [ladder, perform, hcall, LadderSite.append]
      cases input.outcome <;> rfl
    · cases hq.symm.trans hnext
    · cases hq.symm.trans hnext

/-- The driver's exits. -/
theorem exits : Exits op.ladder (fun pos => pos.call.isAbandon = true) FollowSafe FollowTaken
    op.Pending (fun pos => pos.call.height) where
  goes site pos input site' pos' _ hact hpos' := op.ladder_goes hact (by simpa using hpos')
  exits site pos input site' pos' hpos hact hpos' :=
    ⟨op.status_exits hact, FollowCall.height_lt (by simpa using hpos) hpos',
      op.ladder_exits hact hpos'⟩
  ends site pos input site' hpos hact hstatus := by
    have hsite : (op.ladder.act site pos input).1 = site' := congrArg Prod.fst hact
    have hnext : (op.ladder.act site pos input).2 = none := congrArg Prod.snd hact
    have hcall : pos.call = .complete := by
      cases hrung : pos.call.isRung with
      | true =>
        rcases op.act_rung site input hrung with ⟨-, q, hq, -⟩ | ⟨-, -, -, q, hq, -⟩
        · cases hq.symm.trans hnext
        · cases hq.symm.trans hnext
      | false =>
        rcases op.next_not_rung hrung input.running input.outcome with
          ⟨_, _, -, ⟨-, hq⟩ | ⟨_, -, hq⟩⟩ | ⟨_, _, _, -, hq⟩ |
            ⟨hcall, -⟩ | ⟨habandon, -⟩
        · cases hq.symm.trans hnext
        · cases hq.symm.trans hnext
        · cases hq.symm.trans hnext
        · exact hcall
        · exact absurd habandon hpos
    refine ⟨safe_of_not (by rw [hcall]; rfl) (by simp [hcall]), ?_⟩
    rw [← hsite]
    simp only [ladder, perform, hcall, effect, LadderSite.takes]
    cases input.outcome <;> simp [hstatus]
  abandoned site pos input hpos := by
    obtain ⟨call, startPhase⟩ := pos
    cases call with
    | abandon error =>
      refine ⟨safe_of_not rfl (by simp), ?_⟩
      rcases houtcome : input.outcome with e | u
      · simp [ladder, perform, LadderSite.takes, effect, houtcome, next]
      · simp [ladder, perform, LadderSite.takes, effect, houtcome, next]
    | _ => cases hpos
  frame site status := Iff.rfl

end FollowOp

/-! ## The ladder of a handoff -/

namespace HandoffCall

def isAbandon : HandoffCall → Bool
  | abandon _ => true
  | _ => false

def isDrop : HandoffCall → Bool
  | dropSlot _ => true
  | _ => false

def effect : HandoffCall → LadderEffect
  | createSlot => .createsSlot
  | startPostgres => .startsNode
  | complete => .completes
  | abandon _ => .abandons
  | _ => .other

/-- How far a call is from the end of the ladder. -/
def height : HandoffCall → ℕ
  | updatePhase .preflightDone => 21
  | checkpoint => 20
  | promote => 19
  | updatePhase .targetPromoted => 18
  | createSlot => 17
  | updatePhase .slotCreated => 16
  | stopPostgres => 15
  | updatePhase .localStopped => 14
  | rewind => 13
  | basebackup => 12
  | updatePhase .dataCopied => 11
  | writeRecoveryConf => 10
  | updatePhase .recoveryConfWritten => 9
  | startPostgres => 8
  | updatePhase .localStarted => 7
  | attachNode => 6
  | updatePhase .attached => 5
  | complete => 4
  | dropSlot _ => 2
  | abandon _ => 0

end HandoffCall

namespace HandoffOp

/-- What a call does to the site. -/
def perform (site : LadderSite) (call : HandoffCall) (input : LadderInput) : LadderSite :=
  match call with
  | .dropSlot _ => site.dropSlot input
  | call => site.takes call.effect input

/-- `run_handoff_from_phase`, with every call free to fail. -/
def ladder (op : HandoffOp) : Program LadderSite LadderPosition LadderInput Unit where
  act site pos input := (perform site pos.call input, (op.next pos input.outcome).getLeft?)
  resume _ _ := none

/-- The drop of the ladder's slot, on the host of the target, is in the queue. -/
def Pending (op : HandoffOp) : LadderSite → Prop :=
  LadderSite.Pending op.slotName op.target.hostname

end HandoffOp

/-- A call of the ladder that does not give an exposed slot away: a drop succeeds, and the slot is
not kept. -/
def HandoffSafe : LadderCall LadderPosition → Prop
  | (site, pos, input) => site.Exposed → pos.call.isDrop = true →
      input.outcome = .ok () ∧ input.retained = false

namespace HandoffOp

variable (op : HandoffOp)

/-- A call that is no cleanup leads down the ladder, to the drop, or to a reply that leaves the
entry in progress or done. -/
theorem next_rung {pos pos' : LadderPosition} {outcome : Except String Unit}
    (hdrop : pos.call.isDrop = false) (hnot : pos.call.isAbandon = false)
    (h : (op.next pos outcome).getLeft? = some pos') :
    pos'.call.isAbandon = false ∧ pos'.call.height < pos.call.height ∧
      pos.call.effect.isOpen = true := by
  obtain ⟨call, basebackupRan, attachNote⟩ := pos
  cases call with
  | dropSlot error => cases hdrop
  | abandon error => cases hnot
  | updatePhase phase =>
    rcases outcome with e | u
    · cases h
    · cases phase <;> obtain rfl := Option.some.inj h <;>
        exact ⟨rfl, by simp [HandoffCall.height, HandoffPhase.firstCall], rfl⟩
  | rewind =>
    rcases outcome with e | u <;> obtain rfl := Option.some.inj h <;>
      exact ⟨rfl, by simp [HandoffCall.height], rfl⟩
  | basebackup =>
    rcases outcome with e | u
    · obtain rfl := Option.some.inj h
      exact ⟨rfl, by simp [HandoffCall.height], rfl⟩
    · obtain rfl := Option.some.inj h
      exact ⟨rfl, by simp [HandoffCall.height], rfl⟩
  | attachNode =>
    rcases outcome with e | u
    · obtain rfl := Option.some.inj h
      exact ⟨rfl, by simp [HandoffCall.height], rfl⟩
    · obtain rfl := Option.some.inj h
      exact ⟨rfl, by simp [HandoffCall.height], rfl⟩
  | complete =>
    rcases outcome with e | u <;> cases h
  | _ =>
    rcases outcome with e | u
    · cases h
    · obtain rfl := Option.some.inj h
      exact ⟨rfl, by simp [HandoffCall.height], rfl⟩

/-- The drop leads to the abandonment, whatever comes of it. -/
theorem next_drop {pos : LadderPosition} (hdrop : pos.call.isDrop = true)
    (outcome : Except String Unit) :
    ∃ pos', (op.next pos outcome).getLeft? = some pos' ∧ pos'.call.isAbandon = true := by
  obtain ⟨call, basebackupRan, attachNote⟩ := pos
  cases call with
  | dropSlot error => exact ⟨_, rfl, rfl⟩
  | _ => cases hdrop

theorem perform_rung {site : LadderSite} {call : HandoffCall} {input : LadderInput}
    (hdrop : call.isDrop = false) : perform site call input = site.takes call.effect input := by
  cases call with
  | dropSlot error => cases hdrop
  | _ => rfl

theorem perform_drop {site : LadderSite} {call : HandoffCall} {input : LadderInput}
    (hdrop : call.isDrop = true) : perform site call input = site.dropSlot input := by
  cases call with
  | dropSlot error => rfl
  | _ => cases hdrop

theorem safe_of_not_drop {site : LadderSite} {pos : LadderPosition} {input : LadderInput}
    (h : pos.call.isDrop = false) : HandoffSafe (site, pos, input) := by
  intro _ hdrop
  rw [h] at hdrop
  cases hdrop

/-- The drop tells how it stands with the slot. -/
theorem drop_cases {site : LadderSite} {pos : LadderPosition} {input : LadderInput}
    (hdrop : pos.call.isDrop = true) :
    (HandoffSafe (site, pos, input) ∧ ¬ (site.dropSlot input).Exposed) ∨
      (¬ HandoffSafe (site, pos, input) ∧ (site.dropSlot input).Exposed ∧
        site.dropSlot input = site) := by
  rcases houtcome : input.outcome with e | u
  · rw [site.dropSlot_error houtcome]
    by_cases hexposed : site.Exposed
    · refine Or.inr ⟨fun hsafe => ?_, hexposed, rfl⟩
      have hok := (hsafe hexposed hdrop).1
      rw [houtcome] at hok
      cases hok
    · exact Or.inl ⟨fun h => absurd h hexposed, hexposed⟩
  · rcases site.dropSlot_cases houtcome with ⟨hkept, hgone⟩ | ⟨hexposed, hretained, hsame⟩
    · exact Or.inl ⟨fun hexposed _ => ⟨houtcome, hkept hexposed⟩, hgone⟩
    · rw [hsame]
      refine Or.inr ⟨fun hsafe => ?_, hexposed, rfl⟩
      rw [(hsafe hexposed hdrop).2] at hretained
      cases hretained

theorem height_pos {call : HandoffCall} (h : call.isAbandon = false) : 0 < call.height := by
  cases call with
  | abandon error => cases h
  | updatePhase phase => cases phase <;> simp [HandoffCall.height]
  | _ => simp [HandoffCall.height]

theorem height_of_isAbandon {call : HandoffCall} (h : call.isAbandon = true) : call.height = 0 := by
  cases call with
  | abandon error => rfl
  | _ => cases h

/-- A call that has come to an end, and is no abandonment, leaves the entry in progress or done. -/
theorem status_ends {site : LadderSite} {pos : LadderPosition} {input : LadderInput}
    (hnot : pos.call.isAbandon = false) (hstatus : site.status = .inProgress) :
    (site.takes pos.call.effect input).status ≠ .abandoned := by
  unfold LadderSite.takes
  cases input.outcome with
  | error e => simp [hstatus]
  | ok u =>
    cases heffect : pos.call.effect with
    | abandons =>
      obtain ⟨call, basebackupRan, attachNote⟩ := pos
      cases call with
      | abandon error => cases hnot
      | _ => cases heffect
    | _ => simp [hstatus]

/-- The ladder's exits. -/
theorem exits : Exits op.ladder (fun pos => pos.call.isAbandon = true) HandoffSafe (fun _ => True)
    op.Pending (fun pos => pos.call.height) where
  goes site pos input site' pos' hpos hact hpos' := by
    have hsite : perform site pos.call input = site' := congrArg Prod.fst hact
    have hnext : (op.next pos input.outcome).getLeft? = some pos' := congrArg Prod.snd hact
    cases hdrop : pos.call.isDrop with
    | true =>
      obtain ⟨q, hq, habandon⟩ := op.next_drop hdrop input.outcome
      obtain rfl := Option.some.inj (hq.symm.trans hnext)
      exact absurd habandon hpos'
    | false =>
      obtain ⟨-, hheight, hopen⟩ := op.next_rung hdrop (by simpa using hpos) hnext
      rw [← hsite, perform_rung hdrop]
      exact ⟨safe_of_not_drop hdrop, site.pending_takes _ _, site.status_takes hopen _, hheight⟩
  exits site pos input site' pos' hpos hact hpos' := by
    have hsite : perform site pos.call input = site' := congrArg Prod.fst hact
    have hnext : (op.next pos input.outcome).getLeft? = some pos' := congrArg Prod.snd hact
    cases hdrop : pos.call.isDrop with
    | true =>
      rw [perform_drop hdrop] at hsite
      subst hsite
      refine ⟨?_, ?_, fun _ => ?_⟩
      · unfold LadderSite.dropSlot
        cases input.outcome with
        | error e => rfl
        | ok u => cases input.retained <;> rfl
      · rw [height_of_isAbandon hpos']
        exact height_pos (by simpa using hpos)
      · rcases drop_cases hdrop with ⟨hsafe, hgone⟩ | ⟨hnotSafe, hexposed, hsame⟩
        · exact Or.inl ⟨hsafe, Or.inl hgone⟩
        · exact Or.inr ⟨hnotSafe, hexposed, by rw [hsame]⟩
    | false =>
      obtain ⟨hnot, -⟩ := op.next_rung hdrop (by simpa using hpos) hnext
      rw [hpos'] at hnot
      cases hnot
  ends site pos input site' hpos hact hstatus := by
    have hsite : perform site pos.call input = site' := congrArg Prod.fst hact
    have hnext : (op.next pos input.outcome).getLeft? = none := congrArg Prod.snd hact
    cases hdrop : pos.call.isDrop with
    | true =>
      obtain ⟨q, hq, -⟩ := op.next_drop hdrop input.outcome
      cases hq.symm.trans hnext
    | false =>
      rw [← hsite, perform_rung hdrop]
      exact ⟨safe_of_not_drop hdrop, status_ends (by simpa using hpos) hstatus⟩
  abandoned site pos input hpos := by
    obtain ⟨call, basebackupRan, attachNote⟩ := pos
    cases call with
    | abandon error =>
      refine ⟨safe_of_not_drop rfl, ?_⟩
      rcases houtcome : input.outcome with e | u
      · simp [ladder, perform, LadderSite.takes, HandoffCall.effect, houtcome, next]
      · simp [ladder, perform, LadderSite.takes, HandoffCall.effect, houtcome, next]
    | _ => cases hpos
  frame site status := Iff.rfl

end HandoffOp

/-! ## Both ladders -/

theorem FollowPhase.start_not_abandon (phase : FollowPhase) :
    ¬ phase.start.call.isAbandon = true := by
  cases phase <;> decide

theorem HandoffPhase.start_not_abandon (phase : HandoffPhase) :
    ¬ phase.start.call.isAbandon = true := by
  cases phase <;> decide

/-- The two ladders, entered at any phase, come to an end whatever their calls answer, and if the
queue takes what is appended: **an abandoned operation whose node was not started has its slot
accounted for exactly when no call has given the exposed slot away**, the abandonment could not be
written, or the drop was in the queue from the start. -/
theorem ladders_accountedFor_iff (site : LadderSite) (hstatus : site.status = .inProgress) :
    (∀ (op : FollowOp) (phase : FollowPhase),
      EndsIn (logged op.ladder) (site, []) phase.start fun w =>
        (∀ call ∈ w.2, FollowTaken call) →
        (w.1.AccountedFor op.Pending ↔
          Excused (fun pos => pos.call.isAbandon = true) FollowSafe op.Pending site w.2)) ∧
    (∀ (op : HandoffOp) (phase : HandoffPhase),
      EndsIn (logged op.ladder) (site, []) phase.start fun w =>
        (w.1.AccountedFor op.Pending ↔
          Excused (fun pos => pos.call.isAbandon = true) HandoffSafe op.Pending site w.2)) := by
  constructor
  · intro op phase
    exact op.exits.endsIn hstatus phase.start_not_abandon
  · intro op phase
    exact (op.exits.endsIn hstatus phase.start_not_abandon).mono fun w h => h fun _ _ => trivial

/-! ### Node 2 is re-pointed at node 1 -/

def repointing : FollowOp := ⟨"0-follow_primary-0", ⟨2, "db2"⟩, ⟨1, "db1"⟩⟩

/-- The calls with the given numbers fail. -/
def failing (calls : List ℕ) : ℕ → LadderInput := fun k =>
  ⟨if calls.contains k then .error "failed" else .ok (), true, false, 0⟩

/-- Nothing has been done yet. -/
def freshSite : LadderSite := ⟨false, false, false, .inProgress, [], 0⟩

/-- The slot has been created, by a driver before. -/
def slotSite : LadderSite := { freshSite with slot := true, created := true }

/-- Resumed at `recovery_conf_written`, the start and the drop fail: the drop is in the queue. -/
theorem startFails_excused :
    ∃ w, drive (logged repointing.ladder) 6 (slotSite, []) FollowPhase.recoveryConfWritten.start
        (failing [2, 3]) = (w, none) ∧
      Excused (fun pos => pos.call.isAbandon = true) FollowSafe repointing.Pending
        slotSite w.2 := by
  obtain ⟨n, w, hdrive, hiff⟩ :=
    (ladders_accountedFor_iff slotSite rfl).1 repointing .recoveryConfWritten (failing [2, 3])
  refine ⟨_, rfl, ?_⟩
  obtain rfl := drive_unique hdrive (rfl : drive (logged repointing.ladder) 6 (slotSite, [])
    FollowPhase.recoveryConfWritten.start (failing [2, 3]) = (_, none))
  exact (hiff (by decide)).mp fun _ _ _ => Or.inr ⟨_, List.mem_cons_self, rfl, _, _, rfl⟩

/-- Started anew, the phase `slot_created` cannot be written: the entry is abandoned, and the slot
stays. -/
theorem slotUnrecorded_stays :
    ∃ w, drive (logged repointing.ladder) 9 (freshSite, []) FollowPhase.queued.start
        (failing [7]) = (w, none) ∧ (∀ call ∈ w.2, FollowTaken call) ∧
      ¬ w.1.AccountedFor repointing.Pending := by
  refine ⟨_, rfl, by decide, fun h => ?_⟩
  rcases h rfl rfl rfl with hgone | ⟨i, hi, -⟩
  · cases hgone
  · cases hi

end PgAgent
