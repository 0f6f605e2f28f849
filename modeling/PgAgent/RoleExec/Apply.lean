import PgAgent.Ha.Tick

/-!
# The role executor

`roleexec.rs`: everything the agent does to PostgreSQL because of a decision.  `apply`
takes one `HaDecision`; here it returns the executor's next memory and the list of the
actions it issued, in order.

What the executor learns on the way --- the instance's state, whether a call
succeeded --- is passed in as an `ExecInput`.  Results that are only logged (of the
stop, of the detach, of closing the journal entry) do not appear in it: nothing
depends on them.  `Instance::state` and `Instance::promote_and_wait` of `pgman` are
modelled here too, down to the probes they make.

The actions of the whole executor are summed up by two lemmas: `promotes_of_mem_apply`
says which decisions promote, and `stops_iff_mem_apply` which ones stop PostgreSQL.
-/

namespace PgAgent

open Rust

/-! ## The local instance -/

/-- One authoritative view of the local instance. -/
inductive InstanceState where
  | down
  | standby (streaming : Bool)
  | primary
  | unknown
  deriving DecidableEq, Repr

/-- What `Instance::state` asks: the process manager, then the database. -/
structure InstanceProbes where
  isActive : Option Bool
  isInRecovery : Option Bool
  replicationLag : Option ReplicationLag
  deriving DecidableEq, Repr

/-- `Instance::state`. -/
def instanceState (p : InstanceProbes) : InstanceState :=
  match p.isActive with
  | some false => .down
  | none => .unknown
  | some true =>
      match p.isInRecovery with
      | some false => .primary
      | some true =>
          .standby (match p.replicationLag with
            | some lag => lag.state == "streaming"
            | none => false)
      | none => .unknown

/-- The upstream a standby is pointed at. -/
structure UpstreamSpec where
  host : String
  port : UInt16
  replUser : String
  slotName : String
  deriving DecidableEq, Repr

/-! ## The executor -/

/-- The configuration of a `RoleExecutor`. -/
structure RoleExecutor where
  pool : NodePool
  promoteDeadline : Duration
  pgPort : UInt16
  replUser : String
  deriving DecidableEq, Repr

/-- The executor's memory. -/
structure ExecState where
  confirmedUpstream : Option NodeId
  selfAttachInFlight : Bool
  selfAttachLastProbe : Option Instant
  syncArmLastProbe : Option Instant
  followStalledSince : Option Instant
  followWedged : Bool
  deriving DecidableEq, Repr

def ExecState.new : ExecState := ⟨none, false, none, none, none, false⟩

/-- What the executor asks its collaborators to do.  A promotion carries the term it is
made for, which `ensure_primary` writes into the journal. -/
inductive ExecAction where
  | journalBegin (node : NodeId) (term : UInt64)
  | promoteAndWait (term : UInt64) (deadline : Duration)
  | pgPromote
  | journalComplete (id : String)
  | journalAbandon (id : String)
  | createSlot (slot : String)
  | setSynchronousStandbyNames (value : String)
  | spawnSelfAttach (node : NodeId)
  | ensureStopped
  | stopReceiving
  | createSlotOn (holder : NodeConfig) (slot : String)
  | follow (upstream : UpstreamSpec)
  deriving DecidableEq, Repr

/-- What the executor learns while it applies a decision: the clock, before and after a
promotion; the instance's state; the journal's entry id (`none` if `begin` failed); the
first recovery query, the signal and the wait of a promotion; and whether the slot, GUC,
peer and follow calls succeeded. -/
structure ExecInput where
  now : Instant
  nowPromoted : Instant
  probes : InstanceProbes
  journal : Option String
  recovery : Option Bool
  signalled : Bool
  recoveryEnded : Bool
  slotCreated : String → Bool
  setting : Option String
  connected : Option (List String)
  dialled : Bool
  peerSlotCreated : Bool
  followed : Bool

/-- How often a primary holder probes the local pgpool's view of its own backend. -/
def selfAttachProbeInterval : Duration := Duration.fromSecs 10

/-- How often a primary holder checks quorum commit. -/
def syncArmProbeInterval : Duration := Duration.fromSecs 10

/-- Less than `interval` ago. -/
def recently (last : Option Instant) (now : Instant) (interval : Duration) : Bool :=
  match last with
  | some t => Instant.durationSince now t < interval
  | none => false

section Executor

variable (rx : RoleExecutor)

/-- The replication slots of the other members, in declaration order. -/
def RoleExecutor.memberSlots : List String := rx.pool.others.map NodeConfig.slotName

/-- The value `synchronous_standby_names` is armed with. -/
def RoleExecutor.desiredSyncNames : String :=
  "ANY 1 (" ++ ", ".intercalate (rx.memberSlots.insertionSort (· ≤ ·)) ++ ")"

/-- Slots are created in order, up to the first failure. -/
def createSlots (created : String → Bool) : List String → List ExecAction
  | [] => []
  | slot :: rest => .createSlot slot :: if created slot then createSlots created rest else []

/-- `ensure_quorum_commit`. -/
def ensureQuorumCommit (es : ExecState) (force : Bool) (now : Instant) (inp : ExecInput) :
    ExecState × List ExecAction :=
  if !force && recently es.syncArmLastProbe now syncArmProbeInterval then (es, [])
  else
    let es := { es with syncArmLastProbe := some now }
    if rx.memberSlots.isEmpty then (es, [])
    else
      match inp.setting with
      | none => (es, [])
      | some current =>
          if current = rx.desiredSyncNames then (es, [])
          else if current = "" && (inp.connected.getD []).isEmpty then (es, [])
          else (es, [.setSynchronousStandbyNames rx.desiredSyncNames])

/-- `ensure_self_attached`: the probe runs off the tick, one at a time. -/
def ensureSelfAttached (es : ExecState) (now : Instant) : ExecState × List ExecAction :=
  if recently es.selfAttachLastProbe now selfAttachProbeInterval then (es, [])
  else if es.selfAttachInFlight then (es, [])
  else
    ({ es with selfAttachInFlight := true, selfAttachLastProbe := some now },
      [.spawnSelfAttach rx.pool.localNodeId])

/-- `Instance::promote_and_wait`: whether it returned `Ok`, and the signal it sent. -/
def promoteAndWait (inp : ExecInput) : Bool × List ExecAction :=
  match inp.recovery with
  | some false => (true, [])
  | some true => (inp.signalled && inp.recoveryEnded, [.pgPromote])
  | none => (false, [])

/-- `ensure_primary`: the journal is the record, not the gate. -/
def ensurePrimary (es : ExecState) (term : UInt64) (inp : ExecInput) :
    ExecState × List ExecAction :=
  if instanceState inp.probes = .primary then (es, [])
  else
    let opening := [.journalBegin rx.pool.localNodeId term, .promoteAndWait term rx.promoteDeadline]
    let (promoted, signal) := promoteAndWait inp
    if promoted then
      let es := { es with confirmedUpstream := none }
      let closing := (inp.journal.map ExecAction.journalComplete).toList
      let (es, sync) := ensureQuorumCommit rx es true inp.nowPromoted inp
      let (es, attach) := ensureSelfAttached rx es inp.nowPromoted
      (es, opening ++ signal ++ createSlots inp.slotCreated rx.memberSlots ++ closing ++ sync ++
        attach)
    else
      (es, opening ++ signal ++ (inp.journal.map ExecAction.journalAbandon).toList)

/-- `fence`: never gated, never delayed. -/
def fence (es : ExecState) : ExecState × List ExecAction :=
  ({ es with confirmedUpstream := none, followStalledSince := none, followWedged := false },
    [.ensureStopped])

/-- `RoleExecutor::follow`: a slot on the holder first, then the local standby. -/
def followHolder (holder : NodeId) (inp : ExecInput) : Bool × List ExecAction :=
  match rx.pool.localNode, rx.pool.nodeById holder with
  | .ok localNode, .ok holderNode =>
      if inp.dialled then
        if inp.peerSlotCreated then
          (inp.followed,
            [.createSlotOn holderNode localNode.slotName,
             .follow ⟨holderNode.hostname, rx.pgPort, rx.replUser, localNode.slotName⟩])
        else (false, [.createSlotOn holderNode localNode.slotName])
      else (false, [])
  | _, _ => (false, [])

/-- A follow confirmed onto the holder: watch that it streams. -/
def verifyStream (es : ExecState) (streaming : Bool) (now : Instant) : ExecState :=
  if streaming then { es with followStalledSince := none, followWedged := false }
  else
    let since := es.followStalledSince.getD now
    if Instant.durationSince now since ≥ rx.promoteDeadline then
      { es with followWedged := true, confirmedUpstream := none, followStalledSince := none }
    else { es with followStalledSince := some since }

/-- `converge_follow`. -/
def convergeFollow (es : ExecState) (holder : NodeId) (inp : ExecInput) :
    ExecState × List ExecAction :=
  match instanceState inp.probes with
  | .primary => fence es
  | .standby streaming =>
      if es.confirmedUpstream = some holder then (verifyStream rx es streaming inp.now, [])
      else
        let (followed, actions) := followHolder rx holder inp
        if followed then
          ({ es with confirmedUpstream := some holder, followStalledSince := none }, actions)
        else (es, actions)
  | .down => (es, [])
  | .unknown => (es, [])

/-- Steady state of a primary that holds the lease. -/
def servePrimary (es : ExecState) (inp : ExecInput) : ExecState × List ExecAction :=
  let es := { es with confirmedUpstream := none, followStalledSince := none, followWedged := false }
  let (es, sync) := ensureQuorumCommit rx es false inp.now inp
  let (es, attach) := ensureSelfAttached rx es inp.now
  (es, sync ++ attach)

/-- `RoleExecutor::apply`. -/
def RoleExecutor.apply (es : ExecState) (inp : ExecInput) :
    HaDecision → ExecState × List ExecAction
  | .tookOver term false => ensurePrimary rx es term inp
  | .awaitingPromotion term _ => ensurePrimary rx es term inp
  | .wouldDemote _ => fence es
  | .following holder => convergeFollow rx es holder inp
  | .wouldFollowNewHolder _ holder => convergeFollow rx es holder inp
  | .detachingFromDeposed _ =>
      ({ es with confirmedUpstream := none, followStalledSince := none }, [.stopReceiving])
  | .retainedLease _ => servePrimary rx es inp
  | .tookOver _ true => servePrimary rx es inp
  | .paused => (es, [])
  | .storeUnknown _ => (es, [])
  | .holderUnhealthy _ _ => (es, [])
  | .stoodDown _ => (es, [])
  | .lostTakeover _ => (es, [])

end Executor

/-! ## Which actions are issued -/

/-- The actions that change whether, or as what, PostgreSQL runs. -/
def ExecAction.changesRole : ExecAction → Bool
  | .promoteAndWait _ _ => true
  | .pgPromote => true
  | .ensureStopped => true
  | _ => false

section Actions

variable {rx : RoleExecutor} {es : ExecState} {inp : ExecInput} {a : ExecAction}

/-- Arming notes the time of the probe, and writes the desired value or nothing. -/
theorem ensureQuorumCommit_spec (rx : RoleExecutor) (es : ExecState) (force : Bool) (now : Instant)
    (inp : ExecInput) :
    (∃ probe, (ensureQuorumCommit rx es force now inp).1 =
      { es with syncArmLastProbe := probe }) ∧
      ∀ a ∈ (ensureQuorumCommit rx es force now inp).2,
        a = .setSynchronousStandbyNames rx.desiredSyncNames := by
  have hnone : ∀ a ∈ ([] : List ExecAction),
      a = .setSynchronousStandbyNames rx.desiredSyncNames :=
    fun a ha => absurd ha List.not_mem_nil
  unfold ensureQuorumCommit
  split
  · exact ⟨⟨es.syncArmLastProbe, rfl⟩, hnone⟩
  · dsimp only
    split
    · exact ⟨⟨_, rfl⟩, hnone⟩
    · split
      · exact ⟨⟨_, rfl⟩, hnone⟩
      · split
        · exact ⟨⟨_, rfl⟩, hnone⟩
        · split
          · exact ⟨⟨_, rfl⟩, hnone⟩
          · exact ⟨⟨_, rfl⟩, fun a ha => List.mem_singleton.mp ha⟩

/-- The self-attach probe notes that it is on its way, and is spawned or not. -/
theorem ensureSelfAttached_spec (rx : RoleExecutor) (es : ExecState) (now : Instant) :
    (∃ inFlight probe, (ensureSelfAttached rx es now).1 =
        { es with selfAttachInFlight := inFlight, selfAttachLastProbe := probe }) ∧
      ∀ a ∈ (ensureSelfAttached rx es now).2, a = .spawnSelfAttach rx.pool.localNodeId := by
  have hnone : ∀ a ∈ ([] : List ExecAction), a = .spawnSelfAttach rx.pool.localNodeId :=
    fun a ha => absurd ha List.not_mem_nil
  unfold ensureSelfAttached
  split
  · exact ⟨⟨es.selfAttachInFlight, es.selfAttachLastProbe, rfl⟩, hnone⟩
  · split
    · exact ⟨⟨es.selfAttachInFlight, es.selfAttachLastProbe, rfl⟩, hnone⟩
    · exact ⟨⟨_, _, rfl⟩, fun a ha => List.mem_singleton.mp ha⟩

/-- Following a holder creates a slot there and re-points the instance. -/
theorem mem_followHolder {holder : NodeId} (h : a ∈ (followHolder rx holder inp).2) :
    (∃ node slot, a = .createSlotOn node slot) ∨ ∃ upstream, a = .follow upstream := by
  unfold followHolder at h
  split at h
  · split at h
    · split at h
      · rcases List.mem_cons.mp h with rfl | h
        · exact Or.inl ⟨_, _, rfl⟩
        · exact Or.inr ⟨_, List.mem_singleton.mp h⟩
      · exact Or.inl ⟨_, _, List.mem_singleton.mp h⟩
    · cases h
  · cases h

/-- Steady state arms and attaches. -/
theorem mem_servePrimary (h : a ∈ (servePrimary rx es inp).2) :
    a = .setSynchronousStandbyNames rx.desiredSyncNames ∨
      a = .spawnSelfAttach rx.pool.localNodeId := by
  unfold servePrimary at h
  rcases List.mem_append.mp h with h | h
  · exact Or.inl ((ensureQuorumCommit_spec _ _ _ _ _).2 a h)
  · exact Or.inr ((ensureSelfAttached_spec _ _ _).2 a h)

theorem not_changesRole_of_mem_createSlots {created : String → Bool} {slots : List String}
    (h : a ∈ createSlots created slots) : a.changesRole = false := by
  induction slots with
  | nil => cases h
  | cons slot slots ih =>
    rw [createSlots] at h
    rcases List.mem_cons.mp h with rfl | h
    · rfl
    · split at h
      · exact ih h
      · cases h

theorem not_changesRole_of_mem_followHolder {holder : NodeId}
    (h : a ∈ (followHolder rx holder inp).2) : a.changesRole = false := by
  rcases mem_followHolder h with ⟨node, slot, rfl⟩ | ⟨upstream, rfl⟩
  · rfl
  · rfl

theorem not_changesRole_of_mem_servePrimary (h : a ∈ (servePrimary rx es inp).2) :
    a.changesRole = false := by
  rcases mem_servePrimary h with rfl | rfl
  · rfl
  · rfl

theorem mem_promoteAndWait (h : a ∈ (promoteAndWait inp).2) : a = .pgPromote := by
  unfold promoteAndWait at h
  split at h
  · cases h
  · exact List.mem_singleton.mp h
  · cases h

/-- A promotion is opened in the journal, made for its term, and then only cleaned up
after. -/
theorem mem_ensurePrimary {term : UInt64} (h : a ∈ (ensurePrimary rx es term inp).2) :
    (a = .promoteAndWait term rx.promoteDeadline ∨ a = .pgPromote ∨ a.changesRole = false) ∧
      .promoteAndWait term rx.promoteDeadline ∈ (ensurePrimary rx es term inp).2 := by
  have hend : ∀ f : String → ExecAction, (∀ id, (f id).changesRole = false) →
      a ∈ (inp.journal.map f).toList → a.changesRole = false := by
    intro f hf hmem
    obtain ⟨id, -, rfl⟩ := Option.map_eq_some_iff.mp (Option.mem_toList.mp hmem)
    exact hf id
  unfold ensurePrimary at h ⊢
  split at h
  · cases h
  · rename_i hstate
    rw [if_neg hstate]
    dsimp only at h ⊢
    split at h
    · rename_i hok
      rw [if_pos hok]
      refine ⟨?_, by simp⟩
      simp only [List.mem_append] at h
      rcases h with ((((h | h) | h) | h) | h) | h
      · rcases List.mem_cons.mp h with rfl | h
        · exact Or.inr (Or.inr rfl)
        · exact Or.inl (List.mem_singleton.mp h)
      · exact Or.inr (Or.inl (mem_promoteAndWait h))
      · exact Or.inr (Or.inr (not_changesRole_of_mem_createSlots h))
      · exact Or.inr (Or.inr (hend _ (fun _ => rfl) h))
      · rw [(ensureQuorumCommit_spec _ _ _ _ _).2 a h]
        exact Or.inr (Or.inr rfl)
      · rw [(ensureSelfAttached_spec _ _ _).2 a h]
        exact Or.inr (Or.inr rfl)
    · rename_i hfail
      rw [if_neg hfail]
      refine ⟨?_, by simp⟩
      simp only [List.mem_append] at h
      rcases h with (h | h) | h
      · rcases List.mem_cons.mp h with rfl | h
        · exact Or.inr (Or.inr rfl)
        · exact Or.inl (List.mem_singleton.mp h)
      · exact Or.inr (Or.inl (mem_promoteAndWait h))
      · exact Or.inr (Or.inr (hend _ (fun _ => rfl) h))

/-- Converging on the holder stops a primary, and changes no role otherwise. -/
theorem mem_convergeFollow {holder : NodeId} (h : a ∈ (convergeFollow rx es holder inp).2)
    (hrole : a.changesRole = true) :
    a = .ensureStopped ∧ instanceState inp.probes = .primary := by
  unfold convergeFollow at h
  split at h
  · rename_i hstate
    exact ⟨List.mem_singleton.mp h, hstate⟩
  · split at h
    · cases h
    · dsimp only at h
      have hmem : a ∈ (followHolder rx holder inp).2 := by
        split at h <;> exact h
      rw [not_changesRole_of_mem_followHolder hmem] at hrole
      cases hrole
  · cases h
  · cases h

/-- Only a won takeover and a promotion still awaited promote, each for its own term. -/
theorem promotes_of_mem_apply {d : HaDecision} (h : a ∈ (rx.apply es inp d).2)
    (hrole : a.changesRole = true) (hstop : a ≠ .ensureStopped) :
    ∃ term, (a = .promoteAndWait term rx.promoteDeadline ∨ a = .pgPromote) ∧
      .promoteAndWait term rx.promoteDeadline ∈ (rx.apply es inp d).2 ∧
      (d = .tookOver term false ∨ ∃ waiting, d = .awaitingPromotion term waiting) := by
  have hprimary : ∀ term, a ∈ (ensurePrimary rx es term inp).2 →
      (a = .promoteAndWait term rx.promoteDeadline ∨ a = .pgPromote) ∧
        .promoteAndWait term rx.promoteDeadline ∈ (ensurePrimary rx es term inp).2 := by
    intro term hmem
    obtain ⟨hkind, hcall⟩ := mem_ensurePrimary hmem
    rcases hkind with hkind | hkind | hkind
    · exact ⟨Or.inl hkind, hcall⟩
    · exact ⟨Or.inr hkind, hcall⟩
    · rw [hkind] at hrole
      cases hrole
  unfold RoleExecutor.apply at h ⊢
  split at h
  · rename_i term
    obtain ⟨hkind, hcall⟩ := hprimary term h
    exact ⟨term, hkind, hcall, Or.inl rfl⟩
  · rename_i term waiting
    obtain ⟨hkind, hcall⟩ := hprimary term h
    exact ⟨term, hkind, hcall, Or.inr ⟨waiting, rfl⟩⟩
  · exact absurd (List.mem_singleton.mp h) hstop
  · exact absurd (mem_convergeFollow h hrole).1 hstop
  · exact absurd (mem_convergeFollow h hrole).1 hstop
  · rw [List.mem_singleton.mp h] at hrole
    cases hrole
  · rw [not_changesRole_of_mem_servePrimary h] at hrole
    cases hrole
  · rw [not_changesRole_of_mem_servePrimary h] at hrole
    cases hrole
  all_goals cases h

/-- PostgreSQL is stopped on a demote decision, and on a follow decision of a node whose
instance runs as a primary. -/
theorem stops_iff_mem_apply {d : HaDecision} :
    .ensureStopped ∈ (rx.apply es inp d).2 ↔
      (∃ reason, d = .wouldDemote reason) ∨
      (((∃ holder, d = .following holder) ∨
        ∃ prev holder, d = .wouldFollowNewHolder prev holder) ∧
        instanceState inp.probes = .primary) := by
  have hfollow : ∀ holder, .ensureStopped ∈ (convergeFollow rx es holder inp).2 ↔
      instanceState inp.probes = .primary := by
    intro holder
    refine ⟨fun h => (mem_convergeFollow h rfl).2, fun h => ?_⟩
    rw [convergeFollow, h]
    exact List.mem_singleton.mpr rfl
  have hprimary : ∀ term, .ensureStopped ∉ (ensurePrimary rx es term inp).2 := by
    intro term h
    rcases (mem_ensurePrimary h).1 with h | h | h <;> cases h
  have hserve : .ensureStopped ∉ (servePrimary rx es inp).2 := by
    intro h
    cases not_changesRole_of_mem_servePrimary h
  cases d with
  | tookOver term already =>
    cases already with
    | false => simp [RoleExecutor.apply, hprimary]
    | true => simp [RoleExecutor.apply, hserve]
  | awaitingPromotion term waiting => simp [RoleExecutor.apply, hprimary]
  | wouldDemote reason => simp [RoleExecutor.apply, fence]
  | following holder => simp [RoleExecutor.apply, hfollow]
  | wouldFollowNewHolder prev holder => simp [RoleExecutor.apply, hfollow]
  | retainedLease term => simp [RoleExecutor.apply, hserve]
  | detachingFromDeposed holder => simp [RoleExecutor.apply]
  | paused => simp [RoleExecutor.apply]
  | storeUnknown unknownFor => simp [RoleExecutor.apply]
  | holderUnhealthy holder unhealthyFor => simp [RoleExecutor.apply]
  | stoodDown reason => simp [RoleExecutor.apply]
  | lostTakeover currentHolder => simp [RoleExecutor.apply]

end Actions

end PgAgent
