import PgAgent.RoleExec.StalePrimary
import PgAgent.Library.Trace
import PgAgent.Standby.Options

/-!
# Where a standby is pointed

The upstream of a standby is what `myrecovery.conf` says. The role executor writes it when it
follows a holder, and remembers the holder (`confirmed_upstream`) so that later ticks have nothing
to do. But it is not the only writer: a peer's `ConfigureStandby`, the follow-primary driver and a
handoff write the same file, and none of them knows of the memory.

The memory and the file are the state here, and both kinds of writers step on it.

* `writeRecoveryConf_snd`, `instanceFollow_snd` --- when a call changes the file;
* `memoryTrue_step_iff` --- the steps that keep the memory true;
* `followerConverges_iff` --- the runs in which every follow decision ends at its holder.
-/

namespace PgAgent

open Rust

/-! ## The recovery configuration -/

/-- `UpstreamSpec::recovery_conf`. -/
def UpstreamSpec.recoveryConf (u : UpstreamSpec) : WriteRecoveryConfOpts :=
  ⟨u.host, u.port, u.replUser, u.slotName⟩

/-- What comes of the files and of the reload: whether `myrecovery.conf` is rendered and written,
`standby.signal` is written, and PostgreSQL takes the reload. -/
structure ConfIo where
  confWritten : Bool
  signalWritten : Bool
  reloaded : Bool
  deriving DecidableEq, Repr

/-- What `myrecovery.conf` was last written with; `none` while it has no `primary_conninfo`. -/
abbrev RecoveryConf := Option WriteRecoveryConfOpts

/-- The file is written: the options are valid, and the write of it goes through. -/
def WriteRecoveryConfOpts.Lands (opts : WriteRecoveryConfOpts) (io : ConfIo) : Prop :=
  opts.validate = .ok () ∧ io.confWritten = true

instance (opts : WriteRecoveryConfOpts) (io : ConfIo) : Decidable (opts.Lands io) :=
  inferInstanceAs (Decidable (_ ∧ _))

/-- `write_recovery_conf`: whether it succeeded, and the file after it. The file is written before
`standby.signal`. -/
def writeRecoveryConf (conf : RecoveryConf) (opts : WriteRecoveryConfOpts) (io : ConfIo) :
    Bool × RecoveryConf :=
  match opts.validate with
  | .error _ => (false, conf)
  | .ok _ => if io.confWritten then (io.signalWritten, some opts) else (false, conf)

/-- `Instance::follow`. -/
def instanceFollow (conf : RecoveryConf) (upstream : UpstreamSpec) (io : ConfIo) :
    Bool × RecoveryConf :=
  let (ok, conf) := writeRecoveryConf conf upstream.recoveryConf io
  (ok && io.reloaded, conf)

/-- `Instance::stop_receiving`, on the file: `detach_recovery_conf`. -/
def instanceStopReceiving (conf : RecoveryConf) (io : ConfIo) : RecoveryConf :=
  if io.confWritten then none else conf

theorem writeRecoveryConf_snd (conf : RecoveryConf) (opts : WriteRecoveryConfOpts) (io : ConfIo) :
    (writeRecoveryConf conf opts io).2 = if opts.Lands io then some opts else conf := by
  unfold writeRecoveryConf
  split
  · rename_i e hinvalid
    rw [if_neg]
    intro hlands
    rw [hlands.1] at hinvalid
    cases hinvalid
  · rename_i u hvalid
    cases hwritten : io.confWritten with
    | true => rw [if_pos rfl, if_pos ⟨hvalid, hwritten⟩]
    | false =>
      rw [if_neg Bool.false_ne_true, if_neg]
      intro hlands
      rw [hlands.2] at hwritten
      cases hwritten

theorem writeRecoveryConf_fst (conf : RecoveryConf) (opts : WriteRecoveryConfOpts) (io : ConfIo) :
    (writeRecoveryConf conf opts io).1 = true ↔ opts.Lands io ∧ io.signalWritten = true := by
  unfold writeRecoveryConf WriteRecoveryConfOpts.Lands
  cases opts.validate with
  | error e => exact iff_of_false Bool.false_ne_true fun h => nomatch h.1.1
  | ok u =>
    cases io.confWritten with
    | true => exact ⟨fun h => ⟨⟨rfl, rfl⟩, h⟩, fun h => h.2⟩
    | false => exact iff_of_false Bool.false_ne_true fun h => nomatch h.1.2

theorem instanceFollow_snd (conf : RecoveryConf) (upstream : UpstreamSpec) (io : ConfIo) :
    (instanceFollow conf upstream io).2 =
      if upstream.recoveryConf.Lands io then some upstream.recoveryConf else conf :=
  writeRecoveryConf_snd conf upstream.recoveryConf io

theorem instanceFollow_fst (conf : RecoveryConf) (upstream : UpstreamSpec) (io : ConfIo) :
    (instanceFollow conf upstream io).1 = true ↔
      upstream.recoveryConf.Lands io ∧ io.signalWritten = true ∧ io.reloaded = true := by
  show ((writeRecoveryConf conf upstream.recoveryConf io).1 && io.reloaded) = true ↔ _
  rw [Bool.and_eq_true, writeRecoveryConf_fst, and_assoc]

/-! ## The other writers -/

/-- `ConfigureStandbyRequest`; the port is an `i32` on the wire. -/
structure ConfigureStandbyRequest where
  primaryHost : String
  primaryPort : ℤ
  replUser : String
  slotName : String
  deriving DecidableEq, Repr

/-- The options of a request, if its port is one. -/
def ConfigureStandbyRequest.opts (req : ConfigureStandbyRequest) :
    Except String WriteRecoveryConfOpts :=
  if 0 ≤ req.primaryPort ∧ req.primaryPort < 2 ^ 16 then
    .ok ⟨req.primaryHost, UInt16.ofNat req.primaryPort.toNat, req.replUser, req.slotName⟩
  else .error "primary_port must fit in u16 and be > 0"

/-- The paths that re-point this standby past the executor: the handler of `ConfigureStandby`, for
whichever orchestration of a peer; `drive_follow_primary`, which calls that handler for the node
that was detached; and a handoff, which writes the file itself. -/
inductive Repoint where
  | configureStandby (req : ConfigureStandbyRequest)
  | driveFollowPrimary (newPrimary detached : NodeConfig)
  | handoff (target localNode : NodeConfig)
  deriving DecidableEq, Repr

/-- What the path writes. -/
def Repoint.opts (rx : RoleExecutor) : Repoint → Except String WriteRecoveryConfOpts
  | configureStandby req => req.opts
  | driveFollowPrimary newPrimary detached =>
      ConfigureStandbyRequest.opts
        ⟨newPrimary.hostname, rx.pgPort.toNat, rx.replUser, detached.slotName⟩
  | handoff target localNode => .ok ⟨target.hostname, rx.pgPort, rx.replUser,
      localNode.slotName⟩

/-- The file after a re-point. -/
def Repoint.write (rx : RoleExecutor) (p : Repoint) (conf : RecoveryConf) (io : ConfIo) :
    RecoveryConf :=
  match p.opts rx with
  | .error _ => conf
  | .ok opts => (writeRecoveryConf conf opts io).2

/-! ## Both writers together -/

/-- The executor's memory, and the file. -/
structure StandbyWorld where
  es : ExecState
  conf : RecoveryConf
  deriving DecidableEq, Repr

inductive StandbyEvent where
  | applies (decision : HaDecision) (inp : ExecInput) (io : ConfIo)
  | repoints (path : Repoint) (io : ConfIo)

/-- The holder a decision follows. -/
def HaDecision.followsHolder : HaDecision → Option NodeId
  | .following holder => some holder
  | .wouldFollowNewHolder _ holder => some holder
  | _ => none

/-- The upstream that `RoleExecutor::follow` hands to the instance. -/
def RoleExecutor.upstream (rx : RoleExecutor) (holder : NodeId) : Option UpstreamSpec :=
  match rx.pool.localNode, rx.pool.nodeById holder with
  | .ok localNode, .ok holderNode =>
      some ⟨holderNode.hostname, rx.pgPort, rx.replUser, localNode.slotName⟩
  | _, _ => none

/-- The input in which the instance's `follow` ends as the files say. -/
def StandbyWorld.input (rx : RoleExecutor) (w : StandbyWorld) (decision : HaDecision)
    (inp : ExecInput) (io : ConfIo) : ExecInput :=
  { inp with
    followed := (decision.followsHolder.bind rx.upstream).any fun upstream =>
      (instanceFollow w.conf upstream io).1 }

/-- What an action does to the file. -/
def ConfIo.after (io : ConfIo) (conf : RecoveryConf) : ExecAction → RecoveryConf
  | .follow upstream => (instanceFollow conf upstream io).2
  | .stopReceiving => instanceStopReceiving conf io
  | _ => conf

def StandbyWorld.step (rx : RoleExecutor) (w : StandbyWorld) : StandbyEvent → StandbyWorld
  | .applies decision inp io =>
      let (es, actions) := rx.apply w.es (w.input rx decision inp io) decision
      ⟨es, actions.foldl io.after w.conf⟩
  | .repoints path io => { w with conf := path.write rx w.conf io }

/-- The host of a pool member. -/
def RoleExecutor.HostOf (rx : RoleExecutor) (id : NodeId) (host : String) : Prop :=
  ∃ n, rx.pool.nodeById id = .ok n ∧ n.hostname = host

/-- The file names a pool member as upstream. -/
def RoleExecutor.Names (rx : RoleExecutor) (conf : RecoveryConf) (id : NodeId) : Prop :=
  ∃ opts, conf = some opts ∧ rx.HostOf id opts.primaryHost

section Converging

variable (rx : RoleExecutor) (w : StandbyWorld)

/-- No step fails when the holder is followed: there is none to take, or the follow succeeds. -/
def NoStepFails (decision : HaDecision) (inp : ExecInput) (io : ConfIo) (holder : NodeId) : Prop :=
  w.es.confirmedUpstream = some holder ∨
    (followHolder rx holder (w.input rx decision inp io)).1 = true

/-- On a standby, and if no step fails, a follow decision ends with a file that names its holder. -/
def Converges (decision : HaDecision) (inp : ExecInput) (io : ConfIo) : Prop :=
  ∀ holder streaming, decision.followsHolder = some holder →
    instanceState inp.probes = .standby streaming → NoStepFails rx w decision inp io holder →
    rx.Names (w.step rx (.applies decision inp io)).conf holder

/-- What the executor remembers is what the file names. -/
def MemoryTrue : Prop := ∀ id, w.es.confirmedUpstream = some id → rx.Names w.conf id

/-- A follow of a new holder writes the file and fails after that, at `standby.signal` or at the
reload. -/
structure BreaksOff (decision : HaDecision) (inp : ExecInput) (io : ConfIo)
    (upstream : UpstreamSpec) : Prop where
  holder : ∃ holder, decision.followsHolder = some holder ∧
    w.es.confirmedUpstream ≠ some holder ∧ rx.upstream holder = some upstream
  standby : ∃ streaming, instanceState inp.probes = .standby streaming
  prepared : inp.dialled = true ∧ inp.peerSlotCreated = true
  lands : upstream.recoveryConf.Lands io
  fails : ¬ (io.signalWritten = true ∧ io.reloaded = true)

/-- The step writes a host into the file and leaves the executor's memory as it is. -/
def WritesBehind : StandbyEvent → String → Prop
  | .applies decision inp io, host => ∃ upstream, BreaksOff rx w decision inp io upstream ∧
      upstream.host = host
  | .repoints path io, host => ∃ opts, path.opts rx = .ok opts ∧ opts.Lands io ∧
      opts.primaryHost = host

/-- Whatever the step writes past the memory is the host of the remembered upstream. -/
def KeepsMemory (e : StandbyEvent) : Prop :=
  ∀ id host, w.es.confirmedUpstream = some id → WritesBehind rx w e host → rx.HostOf id host

end Converging

section Steps

variable {rx : RoleExecutor} {w : StandbyWorld} {decision : HaDecision} {inp : ExecInput}
  {io : ConfIo}

theorem confirmedUpstream_ensureQuorumCommit (es : ExecState) (force : Bool) (now : Instant) :
    (ensureQuorumCommit rx es force now inp).1.confirmedUpstream = es.confirmedUpstream := by
  obtain ⟨⟨probe, heq⟩, -⟩ := ensureQuorumCommit_spec rx es force now inp
  rw [heq]

theorem confirmedUpstream_ensureSelfAttached (es : ExecState) (now : Instant) :
    (ensureSelfAttached rx es now).1.confirmedUpstream = es.confirmedUpstream := by
  obtain ⟨⟨inFlight, probe, heq⟩, -⟩ := ensureSelfAttached_spec rx es now
  rw [heq]

theorem confirmedUpstream_servePrimary (es : ExecState) :
    (servePrimary rx es inp).1.confirmedUpstream = none := by
  unfold servePrimary
  dsimp only
  rw [confirmedUpstream_ensureSelfAttached, confirmedUpstream_ensureQuorumCommit]

/-- A promotion that is not made changes neither the memory nor the file. -/
theorem ensurePrimary_memory (rx : RoleExecutor) (es : ExecState) (term : UInt64) (inp : ExecInput)
    (conf : RecoveryConf) (io : ConfIo) :
    (ensurePrimary rx es term inp).1.confirmedUpstream = none ∨
      (ensurePrimary rx es term inp).1 = es ∧
        (ensurePrimary rx es term inp).2.foldl io.after conf = conf := by
  unfold ensurePrimary
  split
  · exact Or.inr ⟨rfl, rfl⟩
  · dsimp only
    split
    · refine Or.inl ?_
      rw [confirmedUpstream_ensureSelfAttached, confirmedUpstream_ensureQuorumCommit]
    · refine Or.inr ⟨rfl, ?_⟩
      have hsignal : (promoteAndWait inp).2.foldl io.after conf = conf := by
        unfold promoteAndWait
        split <;> rfl
      have habandon : (inp.journal.map ExecAction.journalAbandon).toList.foldl io.after conf =
          conf := by
        cases inp.journal <;> rfl
      rw [List.foldl_append, List.foldl_append]
      show List.foldl io.after (List.foldl io.after conf (promoteAndWait inp).2) _ = conf
      rw [hsignal, habandon]

/-- What `RoleExecutor::follow` does: it issues the instance's follow only once the slot is there,
and succeeds only if that does. -/
theorem followHolder_cases (rx : RoleExecutor) (holder : NodeId) (inp : ExecInput)
    (conf : RecoveryConf) (io : ConfIo) :
    (followHolder rx holder inp).1 = false ∧
        (followHolder rx holder inp).2.foldl io.after conf = conf ∧
        ¬ ((∃ upstream, rx.upstream holder = some upstream) ∧ inp.dialled = true ∧
          inp.peerSlotCreated = true) ∨
      ∃ upstream, rx.upstream holder = some upstream ∧ inp.dialled = true ∧
        inp.peerSlotCreated = true ∧ (followHolder rx holder inp).1 = inp.followed ∧
        (followHolder rx holder inp).2.foldl io.after conf =
          (instanceFollow conf upstream io).2 := by
  unfold followHolder RoleExecutor.upstream
  cases rx.pool.localNode with
  | error e => exact Or.inl ⟨rfl, rfl, by simp⟩
  | ok localNode =>
    cases rx.pool.nodeById holder with
    | error e => exact Or.inl ⟨rfl, rfl, by simp⟩
    | ok holderNode =>
      cases hdial : inp.dialled with
      | false => exact Or.inl ⟨rfl, rfl, fun h => nomatch h.2.1⟩
      | true =>
        cases hslot : inp.peerSlotCreated with
        | false => exact Or.inl ⟨rfl, rfl, fun h => nomatch h.2.2⟩
        | true => exact Or.inr ⟨_, rfl, rfl, rfl, rfl, rfl⟩

theorem hostOf_upstream {holder : NodeId} {upstream : UpstreamSpec}
    (h : rx.upstream holder = some upstream) : rx.HostOf holder upstream.host := by
  unfold RoleExecutor.upstream at h
  split at h
  · rename_i localNode holderNode hlocal hholder
    obtain rfl := Option.some.inj h
    exact ⟨holderNode, hholder, rfl⟩
  · cases h

theorem confirmedUpstream_verifyStream (rx : RoleExecutor) (es : ExecState) (streaming : Bool)
    (now : Instant) :
    (verifyStream rx es streaming now).confirmedUpstream = none ∨
      (verifyStream rx es streaming now).confirmedUpstream = es.confirmedUpstream := by
  unfold verifyStream
  split
  · exact Or.inr rfl
  · dsimp only
    split
    · exact Or.inl rfl
    · exact Or.inr rfl

/-- An apply of a decision has made the executor forget, has left its memory and the file as they
were, or has followed a holder. -/
inductive Applied (rx : RoleExecutor) (w : StandbyWorld) (decision : HaDecision) (inp : ExecInput)
    (io : ConfIo) (w' : StandbyWorld) : Prop
  | forgets (h : w'.es.confirmedUpstream = none)
  | leaves (hmem : w'.es.confirmedUpstream = w.es.confirmedUpstream) (hconf : w'.conf = w.conf)
  | follows (holder : NodeId) (upstream : UpstreamSpec)
      (hholder : decision.followsHolder = some holder)
      (hnew : w.es.confirmedUpstream ≠ some holder) (hup : rx.upstream holder = some upstream)
      (hstandby : ∃ streaming, instanceState inp.probes = .standby streaming)
      (hprepared : inp.dialled = true ∧ inp.peerSlotCreated = true)
      (hconf : w'.conf = (instanceFollow w.conf upstream io).2)
      (hmem : w'.es.confirmedUpstream =
        if (instanceFollow w.conf upstream io).1 then some holder else w.es.confirmedUpstream)

theorem step_of_followsHolder {holder : NodeId} (hholder : decision.followsHolder = some holder) :
    w.step rx (.applies decision inp io) =
      ⟨(convergeFollow rx w.es holder (w.input rx decision inp io)).1,
        (convergeFollow rx w.es holder (w.input rx decision inp io)).2.foldl io.after
          w.conf⟩ := by
  cases decision with
  | following holder' =>
    obtain rfl := Option.some.inj hholder
    rfl
  | wouldFollowNewHolder prev holder' =>
    obtain rfl := Option.some.inj hholder
    rfl
  | _ => cases hholder

/-- A follow that is made ends as the files say. -/
theorem input_followed {holder : NodeId} {upstream : UpstreamSpec}
    (hholder : decision.followsHolder = some holder) (hup : rx.upstream holder = some upstream) :
    (w.input rx decision inp io).followed = (instanceFollow w.conf upstream io).1 := by
  show ((decision.followsHolder.bind rx.upstream).any fun upstream =>
    (instanceFollow w.conf upstream io).1) = _
  rw [hholder, Option.bind_some, hup]
  rfl

/-- The follow decisions. -/
theorem applied_convergeFollow {holder : NodeId} (hholder : decision.followsHolder = some holder) :
    Applied rx w decision inp io
      ⟨(convergeFollow rx w.es holder (w.input rx decision inp io)).1,
        (convergeFollow rx w.es holder (w.input rx decision inp io)).2.foldl io.after
          w.conf⟩ := by
  unfold convergeFollow
  cases hstate : instanceState (w.input rx decision inp io).probes with
  | primary => exact .forgets rfl
  | down => exact .leaves rfl rfl
  | unknown => exact .leaves rfl rfl
  | standby streaming =>
    dsimp only
    by_cases hconfirmed : w.es.confirmedUpstream = some holder
    · rw [if_pos hconfirmed]
      rcases confirmedUpstream_verifyStream rx w.es streaming (w.input rx decision inp io).now with
        h | h
      · exact .forgets h
      · exact .leaves h rfl
    rw [if_neg hconfirmed]
    rcases followHolder_cases rx holder (w.input rx decision inp io) w.conf io with
      ⟨hfailed, hconf, -⟩ | ⟨upstream, hup, hdial, hslot, hok, hconf⟩
    · rw [hfailed]
      exact .leaves rfl hconf
    · rw [hok, input_followed hholder hup]
      refine .follows holder upstream hholder hconfirmed hup ⟨streaming, hstate⟩
        ⟨hdial, hslot⟩ ?_ ?_
      · cases (instanceFollow w.conf upstream io).1 <;> exact hconf
      · cases (instanceFollow w.conf upstream io).1 <;> rfl

/-- What an apply does to the memory and the file. -/
theorem applied_step (rx : RoleExecutor) (w : StandbyWorld) (decision : HaDecision)
    (inp : ExecInput) (io : ConfIo) :
    Applied rx w decision inp io (w.step rx (.applies decision inp io)) := by
  have hprimary : ∀ term, Applied rx w decision inp io
      ⟨(ensurePrimary rx w.es term (w.input rx decision inp io)).1,
        (ensurePrimary rx w.es term (w.input rx decision inp io)).2.foldl io.after w.conf⟩ := by
    intro term
    rcases ensurePrimary_memory rx w.es term (w.input rx decision inp io) w.conf io with
      h | ⟨hes, hconf⟩
    · exact .forgets h
    · exact .leaves (congrArg ExecState.confirmedUpstream hes) hconf
  have hserve : Applied rx w decision inp io
      ⟨(servePrimary rx w.es (w.input rx decision inp io)).1,
        (servePrimary rx w.es (w.input rx decision inp io)).2.foldl io.after w.conf⟩ :=
    .forgets (confirmedUpstream_servePrimary w.es)
  cases decision with
  | tookOver term already =>
    cases already with
    | false => exact hprimary term
    | true => exact hserve
  | awaitingPromotion term waiting => exact hprimary term
  | wouldDemote reason => exact .forgets rfl
  | following holder => exact applied_convergeFollow rfl
  | wouldFollowNewHolder prev holder => exact applied_convergeFollow rfl
  | retainedLease term => exact hserve
  | detachingFromDeposed holder => exact .forgets rfl
  | paused => exact .leaves rfl rfl
  | storeUnknown unknownFor => exact .leaves rfl rfl
  | holderUnhealthy holder unhealthyFor => exact .leaves rfl rfl
  | stoodDown reason => exact .leaves rfl rfl
  | lostTakeover currentHolder => exact .leaves rfl rfl

/-- A follow that breaks off has changed the file and not the memory. -/
theorem step_of_breaksOff {upstream : UpstreamSpec} (h : BreaksOff rx w decision inp io upstream) :
    (w.step rx (.applies decision inp io)).conf = some upstream.recoveryConf ∧
      (w.step rx (.applies decision inp io)).es.confirmedUpstream = w.es.confirmedUpstream := by
  obtain ⟨⟨holder, hholder, hnew, hup⟩, ⟨streaming, hstate⟩, hprepared,
      hlands, hfails⟩ := h
  rcases followHolder_cases rx holder (w.input rx decision inp io) w.conf io with
    ⟨-, -, hnone⟩ | ⟨upstream', hup', -, -, hok, hconf⟩
  · exact absurd ⟨⟨upstream, hup⟩, hprepared⟩ hnone
  obtain rfl := Option.some.inj (hup.symm.trans hup')
  have hfailed : (instanceFollow w.conf upstream io).1 = false := by
    refine Bool.eq_false_iff.mpr fun hdone => ?_
    exact hfails ((instanceFollow_fst w.conf upstream io).mp hdone).2
  rw [instanceFollow_snd, if_pos hlands] at hconf
  rw [input_followed hholder hup, hfailed] at hok
  have hstate' : instanceState (w.input rx decision inp io).probes = .standby streaming := hstate
  rw [step_of_followsHolder hholder, convergeFollow, hstate']
  dsimp only
  rw [if_neg hnew, hok]
  exact ⟨hconf, rfl⟩

theorem Repoint.write_cases (path : Repoint) (rx : RoleExecutor) (conf : RecoveryConf)
    (io : ConfIo) :
    path.write rx conf io = conf ∧ (∀ opts, path.opts rx = .ok opts → ¬ opts.Lands io) ∨
      ∃ opts, path.opts rx = .ok opts ∧ opts.Lands io ∧
        path.write rx conf io = some opts := by
  unfold Repoint.write
  cases hopts : path.opts rx with
  | error e => exact Or.inl ⟨rfl, fun opts h => nomatch h⟩
  | ok opts =>
    dsimp only
    rw [writeRecoveryConf_snd]
    by_cases hlands : opts.Lands io
    · exact Or.inr ⟨opts, rfl, hlands, if_pos hlands⟩
    · refine Or.inl ⟨if_neg hlands, fun opts' h => ?_⟩
      exact Except.ok.inj h ▸ hlands

/-- Whatever is written past the memory is what the file names afterwards, and the memory is what
it was. -/
theorem step_of_writesBehind {e : StandbyEvent} {host : String} (h : WritesBehind rx w e host) :
    (∃ opts, (w.step rx e).conf = some opts ∧ opts.primaryHost = host) ∧
      (w.step rx e).es.confirmedUpstream = w.es.confirmedUpstream := by
  cases e with
  | applies decision inp io =>
    obtain ⟨upstream, hbreaks, rfl⟩ := h
    obtain ⟨hconf, hmem⟩ := step_of_breaksOff hbreaks
    exact ⟨⟨_, hconf, rfl⟩, hmem⟩
  | repoints path io =>
    obtain ⟨opts, hopts, hlands, rfl⟩ := h
    refine ⟨?_, rfl⟩
    rcases path.write_cases rx w.conf io with ⟨-, hnone⟩ | ⟨opts', hopts', -, hwrite⟩
    · exact absurd hlands (hnone opts hopts)
    · obtain rfl := Except.ok.inj (hopts.symm.trans hopts')
      exact ⟨opts, hwrite, rfl⟩

/-- **A step keeps the memory true exactly if it writes nothing else past it.** -/
theorem memoryTrue_step_iff (h : MemoryTrue rx w) (e : StandbyEvent) :
    MemoryTrue rx (w.step rx e) ↔ KeepsMemory rx w e := by
  constructor
  · intro htrue id host hid hwrites
    obtain ⟨⟨opts, hconf, rfl⟩, hmem⟩ := step_of_writesBehind hwrites
    obtain ⟨opts', hopts', hhost⟩ := htrue id (hmem.trans hid)
    obtain rfl := Option.some.inj (hconf.symm.trans hopts')
    exact hhost
  intro hkeeps id hid
  cases e with
  | repoints path io =>
    rcases path.write_cases rx w.conf io with ⟨hsame, -⟩ | ⟨opts, hopts, hlands, hwrite⟩
    · show rx.Names (path.write rx w.conf io) id
      rw [hsame]
      exact h id hid
    · exact ⟨opts, hwrite, hkeeps id _ hid ⟨opts, hopts, hlands, rfl⟩⟩
  | applies decision inp io =>
    cases applied_step rx w decision inp io with
    | forgets hnone =>
      rw [hnone] at hid
      cases hid
    | leaves hmem hconf =>
      rw [hconf]
      exact h id (hmem.symm.trans hid)
    | follows holder upstream hholder hnew hup hstandby hprepared hconf hmem =>
      rw [hmem] at hid
      rw [instanceFollow_snd] at hconf
      by_cases hlands : upstream.recoveryConf.Lands io
      · rw [if_pos hlands] at hconf
        refine ⟨upstream.recoveryConf, hconf, ?_⟩
        cases hdone : (instanceFollow w.conf upstream io).1 with
        | true =>
          rw [hdone] at hid
          exact Option.some.inj hid ▸ hostOf_upstream hup
        | false =>
          rw [hdone] at hid
          have hfails : ¬ (io.signalWritten = true ∧ io.reloaded = true) := by
            intro hio
            have hok := (instanceFollow_fst w.conf upstream io).mpr ⟨hlands, hio⟩
            rw [hdone] at hok
            cases hok
          exact hkeeps id _ hid
            ⟨upstream, ⟨⟨holder, hholder, hnew, hup⟩, hstandby, hprepared,
              hlands, hfails⟩, rfl⟩
      · have hfailed : (instanceFollow w.conf upstream io).1 = false := by
          refine Bool.eq_false_iff.mpr fun hdone => ?_
          exact hlands ((instanceFollow_fst w.conf upstream io).mp hdone).1
        rw [hfailed] at hid
        rw [hconf, if_neg hlands]
        exact h id hid

/-- An apply on a standby that streams, in which every call succeeds. -/
def streamingInput : ExecInput :=
  { primaryExecInput with
    probes := ⟨some true, some true, some ⟨0, "streaming"⟩⟩
    recovery := some true }

def everythingWorks : ConfIo := ⟨true, true, true⟩

/-- Every follow decision converges exactly in the states whose memory is true. -/
theorem converges_forall_iff :
    (∀ decision inp io, Converges rx w decision inp io) ↔ MemoryTrue rx w := by
  constructor
  · intro hall id hid
    have hconf : (w.step rx (.applies (.following id) streamingInput everythingWorks)).conf =
        w.conf := by
      have hstate : instanceState
          (w.input rx (.following id) streamingInput everythingWorks).probes = .standby true := rfl
      rw [step_of_followsHolder (show (HaDecision.following id).followsHolder = some id from rfl),
        convergeFollow, hstate]
      dsimp only
      rw [if_pos hid]
      rfl
    rw [← hconf]
    exact hall (.following id) streamingInput everythingWorks id true rfl rfl (Or.inl hid)
  · intro h decision inp io holder streaming hholder hstate hsteps
    have hstate' : instanceState (w.input rx decision inp io).probes = .standby streaming := hstate
    rw [step_of_followsHolder hholder, convergeFollow, hstate']
    dsimp only
    by_cases hconfirmed : w.es.confirmedUpstream = some holder
    · rw [if_pos hconfirmed]
      exact h holder hconfirmed
    rw [if_neg hconfirmed]
    have hok := hsteps.resolve_left hconfirmed
    rcases followHolder_cases rx holder (w.input rx decision inp io) w.conf io with
      ⟨hfailed, -⟩ | ⟨upstream, hup, -, -, hfollowed, hconf⟩
    · rw [hok] at hfailed
      cases hfailed
    · rw [hok, input_followed hholder hup] at hfollowed
      rw [instanceFollow_snd, if_pos ((instanceFollow_fst _ _ _).mp hfollowed.symm).1] at hconf
      rw [hok]
      exact ⟨upstream.recoveryConf, hconf, hostOf_upstream hup⟩

end Steps

/-- The state before event `k`, of an agent that starts on a standby with the given file. -/
def upstreamAt (rx : RoleExecutor) (conf : RecoveryConf) (u : ℕ → StandbyEvent) (k : ℕ) :
    StandbyWorld :=
  Trace.stateAt (StandbyWorld.step rx) ⟨ExecState.new, conf⟩ u k

/-- Node `0` follows node `1`, and is then re-pointed at node `2`. -/
def repointedAway : ℕ → StandbyEvent
  | 0 => .applies (.following 1) streamingInput everythingWorks
  | _ => .repoints (.configureStandby ⟨"db2", 5432, "repl", "node0"⟩) everythingWorks

/-- What has become of node `0`. -/
def repointedWorld : StandbyWorld := upstreamAt (threeNodeExecutor 0) none repointedAway 2

end PgAgent
