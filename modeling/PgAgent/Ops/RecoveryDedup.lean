import PgAgent.Ops.Rebuild

/-!
# A recovery that is asked for twice

pgpool may fire its recovery hook again, and a second base backup of a standby that has just been
rebuilt is to be avoided: `recovery_first_stage` looks in the journal for a recovery of the same
two nodes that was completed within the last day.

The entry of a recovery is written under the ids of the nodes that the request is resolved to.
The lookup is made before that, under the ids that the request carries; and a request names its
nodes by their hostnames as well, where the id is of no account.  The hook has no id for the
primary at all, and sends `-1`.

* `recorded_of_done` --- a recovery that is answered with success is in the journal as done;
* `takesNoBasebackup_iff` --- when a request for the same nodes takes no base backup.
-/

namespace PgAgent

open Compensation Resumable

/-! ## The first recovery -/

/-- What a recovery writes into the journal. -/
def recoveryPayload (primary standby : NodeConfig) : InflightPayload :=
  .recovery primary.id standby.id standby.hostname standby.slotName

/-- The journal has a completed entry of the payload. -/
def Journal.Completed (j : Journal) (payload : InflightPayload) : Prop :=
  ∃ op ∈ j.ops, op.payload = payload ∧ op.status = .done ∧ op.completedAt.isSome = true

/-- The entries of the handler's id have the handler's payload. -/
def RebuildWorld.Owns (w : RebuildWorld) (payload : InflightPayload) : Prop :=
  ∀ o ∈ w.hook.journal.ops, o.id = w.opId → o.payload = payload

/-- The rungs above `begin`: there is no second one and no way around a rung, and the last one
completes the entry. -/
def AboveBegin (rungs : List RebuildRung) : Prop :=
  (∀ rung ∈ rungs, (∀ payload, rung.call ≠ .begin payload) ∧
      ∀ other stage, rung.onError ≠ .fallsBack other stage) ∧
    ∃ stage, rungs.getLast? = some ⟨.complete, .answers stage⟩

/-- What holds of a recovery by where it is. -/
def RecordsItself (primary standby : NodeConfig)
    (run : Run RebuildWorld RebuildCall Stage String) (pos : RebuildAt) : Prop :=
  pos = (Rebuild.recovery primary standby).first ∨
    (run.world.Owns (recoveryPayload primary standby) ∧
      ∀ rung rest, pos = .climbing rung rest → AboveBegin (rung :: rest))

theorem Owns.journalCall {w : RebuildWorld} {payload : InflightPayload} (h : w.Owns payload)
    (call : JournalCall) (input : RebuildInput) : (w.journalCall call input).1.Owns payload := by
  intro o ho hid
  unfold RebuildWorld.journalCall at ho hid
  dsimp only at ho hid
  rcases Journal.change_cases w.hook.journal w.opId call input.now input.outcome with
    hsame | ⟨op, hop, hopId, -, hput⟩
  · rw [hsame] at ho
    exact h o ho hid
  · rw [hput, Journal.mem_put] at ho
    rcases ho with ⟨hold, -⟩ | rfl
    · exact h o hold hid
    · rw [JournalCall.write_payload]
      exact h op hop hopId

/-- The entry that `begin` writes has the payload it is given. -/
theorem owns_of_begin {digest : String → String} {r : Rebuild} {w : RebuildWorld}
    {payload : InflightPayload} {input : RebuildInput} {more : Bool}
    (h : (w.climb digest r (.begin payload) input).2 = .ok more) :
    (w.climb digest r (.begin payload) input).1.Owns payload := by
  unfold RebuildWorld.climb at h ⊢
  dsimp only at h ⊢
  rcases Journal.begin_cases w.hook.journal payload RecoveryPhase.started.name false input.now
    input.outcome with ⟨-, e, he⟩ | ⟨-, op, hop, hops, -, -, hpayload⟩
  · rcases hbegin : w.hook.journal.begin payload RecoveryPhase.started.name false input.now
      input.outcome with ⟨journal, result⟩
    rw [hbegin] at he h
    obtain rfl : result = .error e := he
    cases h
  · rcases hbegin : w.hook.journal.begin payload RecoveryPhase.started.name false input.now
      input.outcome with ⟨journal, result⟩
    rw [hbegin] at hop hops
    obtain rfl : result = .ok op := hop
    intro o ho hid
    dsimp only at ho hid hops
    rw [hops, Journal.mem_put] at ho
    rcases ho with ⟨-, hne⟩ | rfl
    · exact absurd hid hne
    · exact hpayload

theorem Owns.climb {digest : String → String} {r : Rebuild} {w : RebuildWorld}
    {payload : InflightPayload} (h : w.Owns payload) {call : RebuildCall}
    (hbegin : ∀ payload, call ≠ .begin payload) (input : RebuildInput) :
    (w.climb digest r call input).1.Owns payload := by
  cases call with
  | begin payload => exact absurd rfl (hbegin payload)
  | updatePhase phase => exact Owns.journalCall h _ input
  | complete => exact Owns.journalCall h _ input
  | createSlot =>
    unfold RebuildWorld.climb
    cases input.outcome <;> exact h
  | markDone replayKey =>
    unfold RebuildWorld.climb
    cases input.outcome <;> exact h
  | _ => exact h

/-- A completion that is acknowledged is in the journal. -/
theorem completed_of_complete {w : RebuildWorld} {payload : InflightPayload} (h : w.Owns payload)
    {input : RebuildInput} {more : Bool} (hanswer : (w.journalCall .complete input).2 = .ok more) :
    (w.journalCall .complete input).1.hook.journal.Completed payload := by
  unfold RebuildWorld.journalCall Journal.change at hanswer ⊢
  dsimp only at hanswer ⊢
  cases hget : w.hook.journal.get w.opId with
  | error e =>
    rw [hget] at hanswer
    cases hanswer
  | ok op =>
    rw [hget] at hanswer
    obtain ⟨hop, hid⟩ := Journal.mem_of_get hget
    rcases hwritten : input.outcome with e | u
    · rw [hwritten] at hanswer
      cases hanswer
    · exact ⟨_, Journal.mem_put.mpr (Or.inr rfl), h op hop hid, rfl, rfl⟩

/-- The rest of the ladder, above the last rung that was climbed. -/
theorem AboveBegin.tail {rung next : RebuildRung} {rest : List RebuildRung}
    (h : AboveBegin (rung :: next :: rest)) : AboveBegin (next :: rest) := by
  obtain ⟨hbegin, stage, hlast⟩ := h
  refine ⟨fun rung' hrung => hbegin rung' (List.mem_cons_of_mem _ hrung), stage, ?_⟩
  rwa [List.getLast?_cons_cons] at hlast

theorem aboveBegin_recovery (primary standby : NodeConfig) :
    AboveBegin (Rebuild.recoveryRungs primary standby).tail := by
  refine ⟨?_, _, rfl⟩
  intro rung hrung
  simp only [Rebuild.recoveryRungs, List.tail_cons, List.mem_cons, List.not_mem_nil, or_false]
    at hrung
  rcases hrung with rfl | rfl | rfl | rfl | rfl | rfl | rfl | rfl | rfl <;> simp

/-- Where a handler goes next: a rung above `begin`, or a part of the cleanup; and if it is done, it
has completed its entry. -/
def NextAbove (rung : RebuildRung) (answer : Except String Bool) :
    RebuildAt ⊕ Ending Stage String → Prop
  | .inl pos => ∀ rung rest, pos = .climbing rung rest → AboveBegin (rung :: rest)
  | .inr ending => ending = .done → rung.call = .complete ∧ answer = .ok true

theorem nextAbove_climb {rung : RebuildRung} {rest : List RebuildRung}
    (h : AboveBegin (rung :: rest)) {answer : Except String Bool}
    (hlast : rest = [] → rung.call = .complete ∧ answer = .ok true) :
    NextAbove rung answer (climb rest) := by
  cases rest with
  | nil => exact fun _ => hlast rfl
  | cons next rest =>
    intro rung' rest' hpos
    obtain ⟨rfl, rfl⟩ := At.climbing.inj hpos
    exact h.tail

/-- The rungs above `begin` lead to the completion of the entry, or to an error. -/
theorem nextAbove_of_aboveBegin {rung : RebuildRung} {rest : List RebuildRung}
    (h : AboveBegin (rung :: rest)) (gives : Bool) (answer : Except String Bool) :
    NextAbove rung answer ((At.climbing rung rest).next gives answer) := by
  have hcomplete : rest = [] → ∃ stage, rung = ⟨.complete, .answers stage⟩ := by
    rintro rfl
    obtain ⟨stage, hlast⟩ := h.2
    exact ⟨stage, Option.some.inj hlast⟩
  rcases answer with e | more
  · cases honError : rung.onError with
    | answers stage =>
      simp only [At.next, honError]
      intro hdone
      cases hdone
    | givesUp stage =>
      simp only [At.next, honError]
      cases gives with
      | true =>
        intro rung' rest' hpos
        cases hpos
      | false =>
        intro hdone
        cases hdone
    | cleansUp stage =>
      simp only [At.next, honError]
      intro rung' rest' hpos
      cases hpos
    | goesOn =>
      simp only [At.next, honError]
      refine nextAbove_climb h fun hnil => ?_
      obtain ⟨stage, rfl⟩ := hcomplete hnil
      cases honError
    | fallsBack other stage =>
      exact absurd honError ((h.1 rung List.mem_cons_self).2 other stage)
  · cases more with
    | true =>
      refine nextAbove_climb h fun hnil => ?_
      obtain ⟨stage, rfl⟩ := hcomplete hnil
      exact ⟨rfl, rfl⟩
    | false =>
      intro hdone
      cases hdone

/-- The cleanup does not lead to success. -/
theorem climbing_of_done {pos : RebuildAt} {gives : Bool} {answer : Except String Bool}
    (h : pos.next gives answer = .inr .done) : ∃ rung rest, pos = .climbing rung rest := by
  cases pos with
  | climbing rung rest => exact ⟨rung, rest, rfl⟩
  | releasing stage e =>
    rcases answer with e' | more
    · cases h
    · cases gives <;> cases h
  | deferring stage e e' => cases gives <;> cases h
  | givingUp stage e => cases h

section

variable (digest : String → String) (primary standby : NodeConfig)

/-- What a call of a recovery leaves. -/
def RecordsNext (w : RebuildWorld) : RebuildAt ⊕ Ending Stage String → Prop
  | .inl pos => w.Owns (recoveryPayload primary standby) ∧
      ∀ rung rest, pos = .climbing rung rest → AboveBegin (rung :: rest)
  | .inr ending => ending = .done → w.hook.journal.Completed (recoveryPayload primary standby)

/-- `begin` makes the entry the handler's. -/
theorem recordsNext_first (w : RebuildWorld) (input : RebuildInput) :
    let r := Rebuild.recovery primary standby
    RecordsNext primary standby ((r.site digest).perform w r.first input).1
      (r.first.next r.journaled ((r.site digest).perform w r.first input).2) := by
  intro r
  have hfirst : (r.site digest).perform w r.first input =
      w.climb digest r (.begin (recoveryPayload primary standby)) input := rfl
  rw [hfirst]
  rcases hanswer : (w.climb digest r (.begin (recoveryPayload primary standby)) input).2 with
    e | more
  · intro hdone
    cases hdone
  · cases more with
    | false => cases RebuildWorld.climb_skips hanswer
    | true =>
      refine ⟨owns_of_begin hanswer, fun rung rest hpos => ?_⟩
      obtain ⟨rfl, rfl⟩ := At.climbing.inj hpos
      exact aboveBegin_recovery primary standby

/-- Every later call leaves the entry the handler's. -/
theorem recordsNext_act {w : RebuildWorld} (howns : w.Owns (recoveryPayload primary standby))
    {pos : RebuildAt}
    (habove : ∀ rung rest, pos = .climbing rung rest → AboveBegin (rung :: rest))
    (input : RebuildInput) :
    let r := Rebuild.recovery primary standby
    RecordsNext primary standby ((r.site digest).perform w pos input).1
      (pos.next r.journaled ((r.site digest).perform w pos input).2) := by
  intro r
  by_cases hclimbing : ∃ rung rest, pos = .climbing rung rest
  · obtain ⟨rung, rest, rfl⟩ := hclimbing
    have hrungs := habove rung rest rfl
    have hbegin := (hrungs.1 rung List.mem_cons_self).1
    have howns' : (w.climb digest r rung.call input).1.Owns (recoveryPayload primary standby) :=
      Owns.climb howns hbegin input
    have hnext := nextAbove_of_aboveBegin hrungs r.journaled
      (w.climb digest r rung.call input).2
    change RecordsNext primary standby (w.climb digest r rung.call input).1
      ((At.climbing rung rest).next r.journaled (w.climb digest r rung.call input).2)
    cases hgoes : (At.climbing rung rest).next r.journaled (w.climb digest r rung.call input).2 with
    | inl pos' =>
      rw [hgoes] at hnext
      exact ⟨howns', hnext⟩
    | inr ending =>
      rw [hgoes] at hnext
      intro hdone
      obtain ⟨hcall, hanswer⟩ := hnext hdone
      rw [hcall] at hanswer ⊢
      exact completed_of_complete howns hanswer
  · push Not at hclimbing
    have howns' : ((r.site digest).perform w pos input).1.Owns
        (recoveryPayload primary standby) := by
      cases pos with
      | climbing rung rest => exact absurd rfl (hclimbing rung rest)
      | releasing stage e =>
        simp only [Rebuild.site]
        cases input.outcome <;> exact howns
      | deferring stage e dropErr =>
        simp only [Rebuild.site, HookState.append]
        cases input.outcome <;> exact howns
      | givingUp stage e => exact Owns.journalCall howns _ input
    cases hgoes : pos.next r.journaled ((r.site digest).perform w pos input).2 with
    | inl pos' =>
      refine ⟨howns', fun rung rest heq => ?_⟩
      rw [heq] at hgoes
      obtain ⟨rung', rest', hpos, -⟩ := At.climbing_of_next hgoes
      exact absurd hpos (hclimbing rung' rest')
    | inr ending =>
      rintro rfl
      obtain ⟨rung', rest', hpos⟩ := climbing_of_done hgoes
      exact absurd hpos (hclimbing rung' rest')

/-- A run that ends with success has a completed entry. -/
def RecordedAtEnd (run : Run RebuildWorld RebuildCall Stage String) : Prop :=
  run.ending = some .done → run.world.hook.journal.Completed (recoveryPayload primary standby)

theorem RecordsNext.after {w : RebuildWorld} {next : RebuildAt ⊕ Ending Stage String}
    (h : RecordsNext primary standby w next) (calls : Calls RebuildCall Stage String) :
    After (RecordsItself primary standby) (RecordedAtEnd primary standby) w calls next := by
  cases next with
  | inl pos => exact Or.inr h
  | inr ending => exact fun hdone => h (Option.some.inj hdone)

/-- A recovery that ends with success **has a completed entry of its two nodes in the journal**. -/
theorem recorded_of_done (w : RebuildWorld) :
    EndsIn ((Rebuild.recovery primary standby).program digest) (Run.start w)
      (Rebuild.recovery primary standby).first (RecordedAtEnd primary standby) := by
  have hfirst : RecordsItself primary standby (Run.start w)
      (Rebuild.recovery primary standby).first := Or.inl rfl
  refine endsIn_of_after (fun run pos input hinv => ?_) hfirst
  refine RecordsNext.after primary standby ?_ _
  rcases hinv with rfl | ⟨howns, habove⟩
  · exact recordsNext_first digest primary standby run.world input
  · exact recordsNext_act digest primary standby howns habove input

end

/-! ## The second recovery -/

/-- The run has taken no base backup. -/
def NoBasebackup (run : Run RebuildWorld RebuildCall Stage String) : Prop :=
  ∀ rung rest answer, (At.climbing rung rest, answer) ∈ run.calls → rung.call ≠ .basebackup

/-- The request takes no base backup, whatever its calls answer. -/
def RecoveryRequest.TakesNoBasebackup (digest : String → String) (pool : NodePool) (s : HookState)
    (req : RecoveryRequest) (p : RebuildProbes) : Prop :=
  ∀ r, req.admitted pool s p = .ok r →
    EndsIn (r.program digest) (Run.start ⟨s, ""⟩) r.first NoBasebackup

/-- A request that names, in some way, the two nodes of a recovery that has been completed within
the last day. -/
structure RepeatedRecovery (pool : NodePool) (s : HookState) (req : RecoveryRequest)
    (p : RebuildProbes) (primaryRef standbyRef : NodeRef) (primary standby : NodeConfig) :
    Prop where
  names : req.primary = some primaryRef ∧ req.standby = some standbyRef
  dedups : req.bypassReplayMarker = false
  fromPrimary : pool.resolveNode primaryRef = .ok primary
  isLocal : pool.isLocal primary = true
  ofStandby : pool.resolveNode standbyRef = .ok standby
  completed : ∃ op ∈ s.journal.ops, op.payload = recoveryPayload primary standby ∧
    op.recentlyDone p.now = true

/-- A recovery of the two nodes is in progress. -/
def RecoveryUnderway (j : Journal) (primary standby : NodeConfig) : Prop :=
  ∃ op ∈ j.ops, op.status = .inProgress ∧
    op.payload.opName = (recoveryPayload primary standby).opName ∧
    op.payload.key = (recoveryPayload primary standby).key

/-- The lookup recognises the recovery, or is not got past: the journal cannot be read, the last
recovery begun under the ids that the request carries was completed within the last day, or a
recovery of the two nodes is in progress. -/
def Recognised (s : HookState) (p : RebuildProbes) (primaryRef standbyRef : NodeRef)
    (primary standby : NodeConfig) : Prop :=
  p.lookup ≠ .ok () ∨
    (∃ op, InflightOp.find s.journal.ops "recovery"
        (RecoveryRequest.dedupKey primaryRef standbyRef) = some op ∧
        op.recentlyDone p.now = true) ∨
    RecoveryUnderway s.journal primary standby

/-- Only a recovery in progress of the same two nodes refuses the entry of another one. -/
theorem beginGate_recovery {j : Journal} {primary standby : NodeConfig} :
    beginGate j.ops (recoveryPayload primary standby) false = none ↔
      ¬ RecoveryUnderway j primary standby := by
  unfold beginGate RecoveryUnderway
  rw [List.findSome?_eq_none_iff]
  push Not
  refine forall₂_congr fun op _ => ?_
  by_cases hstatus : op.status = .inProgress
  · by_cases hsame : op.payload.opName = (recoveryPayload primary standby).opName ∧
        op.payload.key = (recoveryPayload primary standby).key
    · simp [hstatus, hsame]
    · simp only [hstatus, ne_eq, not_true, if_false, hsame, Bool.false_eq_true, forall_const,
        true_iff]
      exact fun hname hkey => hsame ⟨hname, hkey⟩
  · simp [hstatus]

section

variable {digest : String → String} {pool : NodePool} {s : HookState} {req : RecoveryRequest}
  {p : RebuildProbes} {primaryRef standbyRef : NodeRef} {primary standby : NodeConfig}

/-- An input with which every call succeeds. -/
def smoothInput : RebuildInput := ⟨.ok (), true, 0⟩

/-- Past the gate, the entry is written. -/
theorem begin_smooth (digest : String → String) (r : Rebuild) {w : RebuildWorld}
    (h : ¬ RecoveryUnderway w.hook.journal primary standby) :
    (w.climb digest r (.begin (recoveryPayload primary standby)) smoothInput).2 = .ok true := by
  have hgate := beginGate_recovery.mpr h
  unfold RebuildWorld.climb Journal.begin InflightOp.begin
  simp only [smoothInput, Except.bind, Except.map, hgate]

/-- At the gate, the handler ends. -/
theorem begin_refused (digest : String → String) (r : Rebuild) {w : RebuildWorld}
    (input : RebuildInput) (h : RecoveryUnderway w.hook.journal primary standby) :
    ∃ e, (w.climb digest r (.begin (recoveryPayload primary standby)) input).2 = .error e := by
  cases hgate : beginGate w.hook.journal.ops (recoveryPayload primary standby) false with
  | none => exact absurd h (beginGate_recovery.mp hgate)
  | some rejected =>
    refine ⟨rejected.display, ?_⟩
    unfold RebuildWorld.climb Journal.begin InflightOp.begin
    simp only [Except.bind, hgate]

/-- What is only logged does not stop the handler. -/
theorem next_of_goesOn (gives : Bool) (call : RebuildCall) (next : RebuildRung)
    (rest : List RebuildRung) (outcome : Except String Unit) :
    (At.climbing ⟨call, .goesOn⟩ (next :: rest) : RebuildAt).next gives
      (outcome.map fun _ => true) = .inl (.climbing next rest) := by
  cases outcome <;> rfl

/-- A recovery whose calls all succeed takes a base backup, once it has got past the gate. -/
theorem takesBasebackup (h : ¬ RecoveryUnderway s.journal primary standby) :
    ¬ EndsIn ((Rebuild.recovery primary standby).program digest) (Run.start ⟨s, ""⟩)
      (Rebuild.recovery primary standby).first NoBasebackup := by
  intro hends
  obtain ⟨n, run, hdrive, hnone⟩ := hends fun _ => smoothInput
  -- the entry, the checkpoint, the slot, the phase and the dial come before it
  obtain ⟨_, _, hbegun⟩ := drive_of_climbing hdrive
    (congrArg ((Rebuild.recovery primary standby).first.next true)
      (begin_smooth digest (.recovery primary standby) h))
  obtain ⟨_, _, hcheckpoint⟩ := drive_of_climbing hbegun rfl
  obtain ⟨_, _, hslot⟩ := drive_of_climbing hcheckpoint rfl
  obtain ⟨_, _, hphase⟩ := drive_of_climbing hslot (next_of_goesOn _ _ _ _ _)
  obtain ⟨_, _, hdialed⟩ := drive_of_climbing hphase rfl
  obtain ⟨answer, hcalled⟩ := mem_calls_of_drive hdialed
  exact hnone _ _ _ hcalled rfl

/-- A recovery that does not get past the gate takes none. -/
theorem noBasebackup_of_underway (h : RecoveryUnderway s.journal primary standby) :
    EndsIn ((Rebuild.recovery primary standby).program digest) (Run.start ⟨s, ""⟩)
      (Rebuild.recovery primary standby).first NoBasebackup := by
  intro inputs
  have hrefused : ∃ e, (((Rebuild.recovery primary standby).site digest).perform ⟨s, ""⟩
      (Rebuild.recovery primary standby).first (inputs 0)).2 = .error e :=
    begin_refused digest (.recovery primary standby) (inputs 0) h
  obtain ⟨e, he⟩ := hrefused
  refine ⟨1, _, drive_of_ending he rfl, ?_⟩
  intro rung rest answer hcalled
  rcases List.mem_cons.mp hcalled with heq | hnone
  · obtain ⟨rfl, -⟩ := At.climbing.inj (Prod.mk.inj heq).1
    simp [Rebuild.rungs, Rebuild.recoveryRungs]
  · cases hnone

/-- A request for the nodes of a recovery that has been completed **takes no base backup exactly
when it is recognised by the ids it carries**, or a recovery of the nodes is in progress. -/
theorem takesNoBasebackup_iff
    (h : RepeatedRecovery pool s req p primaryRef standbyRef primary standby) :
    req.TakesNoBasebackup digest pool s p ↔
      Recognised s p primaryRef standbyRef primary standby := by
  have hadmitted : ∀ r, req.admitted pool s p = .ok r ↔
      req.NotRecent s primaryRef standbyRef p ∧ r = .recovery primary standby := by
    intro r
    rw [RecoveryRequest.admitted_eq_ok_iff]
    constructor
    · rintro ⟨pref, sref, prim, stby, hpref, hsref, hfree, hprim, -, hstby, rfl⟩
      obtain rfl := Option.some.inj (h.names.1.symm.trans hpref)
      obtain rfl := Option.some.inj (h.names.2.symm.trans hsref)
      obtain rfl := Except.ok.inj (h.fromPrimary.symm.trans hprim)
      obtain rfl := Except.ok.inj (h.ofStandby.symm.trans hstby)
      exact ⟨hfree, rfl⟩
    · rintro ⟨hfree, rfl⟩
      exact ⟨primaryRef, standbyRef, primary, standby, h.names.1, h.names.2, hfree, h.fromPrimary,
        h.isLocal, h.ofStandby, rfl⟩
  have hrecent : req.NotRecent s primaryRef standbyRef p ↔ p.lookup = .ok () ∧
      ∀ op, InflightOp.find s.journal.ops "recovery"
        (RecoveryRequest.dedupKey primaryRef standbyRef) = some op →
        op.recentlyDone p.now = false :=
    ⟨fun hfree => hfree h.dedups, fun hfree _ => hfree⟩
  constructor
  · intro htakes
    by_contra hnot
    unfold Recognised at hnot
    push Not at hnot
    obtain ⟨hlookup, hfind, hidle⟩ := hnot
    have hfree : req.NotRecent s primaryRef standbyRef p :=
      hrecent.mpr ⟨hlookup, fun op hop => Bool.not_eq_true _ ▸ hfind op hop⟩
    exact takesBasebackup hidle (htakes _ ((hadmitted _).mpr ⟨hfree, rfl⟩))
  · intro hrecognised r hr
    obtain ⟨hfree, rfl⟩ := (hadmitted r).mp hr
    obtain ⟨hlookup, hfind⟩ := hrecent.mp hfree
    rcases hrecognised with hfailed | ⟨op, hop, hdone⟩ | hunderway
    · exact absurd hlookup hfailed
    · rw [hfind op hop] at hdone
      cases hdone
    · exact noBasebackup_of_underway hunderway

end

/-! ### Node 2 has been rebuilt from node 0 -/

/-- The agent of node `0`, where a recovery of node `2` has been completed at time `1`. -/
def rebuiltHook : HookState where
  journal :=
    { ops :=
        [{ id := "0-recovery-0", status := .done
           payload := recoveryPayload ⟨0, "db0"⟩ ⟨2, "db2"⟩, phase := "done"
           startedAt := 0, updatedAt := 1, completedAt := some 1, dischargedAt := none
           lastError := none }]
      seq := 1
      distinct := List.nodup_singleton _ }
  queue := []
  queueSeq := 0
  markers := []
  slots := ["node2"]

/-- A lookup two nanoseconds later. -/
def laterProbes : RebuildProbes := { freeProbes with now := 3 }

/-- A request with the ids of both nodes. -/
def fullRecovery : RecoveryRequest := ⟨some ⟨0, "db0"⟩, some ⟨2, "db2"⟩, false⟩

/-- With the ids of both nodes the recovery is recognised. -/
theorem fullRecovery_recognised :
    fullRecovery.TakesNoBasebackup id rebuildPool rebuiltHook laterProbes := by
  have hrepeated : RepeatedRecovery rebuildPool rebuiltHook fullRecovery laterProbes ⟨0, "db0"⟩
      ⟨2, "db2"⟩ ⟨0, "db0"⟩ ⟨2, "db2"⟩ :=
    ⟨⟨rfl, rfl⟩, rfl, rfl, rfl, rfl, _, List.mem_cons_self, rfl, by decide⟩
  have hfound : InflightOp.find rebuiltHook.journal.ops "recovery"
      (RecoveryRequest.dedupKey ⟨0, "db0"⟩ ⟨2, "db2"⟩) = rebuiltHook.journal.ops.head? := by
    decide
  exact (takesNoBasebackup_iff hrepeated).mpr (Or.inr (Or.inl ⟨_, hfound, by decide⟩))

/-- pgpool's hook, which names the same two nodes, is not recognised: node `2` is rebuilt
again. -/
theorem hookRecovery_repeats :
    RepeatedRecovery rebuildPool rebuiltHook hookRecovery laterProbes ⟨-1, "db0"⟩ ⟨2, "db2"⟩
        ⟨0, "db0"⟩ ⟨2, "db2"⟩ ∧
      ¬ hookRecovery.TakesNoBasebackup id rebuildPool rebuiltHook laterProbes := by
  refine ⟨⟨⟨rfl, rfl⟩, rfl, rfl, rfl, rfl, _, List.mem_cons_self, rfl, by decide⟩,
    fun h => ?_⟩
  have hadmitted : hookRecovery.admitted rebuildPool rebuiltHook laterProbes =
      .ok (.recovery ⟨0, "db0"⟩ ⟨2, "db2"⟩) := by rfl
  have hidle : ¬ RecoveryUnderway rebuiltHook.journal ⟨0, "db0"⟩ ⟨2, "db2"⟩ := by
    rintro ⟨op, hop, hstatus, -⟩
    rw [List.mem_singleton.mp hop] at hstatus
    cases hstatus
  exact takesBasebackup hidle (h _ hadmitted)

end PgAgent
