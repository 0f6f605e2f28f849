import Mathlib.Data.List.Sort
import Mathlib.Data.Prod.Lex
import Mathlib.Data.String.Basic
import PgAgent.Ops.JournalStore

/-!
# Which orchestration owns a node

`inflight_ops.rs`, "Ownership queries".  A destructive request that is aimed at a node, or at
the node's replication slot, first asks the journal for an orchestration that owns the node:
one in progress, or one that is done, undischarged and younger than a grace.

Of several owners the query answers with one, the last that was started.  The observing
query looks at that one only: if it is done and the slot is active, it is discharged and the
query answers "no owner", whatever the other owners are.

* `ownerOfNode_eq_getLast`, `ownerOfNode_eq_none` --- what a query answers;
* `neverFree_iff` --- when a slot with an orchestration in progress is not reported free;
* `endsGrace_iff` --- when a discharge ends the ownership of all finished orchestrations.
-/

namespace PgAgent

/-- The order of `list`: by start, then by id. -/
def InflightOp.listKey (op : InflightOp) : UtcNanos ×ₗ String := toLex (op.startedAt, op.id)

/-- `InflightOpStore::list`, on what the scan read. -/
def InflightOp.list (scan : Except String (List InflightOp)) (statuses : List InflightStatus) :
    Except String (List InflightOp) :=
  scan.map fun ops =>
    (ops.filter fun op => statuses.isEmpty || statuses.contains op.status).insertionSort
      fun a b => a.listKey ≤ b.listKey

/-- `node_id_from_slot`. -/
def nodeIdFromSlot (slotName : String) : Option NodeId :=
  match slotName.toList with
  | 'n' :: 'o' :: 'd' :: 'e' :: rest => Rust.parseI32 (String.ofList rest)
  | _ => none

example : nodeIdFromSlot "node2" = some 2 := by decide
example : nodeIdFromSlot "standby" = none := by decide

/-- The filter of `owner_of_node`, on the entries that are not abandoned. -/
def InflightOp.owns (op : InflightOp) (nodeId : NodeId) (grace : ℤ) (now : UtcNanos) : Bool :=
  op.payload.targetNodeId == some nodeId &&
    match op.status with
    | .inProgress => true
    | _ => op.dischargedAt.isNone && op.completedAt.any fun t => decide (now - t < grace)

/-- `owner_of_node`.  A journal that cannot be read has no owners. -/
def ownerOfNode (scan : Except String (List InflightOp)) (nodeId : NodeId) (grace : ℤ)
    (now : UtcNanos) : Option InflightOp :=
  match InflightOp.list scan [.inProgress, .done] with
  | .error _ => none
  | .ok ops => latestStarted (ops.filter fun op => op.owns nodeId grace now)

/-- `owner_of_slot`. -/
def ownerOfSlot (scan : Except String (List InflightOp)) (slotName : String) (grace : ℤ)
    (now : UtcNanos) : Option InflightOp :=
  (nodeIdFromSlot slotName).bind fun nodeId => ownerOfNode scan nodeId grace now

/-- What a query that observes meets: the clock, whether the journal can be read, what the
look at the slot says, and the clock and the outcome of the discharge. -/
structure SlotConsult where
  now : UtcNanos
  scanned : Except String Unit
  slotActive : Except String Bool
  dischargedAt : UtcNanos
  written : Except String Unit

/-- What a scan of the journal reads. -/
def Journal.scan (j : Journal) (scanned : Except String Unit) : Except String (List InflightOp) :=
  scanned.map fun _ => j.ops

/-- `owner_of_slot_observing`: the owner it reports, and the journal after it. -/
def ownerOfSlotObserving (j : Journal) (slotName : String) (grace : ℤ) (c : SlotConsult) :
    Option InflightOp × Journal :=
  match ownerOfSlot (j.scan c.scanned) slotName grace c.now with
  | none => (none, j)
  | some owner =>
      if owner.status = .inProgress then (some owner, j)
      else match c.slotActive with
        | .ok true => (none, (j.change owner.id .discharge c.dischargedAt c.written).1)
        | .ok false => (some owner, j)
        | .error _ => (some owner, j)

/-! ## The last one started -/

theorem latestStarted_append (ops : List InflightOp) (op : InflightOp) :
    latestStarted (ops ++ [op]) = match latestStarted ops with
      | some b => if b.startedAt ≤ op.startedAt then some op else some b
      | none => some op := by
  unfold latestStarted
  rw [List.foldl_append]
  rfl

theorem mem_of_latestStarted {ops : List InflightOp} {op : InflightOp}
    (h : latestStarted ops = some op) : op ∈ ops := by
  induction ops using List.reverseRecOn generalizing op with
  | nil => cases h
  | append_singleton ops last ih =>
    rw [latestStarted_append] at h
    rw [List.mem_append, List.mem_singleton]
    cases hbest : latestStarted ops with
    | none =>
      rw [hbest] at h
      exact Or.inr (Option.some.inj h).symm
    | some b =>
      rw [hbest] at h
      dsimp only at h
      split at h
      · exact Or.inr (Option.some.inj h).symm
      · obtain rfl := Option.some.inj h
        exact Or.inl (ih hbest)

/-- On a list in the order of the starts, the last one started is the last one. -/
theorem latestStarted_of_pairwise {ops : List InflightOp}
    (h : ops.Pairwise fun a b => a.startedAt ≤ b.startedAt) :
    latestStarted ops = ops.getLast? := by
  induction ops using List.reverseRecOn with
  | nil => rfl
  | append_singleton ops last ih =>
    obtain ⟨hinit, -, hlast⟩ := List.pairwise_append.mp h
    rw [latestStarted_append, List.getLast?_append_of_ne_nil _ (List.cons_ne_nil _ _)]
    cases hbest : latestStarted ops with
    | none => rfl
    | some b =>
      have hle : b.startedAt ≤ last.startedAt :=
        hlast b (mem_of_latestStarted hbest) last (List.mem_singleton_self _)
      exact if_pos hle

theorem InflightOp.startedAt_le_of_listKey {a b : InflightOp} (h : a.listKey ≤ b.listKey) :
    a.startedAt ≤ b.startedAt := by
  rcases Prod.Lex.toLex_le_toLex.mp h with hlt | ⟨heq, -⟩
  · exact hlt.le
  · exact heq.le

/-! ## What a query answers -/

variable {j : Journal} {nodeId : NodeId} {grace : ℤ} {now : UtcNanos} {slotName : String}
  {o d : InflightOp}

/-- The entries of the journal that own the node. -/
def Journal.owners (j : Journal) (nodeId : NodeId) (grace : ℤ) (now : UtcNanos) :
    List InflightOp :=
  ((j.ops.filter fun op => [InflightStatus.inProgress, .done].contains op.status).insertionSort
    fun a b => a.listKey ≤ b.listKey).filter fun op => op.owns nodeId grace now

theorem Journal.mem_owners :
    o ∈ j.owners nodeId grace now ↔
      o ∈ j.ops ∧ o.status ≠ .abandoned ∧ o.owns nodeId grace now = true := by
  have hstatus : [InflightStatus.inProgress, .done].contains o.status = true ↔
      o.status ≠ .abandoned := by
    cases o.status <;> decide
  rw [owners, List.mem_filter, List.mem_insertionSort, List.mem_filter, hstatus, and_assoc]

theorem Journal.pairwise_owners :
    (j.owners nodeId grace now).Pairwise fun a b => a.listKey ≤ b.listKey := by
  have htotal : Std.Total fun a b : InflightOp => a.listKey ≤ b.listKey :=
    ⟨fun a b => le_total a.listKey b.listKey⟩
  have htrans : IsTrans InflightOp fun a b => a.listKey ≤ b.listKey :=
    ⟨fun _ _ _ hab hbc => hab.trans hbc⟩
  exact (List.pairwise_insertionSort _ _).sublist List.filter_sublist

theorem ownerOfNode_eq_getLast :
    ownerOfNode (j.scan (.ok ())) nodeId grace now = (j.owners nodeId grace now).getLast? :=
  latestStarted_of_pairwise
    (Journal.pairwise_owners.imp fun h => InflightOp.startedAt_le_of_listKey h)

theorem ownerOfNode_eq_none :
    ownerOfNode (j.scan (.ok ())) nodeId grace now = none ↔
      ∀ o ∈ j.ops, o.status ≠ .abandoned → o.owns nodeId grace now = false := by
  rw [ownerOfNode_eq_getLast, List.getLast?_eq_none_iff, List.eq_nil_iff_forall_not_mem]
  refine forall_congr' fun o => ?_
  rw [Journal.mem_owners]
  simp

/-- The owner a query answers with is listed after all others. -/
theorem le_of_ownerOfNode (h : ownerOfNode (j.scan (.ok ())) nodeId grace now = some o) :
    o ∈ j.owners nodeId grace now ∧
    ∀ d ∈ j.owners nodeId grace now, d.listKey ≤ o.listKey := by
  rw [ownerOfNode_eq_getLast] at h
  obtain ⟨init, hinit⟩ := List.getLast?_eq_some_iff.mp h
  have hpair : (j.owners nodeId grace now).Pairwise fun a b => a.listKey ≤ b.listKey :=
    Journal.pairwise_owners
  rw [hinit] at hpair
  obtain ⟨-, -, hlast⟩ := List.pairwise_append.mp hpair
  rw [hinit]
  refine ⟨by simp, fun d hd => ?_⟩
  rcases List.mem_append.mp hd with hd | hd
  · exact hlast d hd o (List.mem_singleton_self _)
  · rw [List.mem_singleton.mp hd]

theorem ownerOfNode_error (e : String) :
    ownerOfNode (j.scan (.error e)) nodeId grace now = none := rfl

/-- The owner that the observing query reports is one of the journal, which is left alone. -/
theorem mem_of_ownerOfSlotObserving {c : SlotConsult}
    (h : (ownerOfSlotObserving j slotName grace c).1 = some o) :
    (ownerOfSlotObserving j slotName grace c).2 = j ∧
      ∃ nodeId, nodeIdFromSlot slotName = some nodeId ∧ o ∈ j.owners nodeId grace c.now := by
  have hmem : ∀ owner, ownerOfSlot (j.scan c.scanned) slotName grace c.now = some owner →
      ∃ nodeId, nodeIdFromSlot slotName = some nodeId ∧
        owner ∈ j.owners nodeId grace c.now := by
    intro owner howner
    obtain ⟨nodeId, hnode, howner⟩ := Option.bind_eq_some_iff.mp howner
    rcases hscan : c.scanned with e | u
    · rw [hscan] at howner
      cases howner
    · rw [hscan] at howner
      exact ⟨nodeId, hnode, (le_of_ownerOfNode howner).1⟩
  unfold ownerOfSlotObserving at h ⊢
  cases howner : ownerOfSlot (j.scan c.scanned) slotName grace c.now with
  | none =>
    rw [howner] at h
    cases h
  | some owner =>
    rw [howner] at h
    dsimp only at h ⊢
    by_cases hflying : owner.status = .inProgress
    · rw [if_pos hflying] at h ⊢
      obtain rfl := Option.some.inj h
      exact ⟨rfl, hmem owner howner⟩
    · rw [if_neg hflying] at h ⊢
      rcases hactive : c.slotActive with e | active
      · rw [hactive] at h
        obtain rfl := Option.some.inj h
        exact ⟨rfl, hmem owner howner⟩
      · rw [hactive] at h
        cases active with
        | true => cases h
        | false =>
          obtain rfl := Option.some.inj h
          exact ⟨rfl, hmem owner howner⟩

/-- An orchestration in progress owns its target. -/
theorem InflightOp.owns_of_inProgress (hstatus : o.status = .inProgress)
    (htarget : o.payload.targetNodeId = some nodeId) : o.owns nodeId grace now = true := by
  simp [owns, hstatus, htarget]

/-- Entries of one file are equal. -/
theorem Journal.eq_of_id (ho : o ∈ j.ops) (hd : d ∈ j.ops) (h : o.id = d.id) : o = d :=
  List.inj_on_of_nodup_map j.distinct ho hd h

/-! ## A slot in use -/

/-- An entry of the journal that is in progress and has the node as its target. -/
def Journal.InFlightOn (j : Journal) (nodeId : NodeId) (o : InflightOp) : Prop :=
  o ∈ j.ops ∧ o.status = .inProgress ∧ o.payload.targetNodeId = some nodeId

/-- The slot is reported free only if no orchestration is in progress on its node. -/
def NeverFree (j : Journal) (slotName : String) (grace : ℤ) (c : SlotConsult) : Prop :=
  (ownerOfSlotObserving j slotName grace c).1 = none →
    ∀ nodeId, nodeIdFromSlot slotName = some nodeId → ∀ o, ¬ j.InFlightOn nodeId o

/-- The query does not look past an orchestration in progress: the journal could be read, and
the slot is not seen active or every finished owner is listed before an entry in progress. -/
def SeesInFlight (j : Journal) (nodeId : NodeId) (grace : ℤ) (c : SlotConsult) : Prop :=
  c.scanned = .ok () ∧ (c.slotActive ≠ .ok true ∨
    ∀ d ∈ j.ops, d.status = .done → d.owns nodeId grace c.now = true →
      ∃ o, j.InFlightOn nodeId o ∧ d.listKey < o.listKey)

/-- The answer of the observing query, from the owner it picks. -/
theorem ownerOfSlotObserving_eq_none {c : SlotConsult}
    (hslot : nodeIdFromSlot slotName = some nodeId) :
    (ownerOfSlotObserving j slotName grace c).1 = none ↔
      ∀ o, ownerOfNode (j.scan c.scanned) nodeId grace c.now = some o →
        o.status ≠ .inProgress ∧ c.slotActive = .ok true := by
  have howner : ownerOfSlot (j.scan c.scanned) slotName grace c.now =
      ownerOfNode (j.scan c.scanned) nodeId grace c.now := by
    rw [ownerOfSlot, hslot]
    rfl
  unfold ownerOfSlotObserving
  rw [howner]
  cases ownerOfNode (j.scan c.scanned) nodeId grace c.now with
  | none => simp
  | some o =>
    simp only [Option.some.injEq, forall_eq']
    by_cases hstatus : o.status = .inProgress
    · simp [hstatus]
    · rw [if_neg hstatus]
      rcases c.slotActive with e | active
      · simp [hstatus]
      · cases active <;> simp [hstatus]

/-- A query that sees every orchestration in progress does not report its slot free. -/
theorem neverFree_of_sees {j : Journal} {slotName : String} {grace : ℤ} {c : SlotConsult}
    (h : ∀ nodeId, nodeIdFromSlot slotName = some nodeId → (∃ o, j.InFlightOn nodeId o) →
      SeesInFlight j nodeId grace c) : NeverFree j slotName grace c := by
  intro hnone nodeId hslot o ho
  obtain ⟨hscan, hsees⟩ := h nodeId hslot ⟨o, ho⟩
  rw [ownerOfSlotObserving_eq_none hslot, hscan] at hnone
  have howns : o.owns nodeId grace c.now = true := InflightOp.owns_of_inProgress ho.2.1 ho.2.2
  have hlive : o.status ≠ .abandoned := by
    rw [ho.2.1]
    decide
  cases hp : ownerOfNode (j.scan (.ok ())) nodeId grace c.now with
  | none =>
    rw [ownerOfNode_eq_none.mp hp o ho.1 hlive] at howns
    cases howns
  | some p =>
    obtain ⟨hnot, hactive⟩ := hnone p hp
    obtain ⟨hmem, hlast⟩ := le_of_ownerOfNode hp
    obtain ⟨hpj, hpabandoned, hpowns⟩ := Journal.mem_owners.mp hmem
    rcases hsees with hinactive | hbefore
    · exact hinactive hactive
    · have hdone : p.status = .done := by
        cases hstatus : p.status with
        | inProgress => exact absurd hstatus hnot
        | done => rfl
        | abandoned => exact absurd hstatus hpabandoned
      obtain ⟨q, ⟨hqj, hqprogress, hqtarget⟩, hlt⟩ := hbefore p hpj hdone hpowns
      have hqmem : q ∈ j.owners nodeId grace c.now := Journal.mem_owners.mpr
        ⟨hqj, by rw [hqprogress]; decide, InflightOp.owns_of_inProgress hqprogress hqtarget⟩
      exact absurd hlt (hlast q hqmem).not_gt

/-- A slot is **not reported free while an orchestration is in progress on its node exactly when
the query sees one that is**. -/
theorem neverFree_iff (j : Journal) (slotName : String) (grace : ℤ) (c : SlotConsult) :
    NeverFree j slotName grace c ↔
      ∀ nodeId, nodeIdFromSlot slotName = some nodeId → (∃ o, j.InFlightOn nodeId o) →
        SeesInFlight j nodeId grace c := by
  unfold NeverFree
  constructor
  · rintro h nodeId hslot ⟨o, ho⟩
    rw [ownerOfSlotObserving_eq_none hslot] at h
    have howned : ∃ p, ownerOfNode (j.scan c.scanned) nodeId grace c.now = some p ∧
        (p.status = .inProgress ∨ c.slotActive ≠ .ok true) := by
      by_contra hnone
      push Not at hnone
      exact h hnone nodeId hslot o ho
    obtain ⟨p, hp, hkept⟩ := howned
    rcases hscan : c.scanned with e | u
    · rw [hscan, ownerOfNode_error] at hp
      cases hp
    · rw [hscan] at hp
      refine ⟨hscan, ?_⟩
      rcases hkept with hprogress | hinactive
      · right
        intro d hd hdone howns
        obtain ⟨hmem, hlast⟩ := le_of_ownerOfNode hp
        obtain ⟨hpj, -, hpowns⟩ := Journal.mem_owners.mp hmem
        have htarget : p.payload.targetNodeId = some nodeId := by
          simp only [InflightOp.owns, Bool.and_eq_true, beq_iff_eq] at hpowns
          exact hpowns.1
        have hdp : d.listKey ≤ p.listKey :=
          hlast d (Journal.mem_owners.mpr ⟨hd, by rw [hdone]; decide, howns⟩)
        refine ⟨p, ⟨hpj, hprogress, htarget⟩, lt_of_le_of_ne hdp fun hkey => ?_⟩
        have hid : d.id = p.id := (Prod.mk.inj (toLex_inj.mp hkey)).2
        rw [Journal.eq_of_id hd hpj hid, hprogress] at hdone
        cases hdone
      · exact Or.inl hinactive
  · exact neverFree_of_sees

/-- `CROSS_OP_GRACE`, in nanoseconds. -/
def crossOpGrace : ℤ := 120 * 10 ^ 9

/-- Node `2` is being re-pointed; meanwhile a recovery of it, begun later, has completed. -/
def recoveredUnderway : Journal where
  ops :=
    [{ id := "0-follow_primary-0", status := .inProgress
       payload := .followPrimary 2 "db2" 1 "db1", phase := "slot_created"
       startedAt := 0, updatedAt := 5, completedAt := none, dischargedAt := none
       lastError := none },
     { id := "10-recovery-1", status := .done
       payload := .recovery 1 2 "db2" "node2", phase := "done"
       startedAt := 10, updatedAt := 20, completedAt := some 20, dischargedAt := none
       lastError := none }]
  seq := 2
  distinct := by decide

/-- The slot is active: the base backup of the re-pointing streams through it. -/
def activeConsult : SlotConsult where
  now := 30
  scanned := .ok ()
  slotActive := .ok true
  dischargedAt := 30
  written := .ok ()

/-- The slot in use is reported free. -/
theorem recoveredUnderway_free :
    ¬ NeverFree recoveredUnderway "node2" crossOpGrace activeConsult := by
  intro h
  have hfree : (ownerOfSlotObserving recoveredUnderway "node2" crossOpGrace activeConsult).1 =
      none := by decide
  exact h hfree 2 (by decide) _ ⟨List.mem_cons_self, rfl, rfl⟩

/-! ## The end of a grace -/

/-- The query has seen the slot of the node active, and has recorded so at the entry it
picked. -/
structure ObservedActive (j : Journal) (slotName : String) (grace : ℤ) (c : SlotConsult)
    (nodeId : NodeId) (owner : InflightOp) : Prop where
  slot : nodeIdFromSlot slotName = some nodeId
  picked : ownerOfSlot (j.scan c.scanned) slotName grace c.now = some owner
  finished : owner.status ≠ .inProgress
  active : c.slotActive = .ok true
  recorded : (j.change owner.id .discharge c.dischargedAt c.written).2 = .ok ()

/-- No entry that is begun in these steps takes one of the given ids. -/
def FreshIds (retention : ℤ) (ids : List String) : Journal → List JournalStep → Prop
  | _, [] => True
  | j, s :: steps =>
      (match s with
        | .begin payload _ _ now _ => makeId payload now j.seq ∉ ids
        | _ => True) ∧
        FreshIds retention ids (j.step retention s) steps

/-- After the query, and whatever is done to the journal since, no query about the node answers
with an entry that was done already. -/
def EndsGrace (retention : ℤ) (j : Journal) (slotName : String) (grace : ℤ) (c : SlotConsult)
    (nodeId : NodeId) : Prop :=
  let j' := (ownerOfSlotObserving j slotName grace c).2
  ∀ steps, FreshIds retention (j.ops.map InflightOp.id) j' steps → ∀ scanned now o,
    ownerOfNode ((j'.after retention steps).scan scanned) nodeId grace now = some o →
      ∀ d ∈ j.ops, d.status = .done → d.id ≠ o.id

/-- An entry of the node that is done and not discharged. -/
def Journal.Undischarged (j : Journal) (nodeId : NodeId) (d : InflightOp) : Prop :=
  d ∈ j.ops ∧ d.status = .done ∧ d.payload.targetNodeId = some nodeId ∧
  d.dischargedAt = none

/-- The entry owns the node no more, whatever is called on it. -/
def InflightOp.Spent (nodeId : NodeId) (o : InflightOp) : Prop :=
  o.status.isTerminal = true ∧
    (o.payload.targetNodeId = some nodeId → o.dischargedAt.isSome = true)

theorem InflightOp.Spent.owns (h : o.Spent nodeId) : o.owns nodeId grace now = false := by
  obtain ⟨hterminal, hdischarged⟩ := h
  by_cases htarget : o.payload.targetNodeId = some nodeId
  · have hsome := hdischarged htarget
    cases hstatus : o.status with
    | inProgress =>
      rw [hstatus] at hterminal
      cases hterminal
    | done => simp [InflightOp.owns, hstatus, Option.isNone_eq_false_iff.mpr hsome]
    | abandoned => simp [InflightOp.owns, hstatus, Option.isNone_eq_false_iff.mpr hsome]
  · simp [InflightOp.owns, htarget]

theorem InflightOp.Spent.write (h : o.Spent nodeId) {call : JournalCall}
    (hstops : call.stops o = none) (now : UtcNanos) : (call.write o now).Spent nodeId := by
  cases call with
  | updatePhase phase lastError =>
    -- refused: the entry is finished
    rw [JournalCall.stops, if_pos h.1] at hstops
    cases hstops
  | complete => exact ⟨rfl, h.2⟩
  | abandon reason => exact ⟨rfl, h.2⟩
  | discharge => exact ⟨h.1, fun _ => rfl⟩

/-- The entries with these ids own the node no more. -/
def Journal.AllSpent (j : Journal) (ids : List String) (nodeId : NodeId) : Prop :=
  ∀ o ∈ j.ops, o.id ∈ ids → o.Spent nodeId

variable {retention : ℤ} {ids : List String}

theorem Journal.AllSpent.step (h : j.AllSpent ids nodeId) {s : JournalStep} {used : List String}
    (hsub : ∀ id ∈ ids, id ∈ used) {steps : List JournalStep}
    (hfresh : FreshIds retention used j (s :: steps)) :
    (j.step retention s).AllSpent ids nodeId := by
  intro o ho hid
  rcases mem_step ho with hold | ⟨payload, _, _, now, _, rfl, hnew, -, -⟩ |
    ⟨op, hop, call, now, _, -, hstops, rfl⟩
  · exact h o hold hid
  · rw [hnew] at hid
    exact absurd (hsub _ hid) hfresh.1
  · rw [JournalCall.write_id] at hid
    exact (h op hop hid).write hstops now

theorem Journal.AllSpent.after (h : j.AllSpent ids nodeId) {used : List String}
    (hsub : ∀ id ∈ ids, id ∈ used) {steps : List JournalStep}
    (hfresh : FreshIds retention used j steps) : (j.after retention steps).AllSpent ids nodeId := by
  induction steps generalizing j with
  | nil => exact h
  | cons s steps ih => exact ih (h.step hsub hfresh) hfresh.2

/-! ### What the observing query leaves -/

variable {c : SlotConsult} {owner : InflightOp}

theorem ObservedActive.owner_mem (h : ObservedActive j slotName grace c nodeId owner) :
    j.Undischarged nodeId owner := by
  have hpicked : ownerOfNode (j.scan c.scanned) nodeId grace c.now = some owner := by
    have hslot := h.picked
    rw [ownerOfSlot, h.slot] at hslot
    exact hslot
  have hscan : c.scanned = .ok () := by
    rcases hscan : c.scanned with e | u
    · rw [hscan, ownerOfNode_error] at hpicked
      cases hpicked
    · rfl
  rw [hscan] at hpicked
  obtain ⟨hmem, habandoned, howns⟩ := Journal.mem_owners.mp (le_of_ownerOfNode hpicked).1
  have hdone : owner.status = .done := by
    cases hstatus : owner.status with
    | inProgress => exact absurd hstatus h.finished
    | done => rfl
    | abandoned => exact absurd hstatus habandoned
  simp only [InflightOp.owns, hdone, Bool.and_eq_true, beq_iff_eq, Option.isNone_iff_eq_none]
    at howns
  exact ⟨hmem, hdone, howns.1, howns.2.1⟩

theorem ObservedActive.journal (h : ObservedActive j slotName grace c nodeId owner) :
    (ownerOfSlotObserving j slotName grace c).2 =
      (j.change owner.id .discharge c.dischargedAt c.written).1 := by
  unfold ownerOfSlotObserving
  rw [h.picked]
  dsimp only
  rw [if_neg h.finished, h.active]

/-- The discharge is in the journal. -/
theorem ObservedActive.put (h : ObservedActive j slotName grace c nodeId owner) :
    (ownerOfSlotObserving j slotName grace c).2 =
      j.put (JournalCall.discharge.write owner c.dischargedAt) := by
  obtain ⟨hmem, -, -, hnone⟩ := h.owner_mem
  have hrecorded := h.recorded
  rw [h.journal]
  unfold Journal.change at hrecorded ⊢
  cases hget : j.get owner.id with
  | error e =>
    rw [hget] at hrecorded
    cases hrecorded
  | ok op =>
    obtain ⟨hop, hid⟩ := Journal.mem_of_get hget
    obtain rfl := Journal.eq_of_id hop hmem hid
    have hstops : JournalCall.discharge.stops op = none := by
      simp [JournalCall.stops, hnone]
    rw [hget] at hrecorded
    dsimp only at hrecorded ⊢
    rw [hstops] at hrecorded ⊢
    cases hwritten : c.written with
    | error e =>
      rw [hwritten] at hrecorded
      cases hrecorded
    | ok u => rfl

/-- If the entry the query picked is the only undischarged one, no entry that was done owns the
node any more. -/
theorem ObservedActive.allSpent (h : ObservedActive j slotName grace c nodeId owner)
    (hone : ∀ d, j.Undischarged nodeId d → d = owner) :
    (ownerOfSlotObserving j slotName grace c).2.AllSpent
      ((j.ops.filter fun d => d.status == .done).map InflightOp.id) nodeId := by
  intro o ho hid
  rw [h.put, Journal.mem_put, JournalCall.write_id] at ho
  rcases ho with ⟨ho, hne⟩ | rfl
  · obtain ⟨d, hd, hdid⟩ := List.mem_map.mp hid
    obtain ⟨hdmem, hdstatus⟩ := List.mem_filter.mp hd
    obtain rfl := Journal.eq_of_id hdmem ho hdid
    have hdone : d.status = .done := by simpa using hdstatus
    refine ⟨by rw [hdone]; rfl, fun htarget => ?_⟩
    by_contra hnone
    have hundischarged : j.Undischarged nodeId d :=
      ⟨ho, hdone, htarget, by simpa using hnone⟩
    exact hne (congrArg InflightOp.id (hone d hundischarged))
  · refine ⟨?_, fun _ => rfl⟩
    show owner.status.isTerminal = true
    rw [h.owner_mem.2.1]
    rfl

/-! ### An entry that is left -/

/-- Steps that only change entries begin none. -/
theorem freshIds_of_changes {steps : List JournalStep} {j : Journal}
    (h : ∀ s ∈ steps, ∃ id call now written, s = .change id call now written) :
    FreshIds retention ids j steps := by
  induction steps generalizing j with
  | nil => trivial
  | cons s steps ih =>
    obtain ⟨id, call, now, written, rfl⟩ := h s List.mem_cons_self
    exact ⟨trivial, ih fun s hs => h s (List.mem_cons_of_mem _ hs)⟩

/-- The operator abandons these entries. -/
def abandonAll (ids : List String) : List JournalStep :=
  ids.map fun id => .change id (.abandon "operator-abandoned") 0 (.ok ())

/-- After that only the other entries are not abandoned. -/
theorem mem_after_abandonAll (hids : ∀ o ∈ j.ops, o.id ≠ "")
    (ho : o ∈ (j.after retention (abandonAll ids)).ops) :
    o.status = .abandoned ∨ (o ∈ j.ops ∧ o.id ∉ ids) := by
  induction ids generalizing j with
  | nil => exact Or.inr ⟨ho, List.not_mem_nil⟩
  | cons id ids ih =>
    have hstep :
        ∀ o ∈ (j.step retention (.change id (.abandon "operator-abandoned") 0 (.ok ()))).ops,
        (o ∈ j.ops ∧ o.id ≠ id) ∨ (o.status = .abandoned ∧ o.id ≠ "") := by
      intro o ho
      rcases Journal.mem_step ho with hold | ⟨_, _, _, _, _, hbegin, -⟩ |
        ⟨op, hop, call, now, written, hchange, -, rfl⟩
      · by_cases hid : o.id = id
        · subst hid
          change o ∈ (j.change _ _ _ _).1.ops at ho
          rw [Journal.change_of_mem hold (hids o hold) rfl, Journal.mem_put] at ho
          rcases ho with ⟨-, hne⟩ | heq
          · exact absurd rfl hne
          · rw [heq]
            exact Or.inr ⟨rfl, hids o hold⟩
        · exact Or.inl ⟨hold, hid⟩
      · cases hbegin
      · cases hchange
        exact Or.inr ⟨rfl, hids op hop⟩
    have hids' : ∀ o ∈ (j.step retention
        (.change id (.abandon "operator-abandoned") 0 (.ok ()))).ops, o.id ≠ "" := by
      intro o ho
      rcases hstep o ho with ⟨hold, -⟩ | ⟨-, hne⟩
      · exact hids o hold
      · exact hne
    rcases ih hids' ho with habandoned | ⟨hbefore, hnot⟩
    · exact Or.inl habandoned
    · rcases hstep o hbefore with ⟨hold, hne⟩ | ⟨habandoned, -⟩
      · exact Or.inr ⟨hold, by simp [hne, hnot]⟩
      · exact Or.inl habandoned

theorem mem_after_abandonAll_of_notMem (ho : o ∈ j.ops) (hid : o.id ∉ ids) :
    o ∈ (j.after retention (abandonAll ids)).ops := by
  induction ids generalizing j with
  | nil => exact ho
  | cons id ids ih =>
    rw [List.mem_cons, not_or] at hid
    exact ih (Journal.mem_change_of_ne ho hid.1 _ _ _) hid.2

/-- An undischarged entry can come to own the node again: it is completed once more while no
other entry owns anything. -/
theorem owner_after_complete (hids : ∀ o ∈ j.ops, o.id ≠ "") (hd : j.Undischarged nodeId d) :
    ∃ steps, FreshIds retention ids j steps ∧ ∃ o,
      ownerOfNode ((j.after retention steps).scan (.ok ())) nodeId grace (grace - 1) = some o ∧
        o.id = d.id := by
  obtain ⟨hmem, hdone, htarget, hnone⟩ := hd
  let others := (j.ops.map InflightOp.id).filter fun id => id != d.id
  let complete : JournalStep := .change d.id .complete 0 (.ok ())
  have hkept : d ∈ (j.after retention (abandonAll others)).ops :=
    mem_after_abandonAll_of_notMem hmem (by simp [others])
  have hafter : j.after retention (abandonAll others ++ [complete]) =
      (j.after retention (abandonAll others)).put (JournalCall.complete.write d 0) := by
    rw [Journal.after, List.foldl_append]
    exact Journal.change_of_mem hkept (hids d hmem) rfl 0
  refine ⟨abandonAll others ++ [complete], freshIds_of_changes ?_, ?_⟩
  · intro s hs
    rcases List.mem_append.mp hs with hs | hs
    · obtain ⟨id, -, rfl⟩ := List.mem_map.mp hs
      exact ⟨id, _, _, _, rfl⟩
    · exact ⟨_, _, _, _, List.mem_singleton.mp hs⟩
  rw [hafter]
  have howns : (JournalCall.complete.write d 0).owns nodeId grace (grace - 1) = true := by
    simp [InflightOp.owns, JournalCall.write, htarget, hnone]
  cases howner : ownerOfNode
      (((j.after retention (abandonAll others)).put (JournalCall.complete.write d 0)).scan (.ok ()))
      nodeId grace (grace - 1) with
  | none =>
    have hfalse := ownerOfNode_eq_none.mp howner _ (Journal.mem_put.mpr (Or.inr rfl))
      (by simp [JournalCall.write])
    rw [howns] at hfalse
    cases hfalse
  | some o =>
    refine ⟨o, rfl, ?_⟩
    obtain ⟨ho, hlive, -⟩ := Journal.mem_owners.mp (le_of_ownerOfNode howner).1
    rcases Journal.mem_put.mp ho with ⟨ho, hne⟩ | rfl
    · -- every other entry has been abandoned
      rcases mem_after_abandonAll hids ho with habandoned | ⟨hold, hother⟩
      · exact absurd habandoned hlive
      · exact absurd (by simpa [others] using ⟨⟨o, hold, rfl⟩, hne⟩) hother
    · rfl

/-- After the slot of a node has been observed active, no query **ever answers with an entry that
was done then, exactly when the node had one undischarged entry only**. -/
theorem endsGrace_iff (retention : ℤ) (hids : ∀ o ∈ j.ops, o.id ≠ "")
    (h : ObservedActive j slotName grace c nodeId owner) :
    EndsGrace retention j slotName grace c nodeId ↔
      ∀ d d', j.Undischarged nodeId d → j.Undischarged nodeId d' → d = d' := by
  constructor
  · intro hends
    -- an undischarged entry other than the one the query picked comes back
    have hpicked : ∀ d, j.Undischarged nodeId d → d = owner := by
      intro d hd
      by_contra hne
      have hidne : d.id ≠ owner.id := fun hid =>
        hne (Journal.eq_of_id hd.1 h.owner_mem.1 hid)
      have hd' : (ownerOfSlotObserving j slotName grace c).2.Undischarged nodeId d := by
        refine ⟨?_, hd.2⟩
        rw [h.put, Journal.mem_put, JournalCall.write_id]
        exact Or.inl ⟨hd.1, hidne⟩
      have hids' : ∀ o ∈ (ownerOfSlotObserving j slotName grace c).2.ops, o.id ≠ "" := by
        intro o ho
        rw [h.put, Journal.mem_put] at ho
        rcases ho with ⟨ho, -⟩ | rfl
        · exact hids o ho
        · exact hids owner h.owner_mem.1
      obtain ⟨steps, hfresh, o, howner, hid⟩ := owner_after_complete hids' hd'
      exact hends steps hfresh _ _ o howner d hd.1 hd.2.1 hid.symm
    intro d d' hd hd'
    rw [hpicked d hd, hpicked d' hd']
  · intro hone steps hfresh scanned now o howner d hd hdone hid
    have hspent := (h.allSpent fun d hd => hone d owner hd h.owner_mem).after
      (fun id hid => ((List.filter_sublist.map _).subset hid)) hfresh
    rcases scanned with e | u
    · rw [ownerOfNode_error] at howner
      cases howner
    · obtain ⟨ho, -, howns⟩ := Journal.mem_owners.mp (le_of_ownerOfNode howner).1
      have hwas : o.id ∈ (j.ops.filter fun d => d.status == .done).map InflightOp.id :=
        List.mem_map.mpr ⟨d, List.mem_filter.mpr ⟨hd, by simp [hdone]⟩, hid⟩
      rw [(hspent o ho hwas).owns] at howns
      cases howns

/-- Node `2` has been rebuilt twice of late: a re-pointing completed a minute ago, a recovery ten
seconds ago. -/
def rebuiltTwice : Journal where
  ops :=
    [{ id := "0-follow_primary-0", status := .done
       payload := .followPrimary 2 "db2" 1 "db1", phase := "done"
       startedAt := 0, updatedAt := 10 ^ 9, completedAt := some (10 ^ 9), dischargedAt := none
       lastError := none },
     { id := "10000000000-recovery-1", status := .done
       payload := .recovery 1 2 "db2" "node2", phase := "done"
       startedAt := 10 ^ 10, updatedAt := 51 * 10 ^ 9, completedAt := some (51 * 10 ^ 9)
       dischargedAt := none, lastError := none }]
  seq := 2
  distinct := by decide

/-- A minute after the first of them completed, with the slot active. -/
def minuteConsult : SlotConsult := { activeConsult with now := 61 * 10 ^ 9 }

/-- The re-pointing owns the node after the recovery has been discharged. -/
theorem rebuiltTwice_owned :
    (∃ owner, ObservedActive rebuiltTwice "node2" crossOpGrace minuteConsult 2 owner) ∧
      ¬ EndsGrace inflightRetention rebuiltTwice "node2" crossOpGrace minuteConsult 2 := by
  refine ⟨⟨_, by decide, rfl, by decide, rfl, by decide⟩, fun hends => ?_⟩
  exact hends [] trivial (.ok ()) (62 * 10 ^ 9) _ rfl _ List.mem_cons_self rfl (by decide)

/-- Node `2` has been rebuilt once. -/
def rebuiltOnce : Journal where
  ops := rebuiltTwice.ops.drop 1
  seq := 2
  distinct := by decide

/-- One discharge ends its ownership. -/
theorem endsGrace_rebuiltOnce :
    (∃ owner, ObservedActive rebuiltOnce "node2" crossOpGrace minuteConsult 2 owner) ∧
      EndsGrace inflightRetention rebuiltOnce "node2" crossOpGrace minuteConsult 2 := by
  have hobserved : ∃ owner,
      ObservedActive rebuiltOnce "node2" crossOpGrace minuteConsult 2 owner :=
    ⟨_, by decide, rfl, by decide, rfl, by decide⟩
  refine ⟨hobserved, ?_⟩
  obtain ⟨owner, howner⟩ := hobserved
  refine (endsGrace_iff inflightRetention (by decide) howner).mpr ?_
  rintro d d' ⟨hd, -⟩ ⟨hd', -⟩
  exact (List.mem_singleton.mp hd).trans (List.mem_singleton.mp hd').symm

end PgAgent
