import PgAgent.Library.Decimal
import PgAgent.Ops.Journal

/-!
# The journal as a directory

`FileInflightOpStore`: one file per entry, named by the entry's id.  A journal is its entries
together with the sequence number of the store; the order of the list is the order of a scan.  A
file that is written anew comes to the end of the scan, which stands for "anywhere": no result here
depends on the order.

The operations are total: each gives the journal after it and what the caller is told.
Whether a file could be written or removed is an input.

`singleFlight` is what the gate of `begin` promises, over every history of the store: at
most one entry in progress for each operation and key.
-/

namespace PgAgent

/-- The entries of the directory, one file each, and the store's sequence number. -/
structure Journal where
  ops : List InflightOp
  seq : ℕ
  /-- A file is named by the id of its entry. -/
  distinct : (ops.map InflightOp.id).Nodup

/-- `DEFAULT_RETENTION` of the journal, seven days, in nanoseconds. -/
def inflightRetention : ℤ := 7 * 24 * 3600 * 10 ^ 9

/-- The operations of the store that may change it, with the clock each of them reads and the
outcome of its writes. -/
inductive JournalStep where
  | begin (payload : InflightPayload) (phase : String) (exclusive : Bool) (now : UtcNanos)
      (written : Except String Unit)
  | change (id : String) (call : JournalCall) (now : UtcNanos) (written : Except String Unit)
  | sweep (now : UtcNanos) (removes : String → Bool)

namespace Journal

def empty : Journal := ⟨[], 0, List.nodup_nil⟩

/-- The other files of the directory. -/
def without (ops : List InflightOp) (id : String) : List InflightOp :=
  ops.filter fun op => op.id != id

theorem mem_without {ops : List InflightOp} {id : String} {op : InflightOp} :
    op ∈ without ops id ↔ op ∈ ops ∧ op.id ≠ id := by
  simp [without]

/-- `write_atomic`: the file of the entry, new or replaced. -/
def put (j : Journal) (op : InflightOp) : Journal where
  ops := without j.ops op.id ++ [op]
  seq := j.seq
  distinct := by
    have hrest : ((without j.ops op.id).map InflightOp.id).Nodup :=
      j.distinct.sublist (List.filter_sublist.map _)
    rw [List.map_append, List.nodup_append]
    refine ⟨hrest, List.nodup_singleton _, ?_⟩
    intro id hid other hother
    obtain ⟨o, ho, rfl⟩ := List.mem_map.mp hid
    obtain rfl := List.mem_singleton.mp hother
    exact (mem_without.mp ho).2

theorem mem_put {j : Journal} {op o : InflightOp} :
    o ∈ (j.put op).ops ↔ (o ∈ j.ops ∧ o.id ≠ op.id) ∨ o = op := by
  rw [put, List.mem_append, mem_without, List.mem_singleton]

/-- `InflightOpStore::get`. -/
def get (j : Journal) (id : String) : Except String InflightOp :=
  if id = "" then .error "inflight_ops: id is required"
  else match j.ops.find? fun op => op.id == id with
    | some op => .ok op
    | none => .error ("inflight_ops: read " ++ id ++
        ".json: No such file or directory (os error 2)")

theorem mem_of_get {j : Journal} {id : String} {op : InflightOp} (h : j.get id = .ok op) :
    op ∈ j.ops ∧ op.id = id := by
  unfold get at h
  split at h
  · cases h
  · split at h
    · rename_i found hfound
      obtain rfl := Except.ok.inj h
      exact ⟨List.mem_of_find?_eq_some hfound, by simpa using List.find?_some hfound⟩
    · cases h

theorem get_of_mem {j : Journal} {op : InflightOp} (h : op ∈ j.ops) (hid : op.id ≠ "") :
    j.get op.id = .ok op := by
  unfold get
  rw [if_neg hid]
  cases hfind : j.ops.find? fun o => o.id == op.id with
  | none => exact absurd (List.find?_eq_none.mp hfind op h) (by simp)
  | some found =>
    have hsame : found.id = op.id := by simpa using List.find?_some hfind
    rw [List.inj_on_of_nodup_map j.distinct (List.mem_of_find?_eq_some hfind) h hsame]

/-- `InflightOpStore::begin`.  The sequence number is drawn once the gate is passed. -/
def begin (j : Journal) (payload : InflightPayload) (phase : String) (exclusive : Bool)
    (now : UtcNanos) (written : Except String Unit) : Journal × Except String InflightOp :=
  let result := InflightOp.begin (.ok j.ops) written payload phase exclusive now j.seq
  match beginGate j.ops payload exclusive, result with
  | none, .ok op => ({ j.put op with seq := j.seq + 1 }, result)
  | none, .error _ => ({ j with seq := j.seq + 1 }, result)
  | some _, _ => (j, result)

/-- A call on an existing entry. -/
def change (j : Journal) (id : String) (call : JournalCall) (now : UtcNanos)
    (written : Except String Unit) : Journal × Except String Unit :=
  match j.get id with
  | .error e => (j, .error e)
  | .ok op =>
      match call.stops op with
      | some answer => (j, answer)
      | none =>
          match written with
          | .error e => (j, .error e)
          | .ok _ => (j.put (call.write op now), .ok ())

/-- An entry `sweep` prunes. -/
def expired (retention : ℤ) (now : UtcNanos) (op : InflightOp) : Bool :=
  op.status.isTerminal && decide (now - op.completedAt.getD op.updatedAt > retention)

/-- `InflightOpStore::sweep`. -/
def sweep (retention : ℤ) (j : Journal) (now : UtcNanos) (removes : String → Bool) :
    Journal where
  ops := j.ops.filter fun op => !(expired retention now op && removes op.id)
  seq := j.seq
  distinct := j.distinct.sublist (List.filter_sublist.map _)

/-- One operation of the store. -/
def step (retention : ℤ) (j : Journal) : JournalStep → Journal
  | .begin payload phase exclusive now written => (j.begin payload phase exclusive now written).1
  | .change id call now written => (j.change id call now written).1
  | .sweep now removes => j.sweep retention now removes

/-- The journal after some operations. -/
def after (retention : ℤ) (j : Journal) (steps : List JournalStep) : Journal :=
  steps.foldl (step retention) j

/-! ## What an operation does to the entries -/

variable {j : Journal} {payload : InflightPayload} {phase : String} {exclusive : Bool}
  {now : UtcNanos} {written : Except String Unit}

/-- `begin` either leaves the entries alone and answers an error, or passes the gate and adds
an entry in progress. -/
theorem begin_cases (j : Journal) (payload : InflightPayload) (phase : String) (exclusive : Bool)
    (now : UtcNanos) (written : Except String Unit) :
    ((j.begin payload phase exclusive now written).1.ops = j.ops ∧
        ∃ e, (j.begin payload phase exclusive now written).2 = .error e) ∨
      (beginGate j.ops payload exclusive = none ∧
        ∃ op, (j.begin payload phase exclusive now written).2 = .ok op ∧
          (j.begin payload phase exclusive now written).1.ops = (j.put op).ops ∧
          op.id = makeId payload now j.seq ∧ op.status = .inProgress ∧
          op.payload = payload) := by
  unfold begin
  cases hgate : beginGate j.ops payload exclusive with
  | some rejected =>
    refine Or.inl ⟨rfl, rejected.display, ?_⟩
    simp [InflightOp.begin, Except.bind, hgate]
  | none =>
    cases written with
    | error e =>
      refine Or.inl ⟨?_, e, ?_⟩
      · simp [InflightOp.begin, Except.bind, Except.map, hgate]
      · simp [InflightOp.begin, Except.bind, Except.map, hgate]
    | ok _ =>
      simp only [InflightOp.begin, Except.bind, Except.map, hgate]
      exact Or.inr ⟨trivial, _, rfl, rfl, rfl, rfl, rfl⟩

/-- A call on an entry leaves the journal alone, or writes the entry it read. -/
theorem change_cases (j : Journal) (id : String) (call : JournalCall) (now : UtcNanos)
    (written : Except String Unit) :
    (j.change id call now written).1 = j ∨
      ∃ op, op ∈ j.ops ∧ op.id = id ∧ call.stops op = none ∧
        (j.change id call now written).1 = j.put (call.write op now) := by
  unfold change
  cases hget : j.get id with
  | error e => exact Or.inl rfl
  | ok op =>
    obtain ⟨hmem, hid⟩ := mem_of_get hget
    dsimp only
    cases hstops : call.stops op with
    | some answer => exact Or.inl rfl
    | none =>
      cases written with
      | error e => exact Or.inl rfl
      | ok _ => exact Or.inr ⟨op, hmem, hid, hstops, rfl⟩

/-- A call on an entry that it does not stop at, and whose write succeeds. -/
theorem change_of_mem {op : InflightOp} (h : op ∈ j.ops) (hid : op.id ≠ "") {call : JournalCall}
    (hstops : call.stops op = none) (now : UtcNanos) :
    (j.change op.id call now (.ok ())).1 = j.put (call.write op now) := by
  unfold change
  rw [get_of_mem h hid]
  dsimp only
  rw [hstops]

/-- A call leaves the other entries alone. -/
theorem mem_change_of_ne {o : InflightOp} {id : String} (h : o ∈ j.ops) (hid : o.id ≠ id)
    (call : JournalCall) (now : UtcNanos) (written : Except String Unit) :
    o ∈ (j.change id call now written).1.ops := by
  rcases change_cases j id call now written with hsame | ⟨op, -, rfl, -, hput⟩
  · rw [hsame]
    exact h
  · rw [hput, mem_put, JournalCall.write_id]
    exact Or.inl ⟨h, hid⟩

/-- Where an entry comes from that is there after an operation: it was there, it has been
begun, or a call has written it. -/
theorem mem_step {retention : ℤ} {s : JournalStep} {o : InflightOp}
    (h : o ∈ (j.step retention s).ops) :
    o ∈ j.ops ∨
      (∃ payload phase exclusive now written, s = .begin payload phase exclusive now written ∧
        o.id = makeId payload now j.seq ∧ o.status = .inProgress ∧ o.payload = payload) ∨
      ∃ op ∈ j.ops, ∃ call now written, s = .change op.id call now written ∧
        call.stops op = none ∧ o = call.write op now := by
  cases s with
  | begin payload phase exclusive now written =>
    change o ∈ (j.begin payload phase exclusive now written).1.ops at h
    rcases begin_cases j payload phase exclusive now written with
      ⟨hsame, -⟩ | ⟨-, op, -, hops, hid, hstatus, hpayload⟩
    · rw [hsame] at h
      exact Or.inl h
    · rw [hops, mem_put] at h
      rcases h with ⟨hold, -⟩ | rfl
      · exact Or.inl hold
      · exact Or.inr
          (Or.inl ⟨payload, phase, exclusive, now, written, rfl, hid, hstatus, hpayload⟩)
  | change id call now written =>
    change o ∈ (j.change id call now written).1.ops at h
    rcases change_cases j id call now written with hsame | ⟨op, hmem, rfl, hstops, hput⟩
    · rw [hsame] at h
      exact Or.inl h
    · rw [hput, mem_put] at h
      rcases h with ⟨hold, -⟩ | rfl
      · exact Or.inl hold
      · exact Or.inr (Or.inr ⟨op, hmem, call, now, written, rfl, hstops, rfl⟩)
  | sweep now removes => exact Or.inl (List.mem_of_mem_filter h)

/-! ## Single flight -/

/-- Two entries in progress for one operation and key. -/
def Conflict (a b : InflightOp) : Prop :=
  a.status = .inProgress ∧ b.status = .inProgress ∧ a.payload.opName = b.payload.opName ∧
    a.payload.key = b.payload.key

theorem Conflict.symm {a b : InflightOp} (h : Conflict a b) : Conflict b a :=
  ⟨h.2.1, h.1, h.2.2.1.symm, h.2.2.2.symm⟩

instance : Std.Symm fun a b => ¬ Conflict a b := ⟨fun _ _ hab hba => hab hba.symm⟩

/-- No two entries of the journal are in conflict. -/
def Flying (j : Journal) : Prop := j.ops.Pairwise fun a b => ¬ Conflict a b

/-- What a passed gate says of the entries in progress. -/
theorem status_of_gate (hgate : beginGate j.ops payload exclusive = none) {o : InflightOp}
    (ho : o ∈ j.ops) (hflying : o.status = .inProgress) :
    ¬ (o.payload.opName = payload.opName ∧ o.payload.key = payload.key) ∧
    exclusive = false := by
  have hnone := List.findSome?_eq_none_iff.mp hgate o ho
  simp only [hflying, ne_eq, not_true_eq_false, if_false] at hnone
  by_cases hsame : o.payload.opName = payload.opName ∧ o.payload.key = payload.key
  · rw [if_pos hsame] at hnone
    cases hnone
  · refine ⟨hsame, ?_⟩
    rw [if_neg hsame] at hnone
    cases exclusive with
    | false => rfl
    | true => cases hnone

theorem Flying.put (h : Flying j) {op : InflightOp}
    (hop : ∀ o ∈ j.ops, o.id ≠ op.id → ¬ Conflict o op) : Flying (j.put op) := by
  unfold Flying Journal.put
  rw [List.pairwise_append]
  refine ⟨h.sublist List.filter_sublist, List.pairwise_singleton _ _, ?_⟩
  intro o ho op' hop'
  obtain rfl := List.mem_singleton.mp hop'
  obtain ⟨hmem, hid⟩ := mem_without.mp ho
  exact hop o hmem hid

/-- A call that writes an entry in progress has read one in progress. -/
theorem inProgress_of_write {call : JournalCall} {op : InflightOp}
    (h : (call.write op now).status = .inProgress) : op.status = .inProgress := by
  cases call with
  | updatePhase phase lastError => exact h
  | discharge => exact h
  | complete => cases h
  | abandon reason => cases h

theorem Flying.step (retention : ℤ) (h : Flying j) (s : JournalStep) :
    Flying (Journal.step retention j s) := by
  cases s with
  | begin payload phase exclusive now written =>
    rcases begin_cases j payload phase exclusive now written with
      ⟨hsame, -⟩ | ⟨hgate, op, -, hops, -, -, hpayload⟩
    · show List.Pairwise _ (j.begin payload phase exclusive now written).1.ops
      rw [hsame]
      exact h
    · show List.Pairwise _ (j.begin payload phase exclusive now written).1.ops
      rw [hops]
      refine h.put fun o ho _ hconflict => ?_
      refine (status_of_gate hgate ho hconflict.1).1 ⟨?_, ?_⟩
      · rw [hconflict.2.2.1, hpayload]
      · rw [hconflict.2.2.2, hpayload]
  | change id call now written =>
    rcases change_cases j id call now written with hsame | ⟨op, hmem, -, -, hput⟩
    · show Flying (j.change id call now written).1
      rw [hsame]
      exact h
    · show Flying (j.change id call now written).1
      rw [hput]
      refine h.put fun o ho hid hconflict => ?_
      -- the entry that was read would have been in conflict already
      have hbefore : Conflict o op := by
        refine ⟨hconflict.1, inProgress_of_write hconflict.2.1, ?_, ?_⟩
        · rw [hconflict.2.2.1, JournalCall.write_payload]
        · rw [hconflict.2.2.2, JournalCall.write_payload]
      have hne : o ≠ op := by
        rintro rfl
        exact hid (JournalCall.write_id call o now).symm
      exact List.Pairwise.forall h ho hmem hne hbefore
  | sweep now removes => exact h.sublist List.filter_sublist

theorem flying_after (retention : ℤ) (steps : List JournalStep) (h : Flying j) :
    Flying (j.after retention steps) := by
  induction steps generalizing j with
  | nil => exact h
  | cons s steps ih => exact ih (h.step retention s)

/-- The entries in progress of one operation and key. -/
def inFlight (j : Journal) (opName key : String) : List InflightOp :=
  j.ops.filter fun op =>
    op.status == .inProgress && op.payload.opName == opName && op.payload.key == key

theorem Flying.length_inFlight (h : Flying j) (opName key : String) :
    (j.inFlight opName key).length ≤ 1 := by
  have hpair : (j.inFlight opName key).Pairwise fun a b => ¬ Conflict a b :=
    h.sublist List.filter_sublist
  have hmem : ∀ op ∈ j.inFlight opName key, op.status = .inProgress ∧
      op.payload.opName = opName ∧ op.payload.key = key := by
    intro op hop
    have hcond := (List.mem_filter.mp hop).2
    simp only [Bool.and_eq_true, beq_iff_eq] at hcond
    exact ⟨hcond.1.1, hcond.1.2, hcond.2⟩
  match hl : j.inFlight opName key with
  | [] => simp
  | [a] => simp
  | a :: b :: rest =>
    rw [hl] at hpair hmem
    obtain ⟨ha, han, hak⟩ := hmem a (by simp)
    obtain ⟨hb, hbn, hbk⟩ := hmem b (by simp)
    have hnot := (List.pairwise_cons.mp hpair).1 b (by simp)
    exact absurd ⟨ha, hb, han.trans hbn.symm, hak.trans hbk.symm⟩ hnot

end Journal

/-! ## Keys -/

namespace InflightPayload

/-- The nodes a payload names, in the order of its fields. -/
def nodeIds : InflightPayload → List NodeId
  | handoff fromNodeId toNodeId _ _ _ => [fromNodeId, toNodeId]
  | followPrimary detachedNodeId _ newPrimaryNodeId _ => [detachedNodeId, newPrimaryNodeId]
  | recovery primaryNodeId standbyNodeId _ _ => [primaryNodeId, standbyNodeId]
  | promote nodeId _ => [nodeId]
  | allowAsync nodeId => [nodeId]

/-- The lease term of a promotion. -/
def leaseTerm : InflightPayload → Option UInt64
  | promote _ term => some term
  | _ => none

/-- Two numbers behind a common heading, with a text that begins with a comma between
them. -/
theorem pair_inj {heading sep : String} {cs : List Char} (hsep : sep.toList = ',' :: cs)
    {a a' : ℤ} {b b' : String} :
    heading ++ toString a ++ sep ++ b = heading ++ toString a' ++ sep ++ b' ↔
      a = a' ∧ b = b' := by
  have hcomma : ∀ n : ℤ, ',' ∉ (toString n).toList :=
    Decimal.notMem_toString (by decide) (by decide)
  rw [← Decimal.toString_inj (a := a), ← Decimal.append_sep_inj hsep (hcomma a) (hcomma a')]
  simp only [String.append_assoc, String.append_right_inj]

/-- Payloads of one kind have one key if and only if they name the same nodes and, for a
promotion, the same term. -/
theorem key_eq_iff {p q : InflightPayload} (h : p.opName = q.opName) :
    p.key = q.key ↔ p.nodeIds = q.nodeIds ∧ p.leaseTerm = q.leaseTerm := by
  cases p with
  | handoff a b =>
    cases q with
    | handoff a' b' =>
      refine (pair_inj rfl).trans ?_
      simp only [Decimal.toString_inj, nodeIds, leaseTerm, List.cons.injEq, and_true]
    | _ => simp [opName] at h
  | followPrimary a _ b =>
    cases q with
    | followPrimary a' _ b' =>
      refine (pair_inj rfl).trans ?_
      simp only [Decimal.toString_inj, nodeIds, leaseTerm, List.cons.injEq, and_true]
    | _ => simp [opName] at h
  | recovery a b =>
    cases q with
    | recovery a' b' =>
      refine (pair_inj rfl).trans ?_
      simp only [Decimal.toString_inj, nodeIds, leaseTerm, List.cons.injEq, and_true]
    | _ => simp [opName] at h
  | promote a term =>
    cases q with
    | promote a' term' =>
      refine (pair_inj rfl).trans ?_
      have hterm : toString term = toString term' ↔ term = term' :=
        ⟨fun heq => UInt64.toNat_inj.mp (Nat.repr_injective heq), fun heq => heq ▸ rfl⟩
      simp only [hterm, nodeIds, leaseTerm, List.cons.injEq, and_true, Option.some.injEq]
    | _ => simp [opName] at h
  | allowAsync a =>
    cases q with
    | allowAsync a' =>
      refine (String.append_right_inj "node=").trans ?_
      simp only [Decimal.toString_inj, nodeIds, leaseTerm, List.cons.injEq, and_true]
    | _ => simp [opName] at h

/-- Two promotions of one node under different terms are different operations. -/
theorem promotions_differ :
    (promote 0 1).opName = (promote 0 2).opName ∧
    (promote 0 1).nodeIds = (promote 0 2).nodeIds ∧
      (promote 0 1).key ≠ (promote 0 2).key := by
  refine ⟨rfl, rfl, fun h => ?_⟩
  obtain ⟨-, hterm⟩ := (key_eq_iff (p := promote 0 1) (q := promote 0 2) rfl).mp h
  exact absurd hterm (by decide)

end InflightPayload

/-- Single flight, **after every history of the store**: at most one entry is in progress for
an operation and key, an exclusive `begin` succeeds only when none is in progress at all, a
refused `begin` leaves the entries alone, and the key of a payload stands for the nodes it
names and the term it has. -/
theorem Journal.singleFlight (retention : ℤ) (steps : List JournalStep) :
    let j := Journal.empty.after retention steps
    (∀ opName key, (j.inFlight opName key).length ≤ 1) ∧
      (∀ payload phase now written op, (j.begin payload phase true now written).2 = .ok op →
        ∀ o ∈ j.ops, o.status ≠ .inProgress) ∧
      (∀ payload phase exclusive now written e,
        (j.begin payload phase exclusive now written).2 = .error e →
          (j.begin payload phase exclusive now written).1.ops = j.ops) ∧
      ∀ p q : InflightPayload, p.opName = q.opName →
        (p.key = q.key ↔ p.nodeIds = q.nodeIds ∧ p.leaseTerm = q.leaseTerm) := by
  intro j
  have hflying : Journal.Flying j := Journal.flying_after retention steps List.Pairwise.nil
  refine ⟨hflying.length_inFlight, ?_, ?_, fun p q => InflightPayload.key_eq_iff⟩
  · intro payload phase now written op hok o ho hprogress
    rcases Journal.begin_cases j payload phase true now written with ⟨-, e, he⟩ | ⟨hgate, -⟩
    · rw [hok] at he
      cases he
    · exact absurd (Journal.status_of_gate hgate ho hprogress).2 (by decide)
  · intro payload phase exclusive now written e he
    rcases Journal.begin_cases j payload phase exclusive now written with
      ⟨hsame, -⟩ | ⟨-, op, hok, -⟩
    · exact hsame
    · rw [he] at hok
      cases hok

end PgAgent
