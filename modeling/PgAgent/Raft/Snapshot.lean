import PgAgent.Raft.LogStore
import PgAgent.Raft.StateMachine

/-!
# The stored snapshot and the purge point

A snapshot builder is a copy of the state machine, taken at one time and run at a later
one.  In between, entries are applied, a newer snapshot may be installed, and the log
below it may be purged.  `build_snapshot` then writes the record of the current snapshot
without looking at what it replaces.

`SnapshotSystem` interleaves these operations freely: builders stay available after they
were taken, and a purge decided against one snapshot may run at any later time.  A step is
`Forward` when what it stores as the current snapshot is not older than what it replaces.
`storedSnapshot_monotone_iff` says that this is exactly what the stored snapshot needs:
along a run it never regresses, and never falls below the purge point, if and only if
every step was `Forward`.
-/

namespace PgAgent
namespace Raft

variable {β : Type}

/-- The last log id of the current snapshot; absent when there is no snapshot. -/
def currentLogId (serde : Serde β) (db : Database β) : StorageResult (Option LogId) := do
  let snapshot ← RedbStateMachine.getCurrentSnapshot serde db
  pure (snapshot.bind fun s => s.metadata.lastLogId)

theorem currentLogId_writeMeta (serde : Serde β) (db : Database β) (stored : StoredSnapshot β) :
    currentLogId serde (writeMeta db .snapshot (serde.snapshot.encode stored)) =
      .ok stored.metadata.lastLogId := by
  rw [currentLogId, RedbStateMachine.getCurrentSnapshot, readMeta_writeMeta]
  show ((serde.snapshot.decode (serde.snapshot.encode stored) >>= _) >>= _) = _
  rw [Codec.decode_encode]
  rfl

/-- The current snapshot is what its own record says, whatever else was written. -/
theorem currentLogId_congr (serde : Serde β) {db db' : Database β}
    (h : readMeta db' .snapshot = readMeta db .snapshot) :
    currentLogId serde db' = currentLogId serde db := by
  rw [currentLogId, currentLogId, RedbStateMachine.getCurrentSnapshot,
    RedbStateMachine.getCurrentSnapshot, h]

theorem lastPurged_congr (serde : Serde β) {db db' : Database β}
    (h : readMeta db' .lastPurged = readMeta db .lastPurged) :
    RedbLogStore.lastPurged serde db' = RedbLogStore.lastPurged serde db := by
  rw [RedbLogStore.lastPurged, RedbLogStore.lastPurged, h]

/-! ## Interleavings -/

/-- A node's storage, with the builders taken and the purges decided so far. -/
structure SnapshotSystem (β : Type) where
  db : Database β
  machine : RedbStateMachine
  builders : List RedbStateMachine
  decided : List LogId

inductive SnapshotStep (β : Type) where
  | getSnapshotBuilder
  /-- Build on the builder taken at position `n`, which stays available. -/
  | buildSnapshot (n : ℕ)
  | apply (entries : List Entry)
  | installSnapshot (metadata : SnapshotMeta) (bytes : β)
  /-- The engine decides to purge up to an id that the current snapshot covers. -/
  | decidePurge (logId : LogId)
  /-- The purge decided at position `n` runs. -/
  | purge (n : ℕ)

namespace SnapshotSystem

/-- A node on a new database. -/
def init : SnapshotSystem β := ⟨Database.empty, ⟨StateMachineData.default, 0⟩, [], []⟩

/-- The current snapshot covers the log up to `logId`. -/
def covers (serde : Serde β) (db : Database β) (logId : LogId) : Bool :=
  match currentLogId serde db with
  | .ok id => logIdLe (some logId) id
  | .error _ => false

/-- One operation.  A step that names no builder or no decided purge, a purge decision the
snapshot does not cover, and an install that fails to decode change nothing. -/
def step (serde : Serde β) (w : SnapshotSystem β) : SnapshotStep β → SnapshotSystem β
  | .getSnapshotBuilder =>
      let (machine, builder) := w.machine.getSnapshotBuilder
      { w with machine := machine, builders := w.builders ++ [builder] }
  | .buildSnapshot n =>
      match w.builders[n]? with
      | some builder => { w with db := (RedbStateMachine.buildSnapshot serde w.db builder).1 }
      | none => w
  | .apply entries =>
      let (db, machine, _) := RedbStateMachine.apply serde w.db w.machine entries
      { w with db := db, machine := machine }
  | .installSnapshot metadata bytes =>
      match RedbStateMachine.installSnapshot serde w.db w.machine metadata bytes with
      | .ok (db, machine) => { w with db := db, machine := machine }
      | .error _ => w
  | .decidePurge logId =>
      if covers serde w.db logId then { w with decided := w.decided ++ [logId] } else w
  | .purge n =>
      match w.decided[n]? with
      | some logId => { w with db := RedbLogStore.purge serde w.db logId }
      | none => w

/-- The system before step `k`. -/
def stateAt (serde : Serde β) (u : ℕ → SnapshotStep β) (k : ℕ) : SnapshotSystem β :=
  Trace.stateAt (step serde) init u k

/-- The snapshot record a step writes, if it writes one. -/
def stores (serde : Serde β) (w : SnapshotSystem β) :
    SnapshotStep β → Option (StoredSnapshot β)
  | .buildSnapshot n =>
      (w.builders[n]?).map fun builder => (RedbStateMachine.buildSnapshot serde w.db builder).2
  | .installSnapshot metadata bytes =>
      match serde.data.decode bytes with
      | .ok _ => some ⟨metadata, bytes⟩
      | .error _ => none
  | _ => none

/-- What a step stores as the current snapshot is not older than the one it replaces: a
build runs on a builder that has applied at least as much, an install brings a snapshot
that covers at least as much. -/
def Forward (serde : Serde β) (w : SnapshotSystem β) (s : SnapshotStep β) : Prop :=
  match s with
  | .buildSnapshot n => ∀ builder, w.builders[n]? = some builder →
      ∀ id, currentLogId serde w.db = .ok id → logIdLe id builder.data.lastApplied = true
  | .installSnapshot metadata bytes => (∃ d, serde.data.decode bytes = .ok d) →
      ∀ id, currentLogId serde w.db = .ok id → logIdLe id metadata.lastLogId = true
  | _ => True

/-! ## What a step does to the two records -/

variable {serde : Serde β} {w : SnapshotSystem β}

theorem step_snapshot (serde : Serde β) (w : SnapshotSystem β) (s : SnapshotStep β) :
    currentLogId serde (w.step serde s).db =
      match w.stores serde s with
      | some stored => .ok stored.metadata.lastLogId
      | none => currentLogId serde w.db := by
  cases s with
  | getSnapshotBuilder => rfl
  | buildSnapshot n =>
    cases hb : w.builders[n]? with
    | none => simp [step, stores, hb]
    | some builder =>
      simp only [step, stores, hb, Option.map_some]
      exact currentLogId_writeMeta serde w.db _
  | apply entries => exact currentLogId_congr serde (readMeta_writeMeta_of_ne _ _ (by decide))
  | installSnapshot metadata bytes =>
    cases hd : serde.data.decode bytes with
    | error e =>
      simp only [step, stores, RedbStateMachine.installSnapshot, hd]
      rfl
    | ok d =>
      simp only [step, stores, RedbStateMachine.installSnapshot, hd]
      exact currentLogId_writeMeta serde _ _
  | decidePurge logId =>
    simp only [step, stores]
    split <;> rfl
  | purge n =>
    cases hp : w.decided[n]? with
    | none => simp [step, stores, hp]
    | some logId =>
      simp only [step, stores, hp]
      exact currentLogId_congr serde
        (RedbLogStore.readMeta_purge_of_ne serde w.db logId (by decide))

/-- A step purges a decided id or leaves the purge point alone. -/
theorem step_purged (serde : Serde β) (w : SnapshotSystem β) (s : SnapshotStep β) :
    RedbLogStore.lastPurged serde (w.step serde s).db = RedbLogStore.lastPurged serde w.db ∨
      ∃ logId ∈ w.decided,
        RedbLogStore.lastPurged serde (w.step serde s).db = .ok (some logId) := by
  cases s with
  | getSnapshotBuilder => exact Or.inl rfl
  | buildSnapshot n =>
    refine Or.inl ?_
    cases hb : w.builders[n]? with
    | none => simp [step, hb]
    | some builder =>
      simp only [step, hb]
      exact lastPurged_congr serde (readMeta_writeMeta_of_ne _ _ (by decide))
  | apply entries =>
    exact Or.inl (lastPurged_congr serde (readMeta_writeMeta_of_ne _ _ (by decide)))
  | installSnapshot metadata bytes =>
    refine Or.inl ?_
    cases hd : serde.data.decode bytes with
    | error e =>
      simp only [step, RedbStateMachine.installSnapshot, hd]
      rfl
    | ok d =>
      simp only [step, RedbStateMachine.installSnapshot, hd]
      refine lastPurged_congr serde ?_
      show readMeta (writeMeta (writeMeta w.db .stateMachine _) .snapshot _) .lastPurged = _
      rw [readMeta_writeMeta_of_ne _ _ (by decide), readMeta_writeMeta_of_ne _ _ (by decide)]
  | decidePurge logId =>
    refine Or.inl ?_
    simp only [step]
    split <;> rfl
  | purge n =>
    cases hp : w.decided[n]? with
    | none => exact Or.inl (by simp [step, hp])
    | some logId =>
      refine Or.inr ⟨logId, List.mem_of_getElem? hp, ?_⟩
      simp only [step, hp]
      exact RedbLogStore.lastPurged_purge serde w.db logId

/-- A purge newly decided is covered by the snapshot current at that step. -/
theorem step_decided (serde : Serde β) (w : SnapshotSystem β) (s : SnapshotStep β) :
    ∀ logId ∈ (w.step serde s).decided, logId ∈ w.decided ∨
      covers serde w.db logId = true := by
  intro logId hmem
  cases s with
  | getSnapshotBuilder => exact Or.inl hmem
  | buildSnapshot n =>
    simp only [step] at hmem
    split at hmem <;> exact Or.inl hmem
  | apply entries => exact Or.inl hmem
  | installSnapshot metadata bytes =>
    simp only [step] at hmem
    split at hmem <;> exact Or.inl hmem
  | decidePurge id =>
    simp only [step] at hmem
    split at hmem
    · rename_i hcov
      rcases List.mem_append.mp hmem with hold | hnew
      · exact Or.inl hold
      · exact Or.inr (List.mem_singleton.mp hnew ▸ hcov)
    · exact Or.inl hmem
  | purge n =>
    simp only [step] at hmem
    split at hmem <;> exact Or.inl hmem

/-- `Forward` reads the record a step stores. -/
theorem forward_iff {s : SnapshotStep β} :
    w.Forward serde s ↔ ∀ stored, w.stores serde s = some stored →
      ∀ id, currentLogId serde w.db = .ok id →
        logIdLe id stored.metadata.lastLogId = true := by
  cases s with
  | buildSnapshot n =>
    simp only [Forward, stores, Option.map_eq_some_iff]
    constructor
    · rintro h stored ⟨builder, hb, rfl⟩
      exact h builder hb
    · intro h builder hb
      exact h _ ⟨builder, hb, rfl⟩
  | installSnapshot metadata bytes =>
    cases hd : serde.data.decode bytes with
    | error e => simp [Forward, stores, hd]
    | ok d =>
      simp only [Forward, stores, hd, Option.some.injEq]
      constructor
      · rintro h stored rfl
        exact h ⟨d, rfl⟩
      · intro h _
        exact h _ rfl
  | getSnapshotBuilder => simp [Forward, stores]
  | apply entries => simp [Forward, stores]
  | decidePurge logId => simp [Forward, stores]
  | purge n => simp [Forward, stores]

/-- Both records can be read. -/
def Readable (serde : Serde β) (w : SnapshotSystem β) : Prop :=
  (∃ id, currentLogId serde w.db = .ok id) ∧ ∃ p, RedbLogStore.lastPurged serde w.db = .ok p

theorem Readable.step (h : Readable serde w) (s : SnapshotStep β) :
    Readable serde (w.step serde s) := by
  refine ⟨?_, ?_⟩
  · rw [step_snapshot]
    cases w.stores serde s with
    | some stored => exact ⟨_, rfl⟩
    | none => exact h.1
  · rcases step_purged serde w s with hp | ⟨logId, -, hp⟩
    · rw [hp]
      exact h.2
    · exact ⟨_, hp⟩

/-- The current snapshot covers every purge decided or done. -/
def Covered (serde : Serde β) (w : SnapshotSystem β) : Prop :=
  ∀ id, currentLogId serde w.db = .ok id →
    (∀ logId ∈ w.decided, logIdLe (some logId) id = true) ∧
      ∀ p, RedbLogStore.lastPurged serde w.db = .ok p → logIdLe p id = true

/-- A forward step does not take the current snapshot back. -/
theorem le_of_forward {s : SnapshotStep β} (hf : w.Forward serde s) {id id' : Option LogId}
    (hid : currentLogId serde w.db = .ok id)
    (hid' : currentLogId serde (w.step serde s).db = .ok id') : logIdLe id id' = true := by
  rw [step_snapshot] at hid'
  cases hs : w.stores serde s with
  | some stored =>
    rw [hs] at hid'
    rw [← Except.ok.inj hid']
    exact forward_iff.mp hf stored hs id hid
  | none =>
    rw [hs] at hid'
    rw [← Except.ok.inj (hid.symm.trans hid')]
    exact logIdLe_refl id

theorem Covered.step (hr : Readable serde w) (h : Covered serde w) {s : SnapshotStep β}
    (hf : w.Forward serde s) : Covered serde (w.step serde s) := by
  obtain ⟨id, hid⟩ := hr.1
  obtain ⟨hdec, hpur⟩ := h id hid
  intro id' hid'
  have hle := le_of_forward hf hid hid'
  refine ⟨fun logId hmem => ?_, fun p hp => ?_⟩
  · rcases step_decided serde w s logId hmem with hold | hcov
    · exact logIdLe_trans (hdec logId hold) hle
    · rw [covers, hid] at hcov
      exact logIdLe_trans hcov hle
  · rcases step_purged serde w s with hkeep | ⟨logId, hmem, hnew⟩
    · exact logIdLe_trans (hpur p (hkeep ▸ hp)) hle
    · rw [← Except.ok.inj (hnew.symm.trans hp)]
      exact logIdLe_trans (hdec logId hmem) hle

/-! ## Along a run -/

/-- What the storage promises the engine along a run: the current snapshot and the purge
point can always be read, the snapshot never gets older, and it always covers what was
purged. -/
def NeverRegresses (serde : Serde β) (u : ℕ → SnapshotStep β) : Prop :=
  ∀ k, ∃ id id' p, currentLogId serde (stateAt serde u k).db = .ok id ∧
    currentLogId serde (stateAt serde u (k + 1)).db = .ok id' ∧
    RedbLogStore.lastPurged serde (stateAt serde u k).db = .ok p ∧
    logIdLe id id' = true ∧ logIdLe p id = true

theorem stateAt_succ (serde : Serde β) (u : ℕ → SnapshotStep β) (k : ℕ) :
    stateAt serde u (k + 1) = (stateAt serde u k).step serde (u k) := rfl

theorem readable_stateAt (serde : Serde β) (u : ℕ → SnapshotStep β) (k : ℕ) :
    Readable serde (stateAt serde u k) := by
  induction k with
  | zero => exact ⟨⟨none, rfl⟩, ⟨none, rfl⟩⟩
  | succ k ih => exact ih.step (u k)

theorem covered_stateAt {u : ℕ → SnapshotStep β}
    (hf : ∀ k, (stateAt serde u k).Forward serde (u k)) (k : ℕ) :
    Covered serde (stateAt serde u k) := by
  induction k with
  | zero =>
    rintro id -
    refine ⟨fun logId hmem => absurd hmem List.not_mem_nil, fun p hp => ?_⟩
    rw [← Except.ok.inj hp]
    rfl
  | succ k ih => exact ih.step (readable_stateAt serde u k) (hf k)

/-- The stored snapshot: **it never regresses, and never falls below the purge point,
exactly in the runs whose builds and installs are all forward**. -/
theorem storedSnapshot_monotone_iff (serde : Serde β) (u : ℕ → SnapshotStep β) :
    NeverRegresses serde u ↔ ∀ k, (stateAt serde u k).Forward serde (u k) := by
  constructor
  · intro h k
    obtain ⟨id, id', -, hid, hid', -, hle, -⟩ := h k
    refine forward_iff.mpr fun stored hs id₀ hid₀ => ?_
    rw [stateAt_succ, step_snapshot, hs] at hid'
    rw [Except.ok.inj hid', ← Except.ok.inj (hid.symm.trans hid₀)]
    exact hle
  · intro hf k
    obtain ⟨⟨id, hid⟩, ⟨p, hp⟩⟩ := readable_stateAt serde u k
    obtain ⟨⟨id', hid'⟩, -⟩ := readable_stateAt serde u (k + 1)
    exact ⟨id, id', p, hid, hid', hp, le_of_forward (hf k) hid hid',
      (covered_stateAt hf k id hid).2 p hp⟩

/-- A builder is taken at entry 1, a snapshot up to entry 5 is installed and the log below
it purged, and then the builder runs. -/
def lateBuild : ℕ → SnapshotStep Document := fun k =>
  [.apply [⟨⟨⟨1, 0⟩, 1⟩, .blank⟩],
    .getSnapshotBuilder,
    .installSnapshot ⟨some ⟨⟨1, 0⟩, 5⟩, StoredMembership.default,
      ⟨some ⟨⟨1, 0⟩, 5⟩, 1⟩⟩
      (.data ⟨some ⟨⟨1, 0⟩, 5⟩, StoredMembership.default, ClusterState.default⟩),
    .decidePurge ⟨⟨1, 0⟩, 5⟩,
    .purge 0,
    .buildSnapshot 0].getD k .getSnapshotBuilder

/-- The late build takes the stored snapshot back to entry 1, with the log purged up to
entry 5. -/
theorem lateBuild_regresses : ¬ NeverRegresses Serde.tagged lateBuild := by
  intro h
  obtain ⟨id, id', -, hid, hid', -, hle, -⟩ := h 5
  have h5 : currentLogId Serde.tagged (stateAt Serde.tagged lateBuild 5).db =
      .ok (some ⟨⟨1, 0⟩, 5⟩) := rfl
  have h6 : currentLogId Serde.tagged (stateAt Serde.tagged lateBuild 6).db =
      .ok (some ⟨⟨1, 0⟩, 1⟩) := rfl
  rw [← Except.ok.inj (h5.symm.trans hid), ← Except.ok.inj (h6.symm.trans hid')] at hle
  revert hle
  decide

end SnapshotSystem
end Raft
end PgAgent
