import PgAgent.Library.Trace
import PgAgent.Raft.Storage

/-!
# The replicated state machine on disk

`RedbStateMachine`: the document in memory, its copy in the database, and the snapshot
built from either.  A batch of entries is applied in memory and persisted once at its
end; a reopened machine starts from the persisted copy; a snapshot carries the whole
encoded document, and installing it replaces the document and its copy.

Every replica must reach the same document from the same entries, however they were
batched and however often the process was restarted or replaced by a fresh one in
between.  `Holds` is the relation that carries this: the document in memory is the one
the entries so far determine, and the persisted copy decodes to it.  Each thing a replica
can do at a batch boundary keeps it (`Holds.step`), and `replicaRun_eq_apply` compares a
whole history with one batch on an empty store.
-/

namespace PgAgent
namespace Raft

variable {β : Type}

/-- The state machine: its document, and the counter that tells snapshots apart. -/
structure RedbStateMachine where
  data : StateMachineData
  snapshotIdx : ℕ
  deriving DecidableEq, Repr

/-- What one entry does to the document, and its reply. -/
def applyEntry (data : StateMachineData) (entry : Entry) : StateMachineData × CommandResponse :=
  let data := { data with lastApplied := some entry.logId }
  match entry.payload with
  | .blank => (data, .noop)
  | .normal cmd =>
      let result := applyCommand data.cluster cmd
      ({ data with cluster := result.1 }, result.2)
  | .membership membership =>
      ({ data with lastMembership := ⟨some entry.logId, membership⟩ }, .noop)

namespace RedbStateMachine

/-- Load the persisted document, or start empty. -/
def new (serde : Serde β) (db : Database β) : StorageResult RedbStateMachine :=
  match readMeta db .stateMachine with
  | some bytes => do
      let data ← serde.data.decode bytes
      pure ⟨data, 0⟩
  | none => .ok ⟨StateMachineData.default, 0⟩

def persist (serde : Serde β) (db : Database β) (sm : RedbStateMachine) : Database β :=
  writeMeta db .stateMachine (serde.data.encode sm.data)

/-- Apply a batch: entry after entry in memory, one durable write at the end. -/
def apply (serde : Serde β) (db : Database β) (sm : RedbStateMachine) (entries : List Entry) :
    Database β × RedbStateMachine × List CommandResponse :=
  let result := Trace.replay applyEntry sm.data entries
  let sm := { sm with data := result.1 }
  (persist serde db sm, sm, result.2)

/-- The machine with its counter bumped, and the builder: a copy of it. -/
def getSnapshotBuilder (sm : RedbStateMachine) : RedbStateMachine × RedbStateMachine :=
  let sm := { sm with snapshotIdx := sm.snapshotIdx + 1 }
  (sm, sm)

/-- Build a snapshot from a builder's own copy, and store it as the current one. -/
def buildSnapshot (serde : Serde β) (db : Database β) (builder : RedbStateMachine) :
    Database β × StoredSnapshot β :=
  let metadata : SnapshotMeta :=
    ⟨builder.data.lastApplied, builder.data.lastMembership,
      ⟨builder.data.lastApplied, builder.snapshotIdx⟩⟩
  let stored : StoredSnapshot β := ⟨metadata, serde.data.encode builder.data⟩
  (writeMeta db .snapshot (serde.snapshot.encode stored), stored)

/-- Replace the document by a received one, and store the snapshot it came in. -/
def installSnapshot (serde : Serde β) (db : Database β) (sm : RedbStateMachine)
    (metadata : SnapshotMeta) (bytes : β) : StorageResult (Database β × RedbStateMachine) := do
  let data ← serde.data.decode bytes
  let sm := { sm with data := data }
  let db := persist serde db sm
  pure (writeMeta db .snapshot (serde.snapshot.encode ⟨metadata, bytes⟩), sm)

def getCurrentSnapshot (serde : Serde β) (db : Database β) :
    StorageResult (Option (StoredSnapshot β)) :=
  match readMeta db .snapshot with
  | none => .ok none
  | some bytes => do
      let stored ← serde.snapshot.decode bytes
      pure (some stored)

end RedbStateMachine

/-- `ClusterStateReader::read`: the applied document, read back from the file. -/
def ClusterStateReader.read (serde : Serde β) (db : Database β) : StorageResult ClusterState :=
  match readMeta db .stateMachine with
  | some bytes => do
      let data ← serde.data.decode bytes
      pure data.cluster
  | none => .ok ClusterState.default

/-! ## Histories of a replica -/

/-- A state machine over its database. -/
structure Replica (β : Type) where
  db : Database β
  machine : RedbStateMachine

/-- What can happen to a replica at a batch boundary. -/
inductive ReplicaStep where
  /-- A batch is applied. -/
  | apply (entries : List Entry)
  /-- The process restarts and reopens the database. -/
  | reopen
  /-- A snapshot is built; the replica goes on. -/
  | snapshot
  /-- A snapshot is built and installed on a fresh replica, which goes on instead. -/
  | transfer
  deriving DecidableEq, Repr

/-- The entries a step applies. -/
def ReplicaStep.entries : ReplicaStep → List Entry
  | .apply entries => entries
  | .reopen | .snapshot | .transfer => []

namespace Replica

/-- A replica on a new database. -/
def fresh (serde : Serde β) : StorageResult (Replica β) := do
  let machine ← RedbStateMachine.new serde Database.empty
  pure ⟨Database.empty, machine⟩

def step (serde : Serde β) (r : Replica β) :
    ReplicaStep → StorageResult (Replica β × List CommandResponse)
  | .apply entries =>
      let (db, machine, responses) := RedbStateMachine.apply serde r.db r.machine entries
      .ok (⟨db, machine⟩, responses)
  | .reopen => do
      let machine ← RedbStateMachine.new serde r.db
      pure (⟨r.db, machine⟩, [])
  | .snapshot =>
      let (machine, builder) := r.machine.getSnapshotBuilder
      let (db, _) := RedbStateMachine.buildSnapshot serde r.db builder
      .ok (⟨db, machine⟩, [])
  | .transfer => do
      let (_, builder) := r.machine.getSnapshotBuilder
      let (_, snapshot) := RedbStateMachine.buildSnapshot serde r.db builder
      let target ← fresh serde
      let (db, machine) ← RedbStateMachine.installSnapshot serde target.db target.machine
        snapshot.metadata snapshot.data
      pure (⟨db, machine⟩, [])

/-- The replica after a history, and the replies to all entries applied in it. -/
def run (serde : Serde β) (r : Replica β) :
    List ReplicaStep → StorageResult (Replica β × List CommandResponse)
  | [] => .ok (r, [])
  | s :: rest => do
      let (r', responses) ← r.step serde s
      let (r'', later) ← run serde r' rest
      pure (r'', responses ++ later)

/-- A history from a new database. -/
def history (serde : Serde β) (steps : List ReplicaStep) :
    StorageResult (Replica β × List CommandResponse) := do
  let r ← fresh serde
  r.run serde steps

end Replica

/-! ## Every step keeps the document -/

/-- The replica holds the document `d`, in memory and on disk.  A database without a
record stands for the empty document. -/
structure Holds (serde : Serde β) (r : Replica β) (d : StateMachineData) : Prop where
  memory : r.machine.data = d
  disk : readMeta r.db .stateMachine = some (serde.data.encode d) ∨
    readMeta r.db .stateMachine = none ∧ d = StateMachineData.default

variable {serde : Serde β} {r : Replica β} {d : StateMachineData}

theorem Holds.new (h : Holds serde r d) :
    RedbStateMachine.new serde r.db = .ok ⟨d, 0⟩ := by
  rcases h.disk with hd | ⟨hd, rfl⟩
  · rw [RedbStateMachine.new, hd]
    show (serde.data.decode (serde.data.encode d) >>= _) = _
    rw [Codec.decode_encode]
    rfl
  · rw [RedbStateMachine.new, hd]

theorem Holds.read (h : Holds serde r d) :
    ClusterStateReader.read serde r.db = .ok d.cluster := by
  rcases h.disk with hd | ⟨hd, rfl⟩
  · rw [ClusterStateReader.read, hd]
    show (serde.data.decode (serde.data.encode d) >>= _) = _
    rw [Codec.decode_encode]
    rfl
  · rw [ClusterStateReader.read, hd]
    rfl

theorem fresh_eq (serde : Serde β) :
    Replica.fresh serde = .ok ⟨Database.empty, ⟨StateMachineData.default, 0⟩⟩ := rfl

theorem holds_fresh (serde : Serde β) :
    Holds serde ⟨Database.empty, ⟨StateMachineData.default, 0⟩⟩
      StateMachineData.default where
  memory := rfl
  disk := Or.inr ⟨rfl, rfl⟩

/-- Building a snapshot leaves the persisted document alone. -/
theorem readMeta_buildSnapshot (serde : Serde β) (db : Database β) (builder : RedbStateMachine) :
    readMeta (RedbStateMachine.buildSnapshot serde db builder).1 .stateMachine =
      readMeta db .stateMachine :=
  readMeta_writeMeta_of_ne db _ (by decide)

/-- Installing the encoding of a document succeeds and replaces the document by it. -/
theorem installSnapshot_encode (serde : Serde β) (db : Database β) (sm : RedbStateMachine)
    (metadata : SnapshotMeta) (d : StateMachineData) :
    RedbStateMachine.installSnapshot serde db sm metadata (serde.data.encode d) =
      .ok (writeMeta (RedbStateMachine.persist serde db { sm with data := d }) .snapshot
        (serde.snapshot.encode ⟨metadata, serde.data.encode d⟩), { sm with data := d }) := by
  rw [RedbStateMachine.installSnapshot, Codec.decode_encode]
  rfl

/-- A step succeeds, answers what the entries determine, and leaves the document the
entries determine. -/
theorem Holds.step (h : Holds serde r d) (s : ReplicaStep) :
    ∃ r', r.step serde s = .ok (r', (Trace.replay applyEntry d s.entries).2) ∧
      Holds serde r' (Trace.replay applyEntry d s.entries).1 := by
  cases s with
  | apply entries =>
    obtain ⟨rfl, -⟩ := h
    exact ⟨_, rfl, rfl, Or.inl (readMeta_writeMeta _ _ _)⟩
  | reopen =>
    refine ⟨⟨r.db, ⟨d, 0⟩⟩, ?_, rfl, h.disk⟩
    rw [Replica.step, h.new]
    rfl
  | snapshot =>
    refine ⟨⟨(RedbStateMachine.buildSnapshot serde r.db r.machine.getSnapshotBuilder.2).1,
      r.machine.getSnapshotBuilder.1⟩, rfl, h.memory, ?_⟩
    rw [readMeta_buildSnapshot]
    exact h.disk
  | transfer =>
    obtain ⟨rfl, -⟩ := h
    -- the fresh machine decodes the very bytes the builder encoded
    refine ⟨⟨writeMeta (RedbStateMachine.persist serde Database.empty ⟨r.machine.data, 0⟩)
      .snapshot (serde.snapshot.encode
        (RedbStateMachine.buildSnapshot serde r.db r.machine.getSnapshotBuilder.2).2),
      ⟨r.machine.data, 0⟩⟩, ?_, rfl, Or.inl ?_⟩
    · rw [Replica.step, fresh_eq]
      show (RedbStateMachine.installSnapshot serde Database.empty ⟨StateMachineData.default, 0⟩
        _ (serde.data.encode r.machine.data) >>= _) = _
      rw [installSnapshot_encode]
      rfl
    · rw [readMeta_writeMeta_of_ne _ _ (by decide)]
      exact readMeta_writeMeta _ _ _

theorem Holds.run (h : Holds serde r d) (steps : List ReplicaStep) :
    ∃ r', r.run serde steps =
        .ok (r', (Trace.replay applyEntry d (steps.flatMap ReplicaStep.entries)).2) ∧
      Holds serde r' (Trace.replay applyEntry d (steps.flatMap ReplicaStep.entries)).1 := by
  induction steps generalizing r d with
  | nil => exact ⟨r, rfl, h⟩
  | cons s steps ih =>
    obtain ⟨r₁, hs, h₁⟩ := h.step s
    obtain ⟨r₂, hrun, h₂⟩ := ih h₁
    refine ⟨r₂, ?_, ?_⟩
    · rw [Replica.run, hs, List.flatMap_cons, Trace.replay_append]
      show (r₁.run serde steps >>= _) = _
      rw [hrun]
      rfl
    · rw [List.flatMap_cons, Trace.replay_append]
      exact h₂

/-- Replay is deterministic: **a history of batches, restarts and snapshot transfers ends as one
batch does**: it succeeds, with the document and the replies of applying all its entries at once on
an empty store. -/
theorem replicaRun_eq_apply (serde : Serde β) (steps : List ReplicaStep) :
    ∃ r once responses,
      Replica.history serde steps = .ok (r, responses) ∧
      Replica.history serde [.apply (steps.flatMap ReplicaStep.entries)] =
        .ok (once, responses) ∧
      r.machine.data = once.machine.data ∧
      RedbStateMachine.new serde r.db = .ok ⟨once.machine.data, 0⟩ := by
  obtain ⟨r, hrun, hr⟩ := (holds_fresh serde).run steps
  obtain ⟨once, honce, h₁⟩ :=
    (holds_fresh serde).run [.apply (steps.flatMap ReplicaStep.entries)]
  rw [List.flatMap_singleton] at honce h₁
  refine ⟨r, once, _, hrun, honce, ?_, ?_⟩
  · rw [hr.memory, h₁.memory]
    rfl
  · rw [hr.new, h₁.memory]
    rfl

end Raft
end PgAgent
