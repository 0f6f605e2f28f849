import Mathlib.Data.Prod.Lex
import PgAgent.Consensus.Command
import PgAgent.Library.OrderedTable

/-!
# What the consensus engine stores

The data types of openraft that `raftstore.rs` writes and reads --- log ids, entries,
stored membership, snapshot metadata --- and the redb file under them: one table of log
entries keyed by index, and one table of named records.

* **Counters are natural numbers.**  Indexes, terms and Raft node ids are `u64` values the
  storage layer compares and never computes with.
* **Bytes are a parameter.**  Everything goes to disk through `serde_json`.  A `Codec`
  carries the one fact the code relies on, that decoding an encoded value gives the value
  back, so the type of encoded values stays abstract.
* **Transactions are atomic.**  A write transaction of redb is one function on the
  database.
-/

namespace PgAgent
namespace Raft

/-! ## Log ids and entries -/

/-- The leader that proposed an entry: its term and its Raft node id. -/
structure LeaderId where
  term : ℕ
  nodeId : ℕ
  deriving DecidableEq, Repr

/-- The identity of a log entry. -/
structure LogId where
  leaderId : LeaderId
  index : ℕ
  deriving DecidableEq, Repr

/-- The fields of a log id in the order in which openraft compares them. -/
def LogId.key (l : LogId) : ℕ ×ₗ ℕ ×ₗ ℕ :=
  toLex (l.leaderId.term, toLex (l.leaderId.nodeId, l.index))

theorem LogId.key_injective : Function.Injective LogId.key := by
  rintro ⟨⟨t, n⟩, i⟩ ⟨⟨t', n'⟩, i'⟩ h
  have h₁ := toLex.injective h
  obtain ⟨rfl, h₂⟩ := Prod.mk.inj h₁
  have h₃ := toLex.injective h₂
  obtain ⟨rfl, rfl⟩ := Prod.mk.inj h₃
  rfl

instance : LinearOrder LogId := LinearOrder.lift' LogId.key LogId.key_injective

/-- Optional log ids in the order of the source, where an absent id is below every id. -/
def logIdLe : Option LogId → Option LogId → Bool
  | none, _ => true
  | some _, none => false
  | some a, some b => decide (a ≤ b)

theorem logIdLe_refl (a : Option LogId) : logIdLe a a = true := by
  cases a <;> simp [logIdLe]

theorem logIdLe_trans {a b c : Option LogId} (hab : logIdLe a b = true)
    (hbc : logIdLe b c = true) : logIdLe a c = true := by
  cases a with
  | none => rfl
  | some a =>
    cases b with
    | none => cases hab
    | some b =>
      cases c with
      | none => cases hbc
      | some c =>
        simp only [logIdLe, decide_eq_true_eq] at hab hbc ⊢
        exact le_trans hab hbc

/-- A membership change: the joint configurations, and the address of every node. -/
structure Membership where
  configs : List (List ℕ)
  nodes : List (ℕ × String)
  deriving DecidableEq, Repr

/-- The membership a state machine remembers, with the entry that set it. -/
structure StoredMembership where
  logId : Option LogId
  membership : Membership
  deriving DecidableEq, Repr

/-- `StoredMembership::default`. -/
protected def StoredMembership.default : StoredMembership := ⟨none, ⟨[], []⟩⟩

/-- What an entry carries: nothing, a command, or a membership change. -/
inductive EntryPayload where
  | blank
  | normal (command : ConsensusCommand)
  | membership (membership : Membership)
  deriving DecidableEq, Repr

structure Entry where
  logId : LogId
  payload : EntryPayload
  deriving DecidableEq, Repr

/-! ## The state machine's document and its snapshots -/

/-- Everything the state machine holds, as one document. -/
structure StateMachineData where
  lastApplied : Option LogId
  lastMembership : StoredMembership
  cluster : ClusterState
  deriving DecidableEq, Repr

/-- `StateMachineData::default`. -/
protected def StateMachineData.default : StateMachineData :=
  ⟨none, StoredMembership.default, ClusterState.default⟩

/-- The three values the source prints into a snapshot's id. -/
structure SnapshotId where
  lastApplied : Option LogId
  snapshotIdx : ℕ
  deriving DecidableEq, Repr

structure SnapshotMeta where
  lastLogId : Option LogId
  lastMembership : StoredMembership
  snapshotId : SnapshotId
  deriving DecidableEq, Repr

/-- A snapshot: its metadata and the encoded document. -/
structure StoredSnapshot (β : Type) where
  metadata : SnapshotMeta
  data : β
  deriving DecidableEq, Repr

/-! ## The file -/

/-- The error of `io_read`: what was read does not decode. -/
inductive StorageError where
  | read
  deriving DecidableEq, Repr

abbrev StorageResult (α : Type) := Except StorageError α

/-- An encoding of the values of `α` that can be read back. -/
structure Codec (α β : Type) where
  encode : α → β
  decode : β → StorageResult α
  /-- What was encoded decodes to itself. -/
  decode_encode : ∀ a, decode (encode a) = .ok a

attribute [simp] Codec.decode_encode

/-- The encodings of everything that reaches the disk. -/
structure Serde (β : Type) where
  entry : Codec Entry β
  lastPurged : Codec (Option LogId) β
  data : Codec StateMachineData β
  snapshot : Codec (StoredSnapshot β) β

/-- Encoded values that keep their type as a tag, in the way a JSON document keeps its
field names: decoding as another type fails. -/
inductive Document where
  | entry (e : Entry)
  | lastPurged (id : Option LogId)
  | data (d : StateMachineData)
  | snapshot (metadata : SnapshotMeta) (data : Document)
  deriving DecidableEq, Repr

/-- The encoding into tagged documents. -/
def Serde.tagged : Serde Document where
  entry := ⟨.entry, fun | .entry e => .ok e | _ => .error .read, fun _ => rfl⟩
  lastPurged := ⟨.lastPurged, fun | .lastPurged id => .ok id | _ => .error .read, fun _ => rfl⟩
  data := ⟨.data, fun | .data d => .ok d | _ => .error .read, fun _ => rfl⟩
  snapshot := ⟨fun s => .snapshot s.metadata s.data,
    fun | .snapshot m d => .ok ⟨m, d⟩ | _ => .error .read, fun _ => rfl⟩

/-- The named records that the log store and the state machine share a file for. -/
inductive MetaKey where
  | lastPurged
  | stateMachine
  | snapshot
  deriving DecidableEq, Repr

/-- The redb file: the log table and the table of named records. -/
structure Database (β : Type) where
  logs : OrderedTable ℕ β
  records : MetaKey → Option β

variable {β : Type}

/-- A database that was just created. -/
def Database.empty : Database β := ⟨OrderedTable.empty, fun _ => none⟩

def readMeta (db : Database β) (key : MetaKey) : Option β := db.records key

def writeMeta (db : Database β) (key : MetaKey) (value : β) : Database β :=
  { db with records := Function.update db.records key (some value) }

@[simp] theorem readMeta_empty (key : MetaKey) :
    readMeta (Database.empty : Database β) key = none := rfl

@[simp] theorem readMeta_writeMeta (db : Database β) (key : MetaKey) (value : β) :
    readMeta (writeMeta db key value) key = some value := by
  simp [readMeta, writeMeta]

theorem readMeta_writeMeta_of_ne (db : Database β) {key key' : MetaKey} (value : β)
    (h : key' ≠ key) : readMeta (writeMeta db key value) key' = readMeta db key' := by
  simp [readMeta, writeMeta, Function.update_of_ne h]

@[simp] theorem logs_writeMeta (db : Database β) (key : MetaKey) (value : β) :
    (writeMeta db key value).logs = db.logs := rfl

end Raft
end PgAgent
