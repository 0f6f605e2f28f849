import PgAgent.Library.Trace
import PgAgent.Raft.Storage

/-!
# The Raft log store

`RedbLogStore`: the log entries in a table keyed by index, and the purge point in a named
record beside it.  Both ends of the log are cut inclusively --- `truncate` drops its own
index and everything above, `purge` its own index and everything below --- and
`get_log_state` falls back to the purge point when no entry is left.

What the table is for is said by `LogSpec`: a purge point, the index at which the next
entry will be appended, and for every index the entry most recently appended there.  The
log is the half-open range between the two bounds.  `Refines` relates a database to such
a log, every operation that respects openraft's contract keeps it (`Refines.step`), and
`logStore_run` reads it after a whole sequence of operations.
-/

namespace PgAgent
namespace Raft

variable {β : Type}

/-! ## The store -/

/-- One end of a range of keys. -/
inductive Bound where
  | included (k : ℕ)
  | excluded (k : ℕ)
  | unbounded
  deriving DecidableEq, Repr

/-- A `RangeBounds<u64>`. -/
structure RangeBounds where
  start : Bound
  stop : Bound
  deriving DecidableEq, Repr

def RangeBounds.contains (range : RangeBounds) (k : ℕ) : Bool :=
  (match range.start with
    | .included a => decide (a ≤ k)
    | .excluded a => decide (a < k)
    | .unbounded => true) &&
  (match range.stop with
    | .included b => decide (k ≤ b)
    | .excluded b => decide (k < b)
    | .unbounded => true)

structure LogState where
  lastPurgedLogId : Option LogId
  lastLogId : Option LogId
  deriving DecidableEq, Repr

namespace RedbLogStore

def lastPurged (serde : Serde β) (db : Database β) : StorageResult (Option LogId) :=
  match readMeta db .lastPurged with
  | some bytes => serde.lastPurged.decode bytes
  | none => .ok none

def tryGetLogEntries (serde : Serde β) (db : Database β) (range : RangeBounds) :
    StorageResult (List Entry) :=
  (db.logs.range range.contains).mapM fun row => serde.entry.decode row.2

def getLogState (serde : Serde β) (db : Database β) : StorageResult LogState := do
  let purged ← lastPurged serde db
  match db.logs.last? with
  | some row =>
      let entry ← serde.entry.decode row.2
      pure ⟨purged, some entry.logId⟩
  | none => pure ⟨purged, purged⟩

/-- One iteration of the loop of `append`. -/
def appendOne (serde : Serde β) (logs : OrderedTable ℕ β) (entry : Entry) :
    OrderedTable ℕ β :=
  logs.insert entry.logId.index (serde.entry.encode entry)

def append (serde : Serde β) (db : Database β) (entries : List Entry) : Database β :=
  { db with logs := entries.foldl (appendOne serde) db.logs }

def truncate (db : Database β) (logId : LogId) : Database β :=
  let victims := (db.logs.range (RangeBounds.mk (.included logId.index) .unbounded).contains).map
    Prod.fst
  { db with logs := db.logs.removeAll victims }

def purge (serde : Serde β) (db : Database β) (logId : LogId) : Database β :=
  let db := writeMeta db .lastPurged (serde.lastPurged.encode (some logId))
  let victims := (db.logs.range (RangeBounds.mk .unbounded (.included logId.index)).contains).map
    Prod.fst
  { db with logs := db.logs.removeAll victims }

theorem lastPurged_purge (serde : Serde β) (db : Database β) (logId : LogId) :
    lastPurged serde (purge serde db logId) = .ok (some logId) := by
  have hread : readMeta (purge serde db logId) .lastPurged =
      some (serde.lastPurged.encode (some logId)) :=
    readMeta_writeMeta db .lastPurged _
  rw [lastPurged, hread]
  exact serde.lastPurged.decode_encode (some logId)

theorem readMeta_purge_of_ne (serde : Serde β) (db : Database β) (logId : LogId) {key : MetaKey}
    (h : key ≠ .lastPurged) : readMeta (purge serde db logId) key = readMeta db key :=
  readMeta_writeMeta_of_ne db (serde.lastPurged.encode (some logId)) h

end RedbLogStore

/-- A write to the log store. -/
inductive LogOp where
  | append (entries : List Entry)
  | truncate (logId : LogId)
  | purge (logId : LogId)
  deriving DecidableEq, Repr

def LogOp.perform (serde : Serde β) (db : Database β) : LogOp → Database β
  | .append entries => RedbLogStore.append serde db entries
  | .truncate logId => RedbLogStore.truncate db logId
  | .purge logId => RedbLogStore.purge serde db logId

/-- The entries an operation appends. -/
def LogOp.appended : LogOp → List Entry
  | .append entries => entries
  | .truncate _ | .purge _ => []

/-- The entry most recently appended at an index, over a history of operations. -/
def mostRecent (ops : List LogOp) (i : ℕ) : Option Entry :=
  ((ops.flatMap LogOp.appended).filter fun e => e.logId.index == i).getLast?

/-! ## The log it stands for -/

/-- A log: where it was purged, where it ends, and the entry last appended at every
index. -/
structure LogSpec where
  purged : Option LogId
  next : ℕ
  latest : ℕ → Option Entry

namespace LogSpec

/-- The log nothing was appended to. -/
def empty : LogSpec := ⟨none, 0, fun _ => none⟩

/-- The lowest index the log can hold. -/
def first (s : LogSpec) : ℕ :=
  match s.purged with
  | none => 0
  | some p => p.index + 1

/-- The indexes the log holds, in order: those above the purge point, up to the last. -/
def indexes (s : LogSpec) : List ℕ := List.range' s.first (s.next - s.first)

/-- The entries of the log in a range, in index order. -/
def entriesIn (s : LogSpec) (range : RangeBounds) : List Entry :=
  (s.indexes.filter range.contains).filterMap s.latest

/-- The end of the log, which is the purge point when the log is empty. -/
def lastLogId (s : LogSpec) : Option LogId :=
  if s.first < s.next then (s.latest (s.next - 1)).map Entry.logId else s.purged

def push (s : LogSpec) (entry : Entry) : LogSpec :=
  { s with next := s.next + 1
           latest := Function.update s.latest entry.logId.index (some entry) }

/-- The entries have the indexes `n`, `n + 1`, and so on. -/
def contiguous : ℕ → List Entry → Bool
  | _, [] => true
  | n, e :: es => e.logId.index == n && contiguous (n + 1) es

/-- The engine's contract: appends continue the log, truncations stay above the purge
point, purges advance and stay within the log. -/
def allows (s : LogSpec) : LogOp → Bool
  | .append entries => contiguous s.next entries
  | .truncate logId => decide (s.first ≤ logId.index)
  | .purge logId => decide (s.first ≤ logId.index + 1) && decide (logId.index < s.next)

def perform (s : LogSpec) : LogOp → LogSpec
  | .append entries => entries.foldl push s
  | .truncate logId => { s with next := min s.next logId.index }
  | .purge logId => { s with purged := some logId }

/-- An operation within the contract. -/
def step (s : LogSpec) (op : LogOp) : Option LogSpec :=
  if s.allows op then some (s.perform op) else none

theorem mem_indexes {s : LogSpec} {i : ℕ} : i ∈ s.indexes ↔ s.first ≤ i ∧ i < s.next := by
  rw [indexes, List.mem_range'_1]
  omega

/-! ### The latest entry is the most recently appended one -/

theorem latest_foldl_push (entries : List Entry) (s : LogSpec) (i : ℕ) :
    (entries.foldl push s).latest i =
      ((entries.filter fun e => e.logId.index == i).getLast?).or (s.latest i) := by
  induction entries generalizing s with
  | nil => rfl
  | cons e es ih =>
    rw [List.foldl_cons, ih, List.filter_cons]
    by_cases he : e.logId.index = i
    · rw [if_pos (by simpa using he), List.getLast?_cons]
      subst he
      cases (es.filter fun e' => e'.logId.index == e.logId.index).getLast? <;> simp [push]
    · rw [if_neg (by simpa using he)]
      simp [push, Function.update_of_ne (Ne.symm he)]

theorem latest_perform (s : LogSpec) (op : LogOp) (i : ℕ) :
    (s.perform op).latest i = (mostRecent [op] i).or (s.latest i) := by
  cases op with
  | append entries => simp [perform, mostRecent, LogOp.appended, latest_foldl_push]
  | truncate l => simp [perform, mostRecent, LogOp.appended]
  | purge l => simp [perform, mostRecent, LogOp.appended]

theorem mostRecent_cons (op : LogOp) (ops : List LogOp) (i : ℕ) :
    mostRecent (op :: ops) i = (mostRecent ops i).or (mostRecent [op] i) := by
  simp [mostRecent, List.getLast?_append]

theorem latest_of_run {s t : LogSpec} {ops : List LogOp} (h : Trace.run step s ops = some t)
    (i : ℕ) : t.latest i = (mostRecent ops i).or (s.latest i) := by
  induction ops generalizing s with
  | nil =>
    rw [← Option.some.inj h]
    rfl
  | cons op ops ih =>
    obtain ⟨u, hu, hrest⟩ := Option.bind_eq_some_iff.mp h
    rw [step] at hu
    split at hu
    · rw [ih hrest, ← Option.some.inj hu, latest_perform, mostRecent_cons op ops,
        Option.or_assoc]
    · cases hu

end LogSpec

/-! ## The store keeps the log -/

/-- The database holds the log `s`: its rows are exactly the entries of the log, and its
purge record is the log's purge point. -/
structure Refines (serde : Serde β) (db : Database β) (s : LogSpec) : Prop where
  first_le_next : s.first ≤ s.next
  /-- Every index of the log has an entry, and that entry carries the index. -/
  filled : ∀ i, s.first ≤ i → i < s.next → ∃ e, s.latest i = some e ∧ e.logId.index = i
  mem_rows : ∀ r, r ∈ db.logs.rows ↔
    s.first ≤ r.1 ∧ r.1 < s.next ∧ ∃ e, s.latest r.1 = some e ∧ r.2 = serde.entry.encode e
  purged_eq : RedbLogStore.lastPurged serde db = .ok s.purged

variable {serde : Serde β} {db : Database β} {s : LogSpec}

theorem refines_empty (serde : Serde β) : Refines serde Database.empty LogSpec.empty where
  first_le_next := le_refl 0
  filled i _ hi := absurd hi (Nat.not_lt_zero i)
  mem_rows r := by simp [Database.empty, LogSpec.empty]
  purged_eq := rfl

theorem Refines.push (h : Refines serde db s) {e : Entry} (he : e.logId.index = s.next) :
    Refines serde { db with logs := RedbLogStore.appendOne serde db.logs e } (s.push e) where
  first_le_next := Nat.le_succ_of_le h.first_le_next
  filled i hi hlt := by
    replace hlt : i < s.next + 1 := hlt
    rw [LogSpec.push]
    by_cases hie : i = e.logId.index
    · exact ⟨e, by simp [hie], hie.symm⟩
    · obtain ⟨e', he', hidx⟩ := h.filled i hi (by omega)
      exact ⟨e', by simpa [Function.update_of_ne hie] using he', hidx⟩
  mem_rows r := by
    have hfirst := h.first_le_next
    rw [RedbLogStore.appendOne, OrderedTable.mem_insert, h.mem_rows r]
    show _ ↔ s.first ≤ r.1 ∧ r.1 < s.next + 1 ∧
      ∃ e', Function.update s.latest e.logId.index (some e) r.1 = some e' ∧
        r.2 = serde.entry.encode e'
    by_cases hr : r.1 = e.logId.index
    · -- the new row is the one with the new index
      have hrow : r = (e.logId.index, serde.entry.encode e) ↔ r.2 = serde.entry.encode e :=
        ⟨fun h => by rw [h], fun h => Prod.ext hr h⟩
      rw [hrow, hr, Function.update_self]
      simp only [ne_eq, not_true_eq_false, false_and, or_false, Option.some.injEq,
        exists_eq_left']
      constructor
      · intro h2
        exact ⟨by omega, by omega, h2⟩
      · rintro ⟨-, -, h2⟩
        exact h2
    · rw [Function.update_of_ne hr]
      constructor
      · rintro (rfl | ⟨-, h1, h2, h3⟩)
        · exact absurd rfl hr
        · exact ⟨h1, by omega, h3⟩
      · rintro ⟨h1, h2, h3⟩
        exact Or.inr ⟨hr, h1, by omega, h3⟩
  purged_eq := h.purged_eq

theorem Refines.append (h : Refines serde db s) (entries : List Entry)
    (hc : LogSpec.contiguous s.next entries = true) :
    Refines serde (RedbLogStore.append serde db entries) (entries.foldl LogSpec.push s) := by
  induction entries generalizing db s with
  | nil => exact h
  | cons e es ih =>
    rw [LogSpec.contiguous, Bool.and_eq_true, beq_iff_eq] at hc
    exact ih (h.push hc.1) hc.2

theorem Refines.truncate (h : Refines serde db s) {l : LogId} (hl : s.first ≤ l.index) :
    Refines serde (RedbLogStore.truncate db l) { s with next := min s.next l.index } where
  first_le_next := le_min h.first_le_next hl
  filled i hi hlt := h.filled i hi (lt_of_lt_of_le hlt (min_le_left _ _))
  mem_rows r := by
    rw [RedbLogStore.truncate, OrderedTable.mem_removeAll_range, h.mem_rows r]
    show _ ↔ s.first ≤ r.1 ∧ r.1 < min s.next l.index ∧ _
    rw [lt_min_iff]
    simp only [RangeBounds.contains, Bool.and_true, decide_eq_false_iff_not, not_le]
    constructor
    · rintro ⟨⟨h1, h2, h3⟩, h4⟩
      exact ⟨h1, ⟨h2, h4⟩, h3⟩
    · rintro ⟨h1, ⟨h2, h4⟩, h3⟩
      exact ⟨⟨h1, h2, h3⟩, h4⟩
  purged_eq := h.purged_eq

theorem Refines.purge (h : Refines serde db s) {l : LogId} (hmono : s.first ≤ l.index + 1)
    (hlast : l.index < s.next) :
    Refines serde (RedbLogStore.purge serde db l) { s with purged := some l } where
  first_le_next := hlast
  filled i hi hlt := h.filled i (le_trans hmono hi) hlt
  mem_rows r := by
    rw [RedbLogStore.purge, OrderedTable.mem_removeAll_range, logs_writeMeta, h.mem_rows r]
    show _ ↔ l.index + 1 ≤ r.1 ∧ r.1 < s.next ∧ _
    simp only [RangeBounds.contains, Bool.true_and, decide_eq_false_iff_not, not_le]
    constructor
    · rintro ⟨⟨h1, h2, h3⟩, h4⟩
      exact ⟨h4, h2, h3⟩
    · rintro ⟨h4, h2, h3⟩
      exact ⟨⟨le_trans hmono h4, h2, h3⟩, h4⟩
  purged_eq := RedbLogStore.lastPurged_purge serde db l

/-- Every operation within the contract keeps the database and the log together. -/
theorem Refines.step (h : Refines serde db s) {op : LogOp} {t : LogSpec}
    (hop : s.step op = some t) : Refines serde (op.perform serde db) t := by
  rw [LogSpec.step] at hop
  split at hop
  · rename_i hallow
    rw [← Option.some.inj hop]
    cases op with
    | append entries => exact h.append entries hallow
    | truncate l => exact h.truncate (of_decide_eq_true hallow)
    | purge l =>
      rw [LogSpec.allows, Bool.and_eq_true, decide_eq_true_eq, decide_eq_true_eq] at hallow
      exact h.purge hallow.1 hallow.2
  · cases hop

/-- The database after a sequence of operations on a new one. -/
def LogOp.performAll (serde : Serde β) (ops : List LogOp) : Database β :=
  ops.foldl (LogOp.perform serde) Database.empty

theorem Refines.run (h : Refines serde db s) {ops : List LogOp} {t : LogSpec}
    (hrun : Trace.run LogSpec.step s ops = some t) :
    Refines serde (ops.foldl (LogOp.perform serde) db) t := by
  induction ops generalizing db s with
  | nil => exact Option.some.inj hrun ▸ h
  | cons op ops ih =>
    obtain ⟨u, hu, hrest⟩ := Option.bind_eq_some_iff.mp hrun
    exact ih (h.step hu) hrest

/-! ## What the reads return -/

/-- The rows of a range are the encoded entries of the log in that range. -/
theorem Refines.range_eq (h : Refines serde db s) (p : ℕ → Bool) :
    db.logs.range p = (s.indexes.filter p).filterMap fun i =>
      (s.latest i).map fun e => (i, serde.entry.encode e) := by
  refine OrderedTable.eq_of_mem_iff (OrderedTable.pairwise_range _ p) ?_ fun r => ?_
  · refine List.Pairwise.filterMap (R := (· < ·)) _ ?_
      (List.Pairwise.filter p List.pairwise_lt_range')
    intro i j hij a ha b hb
    obtain ⟨_, -, rfl⟩ := Option.map_eq_some_iff.mp ha
    obtain ⟨_, -, rfl⟩ := Option.map_eq_some_iff.mp hb
    exact hij
  · rw [OrderedTable.mem_range, h.mem_rows r, List.mem_filterMap]
    constructor
    · rintro ⟨⟨h1, h2, e, he, hr⟩, hp⟩
      refine ⟨r.1, List.mem_filter.mpr ⟨LogSpec.mem_indexes.mpr ⟨h1, h2⟩, hp⟩, ?_⟩
      rw [he, Option.map_some, ← hr]
    · rintro ⟨i, hi, hr⟩
      obtain ⟨e, he, rfl⟩ := Option.map_eq_some_iff.mp hr
      obtain ⟨hidx, hp⟩ := List.mem_filter.mp hi
      obtain ⟨h1, h2⟩ := LogSpec.mem_indexes.mp hidx
      exact ⟨⟨h1, h2, e, he, rfl⟩, hp⟩

theorem mapM_decode_rows (serde : Serde β) (f : ℕ → Option Entry) (is : List ℕ) :
    (is.filterMap fun i => (f i).map fun e => (i, serde.entry.encode e)).mapM
      (fun row => serde.entry.decode row.2) = .ok (is.filterMap f) := by
  induction is with
  | nil => rfl
  | cons i is ih =>
    cases hf : f i with
    | none => simpa [hf] using ih
    | some e =>
      simp only [List.filterMap_cons, hf, Option.map_some, List.mapM_cons,
        Codec.decode_encode, ih]
      rfl

theorem Refines.tryGetLogEntries (h : Refines serde db s) (range : RangeBounds) :
    RedbLogStore.tryGetLogEntries serde db range = .ok (s.entriesIn range) := by
  rw [RedbLogStore.tryGetLogEntries, h.range_eq]
  exact mapM_decode_rows serde s.latest _

theorem Refines.keys_eq (h : Refines serde db s) : db.logs.rows.map Prod.fst = s.indexes := by
  have hrows : db.logs.rows = db.logs.range fun _ => true := by simp [OrderedTable.range]
  rw [hrows, h.range_eq, List.map_filterMap]
  have hall : ∀ i ∈ s.indexes, Option.map Prod.fst
      ((s.latest i).map fun e => (i, serde.entry.encode e)) = some i := by
    intro i hi
    obtain ⟨h1, h2⟩ := LogSpec.mem_indexes.mp hi
    obtain ⟨e, he, -⟩ := h.filled i h1 h2
    rw [he]
    rfl
  rw [List.filter_true, List.filterMap_congr hall, List.filterMap_some]

theorem Refines.getLogState (h : Refines serde db s) :
    RedbLogStore.getLogState serde db = .ok ⟨s.purged, s.lastLogId⟩ := by
  rw [RedbLogStore.getLogState, h.purged_eq, LogSpec.lastLogId]
  by_cases hlt : s.first < s.next
  · -- the last row is the one just below `next`
    obtain ⟨e, he, hidx⟩ := h.filled (s.next - 1) (by omega) (by omega)
    have hlast : db.logs.last? = some (s.next - 1, serde.entry.encode e) := by
      refine OrderedTable.last?_eq_some ((h.mem_rows _).mpr ⟨?_, ?_, e, he, rfl⟩) ?_
      · show s.first ≤ s.next - 1
        omega
      · show s.next - 1 < s.next
        omega
      · intro r hr
        obtain ⟨-, hr2, -⟩ := (h.mem_rows r).mp hr
        show r.1 ≤ s.next - 1
        omega
    rw [if_pos hlt, he, hlast]
    show (serde.entry.decode (serde.entry.encode e) >>= _) = _
    rw [Codec.decode_encode]
    rfl
  · have hnil : db.logs.rows = [] := by
      refine List.eq_nil_iff_forall_not_mem.mpr fun r hr => ?_
      obtain ⟨h1, h2, -⟩ := (h.mem_rows r).mp hr
      omega
    rw [if_neg hlt, OrderedTable.last?_eq_none_iff.mpr hnil]
    rfl

/-! ## The representation theorem -/

/-- What the log store holds and answers after the operations `ops`, when the log they
describe has the bounds of `s`. -/
structure RepresentsLog (serde : Serde β) (ops : List LogOp) (s : LogSpec) : Prop where
  /-- The stored indexes are the contiguous range above the purge point. -/
  stored : (LogOp.performAll serde ops).logs.rows.map Prod.fst = s.indexes
  logState : RedbLogStore.getLogState serde (LogOp.performAll serde ops) =
    .ok ⟨s.purged, s.lastLogId⟩
  entries : ∀ range, RedbLogStore.tryGetLogEntries serde (LogOp.performAll serde ops) range =
    .ok ((s.indexes.filter range.contains).filterMap (mostRecent ops))
  /-- Every stored index has an entry, the one most recently appended there. -/
  recent : ∀ i ∈ s.indexes, ∃ e, mostRecent ops i = some e ∧ e.logId.index = i

/-- **The log store represents the log.**  After every sequence of operations within the
engine's contract, the table holds exactly the indexes above the purge point up to the
last, and all reads answer from the entries most recently appended there. -/
theorem logStore_run (serde : Serde β) (ops : List LogOp) (s : LogSpec)
    (h : Trace.run LogSpec.step LogSpec.empty ops = some s) : RepresentsLog serde ops s := by
  have href := (refines_empty serde).run h
  have hlatest : s.latest = mostRecent ops := by
    funext i
    rw [LogSpec.latest_of_run h i]
    exact Option.or_none
  refine ⟨href.keys_eq, href.getLogState, fun range => ?_, fun i hi => ?_⟩
  · rw [← hlatest]
    exact href.tryGetLogEntries range
  · obtain ⟨h1, h2⟩ := LogSpec.mem_indexes.mp hi
    rw [← hlatest]
    exact href.filled i h1 h2

/-- The theorem at a log that is cut on both sides: three entries, the last two replaced
by one of the next leader, the first one purged. -/
theorem logStore_run_replaced :
    ∃ s, Trace.run LogSpec.step LogSpec.empty
        [.append [⟨⟨⟨1, 0⟩, 0⟩, .blank⟩, ⟨⟨⟨1, 0⟩, 1⟩, .blank⟩,
          ⟨⟨⟨1, 0⟩, 2⟩, .blank⟩],
          .truncate ⟨⟨1, 0⟩, 1⟩,
          .append [⟨⟨⟨2, 1⟩, 1⟩, .normal (.takeover 1 none 100)⟩],
          .purge ⟨⟨1, 0⟩, 0⟩] = some s ∧
      s.purged = some ⟨⟨1, 0⟩, 0⟩ ∧ s.indexes = [1] ∧
      RepresentsLog Serde.tagged
        [.append [⟨⟨⟨1, 0⟩, 0⟩, .blank⟩, ⟨⟨⟨1, 0⟩, 1⟩, .blank⟩,
          ⟨⟨⟨1, 0⟩, 2⟩, .blank⟩],
          .truncate ⟨⟨1, 0⟩, 1⟩,
          .append [⟨⟨⟨2, 1⟩, 1⟩, .normal (.takeover 1 none 100)⟩],
          .purge ⟨⟨1, 0⟩, 0⟩] s :=
  ⟨_, rfl, rfl, rfl, logStore_run Serde.tagged _ _ rfl⟩

end Raft
end PgAgent
