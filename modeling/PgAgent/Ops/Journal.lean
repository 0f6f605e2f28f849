import PgAgent.Config.Pool

/-!
# The journal of in-flight operations

`inflight_ops.rs`: one file per orchestration, which says how far it has come.  What a
handler asks of the journal is modelled over the entries that a scan of the directory
reads, in the order of the scan:

* `find` --- the most recent entry of an operation, by its name and key;
* `begin` --- the gate every new entry passes, and the entry it writes;
* `JournalCall` --- the calls that change an entry, each of which reads the entry, changes
  what it read, and writes it back.
-/

namespace PgAgent

/-- A `DateTime<Utc>`, in nanoseconds since the epoch. -/
abbrev UtcNanos := ℤ

inductive InflightStatus where
  | inProgress
  | done
  | abandoned
  deriving DecidableEq, Repr

namespace InflightStatus

def asWire : InflightStatus → String
  | inProgress => "in_progress"
  | done => "done"
  | abandoned => "abandoned"

def isTerminal : InflightStatus → Bool
  | inProgress => false
  | done => true
  | abandoned => true

end InflightStatus

/-- What is being orchestrated. -/
inductive InflightPayload where
  | handoff (fromNodeId toNodeId : NodeId) (toHostname slotName : String) (allowLag : Bool)
  | followPrimary (detachedNodeId : NodeId) (detachedHostname : String)
      (newPrimaryNodeId : NodeId) (newPrimaryHostname : String)
  | recovery (primaryNodeId standbyNodeId : NodeId) (standbyHostname slotName : String)
  | promote (nodeId : NodeId) (term : UInt64)
  | allowAsync (nodeId : NodeId)
  deriving DecidableEq, Repr

namespace InflightPayload

def opName : InflightPayload → String
  | handoff _ _ _ _ _ => "handoff"
  | followPrimary _ _ _ _ => "follow_primary"
  | recovery _ _ _ _ => "recovery"
  | promote _ _ => "promote"
  | allowAsync _ => "allow_async"

/-- Two operations of one name and one key are the same orchestration. -/
def key : InflightPayload → String
  | handoff fromNodeId toNodeId _ _ _ =>
      "from=" ++ toString fromNodeId ++ ",to=" ++ toString toNodeId
  | followPrimary detachedNodeId _ newPrimaryNodeId _ =>
      "detached=" ++ toString detachedNodeId ++ ",new_primary=" ++ toString newPrimaryNodeId
  | recovery primaryNodeId standbyNodeId _ _ =>
      "primary=" ++ toString primaryNodeId ++ ",standby=" ++ toString standbyNodeId
  | promote nodeId term => "node=" ++ toString nodeId ++ ",term=" ++ toString term
  | allowAsync nodeId => "node=" ++ toString nodeId

/-- The node whose data directory and slot the orchestration owns, if it owns one. -/
def targetNodeId : InflightPayload → Option NodeId
  | handoff _ toNodeId _ _ _ => some toNodeId
  | followPrimary detachedNodeId _ _ _ => some detachedNodeId
  | recovery _ standbyNodeId _ _ => some standbyNodeId
  | promote _ _ => none
  | allowAsync _ => none

end InflightPayload

/-- One entry of the journal. -/
structure InflightOp where
  id : String
  status : InflightStatus
  payload : InflightPayload
  phase : String
  startedAt : UtcNanos
  updatedAt : UtcNanos
  completedAt : Option UtcNanos
  dischargedAt : Option UtcNanos
  lastError : Option String
  deriving DecidableEq, Repr

/-- The entry that started last; of several, the last one scanned, as `max_by_key` has
it. -/
def latestStarted (ops : List InflightOp) : Option InflightOp :=
  ops.foldl (fun best op => match best with
    | some b => if b.startedAt ≤ op.startedAt then some op else some b
    | none => some op) none

/-- `FileInflightOpStore::find`. -/
def InflightOp.find (ops : List InflightOp) (opName key : String) : Option InflightOp :=
  latestStarted (ops.filter fun op => op.payload.opName == opName && op.payload.key == key)

/-- Why `begin` refuses. -/
inductive BeginRejected where
  | duplicateInProgress (id phase : String)
  | exclusiveBlocked (id opName phase : String)
  deriving DecidableEq, Repr

def BeginRejected.display : BeginRejected → String
  | duplicateInProgress id phase =>
      "an instance of this op is already in flight (id=" ++ id ++ ", phase=" ++ phase ++
        "); resume with `pg_agentctl ops resume " ++ id ++
        "` or abandon with `pg_agentctl ops abandon " ++ id ++ "`"
  | exclusiveBlocked id opName phase =>
      "blocked by in-flight `" ++ opName ++ "` op (id=" ++ id ++ ", phase=" ++ phase ++
        "); wait for it to finish or abandon it with `pg_agentctl ops abandon " ++ id ++ "`"

/-- The gate of `begin`: the first entry in progress that stands in the way. -/
def beginGate (existing : List InflightOp) (payload : InflightPayload) (exclusive : Bool) :
    Option BeginRejected :=
  existing.findSome? fun op =>
    if op.status ≠ .inProgress then none
    else if op.payload.opName = payload.opName ∧ op.payload.key = payload.key then
      some (.duplicateInProgress op.id op.phase)
    else if exclusive then some (.exclusiveBlocked op.id op.payload.opName op.phase)
    else none

/-- `make_id`; a time whose nanoseconds do not fit an `i64` counts as `0`. -/
def makeId (payload : InflightPayload) (now : UtcNanos) (seq : ℕ) : String :=
  let nanos := if -2 ^ 63 ≤ now ∧ now < 2 ^ 63 then now else 0
  toString nanos ++ "-" ++ payload.opName ++ "-" ++ toString seq

/-- `FileInflightOpStore::begin`, on what the scan read and whether the entry could be
written. -/
def InflightOp.begin (scan : Except String (List InflightOp)) (written : Except String Unit)
    (payload : InflightPayload) (phase : String) (exclusive : Bool) (now : UtcNanos) (seq : ℕ) :
    Except String InflightOp :=
  scan.bind fun existing =>
    match beginGate existing payload exclusive with
    | some rejected => .error rejected.display
    | none =>
        written.map fun _ =>
          { id := makeId payload now seq
            status := .inProgress
            payload := payload
            phase := phase
            startedAt := now
            updatedAt := now
            completedAt := none
            dischargedAt := none
            lastError := none }

/-! ## The calls on one entry -/

/-- The calls of `InflightOpStore` that change an entry. -/
inductive JournalCall where
  | updatePhase (phase : String) (lastError : Option String)
  | complete
  | abandon (reason : String)
  | discharge
  deriving DecidableEq, Repr

namespace JournalCall

/-- The answer of a call that ends with what it read. -/
def stops (call : JournalCall) (op : InflightOp) : Option (Except String Unit) :=
  match call with
  | updatePhase _ _ =>
      if op.status.isTerminal then
        some (.error ("inflight_ops: update_phase on terminal op " ++ op.id ++ " (status=" ++
          op.status.asWire ++ ")"))
      else none
  | discharge => if op.dischargedAt.isSome then some (.ok ()) else none
  | _ => none

/-- What a call writes, from the entry it read. -/
def write (call : JournalCall) (op : InflightOp) (now : UtcNanos) : InflightOp :=
  match call with
  | updatePhase phase lastError =>
      { op with phase := phase, updatedAt := now, lastError := lastError }
  | complete =>
      { op with
        status := .done, phase := "done", updatedAt := now, completedAt := some now
        lastError := none }
  | abandon reason =>
      { op with
        status := .abandoned, updatedAt := now, completedAt := some now, lastError := some reason }
  | discharge => { op with dischargedAt := some now }

@[simp] theorem write_id (call : JournalCall) (op : InflightOp) (now : UtcNanos) :
    (call.write op now).id = op.id := by
  cases call <;> rfl

@[simp] theorem write_payload (call : JournalCall) (op : InflightOp) (now : UtcNanos) :
    (call.write op now).payload = op.payload := by
  cases call <;> rfl

@[simp] theorem write_startedAt (call : JournalCall) (op : InflightOp) (now : UtcNanos) :
    (call.write op now).startedAt = op.startedAt := by
  cases call <;> rfl

end JournalCall

end PgAgent
