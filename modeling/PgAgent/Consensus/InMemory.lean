import PgAgent.Consensus.Fencing

/-!
# The two consensus stores

`consensus.rs` has a second implementation of the store, `InMemoryConsensusStore`, on
which every unit test of the HA loop runs; the daemon runs on the replicated one.  The
two are written separately.  What differs on purpose is where time comes from: the
in-memory store reads the clock when it mints a lease, the replicated one takes the stamp
its command carries.

Both are driven here by the same operations of the `ConsensusStore` trait.  The in-memory
store has fault switches; an operation they refuse changes nothing but a counter
(`perform_refused`).  Past the gate, one operation does to the document exactly what
`apply_command` does (`perform_open`), and `consensusStores_agree` carries this along
every history.
-/

namespace PgAgent

/-- Why an operation of a store failed, with what its message names. -/
inductive StoreError where
  /-- Injected partition. -/
  | unavailable
  /-- Injected failure of one call. -/
  | injected (what : String)
  /-- The replicated store got a reply of another operation. -/
  | wrongVariant (what : String) (response : CommandResponse)
  deriving DecidableEq, Repr

/-- A write of the `ConsensusStore` trait. -/
inductive StoreOp where
  | tryTakeover (candidate : NodeId) (expected : Option (NodeId × UInt64))
  | release (holder : NodeId) (term : UInt64)
  | setPaused (paused : Option Paused)
  | setSwitchover (switchover : Option Switchover)
  deriving DecidableEq, Repr

/-- What a write returns. -/
inductive StoreReply where
  | takeover (outcome : TakeoverOutcome)
  | release (outcome : ReleaseOutcome)
  | unit
  deriving DecidableEq, Repr

/-! ## The in-memory store -/

structure InMemoryConsensusStore where
  state : ClusterState
  failReads : UInt32
  failWrites : UInt32
  unavailable : Bool
  deriving DecidableEq, Repr

namespace InMemoryConsensusStore

def new : InMemoryConsensusStore := ⟨ClusterState.default, 0, 0, false⟩

/-- The fault switches: a partition refuses everything, a positive counter refuses one
call and is decremented. -/
def checkGate (unavailable : Bool) (counter : UInt32) (what : String) :
    UInt32 × Except StoreError Unit :=
  if unavailable then (counter, .error .unavailable)
  else if 0 < counter then (counter - 1, .error (.injected what))
  else (counter, .ok ())

def readState (store : InMemoryConsensusStore) :
    InMemoryConsensusStore × Except StoreError ClusterState :=
  let gate := checkGate store.unavailable store.failReads "read"
  ({ store with failReads := gate.1 }, gate.2.map fun _ => store.state)

/-- A write: the gate, then the document under its lock. -/
def write {α : Type} (store : InMemoryConsensusStore) (what : String)
    (mutate : ClusterState → ClusterState × α) :
    InMemoryConsensusStore × Except StoreError α :=
  let gate := checkGate store.unavailable store.failWrites what
  let store := { store with failWrites := gate.1 }
  match gate.2 with
  | .error e => (store, .error e)
  | .ok () =>
      let result := mutate store.state
      ({ store with state := result.1 }, .ok result.2)

def tryTakeover (store : InMemoryConsensusStore) (candidate : NodeId)
    (expected : Option (NodeId × UInt64)) (now : Timestamp) :
    InMemoryConsensusStore × Except StoreError TakeoverOutcome :=
  store.write "takeover" fun state =>
    let observed : Bool := match state.lease, expected with
      | none, none => true
      | some cur, some (h, t) => cur.holder == h && cur.term == t
      | _, _ => false
    if !observed then (state, .lost state.lease)
    else
      let generation := state.generation + 1
      let lease : Lease := ⟨candidate, generation, now⟩
      ({ state with generation := generation, lease := some lease }, .won lease)

def release (store : InMemoryConsensusStore) (holder : NodeId) (term : UInt64) :
    InMemoryConsensusStore × Except StoreError ReleaseOutcome :=
  store.write "release" fun state =>
    match state.lease with
    | some cur =>
        if cur.holder = holder ∧ cur.term = term then
          ({ state with generation := state.generation + 1, lease := none }, .released)
        else (state, .notHolder (some cur))
    | none => (state, .notHolder none)

def setPaused (store : InMemoryConsensusStore) (paused : Option Paused) :
    InMemoryConsensusStore × Except StoreError Unit :=
  store.write "set_paused" fun state =>
    ({ state with generation := state.generation + 1, paused := paused }, ())

def setSwitchover (store : InMemoryConsensusStore) (switchover : Option Switchover) :
    InMemoryConsensusStore × Except StoreError Unit :=
  store.write "set_switchover" fun state =>
    ({ state with generation := state.generation + 1, switchover := switchover }, ())

/-- An operation at a reading of the clock. -/
def perform (store : InMemoryConsensusStore) (now : Timestamp) :
    StoreOp → InMemoryConsensusStore × Except StoreError StoreReply
  | .tryTakeover candidate expected =>
      let result := store.tryTakeover candidate expected now
      (result.1, result.2.map .takeover)
  | .release holder term =>
      let result := store.release holder term
      (result.1, result.2.map .release)
  | .setPaused paused =>
      let result := store.setPaused paused
      (result.1, result.2.map fun _ => .unit)
  | .setSwitchover switchover =>
      let result := store.setSwitchover switchover
      (result.1, result.2.map fun _ => .unit)

end InMemoryConsensusStore

/-! ## The replicated store -/

/-- The command `RaftConsensusStore` proposes for an operation, stamped by the proposer. -/
def StoreOp.command (now : Timestamp) : StoreOp → ConsensusCommand
  | .tryTakeover candidate expected => .takeover candidate expected now
  | .release holder term => .release holder term
  | .setPaused paused => .setPaused paused
  | .setSwitchover switchover => .setSwitchover switchover

/-- What `RaftConsensusStore` returns for the state machine's reply. -/
def StoreOp.reply : StoreOp → CommandResponse → Except StoreError StoreReply
  | .tryTakeover _ _, .takeover outcome => .ok (.takeover outcome)
  | .tryTakeover _ _, other => .error (.wrongVariant "takeover" other)
  | .release _ _, .release outcome => .ok (.release outcome)
  | .release _ _, other => .error (.wrongVariant "release" other)
  | .setPaused _, .ack => .ok .unit
  | .setPaused _, other => .error (.wrongVariant "set_paused" other)
  | .setSwitchover _, .ack => .ok .unit
  | .setSwitchover _, other => .error (.wrongVariant "set_switchover" other)

/-- The state machine's reply to an operation's command is of that operation's kind. -/
theorem StoreOp.reply_ok (op : StoreOp) (now : Timestamp) (state : ClusterState) :
    ∃ r, op.reply (applyCommand state (op.command now)).2 = .ok r := by
  cases op with
  | tryTakeover candidate expected =>
    simp only [command, applyCommand]
    split <;> exact ⟨_, rfl⟩
  | release holder term =>
    simp only [command, applyCommand]
    split
    · split <;> exact ⟨_, rfl⟩
    · exact ⟨_, rfl⟩
  | setPaused paused => exact ⟨_, rfl⟩
  | setSwitchover switchover => exact ⟨_, rfl⟩

namespace InMemoryConsensusStore

/-! ## One operation -/

/-- No fault is injected into the next write. -/
def GateOpen (store : InMemoryConsensusStore) : Prop :=
  store.unavailable = false ∧ store.failWrites = 0

theorem write_open {α : Type} {store : InMemoryConsensusStore} (h : store.GateOpen)
    (what : String) (mutate : ClusterState → ClusterState × α) :
    store.write what mutate =
      ({ store with state := (mutate store.state).1 }, .ok (mutate store.state).2) := by
  obtain ⟨hu, hw⟩ := h
  have hgate : checkGate store.unavailable store.failWrites what = (store.failWrites, .ok ()) := by
    rw [checkGate, hu, hw]
    rfl
  rw [write, hgate]

theorem write_refused {α : Type} {store : InMemoryConsensusStore} (h : ¬ store.GateOpen)
    (what : String) (mutate : ClusterState → ClusterState × α) :
    (store.write what mutate).1.state = store.state ∧
      ∃ e, (store.write what mutate).2 = .error e := by
  have hgate : ∃ n e, checkGate store.unavailable store.failWrites what = (n, .error e) := by
    rw [checkGate]
    split_ifs with hu hw
    · exact ⟨_, _, rfl⟩
    · exact ⟨_, _, rfl⟩
    · refine absurd ⟨by simpa using hu, ?_⟩ h
      have hle := UInt32.not_lt.mp hw
      exact UInt32.le_zero_iff.mp hle
  obtain ⟨n, e, hgate⟩ := hgate
  rw [write, hgate]
  exact ⟨rfl, e, rfl⟩

/-- An operation the fault switches refuse fails and leaves the document alone. -/
theorem perform_refused {store : InMemoryConsensusStore} (h : ¬ store.GateOpen)
    (now : Timestamp) (op : StoreOp) :
    (store.perform now op).1.state = store.state ∧
    ∃ e, (store.perform now op).2 = .error e := by
  have map_error : ∀ {α : Type} {x : Except StoreError α} (f : α → StoreReply),
      (∃ e, x = .error e) → ∃ e, x.map f = .error e := by
    rintro α x f ⟨e, rfl⟩
    exact ⟨e, rfl⟩
  cases op with
  | tryTakeover candidate expected =>
    obtain ⟨hs, he⟩ := write_refused h "takeover" _
    exact ⟨hs, map_error _ he⟩
  | release holder term =>
    obtain ⟨hs, he⟩ := write_refused h "release" _
    exact ⟨hs, map_error _ he⟩
  | setPaused paused =>
    obtain ⟨hs, he⟩ := write_refused h "set_paused" _
    exact ⟨hs, map_error _ he⟩
  | setSwitchover switchover =>
    obtain ⟨hs, he⟩ := write_refused h "set_switchover" _
    exact ⟨hs, map_error _ he⟩

/-- Past the gate, an operation does what the state machine does with its command. -/
theorem perform_open {store : InMemoryConsensusStore} (h : store.GateOpen) (now : Timestamp)
    (op : StoreOp) :
    store.perform now op =
      ({ store with state := (applyCommand store.state (op.command now)).1 },
        op.reply (applyCommand store.state (op.command now)).2) := by
  cases op with
  | tryTakeover candidate expected =>
    simp only [perform, tryTakeover, write_open h, StoreOp.command, applyCommand]
    -- both stores test the observation on the same four shapes
    rcases hl : store.state.lease with _ | cur <;> rcases expected with _ | ⟨h', t'⟩
    · rfl
    · simp [observedHolds, StoreOp.reply, Except.map]
    · simp [observedHolds, StoreOp.reply, Except.map]
    · by_cases hm : cur.holder = h' ∧ cur.term = t'
      · simp [observedHolds, hm, StoreOp.reply, Except.map]
      · have hb : (cur.holder == h' && cur.term == t') = false := by simpa using hm
        simp [observedHolds, hb, StoreOp.reply, Except.map]
  | release holder term =>
    simp only [perform, release, write_open h, StoreOp.command, applyCommand]
    rcases hl : store.state.lease with _ | cur
    · rfl
    · by_cases hm : cur.holder = holder ∧ cur.term = term
      · simp [hm, StoreOp.reply, Except.map]
      · simp [hm, StoreOp.reply, Except.map]
  | setPaused paused =>
    rw [perform, setPaused, write_open h]
    rfl
  | setSwitchover switchover =>
    rw [perform, setSwitchover, write_open h]
    rfl

theorem readState_open {store : InMemoryConsensusStore} (havail : store.unavailable = false)
    (hreads : store.failReads = 0) : store.readState = (store, .ok store.state) := by
  obtain ⟨state, failReads, failWrites, unavailable⟩ := store
  obtain rfl : unavailable = false := havail
  obtain rfl : failReads = 0 := hreads
  rfl

/-! ## Whole histories -/

section History

variable (ops : ℕ → StoreOp) (clock : ℕ → Timestamp)

/-- The store before operation `k`, from a new one, when the clock reads `clock k` at
operation `k`. -/
def stateAt (k : ℕ) : InMemoryConsensusStore :=
  Trace.stateAt (fun store (i : Timestamp × StoreOp) => (store.perform i.1 i.2).1) new
    (fun k => (clock k, ops k)) k

def replyAt (k : ℕ) : Except StoreError StoreReply :=
  ((stateAt ops clock k).perform (clock k) (ops k)).2

/-- The commands the replicated store proposes for the same operations, carrying the same
stamps. -/
def commands (k : ℕ) : ConsensusCommand := (ops k).command (clock k)

theorem stateAt_succ (k : ℕ) :
    stateAt ops clock (k + 1) = ((stateAt ops clock k).perform (clock k) (ops k)).1 := rfl

/-- The gate stays open, and the document is the replicated one. -/
theorem stateAt_agrees (k : ℕ) :
    (stateAt ops clock k).GateOpen ∧
      (stateAt ops clock k).state = Consensus.stateAt (commands ops clock) k := by
  induction k with
  | zero => exact ⟨⟨rfl, rfl⟩, rfl⟩
  | succ k ih =>
    obtain ⟨hopen, hstate⟩ := ih
    rw [stateAt_succ, perform_open hopen, hstate]
    exact ⟨hopen, rfl⟩

/-- A read between two operations sees that document, and leaves the store as it is. -/
theorem readState_stateAt (k : ℕ) :
    (stateAt ops clock k).readState =
      (stateAt ops clock k, .ok (Consensus.stateAt (commands ops clock) k)) := by
  have hreads : (stateAt ops clock k).failReads = 0 := by
    induction k with
    | zero => rfl
    | succ k ih => rw [stateAt_succ, perform_open (stateAt_agrees ops clock k).1, ih]
  obtain ⟨⟨havail, -⟩, hstate⟩ := stateAt_agrees ops clock k
  rw [← hstate]
  exact readState_open havail hreads

/-- The two stores: **they agree on every history**.  Before every operation, and so after
every operation, both hold the same document, which is what a read of the in-memory store
returns, and both return the same reply. -/
theorem consensusStores_agree (ops : ℕ → StoreOp) (clock : ℕ → Timestamp) (k : ℕ) :
    (stateAt ops clock k).state = Consensus.stateAt (commands ops clock) k ∧
      (stateAt ops clock k).readState =
        (stateAt ops clock k, .ok (Consensus.stateAt (commands ops clock) k)) ∧
      replyAt ops clock k = (ops k).reply (Consensus.responseAt (commands ops clock) k) ∧
      ∃ r, replyAt ops clock k = .ok r := by
  obtain ⟨hopen, hstate⟩ := stateAt_agrees ops clock k
  have hreply : replyAt ops clock k =
      (ops k).reply (Consensus.responseAt (commands ops clock) k) := by
    rw [replyAt, perform_open hopen, hstate]
    rfl
  refine ⟨hstate, readState_stateAt ops clock k, hreply, ?_⟩
  rw [hreply]
  exact (ops k).reply_ok (clock k) _

end History

end InMemoryConsensusStore
end PgAgent
