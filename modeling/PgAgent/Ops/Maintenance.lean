import PgAgent.Library.Duration
import PgAgent.Library.SharedRecord
import PgAgent.Ops.Handoff
import PgAgent.Ops.Journal

/-!
# The maintenance queue

`maintenance.rs`: drops of replication slots that failed and are tried again later.  An
intent is a file, and its calls read the file, change what they read and write it back, as
those of the journal do.  Two parties make them:

* the worker, which lists the pending intents, tries the drop of each one that is due ---
  for up to half a minute --- and then records what came of it;
* the operator, who asks for an intent to be tried now, or gives it up.

A write is the moment at which an intent is published, the rename over its file, and it is the
write of the call that made the text: the calls share one temporary file, and the rename of one
of them may publish what another has written there.

`IntentKept` is what the queue promises for one intent: a finished intent comes back by a
reschedule only, a reschedule is not lost, and without one there are at most `maxAttempts`
tries.  `intentKept_of_recordsSafely` proves it of the runs in which the worker's records do
not fall on a change of the operator's.
-/

namespace PgAgent

open SharedRecord

inductive MaintenanceStatus where
  | pending
  | done
  | abandoned
  deriving DecidableEq, Repr

/-- What the queue is for. -/
inductive MaintenancePayload where
  | dropSlotCleanup (slotName targetHostname cause initialError : String)
  deriving DecidableEq, Repr

namespace MaintenancePayload

def opName : MaintenancePayload → String
  | dropSlotCleanup _ _ _ _ => "drop_slot_cleanup"

def slotName : MaintenancePayload → String
  | dropSlotCleanup slotName _ _ _ => slotName

def targetHostname : MaintenancePayload → String
  | dropSlotCleanup _ targetHostname _ _ => targetHostname

end MaintenancePayload

structure MaintenanceIntent where
  id : String
  status : MaintenanceStatus
  payload : MaintenancePayload
  attempts : ℕ
  lastError : String
  createdAt : UtcNanos
  updatedAt : UtcNanos
  nextRetryAt : Option UtcNanos
  deriving DecidableEq, Repr

/-- The intent that `append` writes. -/
def MaintenanceIntent.append (payload : MaintenancePayload) (now : UtcNanos) (seq : ℕ) :
    MaintenanceIntent :=
  let nanos := if -2 ^ 63 ≤ now ∧ now < 2 ^ 63 then now else 0
  { id := toString nanos ++ "-" ++ payload.opName ++ "-" ++ toString seq
    status := .pending
    payload := payload
    attempts := 0
    lastError := ""
    createdAt := now
    updatedAt := now
    nextRetryAt := none }

/-! ## The calls on one intent -/

/-- The calls of `MaintenanceStore` that change an intent. -/
inductive MaintenanceCall where
  | markAttempt (errMsg : String) (nextRetryAt : UtcNanos)
  | markDone
  | markAbandoned (errMsg : String)
  | reschedule (time : UtcNanos)
  deriving DecidableEq, Repr

namespace MaintenanceCall

/-- What a call writes, from the intent it read. -/
def write (call : MaintenanceCall) (intent : MaintenanceIntent) (now : UtcNanos) :
    MaintenanceIntent :=
  match call with
  | markAttempt errMsg nextRetryAt =>
      { intent with
        attempts := intent.attempts + 1, lastError := errMsg, updatedAt := now
        nextRetryAt := some nextRetryAt, status := .pending }
  | markDone =>
      { intent with status := .done, updatedAt := now, nextRetryAt := none, lastError := "" }
  | markAbandoned errMsg =>
      { intent with
        status := .abandoned, updatedAt := now, lastError := errMsg, nextRetryAt := none }
  | reschedule time => { intent with updatedAt := now, nextRetryAt := some time }

/-- A call that ends with its read: a reschedule of an intent that is not pending. -/
def stops (call : MaintenanceCall) (intent : MaintenanceIntent) : Bool :=
  match call with
  | reschedule _ => decide (intent.status ≠ .pending)
  | _ => false

end MaintenanceCall

def maintenanceRules : Rules MaintenanceCall MaintenanceIntent UtcNanos where
  stops := MaintenanceCall.stops
  write := MaintenanceCall.write

/-! ## The worker -/

def maxAttempts : ℕ := 5

def baseBackoff : Rust.Duration := 30 * 10 ^ 9

def maxBackoff : Rust.Duration := 600 * 10 ^ 9

/-- The loop of `backoff`. -/
def doubled : ℕ → Rust.Duration → Rust.Duration
  | 0, d => min d maxBackoff
  | n + 1, d => if maxBackoff / 2 ≤ d then maxBackoff else doubled n (d * 2)

/-- How long to wait before try `nextAttempt`. -/
def backoff (nextAttempt : ℕ) : Rust.Duration :=
  if nextAttempt ≤ 1 then baseBackoff else doubled (nextAttempt - 1) baseBackoff

/-- `process_sweep` takes up the intents whose time has come. -/
def MaintenanceIntent.due (intent : MaintenanceIntent) (now : UtcNanos) : Bool :=
  match intent.nextRetryAt with
  | some t => decide (t ≤ now)
  | none => true

/-- `fail`: the call that records a failure. -/
def recordFailure (intent : MaintenanceIntent) (errMsg : String) (now : UtcNanos) :
    MaintenanceCall :=
  let nextAttempt := intent.attempts + 1
  if maxAttempts ≤ nextAttempt then .markAbandoned errMsg
  else .markAttempt errMsg (now + (backoff nextAttempt : ℤ))

/-- What `process_drop_slot` meets: the owner of the slot, whether the client for a peer could
be built, what the drop answers, and whether the time ran out first. -/
structure DropProbes where
  owner : Option InflightOp
  client : Except String Unit
  drop : Except String Unit
  timedOut : Bool

/-- The drop itself, at the node that has the slot. -/
def dropOutcome (pool : NodePool) (node : NodeConfig) (slotName targetHostname : String)
    (p : DropProbes) : Except String Unit :=
  if p.timedOut then
    .error ("drop slot " ++ debugStr slotName ++ " on " ++ debugStr targetHostname ++
      ": per-op timeout 30s")
  else if pool.isLocal node then p.drop
  else
    (p.client.mapError fun e => "peer client for " ++ debugStr targetHostname ++ ": " ++ e).bind
      fun _ => p.drop.mapError fun e =>
        "drop slot rpc " ++ debugStr slotName ++ " on " ++ debugStr targetHostname ++ ": " ++ e

/-- `process_drop_slot`: the call it ends with, and whether a drop has been tried. -/
def processDropSlot (pool : NodePool) (intent : MaintenanceIntent) (p : DropProbes)
    (now : UtcNanos) : MaintenanceCall × Bool :=
  let slotName := intent.payload.slotName
  let targetHostname := intent.payload.targetHostname
  match pool.nodeByHostname targetHostname with
  | .error e =>
      (recordFailure intent
        ("resolve target host " ++ debugStr targetHostname ++ ": " ++ e.display) now, false)
  | .ok node =>
      -- an owned slot takes the intent out of the queue
      if p.owner.isSome then (.markDone, false)
      else match dropOutcome pool node slotName targetHostname p with
        | .ok _ => (.markDone, true)
        | .error e => (recordFailure intent e now, true)

/-! ## One intent under the worker and the operators -/

/-- Who makes a call. -/
inductive MaintenanceCaller (ι : Type) where
  | worker
  | operator (i : ι)
  deriving DecidableEq, Repr

/-- What an operator asks for. -/
inductive OperatorCall where
  | reschedule (time : UtcNanos)
  | abandon (errMsg : String)
  deriving DecidableEq, Repr

def OperatorCall.call : OperatorCall → MaintenanceCall
  | reschedule time => .reschedule time
  | abandon errMsg => .markAbandoned errMsg

/-- Where the worker is with the intent: it has listed it, or has made its try and is about to
record what came of it. -/
inductive WorkerAt where
  | idle
  | inHand (intent : MaintenanceIntent)
  | recording (intent : MaintenanceIntent) (call : MaintenanceCall) (tried : Bool)
  deriving DecidableEq, Repr

inductive MaintenanceEvent (ι : Type) where
  | lists (now : UtcNanos)
  | tries (p : DropProbes) (now : UtcNanos)
  | reads
  | writes (now : UtcNanos)
  | givesUp
  | asks (i : ι) (call : OperatorCall)
  | answers (i : ι) (now : UtcNanos)
  | fails (i : ι)

/-- The intent and the calls under way, where the worker is, and what has happened so far:
the reschedule that waits for the worker, whether there has been one at all, and how many
drops have been tried. -/
structure MaintenanceState (ι : Type) where
  shared : State (MaintenanceCaller ι) MaintenanceCall MaintenanceIntent
  worker : WorkerAt
  asked : Option UtcNanos
  rescheduled : Bool
  tries : ℕ

namespace MaintenanceState

variable {ι : Type}

/-- An intent that has just been appended. -/
def appended (payload : MaintenancePayload) (now : UtcNanos) (seq : ℕ) : MaintenanceState ι where
  shared := State.quiet (MaintenanceIntent.append payload now seq)
  worker := .idle
  asked := none
  rescheduled := false
  tries := 0

/-- The persisted intent. -/
def intent (s : MaintenanceState ι) : MaintenanceIntent := s.shared.record

/-- What an operator's write leaves to be done by the worker. -/
def askedAfter : MaintenanceCall → Option UtcNanos
  | .reschedule time => some time
  | _ => none

def isReschedule : MaintenanceCall → Bool
  | .reschedule _ => true
  | _ => false

section

variable [DecidableEq ι]

/-- One event.  `givesUp` stands for a record that fails and for the end of the process. -/
def step (pool : NodePool) (s : MaintenanceState ι) : MaintenanceEvent ι → MaintenanceState ι
  | .lists now =>
      match s.worker with
      | .idle =>
          if s.intent.status = .pending ∧ s.intent.due now = true then
            { s with worker := .inHand s.intent, asked := none }
          else s
      | _ => s
  | .tries p now =>
      match s.worker with
      | .inHand intent =>
          let (call, tried) := processDropSlot pool intent p now
          { s with
            worker := .recording intent call tried
            tries := s.tries + tried.toNat }
      | _ => s
  | .reads =>
      match s.worker with
      | .recording _ call _ =>
          { s with shared := SharedRecord.step maintenanceRules s.shared (.reads .worker call) }
      | _ => s
  | .writes now =>
      match s.shared.held .worker with
      | some _ =>
          { s with
            shared := SharedRecord.step maintenanceRules s.shared (.writes .worker now)
            worker := .idle }
      | none => s
  | .givesUp =>
      { s with
        shared := SharedRecord.step maintenanceRules s.shared (.drops .worker)
        worker := .idle }
  | .asks i call =>
      { s with
        shared := SharedRecord.step maintenanceRules s.shared (.reads (.operator i) call.call) }
  | .answers i now =>
      match s.shared.held (.operator i) with
      | some (call, _) =>
          { s with
            shared := SharedRecord.step maintenanceRules s.shared (.writes (.operator i) now)
            asked := askedAfter call
            rescheduled := s.rescheduled || isReschedule call }
      | none => s
  | .fails i =>
      { s with shared := SharedRecord.step maintenanceRules s.shared (.drops (.operator i)) }

/-- The state before event `k`. -/
def stateAt (pool : NodePool) (s : MaintenanceState ι)
    (u : ℕ → MaintenanceEvent ι) (k : ℕ) :
    MaintenanceState ι :=
  Trace.stateAt (step pool) s u k

/-- What the queue promises for one intent.  A finished intent becomes pending by a reschedule
only; a reschedule is kept until the worker takes the intent up, unless the cleanup gets done
before; without a reschedule at most `maxAttempts` drops are tried. -/
structure IntentKept (pool : NodePool) (s₀ : MaintenanceState ι)
    (u : ℕ → MaintenanceEvent ι) :
    Prop where
  finished : ∀ k, (stateAt pool s₀ u k).intent.status ≠ .pending →
    (stateAt pool s₀ u (k + 1)).intent.status = .pending →
      ∃ i now time seen, u k = .answers i now ∧
        (stateAt pool s₀ u k).shared.held (.operator i) = some (.reschedule time, seen)
  kept : ∀ k time, (stateAt pool s₀ u k).asked = some time →
    (stateAt pool s₀ u k).intent.status = .done ∨
      ((stateAt pool s₀ u k).intent.status = .pending ∧
        (stateAt pool s₀ u k).intent.nextRetryAt = some time)
  bounded : ∀ k, (stateAt pool s₀ u k).rescheduled = false →
    (stateAt pool s₀ u k).tries ≤ maxAttempts

end

/-- The event is no record of the worker's that goes wrong: a failure is recorded only while the
intent is pending and no reschedule waits, and a try is not left without a record. -/
def RecordsSafely (s : MaintenanceState ι) : MaintenanceEvent ι → Prop
  | .writes _ => ∀ call seen, s.shared.held .worker = some (call, seen) → call ≠ .markDone →
      s.intent.status = .pending ∧ s.asked = none
  | .givesUp => ∀ intent call, s.worker ≠ .recording intent call true
  | _ => True

/-! ## What a run keeps -/

/-- The intent as the worker has it; the persisted one while the worker has none. -/
def inHand (s : MaintenanceState ι) : MaintenanceIntent :=
  match s.worker with
  | .idle => s.intent
  | .inHand intent => intent
  | .recording intent _ _ => intent

/-- The tries that are not recorded yet. -/
def unrecorded (s : MaintenanceState ι) : ℕ :=
  match s.worker with
  | .recording _ _ tried => tried.toNat
  | _ => 0

/-- The calls under way are those the worker and the operators make, and the tries are counted
as long as nobody reschedules. -/
structure Counted (s : MaintenanceState ι) : Prop where
  operators : ∀ i call seen, s.shared.held (.operator i) = some (call, seen) →
    (∃ time, call = .reschedule time ∧ seen.status = .pending) ∨
    ∃ e, call = .markAbandoned e
  recording : ∀ intent call tried, s.worker = .recording intent call tried →
    call = .markDone ∨ ∃ e now, call = recordFailure intent e now
  worker : ∀ call seen, s.shared.held .worker = some (call, seen) →
    (∃ intent tried, s.worker = .recording intent call tried) ∧
      (s.rescheduled = false → s.intent.status = .pending → seen = s.intent)
  asked : ∀ time, s.asked = some time → s.intent.status = .done ∨
    (s.intent.status = .pending ∧ s.intent.nextRetryAt = some time)
  current : s.rescheduled = false → s.intent.status = .pending → s.inHand = s.intent
  counted : s.rescheduled = false → s.worker ≠ .idle ∨ s.intent.status = .pending →
    s.tries ≤ s.inHand.attempts + s.unrecorded ∧ s.inHand.attempts < maxAttempts
  bounded : s.rescheduled = false → s.tries ≤ maxAttempts

variable {pool : NodePool} {s : MaintenanceState ι}

theorem counted_appended (payload : MaintenancePayload) (now : UtcNanos) (seq : ℕ) :
    Counted (appended payload now seq : MaintenanceState ι) where
  operators _ _ _ h := by cases h
  recording _ _ _ h := by cases h
  worker _ _ h := by cases h
  asked _ h := by cases h
  current _ _ := rfl
  counted _ _ := ⟨Nat.zero_le _, Nat.zero_lt_succ 4⟩
  bounded _ := Nat.zero_le _

/-- A call the worker ends its try with. -/
theorem processDropSlot_cases (pool : NodePool) (intent : MaintenanceIntent) (p : DropProbes)
    (now : UtcNanos) :
    (processDropSlot pool intent p now).1 = .markDone ∨
      ∃ e now', (processDropSlot pool intent p now).1 = recordFailure intent e now' := by
  unfold processDropSlot
  dsimp only
  split
  · exact Or.inr ⟨_, _, rfl⟩
  · split
    · exact Or.inl rfl
    · split
      · exact Or.inl rfl
      · exact Or.inr ⟨_, _, rfl⟩

/-- The worker holds a read only while it records. -/
theorem Counted.held_worker (h : Counted s) (hw : ∀ intent call tried,
    s.worker ≠ .recording intent call tried) : s.shared.held .worker = none := by
  cases hheld : s.shared.held .worker with
  | none => rfl
  | some held =>
    obtain ⟨⟨intent, tried, hrec⟩, -⟩ := h.worker held.1 held.2 hheld
    exact absurd hrec (hw intent held.1 tried)

/-- A call that reads, or that ends without a write, leaves the intent alone; so the promise
depends on who holds what. -/
theorem Counted.of_shared (h : Counted s)
    {shared : State (MaintenanceCaller ι) MaintenanceCall MaintenanceIntent}
    (hrecord : shared.record = s.intent)
    (hops : ∀ i call seen, shared.held (.operator i) = some (call, seen) →
      (∃ time, call = .reschedule time ∧ seen.status = .pending) ∨
      ∃ e, call = .markAbandoned e)
    (hworker : ∀ call seen, shared.held .worker = some (call, seen) →
      s.shared.held .worker = some (call, seen) ∨
        (seen = s.intent ∧ ∃ intent tried, s.worker = .recording intent call tried)) :
    Counted { s with shared := shared } := by
  have hintent : ({ s with shared := shared } : MaintenanceState ι).intent = s.intent := hrecord
  have hhand : ({ s with shared := shared } : MaintenanceState ι).inHand = s.inHand := by
    unfold inHand
    rw [hintent]
  refine ⟨hops, h.recording, ?_, ?_, ?_, ?_, h.bounded⟩
  · intro call seen hheld
    rcases hworker call seen hheld with hbefore | ⟨rfl, hrec⟩
    · rw [hintent]
      exact h.worker call seen hbefore
    · exact ⟨hrec, fun _ _ => hintent.symm⟩
  · rw [hintent]
    exact h.asked
  · rw [hintent, hhand]
    exact h.current
  · rw [hintent, hhand]
    exact h.counted

variable [DecidableEq ι]

theorem Counted.lists (h : Counted s) (now : UtcNanos) : Counted (s.step pool (.lists now)) := by
  simp only [step]
  cases hw : s.worker with
  | idle =>
    dsimp only
    split
    · rename_i hdue
      have hnone := h.held_worker (by simp [hw])
      refine ⟨h.operators, by simp, ?_, by simp, ?_, ?_, h.bounded⟩
      · intro call seen hheld
        rw [hnone] at hheld
        cases hheld
      · intro _ _
        rfl
      · intro hfree _
        have hcounted := h.counted hfree (Or.inr hdue.1)
        simpa [inHand, unrecorded, hw] using hcounted
    · exact h
  | inHand intent => exact h
  | recording intent call tried => exact h

theorem Counted.tries (h : Counted s) (p : DropProbes) (now : UtcNanos) :
    Counted (s.step pool (.tries p now)) := by
  simp only [step]
  cases hw : s.worker with
  | idle => exact h
  | recording intent call tried => exact h
  | inHand intent =>
    have hnone := h.held_worker (by simp [hw])
    have hle : (processDropSlot pool intent p now).2.toNat ≤ 1 := Bool.toNat_le _
    refine ⟨h.operators, ?_, ?_, h.asked, ?_, ?_, ?_⟩
    · intro intent' call tried hrec
      cases hrec
      exact processDropSlot_cases pool intent p now
    · intro call seen hheld
      rw [hnone] at hheld
      cases hheld
    · intro hfree hpending
      have hcurrent := h.current hfree hpending
      rw [inHand, hw] at hcurrent
      exact hcurrent
    · intro hfree _
      obtain ⟨htries, hattempts⟩ := h.counted hfree (Or.inl (by simp [hw]))
      simp only [inHand, unrecorded, hw] at htries hattempts ⊢
      exact ⟨by omega, hattempts⟩
    · intro hfree
      obtain ⟨htries, hattempts⟩ := h.counted hfree (Or.inl (by simp [hw]))
      simp only [inHand, unrecorded, hw] at htries hattempts
      dsimp only
      omega

theorem Counted.reads (h : Counted s) : Counted (s.step pool .reads) := by
  cases hw : s.worker with
  | idle => simpa only [step, hw] using h
  | inHand intent => simpa only [step, hw] using h
  | recording intent call tried =>
    have hstep : s.step pool .reads =
        { s with shared := SharedRecord.step maintenanceRules s.shared (.reads .worker call) } := by
      simp only [step, hw]
    rw [hstep]
    refine h.of_shared ?_ ?_ ?_
    · rw [written_of_step]
      rfl
    · intro i call' seen hheld
      rcases held_of_step hheld with hbefore | ⟨hreads, -⟩
      · exact h.operators i call' seen hbefore
      · cases hreads
    · intro call' seen hheld
      rcases held_of_step hheld with hbefore | ⟨hreads, rfl, -⟩
      · exact Or.inl hbefore
      · cases hreads
        exact Or.inr ⟨rfl, intent, tried, hw⟩

theorem Counted.asks (h : Counted s) (i : ι) (call : OperatorCall) :
    Counted (s.step pool (.asks i call)) := by
  refine h.of_shared ?_ ?_ ?_
  · rw [written_of_step]
    rfl
  · intro j call' seen hheld
    rcases held_of_step hheld with hbefore | ⟨hreads, rfl, hstops⟩
    · exact h.operators j call' seen hbefore
    · cases hreads
      cases call with
      | reschedule time =>
        have hpending : s.shared.record.status = .pending := by
          simpa [maintenanceRules, MaintenanceCall.stops, OperatorCall.call] using hstops
        exact Or.inl ⟨time, rfl, hpending⟩
      | abandon errMsg => exact Or.inr ⟨errMsg, rfl⟩
  · intro call' seen hheld
    rcases held_of_step hheld with hbefore | ⟨hreads, -⟩
    · exact Or.inl hbefore
    · cases hreads

theorem Counted.fails (h : Counted s) (i : ι) : Counted (s.step pool (.fails i)) := by
  refine h.of_shared rfl ?_ ?_
  · intro j call seen hheld
    rcases held_of_step hheld with hbefore | ⟨hreads, -⟩
    · exact h.operators j call seen hbefore
    · cases hreads
  · intro call seen hheld
    rcases held_of_step hheld with hbefore | ⟨hreads, -⟩
    · exact Or.inl hbefore
    · cases hreads

/-- The calls of the operators after the worker's write or after it gives up. -/
theorem Counted.operators_of_step (h : Counted s)
    (e : Event (MaintenanceCaller ι) MaintenanceCall UtcNanos)
    (he : ∀ caller call, e ≠ .reads caller call) :
    ∀ i call seen, (SharedRecord.step maintenanceRules s.shared e).held (.operator i) =
        some (call, seen) →
      (∃ time, call = .reschedule time ∧ seen.status = .pending) ∨
      ∃ e, call = .markAbandoned e := by
  intro i call seen hheld
  rcases held_of_step hheld with hbefore | ⟨hreads, -⟩
  · exact h.operators i call seen hbefore
  · exact absurd hreads (he _ _)

theorem Counted.givesUp (h : Counted s) (hsafe : RecordsSafely s .givesUp) :
    Counted (s.step pool .givesUp) := by
  have hun : s.unrecorded = 0 := by
    cases hw : s.worker with
    | idle => simp [unrecorded, hw]
    | inHand intent => simp [unrecorded, hw]
    | recording intent call tried =>
      cases tried with
      | false => simp [unrecorded, hw]
      | true => exact absurd hw (hsafe intent call)
  refine ⟨h.operators_of_step (.drops .worker) (by simp), by simp [step], ?_, h.asked,
    fun _ _ => rfl, ?_, h.bounded⟩
  · intro call seen hheld
    simp [step, SharedRecord.step] at hheld
  · intro hfree hpending
    have hrecord : s.intent.status = .pending := by
      rcases hpending with hidle | hpending
      · exact absurd rfl hidle
      · exact hpending
    have hcounted := h.counted hfree (Or.inr hrecord)
    rw [h.current hfree hrecord, hun] at hcounted
    exact hcounted

/-- The worker's record. -/
theorem Counted.writes (h : Counted s) (now : UtcNanos) (hsafe : RecordsSafely s (.writes now)) :
    Counted (s.step pool (.writes now)) := by
  cases hheld : s.shared.held .worker with
  | none => simpa only [step, hheld] using h
  | some held =>
    obtain ⟨call, seen⟩ := held
    obtain ⟨⟨intent, tried, hw⟩, hseen⟩ := h.worker call seen hheld
    have hstep : s.step pool (.writes now) =
        { s with
          shared := ⟨call.write seen now, Function.update s.shared.held .worker none⟩
          worker := .idle } := by
      simp only [step, hheld, SharedRecord.step]
      rfl
    have hops := h.operators_of_step (.writes .worker now) (by simp)
    simp only [SharedRecord.step, hheld] at hops
    rw [hstep]
    have hnone : ∀ call' seen', Function.update s.shared.held .worker none .worker ≠
        some (call', seen') := by
      simp
    by_cases hdone : call = .markDone
    · subst hdone
      exact ⟨hops, by simp, fun call' seen' h' => absurd h' (hnone call' seen'),
        fun _ _ => Or.inl rfl, fun _ _ => rfl,
        fun _ hpending =>
          absurd hpending (by simp [MaintenanceState.intent, MaintenanceCall.write]),
        h.bounded⟩
    · obtain ⟨hpending, hasked⟩ := hsafe call seen hheld hdone
      refine ⟨hops, by simp, fun call' seen' h' => absurd h' (hnone call' seen'), ?_,
        fun _ _ => rfl, ?_, h.bounded⟩
      · intro time htime
        rw [hasked] at htime
        cases htime
      · intro hfree hafter
        -- the record is of a failure, and of the intent as it was taken up
        have hrecord := hseen hfree hpending
        have hintent := h.current hfree hpending
        obtain ⟨htries, hattempts⟩ := h.counted hfree (Or.inr hpending)
        rw [inHand, hw] at hintent htries hattempts
        rw [unrecorded, hw] at htries
        dsimp only at hintent htries hattempts
        subst hintent hrecord
        have hle : tried.toNat ≤ 1 := Bool.toNat_le _
        rcases h.recording _ call tried hw with hdone' | ⟨e, now', hcall⟩
        · exact absurd hdone' hdone
        · subst hcall
          unfold recordFailure at hafter ⊢
          dsimp only at hafter ⊢
          split at hafter
          · simp [MaintenanceState.intent, MaintenanceCall.write] at hafter
          · rename_i hmore
            rw [if_neg hmore]
            simp only [inHand, unrecorded, MaintenanceState.intent, MaintenanceCall.write] at *
            omega

/-- An operator's write. -/
theorem Counted.answers (h : Counted s) (i : ι) (now : UtcNanos) :
    Counted (s.step pool (.answers i now)) := by
  cases hheld : s.shared.held (.operator i) with
  | none => simpa only [step, hheld] using h
  | some held =>
    obtain ⟨call, seen⟩ := held
    have hstep : s.step pool (.answers i now) =
        { s with
          shared := ⟨call.write seen now, Function.update s.shared.held (.operator i) none⟩
          asked := askedAfter call
          rescheduled := s.rescheduled || isReschedule call } := by
      simp only [step, hheld, SharedRecord.step]
      rfl
    have hops := h.operators_of_step (.writes (.operator i) now) (by simp)
    simp only [SharedRecord.step, hheld] at hops
    have hworker : Function.update s.shared.held (.operator i) none .worker =
        s.shared.held .worker := Function.update_of_ne (by simp) _ _
    rw [hstep]
    rcases h.operators i call seen hheld with ⟨time, rfl, hpending⟩ | ⟨e, rfl⟩
    · -- a reschedule: only the promise about it is left to keep
      refine ⟨hops, h.recording, ?_, ?_, ?_, ?_, ?_⟩
      · intro call' seen' hheld'
        replace hheld' := hworker.symm.trans hheld'
        exact ⟨(h.worker call' seen' hheld').1, by simp [isReschedule]⟩
      · intro time' htime
        obtain rfl := Option.some.inj htime
        exact Or.inr ⟨hpending, rfl⟩
      · simp [isReschedule]
      · simp [isReschedule]
      · simp [isReschedule]
    · refine ⟨hops, h.recording, ?_, ?_, ?_, ?_, ?_⟩
      · intro call' seen' hheld'
        replace hheld' := hworker.symm.trans hheld'
        refine ⟨(h.worker call' seen' hheld').1, fun _ hafter => ?_⟩
        simp [MaintenanceState.intent, MaintenanceCall.write] at hafter
      · intro time' htime
        cases htime
      · intro _ hafter
        simp [MaintenanceState.intent, MaintenanceCall.write] at hafter
      · intro hfree hafter
        have hfree' : s.rescheduled = false := by simpa [isReschedule] using hfree
        have hbusy : s.worker ≠ .idle := by
          rcases hafter with hbusy | hafter
          · exact hbusy
          · simp [MaintenanceState.intent, MaintenanceCall.write] at hafter
        have hcounted := h.counted hfree' (Or.inl hbusy)
        cases hw : s.worker with
        | idle => exact absurd hw hbusy
        | inHand intent => simpa [inHand, unrecorded, hw] using hcounted
        | recording intent call tried => simpa [inHand, unrecorded, hw] using hcounted
      · intro hfree
        exact h.bounded (by simpa [isReschedule] using hfree)

theorem Counted.step (h : Counted s) (e : MaintenanceEvent ι) (hsafe : RecordsSafely s e) :
    Counted (s.step pool e) := by
  cases e with
  | lists now => exact h.lists now
  | tries p now => exact h.tries p now
  | reads => exact h.reads
  | writes now => exact h.writes now hsafe
  | givesUp => exact h.givesUp hsafe
  | asks i call => exact h.asks i call
  | answers i now => exact h.answers i now
  | fails i => exact h.fails i

theorem counted_stateAt {s₀ : MaintenanceState ι} {u : ℕ → MaintenanceEvent ι}
    (h₀ : Counted s₀) (hsafe : ∀ k, RecordsSafely (stateAt pool s₀ u k) (u k)) (k : ℕ) :
    Counted (stateAt pool s₀ u k) := by
  induction k with
  | zero => exact h₀
  | succ k ih => exact ih.step (u k) (hsafe k)

/-- A finished intent that becomes pending does so by a reschedule. -/
theorem Counted.revived (h : Counted s) {e : MaintenanceEvent ι} (hsafe : RecordsSafely s e)
    (hbefore : s.intent.status ≠ .pending) (hafter : (s.step pool e).intent.status = .pending) :
    ∃ i now time seen, e = .answers i now ∧
      s.shared.held (.operator i) = some (.reschedule time, seen) := by
  have hkeeps : ∀ e', written maintenanceRules s.shared e' = none →
      (SharedRecord.step maintenanceRules s.shared e').record.status ≠ .pending := by
    intro e' hnone
    rw [written_of_step, hnone]
    exact hbefore
  cases e with
  | lists now =>
    simp only [MaintenanceState.step] at hafter
    split at hafter
    · split at hafter
      · exact absurd hafter hbefore
      · exact absurd hafter hbefore
    · exact absurd hafter hbefore
  | tries p now =>
    simp only [MaintenanceState.step] at hafter
    split at hafter
    · exact absurd hafter hbefore
    · exact absurd hafter hbefore
  | reads =>
    simp only [MaintenanceState.step] at hafter
    split at hafter
    · exact absurd hafter (hkeeps _ rfl)
    · exact absurd hafter hbefore
  | writes now =>
    cases hheld : s.shared.held .worker with
    | none =>
      simp only [MaintenanceState.step, hheld] at hafter
      exact absurd hafter hbefore
    | some held =>
      by_cases hdone : held.1 = .markDone
      · simp [MaintenanceState.step, hheld, MaintenanceState.intent, SharedRecord.step, hdone,
          maintenanceRules, MaintenanceCall.write] at hafter
      · exact absurd (hsafe held.1 held.2 hheld hdone).1 hbefore
  | givesUp => exact absurd hafter hbefore
  | asks i call => exact absurd hafter (hkeeps _ rfl)
  | fails i => exact absurd hafter hbefore
  | answers i now =>
    cases hheld : s.shared.held (.operator i) with
    | none =>
      simp only [MaintenanceState.step, hheld] at hafter
      exact absurd hafter hbefore
    | some held =>
      obtain ⟨call, seen⟩ := held
      rcases h.operators i call seen hheld with ⟨time, rfl, -⟩ | ⟨e, rfl⟩
      · exact ⟨i, now, time, seen, rfl, hheld⟩
      · simp [MaintenanceState.step, hheld, MaintenanceState.intent, SharedRecord.step,
          maintenanceRules, MaintenanceCall.write] at hafter

/-- Slot `node1` on the local node. -/
def slotCleanup : MaintenancePayload :=
  .dropSlotCleanup "node1" "db0" "standby_down" "slot is active"

def twoNodes : NodePool := ⟨[⟨0, "db0"⟩, ⟨1, "db1"⟩], 0⟩

/-- The slot is still active. -/
def activeSlot : DropProbes := ⟨none, .ok (), .error "replication slot is active", false⟩

/-- The worker tries and records the failure; then the operator asks for another try, which the
worker makes. -/
def retriedAfterwards : ℕ → MaintenanceEvent ℕ
  | 0 => .lists 0
  | 1 => .tries activeSlot 1
  | 2 => .reads
  | 3 => .writes 2
  | 4 => .asks 0 (.reschedule 3)
  | 5 => .answers 0 4
  | _ => .lists 5

/-- The operator asks while the worker is trying. -/
def retriedMeanwhile : ℕ → MaintenanceEvent ℕ
  | 0 => .lists 0
  | 1 => .asks 0 (.reschedule 1)
  | 2 => .answers 0 2
  | 3 => .tries activeSlot 3
  | 4 => .reads
  | _ => .writes 4

end MaintenanceState

end PgAgent
