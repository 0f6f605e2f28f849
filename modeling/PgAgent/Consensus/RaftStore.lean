import Mathlib.Data.List.GetD
import Mathlib.Logic.Function.Basic
import PgAgent.Consensus.InMemory
import PgAgent.Consensus.Vacancy

/-!
# The store over Raft

`RaftConsensusStore` of `raftconsensus.rs`, with the leader's side of a forwarded request
(`raftnet.rs`).  Every operation is one of the Raft leader.  A node first asks its own Raft; if that
fails it sends the request, once, to the node that its Raft names as the leader, under a deadline.
The leader's side does not forward again.

A failed `client_write` says nothing about the command: the entry may have been appended, and may
be committed by the next leader.  A request whose answer is lost, or comes after the deadline, may
still be served.  So one operation can put its command into the log **twice, and at any time**,
also after its caller has been told of an error.

Raft itself is not part of the source.  What is used of it is in the guards of the steps: there is
one log of committed commands; a `client_write` commits its command at most once, and returns what
`apply` made of it; after `ensure_linearizable` the local state machine has applied all that was
committed before.  The entries that Raft writes for itself change nothing and are left out.

* `RaftNet.Consistent` --- what holds in every reachable state;
* `raftStore_linearizable` --- the answers are those of one store that does one operation after the
  other, in an order that keeps to real time;
* `takeovers_fenced` --- the two copies of a takeover do not both win, and no term is told to two
  callers.
-/

namespace PgAgent
namespace Consensus

/-! ## The committed log -/

/-- The two ways of a command into the log: the caller's own `client_write`, and the one of the
node that the request was forwarded to. -/
inductive Route where
  | own
  | forwarded
  deriving DecidableEq, Repr

/-- A committed command, with the call it comes from. -/
structure LogEntry where
  caller : ℕ
  route : Route
  command : ConsensusCommand
  deriving DecidableEq, Repr

/-- The commands of a log; what stands behind its end is not looked at. -/
def commandsOf (log : List LogEntry) (k : ℕ) : ConsensusCommand :=
  (log.map LogEntry.command).getD k (.setSwitchover none)

theorem commandsOf_append {log : List LogEntry} (more : List LogEntry) {k : ℕ}
    (hk : k < log.length) : commandsOf (log ++ more) k = commandsOf log k := by
  unfold commandsOf
  rw [List.map_append, List.getD_append _ _ _ _ (by simpa using hk)]

theorem commandsOf_of_getElem {log : List LogEntry} {k : ℕ} {e : LogEntry}
    (h : log[k]? = some e) : commandsOf log k = e.command := by
  simp [commandsOf, List.getD, h]

/-- The state before command `k` depends on the commands before it. -/
theorem stateAt_congr {cmds cmds' : ℕ → ConsensusCommand} {k : ℕ}
    (h : ∀ i < k, cmds i = cmds' i) : stateAt cmds k = stateAt cmds' k := by
  induction k with
  | zero => rfl
  | succ k ih =>
    rw [stateAt_succ, stateAt_succ, ih fun i hi => h i (by omega), h k (by omega)]

theorem stateAt_commandsOf_append {log : List LogEntry} (more : List LogEntry) {k : ℕ}
    (hk : k ≤ log.length) :
    stateAt (commandsOf (log ++ more)) k = stateAt (commandsOf log) k :=
  stateAt_congr fun i hi => commandsOf_append more (by omega)

theorem responseAt_commandsOf_append {log : List LogEntry} (more : List LogEntry) {k : ℕ}
    (hk : k < log.length) :
    responseAt (commandsOf (log ++ more)) k = responseAt (commandsOf log) k := by
  unfold responseAt
  rw [stateAt_commandsOf_append more (by omega), commandsOf_append more hk]

/-! ## Calls -/

/-- Why an operation returns an error. -/
inductive RaftStoreError where
  | noLeader (localErr : String)
  | viaLeader (message : String)
  | storage (message : String)
  | store (e : StoreError)
  deriving DecidableEq, Repr

/-- What an operation waits for, or how it has returned: with which answer, when, and how long the
log was. -/
inductive CallPhase (α : Type) where
  | waiting
  | forwarding
  | returned (answer : Except RaftStoreError α) (clock upTo : ℕ)

/-- A write on its way through `propose`: when it was called and how long the log was, whether its
request was sent on and has got to the other node, and where its command is in the log. -/
structure ProposeCall where
  op : StoreOp
  stamp : Timestamp
  clock : ℕ
  since : ℕ
  phase : CallPhase StoreReply
  sent : Bool
  arrived : Bool
  position : Route → Option ℕ

namespace ProposeCall

def command (call : ProposeCall) : ConsensusCommand := call.op.command call.stamp

/-- A `client_write` of the command has been made on this way. -/
def issued (call : ProposeCall) : Route → Bool
  | .own => true
  | .forwarded => call.arrived

/-- What the operation makes of the reply of the state machine. -/
def answer (call : ProposeCall) (log : List LogEntry) (k : ℕ) :
    Except RaftStoreError StoreReply :=
  (call.op.reply (responseAt (commandsOf log) k)).mapError .store

end ProposeCall

/-- What happens to a write: its own `client_write` returns, the request that was sent on arrives,
or its answer, or an error, comes back. -/
inductive ProposeEvent where
  | ownOk
  | ownErr (leader : Option String) (e : String)
  | arrives
  | forwardOk
  | forwardErr (e : String)
  deriving DecidableEq, Repr

/-- `propose`, from one await to the next. -/
def ProposeCall.next (clock : ℕ) (log : List LogEntry) (call : ProposeCall) :
    ProposeEvent → Option ProposeCall
  | .ownOk =>
      match call.phase, call.position .own with
      | .waiting, some k =>
          some { call with phase := .returned (call.answer log k) clock log.length }
      | _, _ => none
  | .ownErr leader e =>
      match call.phase with
      | .waiting =>
          match leader with
          | none => some { call with phase := .returned (.error (.noLeader e)) clock log.length }
          | some _ => some { call with phase := .forwarding, sent := true }
      | _ => none
  | .arrives => if call.sent && !call.arrived then some { call with arrived := true } else none
  | .forwardOk =>
      match call.phase, call.position .forwarded with
      | .forwarding, some k =>
          some { call with phase := .returned (call.answer log k) clock log.length }
      | _, _ => none
  | .forwardErr e =>
      match call.phase with
      | .forwarding =>
          some { call with phase := .returned (.error (.viaLeader e)) clock log.length }
      | _ => none

/-- A read, and what the leader has answered. -/
structure ReadCall where
  clock : ℕ
  since : ℕ
  phase : CallPhase ClusterState
  served : Option ClusterState

/-- What happens to a read.  The state that is read is that of a prefix of the log. -/
inductive ReadEvent where
  | ownOk (applied : ℕ)
  | ownStorageErr (e : String)
  | ownErr (leader : Option String) (e : String)
  | served (applied : ℕ)
  | forwardOk
  | forwardErr (e : String)
  deriving DecidableEq, Repr

/-- `read_state`, from one await to the next. -/
def ReadCall.next (clock : ℕ) (log : List LogEntry) (call : ReadCall) :
    ReadEvent → Option ReadCall
  | .ownOk applied =>
      match call.phase with
      | .waiting =>
          -- `ensure_linearizable` was asked after the call
          if call.since ≤ applied ∧ applied ≤ log.length then
            some { call with
              phase := .returned (.ok (stateAt (commandsOf log) applied)) clock log.length }
          else none
      | _ => none
  | .ownStorageErr e =>
      match call.phase with
      | .waiting => some { call with phase := .returned (.error (.storage e)) clock log.length }
      | _ => none
  | .ownErr leader e =>
      match call.phase with
      | .waiting =>
          match leader with
          | none => some { call with phase := .returned (.error (.noLeader e)) clock log.length }
          | some _ => some { call with phase := .forwarding }
      | _ => none
  | .served applied =>
      match call.phase with
      | .forwarding =>
          if call.since ≤ applied ∧ applied ≤ log.length then
            some { call with served := some (stateAt (commandsOf log) applied) }
          else none
      | _ => none
  | .forwardOk =>
      match call.phase, call.served with
      | .forwarding, some state =>
          some { call with phase := .returned (.ok state) clock log.length }
      | _, _ => none
  | .forwardErr e =>
      match call.phase with
      | .forwarding =>
          some { call with phase := .returned (.error (.viaLeader e)) clock log.length }
      | _ => none

/-! ## The net -/

/-- The log, and the calls of all nodes under their numbers.  The clock counts the steps. -/
structure RaftNet where
  clock : ℕ
  log : List LogEntry
  calls : ℕ → Option ProposeCall
  reads : ℕ → Option ReadCall

inductive NetEvent where
  | propose (i : ℕ) (op : StoreOp) (stamp : Timestamp)
  | read (i : ℕ)
  | call (i : ℕ) (event : ProposeEvent)
  | readCall (i : ℕ) (event : ReadEvent)
  | commits (i : ℕ) (route : Route)

namespace RaftNet

def initial : RaftNet := ⟨0, [], fun _ => none, fun _ => none⟩

/-- The command of a call that was put to Raft on this way is committed. -/
def commit (s : RaftNet) (i : ℕ) (route : Route) (call : ProposeCall) : Option RaftNet :=
  if call.issued route && (call.position route).isNone then
    some ⟨s.clock + 1, s.log ++ [⟨i, route, call.command⟩],
      Function.update s.calls i
        (some { call with position := Function.update call.position route (some s.log.length) }),
      s.reads⟩
  else none

def step (s : RaftNet) : NetEvent → Option RaftNet
  | .propose i op stamp =>
      if (s.calls i).isSome then none
      else
        some { s with
          clock := s.clock + 1
          calls := Function.update s.calls i
            (some ⟨op, stamp, s.clock, s.log.length, .waiting, false, false, fun _ => none⟩) }
  | .read i =>
      if (s.reads i).isSome then none
      else
        some { s with
          clock := s.clock + 1
          reads := Function.update s.reads i (some ⟨s.clock, s.log.length, .waiting, none⟩) }
  | .call i event =>
      (s.calls i).bind fun call => (call.next s.clock s.log event).map fun call' =>
        { s with clock := s.clock + 1, calls := Function.update s.calls i (some call') }
  | .readCall i event =>
      (s.reads i).bind fun call => (call.next s.clock s.log event).map fun call' =>
        { s with clock := s.clock + 1, reads := Function.update s.reads i (some call') }
  | .commits i route => (s.calls i).bind fun call => s.commit i route call

def Reachable (s : RaftNet) : Prop := Trace.Reachable (· = initial) step s

end RaftNet

/-! ## What holds of a call -/

/-- A write and the log: its commands are where it thinks they are, behind what was there when it
was called, and an answer is the reply to one of them, which was there when it came back. -/
structure CallOk (clock : ℕ) (log : List LogEntry) (i : ℕ) (call : ProposeCall) : Prop where
  called : call.clock < clock
  since_le : call.since ≤ log.length
  placed : ∀ route k, call.position route = some k →
    log[k]? = some ⟨i, route, call.command⟩ ∧ call.since ≤ k
  returned : ∀ answer at' upTo, call.phase = .returned answer at' upTo →
    at' < clock ∧ call.clock < at' ∧ upTo ≤ log.length ∧
      ∀ r, answer = .ok r → ∃ route k, call.position route = some k ∧ k < upTo ∧
        call.op.reply (responseAt (commandsOf log) k) = .ok r

/-- A read and the log: the state it returns is that of a prefix which has all that was there when
it was called. -/
structure ReadOk (clock : ℕ) (log : List LogEntry) (call : ReadCall) : Prop where
  called : call.clock < clock
  since_le : call.since ≤ log.length
  served : ∀ state, call.served = some state →
    ∃ p, call.since ≤ p ∧ p ≤ log.length ∧ state = stateAt (commandsOf log) p
  returned : ∀ answer at' upTo, call.phase = .returned answer at' upTo →
    at' < clock ∧ call.clock < at' ∧ upTo ≤ log.length ∧
      ∀ state, answer = .ok state →
        ∃ p, call.since ≤ p ∧ p ≤ upTo ∧ state = stateAt (commandsOf log) p

section Calls

variable {clock : ℕ} {log : List LogEntry} {i : ℕ}

/-- What holds of a call is kept when time goes on and others commit. -/
theorem CallOk.mono {call : ProposeCall} (h : CallOk clock log i call) (more : List LogEntry) :
    CallOk (clock + 1) (log ++ more) i call where
  called := Nat.lt_succ_of_lt h.called
  since_le := by
    have hle := h.since_le
    rw [List.length_append]
    omega
  placed route k hk := by
    obtain ⟨hentry, hsince⟩ := h.placed route k hk
    have hlt : k < log.length := (List.getElem?_eq_some_iff.mp hentry).1
    exact ⟨by rw [List.getElem?_append_left hlt, hentry], hsince⟩
  returned answer at' upTo hphase := by
    obtain ⟨hclock, hcalled, hupTo, hanswer⟩ := h.returned answer at' upTo hphase
    refine ⟨Nat.lt_succ_of_lt hclock, hcalled, ?_, fun r hr => ?_⟩
    · rw [List.length_append]
      omega
    · obtain ⟨route, k, hk, hlt, hreply⟩ := hanswer r hr
      refine ⟨route, k, hk, hlt, ?_⟩
      rw [responseAt_commandsOf_append more (by omega)]
      exact hreply

theorem ReadOk.mono {call : ReadCall} (h : ReadOk clock log call) (more : List LogEntry) :
    ReadOk (clock + 1) (log ++ more) call where
  called := Nat.lt_succ_of_lt h.called
  since_le := by
    have hle := h.since_le
    rw [List.length_append]
    omega
  served state hstate := by
    obtain ⟨p, hsince, hp, rfl⟩ := h.served state hstate
    refine ⟨p, hsince, ?_, (stateAt_commandsOf_append more hp).symm⟩
    rw [List.length_append]
    omega
  returned answer at' upTo hphase := by
    obtain ⟨hclock, hcalled, hupTo, hanswer⟩ := h.returned answer at' upTo hphase
    refine ⟨Nat.lt_succ_of_lt hclock, hcalled, ?_, fun state hstate => ?_⟩
    · rw [List.length_append]
      omega
    · obtain ⟨p, hsince, hp, rfl⟩ := hanswer state hstate
      exact ⟨p, hsince, hp, (stateAt_commandsOf_append more (by omega)).symm⟩

/-- Time alone. -/
theorem CallOk.tick {call : ProposeCall} (h : CallOk clock log i call) :
    CallOk (clock + 1) log i call := by
  simpa using h.mono []

theorem ReadOk.tick {call : ReadCall} (h : ReadOk clock log call) :
    ReadOk (clock + 1) log call := by
  simpa using h.mono []

theorem answer_eq_ok {call : ProposeCall} {k : ℕ} {r : StoreReply}
    (h : call.answer log k = .ok r) :
    call.op.reply (responseAt (commandsOf log) k) = .ok r := by
  unfold ProposeCall.answer at h
  rcases hreply : call.op.reply (responseAt (commandsOf log) k) with e | reply
  · rw [hreply] at h
    cases h
  · rw [hreply] at h
    obtain rfl : reply = r := Except.ok.inj h
    rfl

/-- A write that returns with the reply to one of its commands. -/
theorem CallOk.answered {call : ProposeCall} (h : CallOk clock log i call) {route : Route} {k : ℕ}
    (hk : call.position route = some k) :
    CallOk (clock + 1) log i
      { call with phase := .returned (call.answer log k) clock log.length } where
  called := Nat.lt_succ_of_lt h.called
  since_le := h.since_le
  placed := h.placed
  returned answer at' upTo hphase := by
    obtain ⟨rfl, rfl, rfl⟩ := CallPhase.returned.inj hphase
    refine ⟨Nat.lt_succ_self _, h.called, le_rfl, fun r hr => ?_⟩
    have hlt : k < log.length := (List.getElem?_eq_some_iff.mp (h.placed route k hk).1).1
    exact ⟨route, k, hk, hlt, answer_eq_ok hr⟩

/-- A write that returns with an error, whatever has become of its command. -/
theorem CallOk.failed {call : ProposeCall} (h : CallOk clock log i call) (e : RaftStoreError) :
    CallOk (clock + 1) log i { call with phase := .returned (.error e) clock log.length } where
  called := Nat.lt_succ_of_lt h.called
  since_le := h.since_le
  placed := h.placed
  returned answer at' upTo hphase := by
    obtain ⟨rfl, rfl, rfl⟩ := CallPhase.returned.inj hphase
    exact ⟨Nat.lt_succ_self _, h.called, le_rfl, fun r hr => by cases hr⟩

theorem CallOk.next {call call' : ProposeCall} (h : CallOk clock log i call) {event : ProposeEvent}
    (hnext : call.next clock log event = some call') : CallOk (clock + 1) log i call' := by
  rcases event with _ | ⟨leader, e⟩ | _ | _ | e
  · simp only [ProposeCall.next] at hnext
    split at hnext
    · rename_i k hphase hk
      obtain rfl := Option.some.inj hnext
      exact h.answered hk
    · cases hnext
  · simp only [ProposeCall.next] at hnext
    split at hnext
    · rcases leader with _ | addr
      · obtain rfl := Option.some.inj hnext
        exact h.failed (.noLeader e)
      · obtain rfl := Option.some.inj hnext
        have htick := h.tick
        exact ⟨htick.called, htick.since_le, htick.placed, fun _ _ _ hphase => by cases hphase⟩
    · cases hnext
  · simp only [ProposeCall.next] at hnext
    split at hnext
    · obtain rfl := Option.some.inj hnext
      have htick := h.tick
      exact ⟨htick.called, htick.since_le, htick.placed, htick.returned⟩
    · cases hnext
  · simp only [ProposeCall.next] at hnext
    split at hnext
    · rename_i k hphase hk
      obtain rfl := Option.some.inj hnext
      exact h.answered hk
    · cases hnext
  · simp only [ProposeCall.next] at hnext
    split at hnext
    · obtain rfl := Option.some.inj hnext
      exact h.failed (.viaLeader e)
    · cases hnext

/-- A read that returns the state of a prefix. -/
theorem ReadOk.answered {call : ReadCall} (h : ReadOk clock log call) {p : ℕ}
    (hsince : call.since ≤ p) (hp : p ≤ log.length) :
    ReadOk (clock + 1) log
      { call with phase := .returned (.ok (stateAt (commandsOf log) p)) clock log.length } where
  called := Nat.lt_succ_of_lt h.called
  since_le := h.since_le
  served := h.served
  returned answer at' upTo hphase := by
    obtain ⟨rfl, rfl, rfl⟩ := CallPhase.returned.inj hphase
    refine ⟨Nat.lt_succ_self _, h.called, le_rfl, fun state hstate => ?_⟩
    obtain rfl := Except.ok.inj hstate
    exact ⟨p, hsince, hp, rfl⟩

theorem ReadOk.failed {call : ReadCall} (h : ReadOk clock log call) (e : RaftStoreError) :
    ReadOk (clock + 1) log { call with phase := .returned (.error e) clock log.length } where
  called := Nat.lt_succ_of_lt h.called
  since_le := h.since_le
  served := h.served
  returned answer at' upTo hphase := by
    obtain ⟨rfl, rfl, rfl⟩ := CallPhase.returned.inj hphase
    exact ⟨Nat.lt_succ_self _, h.called, le_rfl, fun state hstate => by cases hstate⟩

theorem ReadOk.next {call call' : ReadCall} (h : ReadOk clock log call) {event : ReadEvent}
    (hnext : call.next clock log event = some call') : ReadOk (clock + 1) log call' := by
  have htick := h.tick
  rcases event with p | e | ⟨leader, e⟩ | p | _ | e
  · simp only [ReadCall.next] at hnext
    split at hnext
    · split at hnext
      · rename_i hp
        obtain rfl := Option.some.inj hnext
        exact h.answered hp.1 hp.2
      · cases hnext
    · cases hnext
  · simp only [ReadCall.next] at hnext
    split at hnext
    · obtain rfl := Option.some.inj hnext
      exact h.failed (.storage e)
    · cases hnext
  · simp only [ReadCall.next] at hnext
    split at hnext
    · rcases leader with _ | addr
      · obtain rfl := Option.some.inj hnext
        exact h.failed (.noLeader e)
      · obtain rfl := Option.some.inj hnext
        exact ⟨htick.called, htick.since_le, htick.served, fun _ _ _ hphase => by cases hphase⟩
    · cases hnext
  · simp only [ReadCall.next] at hnext
    split at hnext
    · split at hnext
      · rename_i hp
        obtain rfl := Option.some.inj hnext
        refine ⟨htick.called, htick.since_le, fun state hstate => ?_, htick.returned⟩
        obtain rfl := Option.some.inj hstate
        exact ⟨p, hp.1, hp.2, rfl⟩
      · cases hnext
    · cases hnext
  · simp only [ReadCall.next] at hnext
    split at hnext
    · rename_i state hphase hserved
      obtain rfl := Option.some.inj hnext
      obtain ⟨p, hsince, hp, rfl⟩ := h.served state hserved
      exact h.answered hsince hp
    · cases hnext
  · simp only [ReadCall.next] at hnext
    split at hnext
    · obtain rfl := Option.some.inj hnext
      exact h.failed (.viaLeader e)
    · cases hnext

end Calls

/-- What no event of a write changes, and that it returns at the time of the event. -/
theorem ProposeCall.next_frame {clock : ℕ} {log : List LogEntry} {call call' : ProposeCall}
    {event : ProposeEvent} (h : call.next clock log event = some call') :
    call'.clock = call.clock ∧ call'.since = call.since ∧ call'.position = call.position ∧
      ∀ answer a u, call'.phase = .returned answer a u →
        call.phase = .returned answer a u ∨ a = clock := by
  have hreturns : ∀ answer, some { call with phase := .returned answer clock log.length } =
      some call' → call'.clock = call.clock ∧ call'.since = call.since ∧
        call'.position = call.position ∧ ∀ answer a u, call'.phase = .returned answer a u →
          call.phase = .returned answer a u ∨ a = clock := by
    intro answer heq
    obtain rfl := Option.some.inj heq
    refine ⟨rfl, rfl, rfl, fun answer a u hphase => Or.inr ?_⟩
    exact (CallPhase.returned.inj hphase).2.1.symm
  rcases event with _ | ⟨leader, e⟩ | _ | _ | e
  · simp only [ProposeCall.next] at h
    split at h
    · exact hreturns _ h
    · cases h
  · simp only [ProposeCall.next] at h
    split at h
    · rcases leader with _ | addr
      · exact hreturns _ h
      · obtain rfl := Option.some.inj h
        exact ⟨rfl, rfl, rfl, fun answer a u hphase => by cases hphase⟩
    · cases h
  · simp only [ProposeCall.next] at h
    split at h
    · obtain rfl := Option.some.inj h
      exact ⟨rfl, rfl, rfl, fun answer a u hphase => Or.inl hphase⟩
    · cases h
  · simp only [ProposeCall.next] at h
    split at h
    · exact hreturns _ h
    · cases h
  · simp only [ProposeCall.next] at h
    split at h
    · exact hreturns _ h
    · cases h

theorem ReadCall.next_frame {clock : ℕ} {log : List LogEntry} {call call' : ReadCall}
    {event : ReadEvent} (h : call.next clock log event = some call') :
    call'.clock = call.clock ∧ call'.since = call.since ∧
      ∀ answer a u, call'.phase = .returned answer a u →
        call.phase = .returned answer a u ∨ a = clock := by
  have hreturns : ∀ answer, some { call with phase := .returned answer clock log.length } =
      some call' → call'.clock = call.clock ∧ call'.since = call.since ∧
        ∀ answer a u, call'.phase = .returned answer a u →
          call.phase = .returned answer a u ∨ a = clock := by
    intro answer heq
    obtain rfl := Option.some.inj heq
    refine ⟨rfl, rfl, fun answer a u hphase => Or.inr ?_⟩
    exact (CallPhase.returned.inj hphase).2.1.symm
  rcases event with p | e | ⟨leader, e⟩ | p | _ | e
  · simp only [ReadCall.next] at h
    split at h
    · split at h
      · exact hreturns _ h
      · cases h
    · cases h
  · simp only [ReadCall.next] at h
    split at h
    · exact hreturns _ h
    · cases h
  · simp only [ReadCall.next] at h
    split at h
    · rcases leader with _ | addr
      · exact hreturns _ h
      · obtain rfl := Option.some.inj h
        exact ⟨rfl, rfl, fun answer a u hphase => by cases hphase⟩
    · cases h
  · simp only [ReadCall.next] at h
    split at h
    · split at h
      · obtain rfl := Option.some.inj h
        exact ⟨rfl, rfl, fun answer a u hphase => Or.inl hphase⟩
      · cases h
    · cases h
  · simp only [ReadCall.next] at h
    split at h
    · exact hreturns _ h
    · cases h
  · simp only [ReadCall.next] at h
    split at h
    · exact hreturns _ h
    · cases h

/-! ## What holds of the net -/

namespace RaftNet

/-- Some call was made at this time, when the log had this length. -/
def Called (s : RaftNet) (c n : ℕ) : Prop :=
  (∃ i call, s.calls i = some call ∧ call.clock = c ∧ call.since = n) ∨
    ∃ j call, s.reads j = some call ∧ call.clock = c ∧ call.since = n

/-- Some call returned at this time, when the log had this length. -/
def Returned (s : RaftNet) (a u : ℕ) : Prop :=
  (∃ i call answer, s.calls i = some call ∧ call.phase = .returned answer a u) ∨
    ∃ j call answer, s.reads j = some call ∧ call.phase = .returned answer a u

/-- The calls and the log agree: each entry is of a call that knows of it, and what had returned
before a call was made had seen no more of the log than was there then. -/
structure Consistent (s : RaftNet) : Prop where
  calls : ∀ i call, s.calls i = some call → CallOk s.clock s.log i call
  reads : ∀ j call, s.reads j = some call → ReadOk s.clock s.log call
  entries : ∀ k e, s.log[k]? = some e →
    ∃ call, s.calls e.caller = some call ∧ call.position e.route = some k
  realTime : ∀ a u c n, s.Returned a u → s.Called c n → a < c → u ≤ n

theorem consistent_initial : Consistent initial where
  calls i call h := by cases h
  reads j call h := by cases h
  entries k e h := by simp [initial] at h
  realTime a u c n h := by
    rcases h with ⟨i, call, answer, hcall, -⟩ | ⟨j, call, answer, hcall, -⟩
    · cases hcall
    · cases hcall

theorem Consistent.called_lt {s : RaftNet} (h : s.Consistent) {c n : ℕ} (hc : s.Called c n) :
    c < s.clock := by
  rcases hc with ⟨i, call, hcall, rfl, -⟩ | ⟨j, call, hcall, rfl, -⟩
  · exact (h.calls i call hcall).called
  · exact (h.reads j call hcall).called

theorem Consistent.returned_le {s : RaftNet} (h : s.Consistent) {a u : ℕ} (ha : s.Returned a u) :
    u ≤ s.log.length := by
  rcases ha with ⟨i, call, answer, hcall, hphase⟩ | ⟨j, call, answer, hcall, hphase⟩
  · exact ((h.calls i call hcall).returned answer a u hphase).2.2.1
  · exact ((h.reads j call hcall).returned answer a u hphase).2.2.1

/-- Calls are made and return now, if they were not before. -/
theorem Consistent.realTime_of_step {s s' : RaftNet} (h : s.Consistent)
    (hcalled : ∀ c n, s'.Called c n → s.Called c n ∨ c = s.clock ∧ n = s.log.length)
    (hreturned : ∀ a u, s'.Returned a u → s.Returned a u ∨ a = s.clock) :
    ∀ a u c n, s'.Returned a u → s'.Called c n → a < c → u ≤ n := by
  intro a u c n ha hc hlt
  have hcle : c ≤ s.clock := by
    rcases hcalled c n hc with hc | ⟨rfl, -⟩
    · exact (h.called_lt hc).le
    · exact le_rfl
  rcases hreturned a u ha with ha | rfl
  · rcases hcalled c n hc with hc | ⟨rfl, rfl⟩
    · exact h.realTime a u c n ha hc hlt
    · exact h.returned_le ha
  · omega

/-- A write is made, or goes on, and the log stays as it is. -/
theorem Consistent.setCall {s : RaftNet} (h : s.Consistent) {i : ℕ} {call' : ProposeCall}
    (hok : CallOk (s.clock + 1) s.log i call')
    (hposition : ∀ call, s.calls i = some call → call'.position = call.position)
    (hcalled : (∃ call, s.calls i = some call ∧ call'.clock = call.clock ∧
      call'.since = call.since) ∨ call'.clock = s.clock ∧ call'.since = s.log.length)
    (hreturned : ∀ answer a u, call'.phase = .returned answer a u →
      (∃ call, s.calls i = some call ∧ call.phase = .returned answer a u) ∨ a = s.clock) :
    Consistent { s with
      clock := s.clock + 1, calls := Function.update s.calls i (some call') } where
  calls j call hcall := by
    by_cases hj : j = i
    · subst hj
      simp only [Function.update_self, Option.some.injEq] at hcall
      subst hcall
      exact hok
    · simp only [Function.update_of_ne hj] at hcall
      exact (h.calls j call hcall).tick
  reads j call hcall := (h.reads j call hcall).tick
  entries k e he := by
    obtain ⟨call, hcall, hk⟩ := h.entries k e he
    by_cases hj : e.caller = i
    · refine ⟨call', by simp [hj], ?_⟩
      rw [hposition call (hj ▸ hcall)]
      exact hk
    · exact ⟨call, by simp [Function.update_of_ne hj, hcall], hk⟩
  realTime := by
    refine h.realTime_of_step ?_ ?_
    · rintro c n (⟨j, call, hcall, hc, hn⟩ | hread)
      · by_cases hj : j = i
        · subst hj
          simp only [Function.update_self, Option.some.injEq] at hcall
          subst hcall
          rcases hcalled with ⟨call, hold, hclock, hsince⟩ | ⟨hclock, hsince⟩
          · exact Or.inl (Or.inl ⟨j, call, hold, hclock ▸ hc, hsince ▸ hn⟩)
          · exact Or.inr ⟨hc ▸ hclock, hn ▸ hsince⟩
        · simp only [Function.update_of_ne hj] at hcall
          exact Or.inl (Or.inl ⟨j, call, hcall, hc, hn⟩)
      · exact Or.inl (Or.inr hread)
    · rintro a u (⟨j, call, answer, hcall, hphase⟩ | hread)
      · by_cases hj : j = i
        · subst hj
          simp only [Function.update_self, Option.some.injEq] at hcall
          subst hcall
          rcases hreturned answer a u hphase with ⟨call, hold, hphase⟩ | ha
          · exact Or.inl (Or.inl ⟨j, call, answer, hold, hphase⟩)
          · exact Or.inr ha
        · simp only [Function.update_of_ne hj] at hcall
          exact Or.inl (Or.inl ⟨j, call, answer, hcall, hphase⟩)
      · exact Or.inl (Or.inr hread)

/-- A read is made, or goes on. -/
theorem Consistent.setRead {s : RaftNet} (h : s.Consistent) {i : ℕ} {call' : ReadCall}
    (hok : ReadOk (s.clock + 1) s.log call')
    (hcalled : (∃ call, s.reads i = some call ∧ call'.clock = call.clock ∧
      call'.since = call.since) ∨ call'.clock = s.clock ∧ call'.since = s.log.length)
    (hreturned : ∀ answer a u, call'.phase = .returned answer a u →
      (∃ call, s.reads i = some call ∧ call.phase = .returned answer a u) ∨ a = s.clock) :
    Consistent { s with
      clock := s.clock + 1, reads := Function.update s.reads i (some call') } where
  calls j call hcall := (h.calls j call hcall).tick
  reads j call hcall := by
    by_cases hj : j = i
    · subst hj
      simp only [Function.update_self, Option.some.injEq] at hcall
      subst hcall
      exact hok
    · simp only [Function.update_of_ne hj] at hcall
      exact (h.reads j call hcall).tick
  entries := h.entries
  realTime := by
    refine h.realTime_of_step ?_ ?_
    · rintro c n (hwrite | ⟨j, call, hcall, hc, hn⟩)
      · exact Or.inl (Or.inl hwrite)
      · by_cases hj : j = i
        · subst hj
          simp only [Function.update_self, Option.some.injEq] at hcall
          subst hcall
          rcases hcalled with ⟨call, hold, hclock, hsince⟩ | ⟨hclock, hsince⟩
          · exact Or.inl (Or.inr ⟨j, call, hold, hclock ▸ hc, hsince ▸ hn⟩)
          · exact Or.inr ⟨hc ▸ hclock, hn ▸ hsince⟩
        · simp only [Function.update_of_ne hj] at hcall
          exact Or.inl (Or.inr ⟨j, call, hcall, hc, hn⟩)
    · rintro a u (hwrite | ⟨j, call, answer, hcall, hphase⟩)
      · exact Or.inl (Or.inl hwrite)
      · by_cases hj : j = i
        · subst hj
          simp only [Function.update_self, Option.some.injEq] at hcall
          subst hcall
          rcases hreturned answer a u hphase with ⟨call, hold, hphase⟩ | ha
          · exact Or.inl (Or.inr ⟨j, call, answer, hold, hphase⟩)
          · exact Or.inr ha
        · simp only [Function.update_of_ne hj] at hcall
          exact Or.inl (Or.inr ⟨j, call, answer, hcall, hphase⟩)

/-- The command of a call is committed. -/
theorem Consistent.commit {s s' : RaftNet} (h : s.Consistent) {i : ℕ} {route : Route}
    {call : ProposeCall} (hcall : s.calls i = some call)
    (hcommit : s.commit i route call = some s') :
    s'.Consistent := by
  unfold RaftNet.commit at hcommit
  split at hcommit
  · rename_i hguard
    rw [Bool.and_eq_true, Option.isNone_iff_eq_none] at hguard
    obtain rfl := Option.some.inj hcommit
    have hold := (h.calls i call hcall).mono [⟨i, route, call.command⟩]
    have hsince := (h.calls i call hcall).since_le
    refine ⟨?_, fun j read hread => (h.reads j read hread).mono _, ?_, ?_⟩
    · intro j other hother
      by_cases hj : j = i
      · subst hj
        simp only [Function.update_self, Option.some.injEq] at hother
        subst hother
        refine ⟨hold.called, hold.since_le, ?_, ?_⟩
        · intro route' k hk
          by_cases hroute : route' = route
          · subst hroute
            simp only [Function.update_self, Option.some.injEq] at hk
            subst hk
            exact ⟨by simp [ProposeCall.command], hsince⟩
          · simp only [Function.update_of_ne hroute] at hk
            exact hold.placed route' k hk
        · intro answer a u hphase
          obtain ⟨hclock, hcalled, hupTo, hanswer⟩ := hold.returned answer a u hphase
          refine ⟨hclock, hcalled, hupTo, fun r hr => ?_⟩
          obtain ⟨route', k, hk, hlt, hreply⟩ := hanswer r hr
          refine ⟨route', k, ?_, hlt, hreply⟩
          have hne : route' ≠ route := by
            rintro rfl
            rw [hguard.2] at hk
            cases hk
          simp only [Function.update_of_ne hne]
          exact hk
      · simp only [Function.update_of_ne hj] at hother
        exact (h.calls j other hother).mono _
    · intro k e he
      rcases Nat.lt_or_ge k s.log.length with hlt | hge
      · rw [List.getElem?_append_left hlt] at he
        obtain ⟨other, hother, hk⟩ := h.entries k e he
        by_cases hj : e.caller = i
        · refine ⟨{ call with
            position := Function.update call.position route (some s.log.length) },
            by simp [hj], ?_⟩
          obtain rfl : call = other := by
            rw [hj, hcall] at hother
            exact Option.some.inj hother
          have hne : e.route ≠ route := by
            rintro rfl
            rw [hguard.2] at hk
            cases hk
          simp only [Function.update_of_ne hne]
          exact hk
        · exact ⟨other, by simp [Function.update_of_ne hj, hother], hk⟩
      · rw [List.getElem?_append_right hge] at he
        obtain ⟨hzero, rfl⟩ : k - s.log.length = 0 ∧
            (⟨i, route, call.command⟩ : LogEntry) = e := by
          rcases hk : k - s.log.length with _ | m
          · rw [hk] at he
            exact ⟨rfl, Option.some.inj he⟩
          · rw [hk] at he
            simp at he
        refine ⟨{ call with position := Function.update call.position route (some s.log.length) },
          by simp, ?_⟩
        obtain rfl : k = s.log.length := by omega
        simp
    · refine h.realTime_of_step ?_ ?_
      · rintro c n (⟨j, other, hother, hc, hn⟩ | hread)
        · by_cases hj : j = i
          · subst hj
            simp only [Function.update_self, Option.some.injEq] at hother
            subst hother
            exact Or.inl (Or.inl ⟨j, call, hcall, hc, hn⟩)
          · simp only [Function.update_of_ne hj] at hother
            exact Or.inl (Or.inl ⟨j, other, hother, hc, hn⟩)
        · exact Or.inl (Or.inr hread)
      · rintro a u (⟨j, other, answer, hother, hphase⟩ | hread)
        · by_cases hj : j = i
          · subst hj
            simp only [Function.update_self, Option.some.injEq] at hother
            subst hother
            exact Or.inl (Or.inl ⟨j, call, answer, hcall, hphase⟩)
          · simp only [Function.update_of_ne hj] at hother
            exact Or.inl (Or.inl ⟨j, other, answer, hother, hphase⟩)
        · exact Or.inl (Or.inr hread)
  · cases hcommit

theorem Consistent.step {s s' : RaftNet} {event : NetEvent} (h : s.Consistent)
    (hstep : s.step event = some s') : s'.Consistent := by
  rcases event with ⟨i, op, stamp⟩ | i | ⟨i, event⟩ | ⟨i, event⟩ | ⟨i, route⟩
  · simp only [RaftNet.step] at hstep
    split at hstep
    · cases hstep
    · rename_i hfree
      rw [Bool.not_eq_true, Option.isSome_eq_false_iff, Option.isNone_iff_eq_none] at hfree
      obtain rfl := Option.some.inj hstep
      refine h.setCall ⟨Nat.lt_succ_self _, le_rfl, fun route k hk => (by cases hk),
        fun answer a u hphase => (by cases hphase)⟩ ?_ (Or.inr ⟨rfl, rfl⟩) ?_
      · intro call hcall
        rw [hfree] at hcall
        cases hcall
      · intro answer a u hphase
        cases hphase
  · simp only [RaftNet.step] at hstep
    split at hstep
    · cases hstep
    · obtain rfl := Option.some.inj hstep
      refine h.setRead ⟨Nat.lt_succ_self _, le_rfl, fun state hstate => (by cases hstate),
        fun answer a u hphase => (by cases hphase)⟩ (Or.inr ⟨rfl, rfl⟩) ?_
      intro answer a u hphase
      cases hphase
  · simp only [RaftNet.step, Option.bind_eq_some_iff, Option.map_eq_some_iff] at hstep
    obtain ⟨call, hcall, call', hnext, rfl⟩ := hstep
    obtain ⟨hclock, hsince, hposition, hreturned⟩ := ProposeCall.next_frame hnext
    refine h.setCall ((h.calls i call hcall).next hnext) ?_
      (Or.inl ⟨call, hcall, hclock, hsince⟩) ?_
    · intro old hold
      rw [hcall] at hold
      obtain rfl := Option.some.inj hold
      exact hposition
    · intro answer a u hphase
      rcases hreturned answer a u hphase with hold | ha
      · exact Or.inl ⟨call, hcall, hold⟩
      · exact Or.inr ha
  · simp only [RaftNet.step, Option.bind_eq_some_iff, Option.map_eq_some_iff] at hstep
    obtain ⟨call, hcall, call', hnext, rfl⟩ := hstep
    obtain ⟨hclock, hsince, hreturned⟩ := ReadCall.next_frame hnext
    refine h.setRead ((h.reads i call hcall).next hnext)
      (Or.inl ⟨call, hcall, hclock, hsince⟩) ?_
    intro answer a u hphase
    rcases hreturned answer a u hphase with hold | ha
    · exact Or.inl ⟨call, hcall, hold⟩
    · exact Or.inr ha
  · simp only [RaftNet.step, Option.bind_eq_some_iff] at hstep
    obtain ⟨call, hcall, hcommit⟩ := hstep
    exact h.commit hcall hcommit

/-- The calls and the log agree in every state that can be reached. -/
theorem consistent_of_reachable {s : RaftNet} (h : s.Reachable) : s.Consistent :=
  Trace.Reachable.invariant (fun _ hinit => hinit ▸ consistent_initial)
    (fun _ _ _ hconsistent hstep => hconsistent.step hstep) h

/-! ## One operation after the other -/

/-- Write `i` has returned `r`, at time `a`. -/
def Answers (s : RaftNet) (i : ℕ) (call : ProposeCall) (r : StoreReply) (a : ℕ) : Prop :=
  s.calls i = some call ∧ ∃ u, call.phase = .returned (.ok r) a u

/-- Read `j` has returned the state, at time `a`. -/
def Reads (s : RaftNet) (j : ℕ) (call : ReadCall) (state : ClusterState) (a : ℕ) : Prop :=
  s.reads j = some call ∧ ∃ u, call.phase = .returned (.ok state) a u

/-- The place of an answered write: one of its entries, within the time of the call. -/
theorem Consistent.exists_place {s : RaftNet} (h : s.Consistent) (i : ℕ) :
    ∃ k, ∀ call r a u, s.calls i = some call → call.phase = .returned (.ok r) a u →
      (∃ route, s.log[k]? = some ⟨i, route, call.command⟩) ∧
        call.op.reply (responseAt (commandsOf s.log) k) = .ok r ∧ call.since ≤ k ∧ k < u := by
  by_cases hanswered : ∃ call r a u, s.calls i = some call ∧ call.phase = .returned (.ok r) a u
  · obtain ⟨call, r, a, u, hcall, hphase⟩ := hanswered
    have hok := h.calls i call hcall
    obtain ⟨-, -, -, hanswer⟩ := hok.returned (.ok r) a u hphase
    obtain ⟨route, k, hk, hlt, hreply⟩ := hanswer r rfl
    obtain ⟨hentry, hsince⟩ := hok.placed route k hk
    refine ⟨k, fun call' r' a' u' hcall' hphase' => ?_⟩
    rw [hcall] at hcall'
    obtain rfl := Option.some.inj hcall'
    rw [hphase] at hphase'
    obtain ⟨hanswer, -, rfl⟩ := CallPhase.returned.inj hphase'
    obtain rfl := Except.ok.inj hanswer
    exact ⟨⟨route, hentry⟩, hreply, hsince, hlt⟩
  · exact ⟨0, fun call r a u hcall hphase =>
      absurd ⟨call, r, a, u, hcall, hphase⟩ hanswered⟩

/-- The prefix that an answered read has seen. -/
theorem Consistent.exists_seen {s : RaftNet} (h : s.Consistent) (j : ℕ) :
    ∃ p, ∀ call state a u, s.reads j = some call → call.phase = .returned (.ok state) a u →
      state = stateAt (commandsOf s.log) p ∧ call.since ≤ p ∧ p ≤ u := by
  by_cases hanswered : ∃ call state a u, s.reads j = some call ∧
      call.phase = .returned (.ok state) a u
  · obtain ⟨call, state, a, u, hcall, hphase⟩ := hanswered
    obtain ⟨-, -, -, hanswer⟩ := (h.reads j call hcall).returned (.ok state) a u hphase
    obtain ⟨p, hsince, hp, hstate⟩ := hanswer state rfl
    refine ⟨p, fun call' state' a' u' hcall' hphase' => ?_⟩
    rw [hcall] at hcall'
    obtain rfl := Option.some.inj hcall'
    rw [hphase] at hphase'
    obtain ⟨hanswer, -, rfl⟩ := CallPhase.returned.inj hphase'
    obtain rfl := Except.ok.inj hanswer
    exact ⟨hstate, hsince, hp⟩
  · exact ⟨0, fun call state a u hcall hphase =>
      absurd ⟨call, state, a, u, hcall, hphase⟩ hanswered⟩

/-- The store over Raft **is linearizable**, whatever is lost, late or done twice: each answered
write has a place in the log, and its answer is the one the state machine gives there; each
answered read returns the state of a prefix of the log; and of two operations of which one had
returned before the other was called, the places come in this order. -/
theorem raftStore_linearizable {s : RaftNet} (h : s.Reachable) :
    ∃ place seen : ℕ → ℕ,
      (∀ i call r a, s.Answers i call r a →
        (∃ route, s.log[place i]? = some ⟨i, route, call.command⟩) ∧
          call.op.reply (responseAt (commandsOf s.log) (place i)) = .ok r) ∧
      (∀ j call state a, s.Reads j call state a →
        state = stateAt (commandsOf s.log) (seen j)) ∧
      (∀ i call r a i' call' r' a', s.Answers i call r a → s.Answers i' call' r' a' →
        a < call'.clock → place i < place i') ∧
      (∀ i call r a j read state b, s.Answers i call r a → s.Reads j read state b →
        (a < read.clock → place i < seen j) ∧ (b < call.clock → seen j ≤ place i)) ∧
      ∀ j read state b j' read' state' b', s.Reads j read state b →
        s.Reads j' read' state' b' →
        b < read'.clock → seen j ≤ seen j' := by
  have hconsistent := consistent_of_reachable h
  choose place hplace using hconsistent.exists_place
  choose seen hseen using hconsistent.exists_seen
  refine ⟨place, seen, ?_, ?_, ?_, ?_, ?_⟩
  · rintro i call r a ⟨hcall, u, hphase⟩
    obtain ⟨hentry, hreply, -, -⟩ := hplace i call r a u hcall hphase
    exact ⟨hentry, hreply⟩
  · rintro j call state a ⟨hcall, u, hphase⟩
    exact (hseen j call state a u hcall hphase).1
  · rintro i call r a i' call' r' a' ⟨hcall, u, hphase⟩ ⟨hcall', u', hphase'⟩ hlt
    obtain ⟨-, -, -, hplace₁⟩ := hplace i call r a u hcall hphase
    obtain ⟨-, -, hplace₂, -⟩ := hplace i' call' r' a' u' hcall' hphase'
    have htime := hconsistent.realTime a u call'.clock call'.since
      (Or.inl ⟨i, call, _, hcall, hphase⟩) (Or.inl ⟨i', call', hcall', rfl, rfl⟩) hlt
    omega
  · rintro i call r a j read state b ⟨hcall, u, hphase⟩ ⟨hread, v, hphase'⟩
    obtain ⟨-, -, hsince, hlt⟩ := hplace i call r a u hcall hphase
    obtain ⟨-, hsince', hle⟩ := hseen j read state b v hread hphase'
    constructor
    · intro hbefore
      have htime := hconsistent.realTime a u read.clock read.since
        (Or.inl ⟨i, call, _, hcall, hphase⟩) (Or.inr ⟨j, read, hread, rfl, rfl⟩) hbefore
      omega
    · intro hbefore
      have htime := hconsistent.realTime b v call.clock call.since
        (Or.inr ⟨j, read, _, hread, hphase'⟩) (Or.inl ⟨i, call, hcall, rfl, rfl⟩) hbefore
      omega
  · rintro j read state b j' read' state' b' ⟨hread, v, hphase⟩
      ⟨hread', v', hphase'⟩ hbefore
    obtain ⟨-, -, hle⟩ := hseen j read state b v hread hphase
    obtain ⟨-, hsince, -⟩ := hseen j' read' state' b' v' hread' hphase'
    have htime := hconsistent.realTime b v read'.clock read'.since
      (Or.inr ⟨j, read, _, hread, hphase⟩) (Or.inr ⟨j', read', hread', rfl, rfl⟩) hbefore
    omega

/-! ## The copies of a takeover -/

/-- A takeover that expects a lease wins at one place of a log at the most. -/
theorem wonAt_unique {cmds : ℕ → ConsensusCommand} {k k' : ℕ} {l l' : Lease} {cand : NodeId}
    {e : NodeId × UInt64} {stamp : Timestamp} (hk : cmds k = .takeover cand (some e) stamp)
    (hk' : cmds k' = cmds k) (hwon : WonAt cmds k l) (hwon' : WonAt cmds k' l')
    (hlt : k < k') (hn : k' + 1 < 2 ^ 64) : False := by
  obtain ⟨h, t⟩ := e
  -- what the first copy found was minted before it, so its own term is a later one
  obtain ⟨i₀, hi₀, ⟨l₀, hwon₀, hmatch₀⟩, -⟩ :=
    hwon.exists_unbroken hk
  have hlater : l₀.term < l.term := hwon₀.term_lt hwon hi₀ (by omega)
  obtain ⟨i, hi, ⟨l₁, hwon₁, hmatch₁⟩, hunbroken⟩ :=
    hwon'.exists_unbroken (hk'.trans hk)
  have hterms : l₁.term = l₀.term := by rw [hmatch₁.2, hmatch₀.2]
  rcases lt_trichotomy i k with hik | rfl | hki
  · obtain ⟨cur, hcur, hmatch⟩ := hunbroken (k + 1) (by omega) (by omega)
    have hnew : (stateAt cmds (k + 1)).lease = some l := hwon.lease_succ
    rw [hnew] at hcur
    obtain rfl := Option.some.inj hcur
    rw [hmatch.2, ← hmatch₀.2] at hlater
    exact UInt64.lt_irrefl _ hlater
  · obtain rfl : l = l₁ := by
      have heq := hwon.symm.trans hwon₁
      exact TakeoverOutcome.won.inj (CommandResponse.takeover.inj heq)
    rw [hterms] at hlater
    exact UInt64.lt_irrefl _ hlater
  · have hless : l.term < l₁.term := hwon.term_lt hwon₁ hki (by omega)
    rw [hterms] at hless
    exact UInt64.lt_irrefl _ (UInt64.lt_trans hless hlater)

theorem reply_eq_takeover {op : StoreOp} {response : CommandResponse} {outcome : TakeoverOutcome}
    (h : op.reply response = .ok (.takeover outcome)) : response = .takeover outcome := by
  rcases op with _ | _ | _ | _ <;> rcases response with _ | _ | _ | _ <;>
    simp_all [StoreOp.reply]

/-- An entry is that of the call it names. -/
theorem Consistent.entry_command {s : RaftNet} (h : s.Consistent) {k : ℕ} {e : LogEntry}
    (he : s.log[k]? = some e) :
    ∃ call, s.calls e.caller = some call ∧ call.position e.route = some k ∧
      e.command = call.command := by
  obtain ⟨call, hcall, hk⟩ := h.entries k e he
  obtain ⟨hentry, -⟩ := (h.calls e.caller call hcall).placed e.route k hk
  rw [he] at hentry
  refine ⟨call, hcall, hk, ?_⟩
  exact congrArg LogEntry.command (Option.some.inj hentry)

/-- What the copies of a command can do: each way brings it into the log at most once; of the copies
of a takeover that expects a lease **at most one wins**; and no two calls are told of a win under
the same term. -/
theorem takeovers_fenced {s : RaftNet} (h : s.Reachable) (hn : s.log.length < 2 ^ 64) :
    (∀ (k k' : ℕ) (e e' : LogEntry), s.log[k]? = some e → s.log[k']? = some e' →
      e.caller = e'.caller → e.route = e'.route → k = k') ∧
    (∀ (k k' : ℕ) (e e' : LogEntry) cand x stamp l l', s.log[k]? = some e →
      s.log[k']? = some e' →
      e.caller = e'.caller → e.command = .takeover cand (some x) stamp →
      WonAt (commandsOf s.log) k l → WonAt (commandsOf s.log) k' l' → k = k') ∧
    ∀ i call l a i' call' l' a', s.Answers i call (.takeover (.won l)) a →
      s.Answers i' call' (.takeover (.won l')) a' → l.term = l'.term → i = i' := by
  have hconsistent := consistent_of_reachable h
  refine ⟨?_, ?_, ?_⟩
  · intro k k' e e' he he' hcaller hroute
    obtain ⟨call, hcall, hk⟩ := hconsistent.entries k e he
    obtain ⟨call', hcall', hk'⟩ := hconsistent.entries k' e' he'
    rw [hcaller, hcall'] at hcall
    obtain rfl := Option.some.inj hcall
    rw [hroute, hk'] at hk
    exact (Option.some.inj hk).symm
  · intro k k' e e' cand x stamp l l' he he' hcaller hcommand hwon hwon'
    obtain ⟨call, hcall, -, heq⟩ := hconsistent.entry_command he
    obtain ⟨call', hcall', -, heq'⟩ := hconsistent.entry_command he'
    rw [hcaller, hcall'] at hcall
    obtain rfl := Option.some.inj hcall
    have hk := (commandsOf_of_getElem he).trans hcommand
    have hk' := (commandsOf_of_getElem he').trans (heq'.trans (heq.symm.trans hcommand))
    have hlt := (List.getElem?_eq_some_iff.mp he).1
    have hlt' := (List.getElem?_eq_some_iff.mp he').1
    rcases lt_trichotomy k k' with hkk | heq | hkk
    · exact (wonAt_unique hk (hk'.trans hk.symm) hwon hwon' hkk (by omega)).elim
    · exact heq
    · exact (wonAt_unique hk' (hk.trans hk'.symm) hwon' hwon hkk (by omega)).elim
  · rintro i call l a i' call' l' a' ⟨hcall, u, hphase⟩ ⟨hcall', u', hphase'⟩ hterm
    obtain ⟨k, hk⟩ := hconsistent.exists_place i
    obtain ⟨k', hk'⟩ := hconsistent.exists_place i'
    obtain ⟨⟨route, hentry⟩, hreply, -, -⟩ := hk call _ a u hcall hphase
    obtain ⟨⟨route', hentry'⟩, hreply', -, -⟩ := hk' call' _ a' u' hcall' hphase'
    have hwon : WonAt (commandsOf s.log) k l := reply_eq_takeover hreply
    have hwon' : WonAt (commandsOf s.log) k' l' := reply_eq_takeover hreply'
    have hlt := (List.getElem?_eq_some_iff.mp hentry).1
    have hlt' := (List.getElem?_eq_some_iff.mp hentry').1
    rcases lt_trichotomy k k' with hkk | rfl | hkk
    · have hless := hwon.term_lt hwon' hkk (by omega)
      rw [hterm] at hless
      exact (UInt64.lt_irrefl _ hless).elim
    · rw [hentry] at hentry'
      exact congrArg LogEntry.caller (Option.some.inj hentry')
    · have hless := hwon'.term_lt hwon hkk (by omega)
      rw [hterm] at hless
      exact (UInt64.lt_irrefl _ hless).elim

/-! ### A takeover that wins and is told that it lost -/

/-- Node `1` takes the vacant lease.  Node `2` takes it over; its own `client_write` fails, though
the entry is committed, and the copy that it sends to the leader is lost against the first one. -/
def duplicatedTakeover : List NetEvent :=
  [.propose 0 (.tryTakeover 1 none) 5, .commits 0 .own, .call 0 .ownOk,
    .propose 1 (.tryTakeover 2 (some (1, 1))) 6, .call 1 (.ownErr (some "db0") "not the leader"),
    .commits 1 .own, .call 1 .arrives, .commits 1 .forwarded, .call 1 .forwardOk,
    .read 0, .readCall 0 (.ownOk 3)]

/-- The state at the end of this run. -/
theorem reachable_duplicatedTakeover :
    ∃ (s : RaftNet) (first call : ProposeCall) (read : ReadCall),
    s.Reachable ∧ s.log.length = 3 ∧ s.Answers 0 first (.takeover (.won ⟨1, 1, 5⟩)) 2 ∧
    s.Answers 1 call (.takeover (.lost (some ⟨2, 2, 6⟩))) 8 ∧ call.clock = 3 ∧
    s.Reads 0 read ⟨some ⟨2, 2, 6⟩, none, none, 2⟩ 10 ∧ read.clock = 9 := by
  obtain ⟨s, hs⟩ : ∃ s, Trace.run RaftNet.step RaftNet.initial duplicatedTakeover = some s :=
    ⟨_, rfl⟩
  have hreach : s.Reachable := Trace.Reachable.run (Trace.Reachable.init rfl) hs
  obtain rfl := Option.some.inj hs
  exact ⟨_, _, _, _, hreach, rfl, ⟨rfl, _, rfl⟩, ⟨rfl, _, rfl⟩, rfl,
    ⟨rfl, _, rfl⟩, rfl⟩

/-- The operations of this run in one order. -/
theorem raftStore_linearizable_duplicated :
    ∃ (s : RaftNet) (place seen : ℕ → ℕ), s.Reachable ∧
    place 0 < place 1 ∧ place 1 < seen 0 ∧
    (stateAt (commandsOf s.log) (seen 0)).lease = some ⟨2, 2, 6⟩ := by
  obtain ⟨s, first, call, read, hreach, -, hfirst, hcall, hcalled, hread, hasked⟩ :=
    reachable_duplicatedTakeover
  obtain ⟨place, seen, -, hstate, hwrites, hmixed, -⟩ := raftStore_linearizable hreach
  refine ⟨s, place, seen, hreach, ?_, ?_, ?_⟩
  · exact hwrites _ _ _ _ _ _ _ _ hfirst hcall (by omega)
  · exact (hmixed _ _ _ _ _ _ _ _ hcall hread).1 (by omega)
  · rw [← hstate _ _ _ _ hread]

/-- Node `2`'s command is in the log of this run twice, once on each way; the first copy wins, and
so the second does not. -/
theorem takeovers_fenced_duplicated : ∃ (s : RaftNet) (e e' : LogEntry), s.Reachable ∧
    s.log[1]? = some e ∧ s.log[2]? = some e' ∧ e.caller = e'.caller ∧ e.route ≠ e'.route ∧
    e.command = .takeover 2 (some (1, 1)) 6 ∧ WonAt (commandsOf s.log) 1 ⟨2, 2, 6⟩ ∧
    ∀ l, ¬ WonAt (commandsOf s.log) 2 l := by
  obtain ⟨s, hs⟩ : ∃ s, Trace.run RaftNet.step RaftNet.initial duplicatedTakeover = some s :=
    ⟨_, rfl⟩
  have hreach : s.Reachable := Trace.Reachable.run (Trace.Reachable.init rfl) hs
  obtain rfl := Option.some.inj hs
  refine ⟨_, _, _, hreach, rfl, rfl, rfl, nofun, rfl, rfl, fun l hl => ?_⟩
  have hplaces :=
    (takeovers_fenced hreach (by decide)).2.1 1 2 _ _ _ _ _ ⟨2, 2, 6⟩ l rfl rfl rfl
    rfl rfl hl
  exact absurd hplaces (by decide)

end RaftNet

end Consensus
end PgAgent
