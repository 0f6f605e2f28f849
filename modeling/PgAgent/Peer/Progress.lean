import PgAgent.Library.ServerStream
import PgAgent.Library.Text
import PgAgent.Library.Trace

/-!
# The stream of a long operation

A peer that is asked for a base backup or a rewind answers with a stream.  A task of its own runs
the subprocess, reports progress through a channel of 16 places, and sends one last message when the
subprocess is done.  The report does not wait: if the channel is full, it is lost.  The caller reads
until it sees the last message, and takes everything else for a failure.

The task does not depend on the caller: if the connection breaks, the subprocess goes on.

* `Progress.Honest` --- what the task has put into the channel;
* `drain_outcome` --- what the caller may conclude from its result;
* `drain_completes` --- while the connection holds, the caller gets the result of the subprocess,
  whatever was lost on the way.
-/

namespace PgAgent
namespace Peer

open Rust ServerStream

/-- `tonic::Code`, as far as the peers' calls return it. -/
inductive Code
  | cancelled
  | unknown
  | invalidArgument
  | deadlineExceeded
  | notFound
  | failedPrecondition
  | internal
  | unavailable
  deriving DecidableEq, Repr

/-- `tonic::Status`. -/
structure Status where
  code : Code
  message : String
  deriving DecidableEq, Repr

/-- `OpProgress`. -/
structure OpProgress where
  phase : String
  bytesDone : ℤ
  bytesTotal : ℤ
  message : String
  deriving DecidableEq, Repr

/-- `PROGRESS_BUFFER`. -/
def progressBuffer : ℕ := 16

/-- `progress_cb`: the event of a call. -/
def progressCb (done total : ℤ) : OpProgress := ⟨"streaming", done, total, ""⟩

/-- The last message of `spawn_progress_stream`. -/
def finalMsg (intermediatePhase : String) : Except String Unit → Except Status OpProgress
  | .ok () => .ok ⟨"done", 0, 0, ""⟩
  | .error e => .error ⟨.internal, intermediatePhase ++ ": " ++ e⟩

/-- `is_transport_error`. -/
def isTransportError (s : Status) : Bool :=
  s.code = .unavailable ||
    ["h2 protocol error", "http2 error", "transport error", "connection reset", "broken pipe",
      "error trying to connect", "operation was canceled"].any fun m =>
        (before m.toList s.message.toList).isSome

/-- `drain_progress_stream`, on the frames that have been read: its result, if it has come to one,
and whether the channel is poisoned. -/
def drainProgressStream (operation : String) (poisoned : Bool) :
    List (Frame OpProgress Status) → Option (Except String Unit) × Bool
  | [] => (none, poisoned)
  | .item prog :: frames =>
    if prog.phase = "done" then (some (.ok ()), poisoned)
    else drainProgressStream operation poisoned frames
  | .trailers none :: _ =>
    (some (.error (operation ++ ": stream ended without 'done' phase")), poisoned)
  | .trailers (some s) :: _ =>
    (some (.error (operation ++ ": stream error: " ++ s.message)), poisoned || isTransportError s)

/-! ## The parties -/

/-- The task: the subprocess runs, it has ended, its result has been sent, the task has ended; or
the task was lost before it could send the result. -/
inductive Driver
  | running
  | finished (result : Except String Unit)
  | sent (result : Except String Unit)
  | gone (result : Except String Unit)
  | aborted
  deriving DecidableEq, Repr

/-- What is the same in every state: the names of the operation at the two ends. -/
structure Operation where
  operation : String
  intermediatePhase : String
  deriving DecidableEq, Repr

/-- `Basebackup` and `Rewind`. -/
def basebackup : Operation := ⟨"peer basebackup", "streaming"⟩

def rewind : Operation := ⟨"peer rewind", "rewinding"⟩

structure Progress where
  driver : Driver
  stream : State OpProgress Status
  deriving DecidableEq, Repr

inductive ProgressEvent
  /-- The subprocess reports. -/
  | progress (done total : ℤ)
  /-- The subprocess ends. -/
  | finish (result : Except String Unit)
  /-- The task panics, or is dropped. -/
  | abort
  /-- The last message is sent, which waits for room. -/
  | sendFinal
  /-- The task ends. -/
  | exit
  /-- The server, the client or the connection. -/
  | transport (ev : Event OpProgress Status)
  deriving DecidableEq, Repr

namespace Progress

def init : Progress := ⟨.running, .init⟩

/-- The task and the stream. -/
def both (driver : Driver) (stream : Option (State OpProgress Status)) : Option Progress :=
  stream.map fun stream => ⟨driver, stream⟩

/-- A step of one of the parties. -/
def step (op : Operation) (p : Progress) : ProgressEvent → Option Progress
  | .progress done total =>
    match p.driver with
    | .running =>
      both .running
        (ServerStream.step progressBuffer p.stream (.trySend (.ok (progressCb done total))))
    | _ => none
  | .finish result =>
    match p.driver with
    | .running => some ⟨.finished result, p.stream⟩
    | _ => none
  | .abort =>
    match p.driver with
    | .running | .finished _ => both .aborted (ServerStream.step progressBuffer p.stream .close)
    | _ => none
  | .sendFinal =>
    match p.driver with
    | .finished result =>
      both (.sent result)
        (ServerStream.step progressBuffer p.stream (.send (finalMsg op.intermediatePhase result)))
    | _ => none
  | .exit =>
    match p.driver with
    | .sent result => both (.gone result) (ServerStream.step progressBuffer p.stream .close)
    | _ => none
  | .transport ev =>
    if ev.isTransport then both p.driver (ServerStream.step progressBuffer p.stream ev) else none

/-- What the caller of `drain_progress_stream` has got. -/
def outcome (op : Operation) (p : Progress) : Option (Except String Unit) :=
  (drainProgressStream op.operation false p.stream.read).1

/-- The caller has poisoned its channel. -/
def poisoned (op : Operation) (p : Progress) : Bool :=
  (drainProgressStream op.operation false p.stream.read).2

/-- What the caller is to get, by how the task has ended. -/
def expected (op : Operation) : Driver → Except String Unit
  | .finished result | .sent result | .gone result =>
    match result with
    | .ok () => .ok ()
    | .error e => .error (op.operation ++ ": stream error: " ++ (op.intermediatePhase ++ ": " ++ e))
  | .running | .aborted => .error (op.operation ++ ": stream ended without 'done' phase")

def Reachable (op : Operation) : Progress → Prop := Trace.Reachable (· = init) (step op)

/-! ## What the task puts into the channel -/

def IsProgress (m : Except Status OpProgress) : Prop :=
  ∃ done total, m = .ok (progressCb done total)

def AllProgress (s : State OpProgress Status) : Prop := ∀ m ∈ s.accepted, IsProgress m

/-- The last message is in the channel, or the connection was lost before that. -/
def Concluded (op : Operation) (r : Except String Unit) (s : State OpProgress Status) : Prop :=
  (∃ front, (∀ m ∈ front, IsProgress m) ∧
    s.accepted = front ++ [finalMsg op.intermediatePhase r]) ∨
  s.connection ≠ .holds ∧ AllProgress s ∧ .trailers none ∉ s.sent

/-- What the channel has taken in, by how far the task has come. -/
def Tells (op : Operation) : Driver → State OpProgress Status → Prop
  | .running, s => s.sender = true ∧ AllProgress s
  | .finished _, s => s.sender = true ∧ AllProgress s
  | .sent r, s => s.sender = true ∧ Concluded op r s
  | .gone r, s => s.sender = false ∧ Concluded op r s
  | .aborted, s => s.sender = false ∧ AllProgress s

structure Honest (op : Operation) (p : Progress) : Prop where
  books : Books p.stream
  tells : Tells op p.driver p.stream

section Honest

variable {op : Operation} {p p' : Progress} {s s' : State OpProgress Status}

theorem AllProgress.push (h : AllProgress s) {m : Except Status OpProgress} (hm : IsProgress m) :
    AllProgress (s.push m) := by
  intro m' hm'
  rcases List.mem_append.mp hm' with hold | hnew
  · exact h m' hold
  · exact List.mem_singleton.mp hnew ▸ hm

theorem AllProgress.error_notMem (h : AllProgress s) (e : Status) :
    Except.error e ∉ s.accepted := by
  intro he
  obtain ⟨done, total, hok⟩ := h _ he
  cases hok

/-- What leaves the senders and the history alone, and does not repair the connection. -/
theorem Tells.frame {driver : Driver} (h : Tells op driver s) (hsender : s'.sender = s.sender)
    (haccepted : s'.accepted = s.accepted)
    (hconn : s'.connection = s.connection ∨ s'.connection ≠ .holds)
    (hsent : s.connection ≠ .holds → s'.sent = s.sent) : Tells op driver s' := by
  have hall : AllProgress s → AllProgress s' := fun hall m hm => hall m (haccepted ▸ hm)
  have hconcluded : ∀ r, Concluded op r s → Concluded op r s' := by
    rintro r (⟨front, hfront, hacc⟩ | ⟨hlost, hprogress, hopen⟩)
    · exact Or.inl ⟨front, hfront, haccepted.trans hacc⟩
    · refine Or.inr ⟨?_, hall hprogress, by rwa [hsent hlost]⟩
      rcases hconn with hsame | hbad
      · rwa [hsame]
      · exact hbad
  rcases driver with _ | _ | r | r | _
  · exact ⟨hsender.trans h.1, hall h.2⟩
  · exact ⟨hsender.trans h.1, hall h.2⟩
  · exact ⟨hsender.trans h.1, hconcluded r h.2⟩
  · exact ⟨hsender.trans h.1, hconcluded r h.2⟩
  · exact ⟨hsender.trans h.1, hall h.2⟩

theorem Honest.init : Honest op Progress.init := ⟨books_init, rfl, nofun⟩

/-- Every step of every party keeps the books. -/
theorem Honest.step {ev : ProgressEvent} (h : Honest op p) (hstep : step op p ev = some p') :
    Honest op p' := by
  obtain ⟨driver, s⟩ := p
  obtain ⟨hbooks, htells⟩ := h
  rcases ev with ⟨done, total⟩ | result | _ | _ | _ | ev
  · rcases driver with _ | _ | _ | _ | _
    case running =>
      obtain ⟨s', hs', rfl⟩ := Option.map_eq_some_iff.mp hstep
      refine ⟨hbooks.step hs', ?_⟩
      rcases step_trySend hs' with rfl | rfl
      · exact htells
      · exact ⟨htells.1, htells.2.push ⟨done, total, rfl⟩⟩
    all_goals cases hstep
  · rcases driver with _ | _ | _ | _ | _
    case running =>
      obtain rfl := Option.some.inj hstep
      exact ⟨hbooks, htells⟩
    all_goals cases hstep
  · rcases driver with _ | _ | _ | _ | _
    case running | finished =>
      obtain ⟨s', hs', rfl⟩ := Option.map_eq_some_iff.mp hstep
      refine ⟨hbooks.step hs', ?_⟩
      obtain rfl := step_close hs'
      exact ⟨rfl, htells.2⟩
    all_goals cases hstep
  · rcases driver with _ | r | _ | _ | _
    case finished =>
      obtain ⟨s', hs', rfl⟩ := Option.map_eq_some_iff.mp hstep
      refine ⟨hbooks.step hs', ?_⟩
      rcases step_send hs' with ⟨hgone, rfl⟩ | ⟨-, rfl⟩
      · -- while the connection holds, the server reads until it has got the last message
        refine ⟨htells.1,
          Or.inr ⟨fun hconn => ?_, htells.2, hbooks.success_notMem_sent htells.1⟩⟩
        rw [hbooks.receiver_of_holds hconn htells.1 htells.2.error_notMem] at hgone
        cases hgone
      · exact ⟨htells.1, Or.inl ⟨_, htells.2, rfl⟩⟩
    all_goals cases hstep
  · rcases driver with _ | _ | r | _ | _
    case sent =>
      obtain ⟨s', hs', rfl⟩ := Option.map_eq_some_iff.mp hstep
      refine ⟨hbooks.step hs', ?_⟩
      obtain rfl := step_close hs'
      exact ⟨rfl, htells.2⟩
    all_goals cases hstep
  · unfold Progress.step at hstep
    dsimp only at hstep
    split at hstep
    · next hev =>
      obtain ⟨s', hs', rfl⟩ := Option.map_eq_some_iff.mp hstep
      obtain ⟨hsender, haccepted, hconn, hsent⟩ := step_transport hev hs'
      exact ⟨hbooks.step hs', htells.frame hsender haccepted hconn hsent⟩
    · cases hstep

theorem Reachable.honest (h : Reachable op p) : Honest op p :=
  Trace.Reachable.invariant (fun _ hp => hp ▸ Honest.init) (fun _ _ _ hp hstep => hp.step hstep) h

end Honest

/-! ## What the caller gets -/

section Outcome

variable {op : Operation} {p p' : Progress}

/-- Progress is read over. -/
theorem drainProgressStream_items (operation : String) (poisoned : Bool) {as : List OpProgress}
    (h : ∀ a ∈ as, a.phase ≠ "done") (frames : List (Frame OpProgress Status)) :
    drainProgressStream operation poisoned (as.map .item ++ frames) =
      drainProgressStream operation poisoned frames := by
  induction as with
  | nil => rfl
  | cons a as ih =>
    rw [List.map_cons, List.cons_append, drainProgressStream, if_neg (h a List.mem_cons_self)]
    exact ih fun b hb => h b (List.mem_cons_of_mem a hb)

/-- The caller returns at the first message of the phase `done`. -/
theorem drainProgressStream_done (operation : String) (poisoned : Bool) {as : List OpProgress}
    (h : ∃ a ∈ as, a.phase = "done") (frames : List (Frame OpProgress Status)) :
    drainProgressStream operation poisoned (as.map .item ++ frames) =
      (some (.ok ()), poisoned) := by
  induction as with
  | nil =>
    obtain ⟨a, ha, -⟩ := h
    cases ha
  | cons a as ih =>
    rw [List.map_cons, List.cons_append, drainProgressStream]
    split
    · rfl
    · next hphase =>
      obtain ⟨b, hb, hdone⟩ := h
      rcases List.mem_cons.mp hb with rfl | hb
      · exact absurd hdone hphase
      · exact ih ⟨b, hb, hdone⟩

theorem phase_ne_of_isProgress {a : OpProgress} (h : IsProgress (.ok a)) : a.phase ≠ "done" := by
  obtain ⟨done, total, ha⟩ := h
  rw [Except.ok.inj ha]
  show "streaming" ≠ "done"
  decide

/-- The task has sent the result. -/
def Reports (driver : Driver) (r : Except String Unit) : Prop :=
  driver = .sent r ∨ driver = .gone r

/-- What the channel has taken in beside progress is the result of the subprocess. -/
theorem Tells.of_mem {driver : Driver} {s : State OpProgress Status} (h : Tells op driver s)
    {m : Except Status OpProgress} (hm : m ∈ s.accepted) (hnot : ¬ IsProgress m) :
    ∃ r, Reports driver r ∧ m = finalMsg op.intermediatePhase r := by
  have hconcluded : ∀ r, Concluded op r s → m = finalMsg op.intermediatePhase r := by
    rintro r (⟨front, hfront, hacc⟩ | ⟨-, hprogress, -⟩)
    · rw [hacc] at hm
      rcases List.mem_append.mp hm with hfm | hlast
      · exact absurd (hfront m hfm) hnot
      · exact List.mem_singleton.mp hlast
    · exact absurd (hprogress m hm) hnot
  rcases driver with _ | _ | r | r | _
  · exact absurd (h.2 m hm) hnot
  · exact absurd (h.2 m hm) hnot
  · exact ⟨r, Or.inl rfl, hconcluded r h.2⟩
  · exact ⟨r, Or.inr rfl, hconcluded r h.2⟩
  · exact absurd (h.2 m hm) hnot

/-- If all of the items have been read and none is the last message, the task was lost. -/
theorem Honest.aborted_of_success (h : Honest op p) {as : List OpProgress}
    (hundone : ∀ a ∈ as, a.phase ≠ "done") (hmem : .trailers none ∈ p.stream.read)
    (hsender : p.stream.sender = false) (hacc : p.stream.accepted = as.map .ok) :
    p.driver = .aborted := by
  have hno : ∀ r, ¬ Concluded op r p.stream := by
    rintro r (⟨front, -, hfinal⟩ | ⟨-, -, hopen⟩)
    · have hm : finalMsg op.intermediatePhase r ∈ as.map Except.ok := by
        rw [← hacc, hfinal]
        exact List.mem_append_right _ List.mem_cons_self
      obtain ⟨a, ha, hfin⟩ := List.mem_map.mp hm
      rcases r with e | _
      · cases hfin
      · exact hundone a ha (by rw [Except.ok.inj hfin])
    · exact hopen (h.books.success_mem_sent hmem)
  have htells := h.tells
  rcases hdriver : p.driver with _ | _ | r | r | _
  all_goals rw [hdriver] at htells
  · exact absurd (htells.1.symm.trans hsender) (by decide)
  · exact absurd (htells.1.symm.trans hsender) (by decide)
  · exact absurd htells.2 (hno r)
  · exact absurd htells.2 (hno r)

/-- How far the caller has come. -/
inductive Got (op : Operation) (p : Progress) : Prop
  | waiting (as : List OpProgress) (hread : p.stream.read = as.map .item)
      (houtcome : outcome op p = none) (hpoisoned : poisoned op p = false)
  | success (hdriver : Reports p.driver (.ok ())) (houtcome : outcome op p = some (.ok ()))
      (hpoisoned : poisoned op p = false)
  | failure (e : String) (hdriver : Reports p.driver (.error e))
      (houtcome : outcome op p =
        some (.error (op.operation ++ ": stream error: " ++ (op.intermediatePhase ++ ": " ++ e))))
      (hpoisoned : poisoned op p =
        isTransportError ⟨.internal, op.intermediatePhase ++ ": " ++ e⟩)
  | lostTask (hdriver : p.driver = .aborted)
      (houtcome : outcome op p =
        some (.error (op.operation ++ ": stream ended without 'done' phase")))
      (hpoisoned : poisoned op p = false)
  | lostConnection (status : Status) (hconn : p.stream.connection = .broken status)
      (houtcome : outcome op p =
        some (.error (op.operation ++ ": stream error: " ++ status.message)))
      (hpoisoned : poisoned op p = isTransportError status)

theorem Honest.got (h : Honest op p) : Got op p := by
  -- the items that have been read, with a last message among them or without one
  have hsplit : ∀ as : List OpProgress, as.map Except.ok <+: p.stream.accepted →
      (∀ a ∈ as, a.phase ≠ "done") ∨
        (∃ a ∈ as, a.phase = "done") ∧ Reports p.driver (.ok ()) := by
    intro as has
    by_cases hdone : ∃ a ∈ as, a.phase = "done"
    · refine Or.inr ⟨hdone, ?_⟩
      obtain ⟨a, ha, hphase⟩ := hdone
      have hmem : Except.ok a ∈ p.stream.accepted := has.subset (List.mem_map_of_mem ha)
      obtain ⟨r, hreports, hr⟩ := h.tells.of_mem hmem fun hp => phase_ne_of_isProgress hp hphase
      rcases r with e | _
      · cases hr
      · exact hreports
    · push Not at hdone
      exact Or.inl hdone
  have hsuccess : ∀ (as : List OpProgress) (rest : List (Frame OpProgress Status)),
      (∃ a ∈ as, a.phase = "done") ∧ Reports p.driver (.ok ()) →
      p.stream.read = as.map .item ++ rest → Got op p := by
    rintro as rest ⟨hdone, hreports⟩ hread
    have hdrain := drainProgressStream_done op.operation false hdone rest
    rw [← hread] at hdrain
    exact .success hreports (congrArg Prod.fst hdrain) (congrArg Prod.snd hdrain)
  rcases h.books.view with ⟨as, hread, hacc⟩ | ⟨as, rest, hread, hsender, hacc⟩ |
    ⟨as, e, rest, hread, hacc, hcause⟩
  · rcases hsplit as hacc with hundone | hdone
    · have hdrain := drainProgressStream_items op.operation false hundone []
      rw [List.append_nil, ← hread] at hdrain
      exact .waiting as hread (congrArg Prod.fst hdrain) (congrArg Prod.snd hdrain)
    · exact hsuccess as [] hdone (by rw [hread, List.append_nil])
  · rcases hsplit as (hacc ▸ List.prefix_rfl) with hundone | hdone
    · have hdrain := drainProgressStream_items op.operation false hundone
        (.trailers none :: rest)
      rw [← hread] at hdrain
      have hmem : .trailers none ∈ p.stream.read := by
        rw [hread]
        exact List.mem_append_right _ List.mem_cons_self
      exact .lostTask (h.aborted_of_success hundone hmem hsender hacc)
        (congrArg Prod.fst hdrain) (congrArg Prod.snd hdrain)
    · exact hsuccess as _ hdone hread
  · rcases hsplit as hacc with hundone | hdone
    · have hdrain := drainProgressStream_items op.operation false hundone
        (.trailers (some e) :: rest)
      rw [← hread] at hdrain
      rcases hcause with hmember | hbroken
      · have hmem : Except.error e ∈ p.stream.accepted :=
          hmember.subset (List.mem_append_right _ List.mem_cons_self)
        obtain ⟨r, hreports, hr⟩ := h.tells.of_mem hmem nofun
        rcases r with e' | _
        · obtain rfl := Except.error.inj hr
          exact .failure e' hreports (congrArg Prod.fst hdrain) (congrArg Prod.snd hdrain)
        · cases hr
      · exact .lostConnection e hbroken (congrArg Prod.fst hdrain) (congrArg Prod.snd hdrain)
    · exact hsuccess as _ hdone hread

/-- **What the caller may conclude.** In whatever order the parties act, and whatever is lost on the
way: success is reported only if the subprocess has ended with success; a failure is that of the
subprocess, with its text, or the task or the connection is lost; and the channel is poisoned
exactly if the status that was read is one of the transport. -/
theorem drain_outcome (h : Reachable op p) :
    (outcome op p = some (.ok ()) → Reports p.driver (.ok ())) ∧
      (∀ msg, outcome op p = some (.error msg) →
        (p.driver = .aborted ∧ msg = op.operation ++ ": stream ended without 'done' phase" ∧
          poisoned op p = false) ∨
        ∃ status, msg = op.operation ++ ": stream error: " ++ status.message ∧
          poisoned op p = isTransportError status ∧
          (p.stream.connection = .broken status ∨ ∃ e, Reports p.driver (.error e) ∧
            status = ⟨.internal, op.intermediatePhase ++ ": " ++ e⟩)) ∧
      (poisoned op p = true → ∃ msg, outcome op p = some (.error msg)) := by
  rcases h.honest.got with ⟨as, hread, hout, hpois⟩ | ⟨hdriver, hout, hpois⟩ |
    ⟨e, hdriver, hout, hpois⟩ | ⟨hdriver, hout, hpois⟩ | ⟨status, hconn, hout, hpois⟩
  all_goals rw [hout, hpois]
  · exact ⟨nofun, nofun, nofun⟩
  · exact ⟨fun _ => hdriver, nofun, nofun⟩
  · refine ⟨nofun, fun msg hmsg => Or.inr ⟨_, ?_, rfl, Or.inr ⟨e, hdriver, rfl⟩⟩,
      fun _ => ⟨_, rfl⟩⟩
    exact (Except.error.inj (Option.some.inj hmsg)).symm
  · refine ⟨nofun, fun msg hmsg => Or.inl ⟨hdriver, ?_, rfl⟩, nofun⟩
    exact (Except.error.inj (Option.some.inj hmsg)).symm
  · refine ⟨nofun, fun msg hmsg => Or.inr ⟨status, ?_, rfl, Or.inl hconn⟩,
      fun _ => ⟨_, rfl⟩⟩
    exact (Except.error.inj (Option.some.inj hmsg)).symm

/-! ## That the caller gets it -/

/-- The steps that are left when the subprocess has ended, if the connection holds. -/
def isOwn : ProgressEvent → Bool
  | .sendFinal | .exit | .transport .forward | .transport .deliver => true
  | _ => false

/-- What is left to do for the task when the subprocess has ended, and for all of them. -/
def driverRank : Driver → ℕ
  | .finished _ => 4
  | .sent _ => 1
  | .running | .gone _ | .aborted => 0

def rank (p : Progress) : ℕ := ServerStream.rank p.stream + driverRank p.driver

/-- Such a step leaves less to do, and neither breaks the connection nor changes what the caller is
to get. -/
theorem step_own {ev : ProgressEvent} (hev : isOwn ev = true) (hstep : step op p ev = some p') :
    rank p' < rank p ∧ p'.stream.connection = p.stream.connection ∧
      expected op p'.driver = expected op p.driver ∧
      (p.driver ≠ .running → p'.driver ≠ .running) := by
  obtain ⟨driver, s⟩ := p
  have htransport : ∀ ev : Event OpProgress Status, ev = .forward ∨ ev = .deliver →
      step op ⟨driver, s⟩ (.transport ev) = some p' → rank p' < rank ⟨driver, s⟩ ∧
        p'.stream.connection = s.connection ∧ expected op p'.driver = expected op driver ∧
        (driver ≠ .running → p'.driver ≠ .running) := by
    intro ev hev hstep
    have htr : ev.isTransport = true := by
      rcases hev with rfl | rfl
      · rfl
      · rfl
    unfold step at hstep
    dsimp only at hstep
    rw [htr, if_pos rfl] at hstep
    obtain ⟨s', hs', rfl⟩ := Option.map_eq_some_iff.mp hstep
    exact ⟨Nat.add_lt_add_right (rank_step hev hs') _, step_connection hev hs', rfl, id⟩
  rcases ev with _ | _ | _ | _ | _ | ev
  · cases hev
  · cases hev
  · cases hev
  · rcases driver with _ | r | _ | _ | _
    case finished =>
      obtain ⟨s', hs', rfl⟩ := Option.map_eq_some_iff.mp hstep
      rcases step_send hs' with ⟨-, rfl⟩ | ⟨-, rfl⟩
      · refine ⟨?_, rfl, rfl, nofun⟩
        show ServerStream.rank s' + 1 < ServerStream.rank s' + 4
        omega
      · refine ⟨?_, rfl, rfl, nofun⟩
        show ServerStream.rank (s.push _) + 1 < ServerStream.rank s + 4
        rw [rank_push]
        omega
    all_goals cases hstep
  · rcases driver with _ | _ | r | _ | _
    case sent =>
      obtain ⟨s', hs', rfl⟩ := Option.map_eq_some_iff.mp hstep
      obtain rfl := step_close hs'
      exact ⟨Nat.lt_succ_self (ServerStream.rank s), rfl, rfl, nofun⟩
    all_goals cases hstep
  · rcases ev with _ | _ | _ | _ | _ | _ | _ | _
    case forward => exact htransport _ (Or.inl rfl) hstep
    case deliver => exact htransport _ (Or.inr rfl) hstep
    all_goals cases hev

/-- If none of these steps is possible, the task is gone. -/
theorem Honest.sender_of_stuck (h : Honest op p) (hconn : p.stream.connection = .holds)
    (hran : p.driver ≠ .running)
    (hstuck : ∀ ev, isOwn ev = true → Progress.step op p ev = none) :
    p.stream.sender = false := by
  obtain ⟨driver, s⟩ := p
  rcases driver with _ | r | r | r | _
  · exact absurd rfl hran
  · have hsender : s.sender = true := h.tells.1
    have hopen : s.receiver = true :=
      h.books.receiver_of_holds hconn hsender h.tells.2.error_notMem
    have hsend := Option.map_eq_none_iff.mp (hstuck .sendFinal rfl)
    have hforward := Option.map_eq_none_iff.mp (hstuck (.transport .forward) rfl)
    unfold ServerStream.step at hsend hforward
    rcases hqueue : s.queue with _ | ⟨_ | _, _⟩
    · rw [hsender, hopen, hqueue] at hsend
      cases hsend
    · rw [hopen, hqueue] at hforward
      cases hforward
    · rw [hopen, hqueue] at hforward
      cases hforward
  · have hexit := Option.map_eq_none_iff.mp (hstuck .exit rfl)
    have hsender : s.sender = true := h.tells.1
    unfold ServerStream.step at hexit
    rw [hsender] at hexit
    cases hexit
  · exact h.tells.1
  · exact h.tells.1

/-- **The caller gets the result.** From any state in which the subprocess has ended and the
connection holds, only so many steps are left; and when none is left, the caller has got the result
of the subprocess, whatever progress was lost. -/
theorem drain_completes (h : Reachable op p) (hconn : p.stream.connection = .holds)
    (hran : p.driver ≠ .running) {evs : List ProgressEvent}
    (hown : ∀ ev ∈ evs, isOwn ev = true) (hrun : Trace.run (step op) p evs = some p') :
    evs.length ≤ rank p ∧ ((∀ ev, isOwn ev = true → step op p' ev = none) →
      outcome op p' = some (expected op p.driver)) := by
  induction evs generalizing p with
  | nil =>
    obtain rfl := Option.some.inj hrun
    refine ⟨Nat.zero_le _, fun hstuck => ?_⟩
    have hsender := h.honest.sender_of_stuck hconn hran hstuck
    rcases h.honest.got with ⟨as, hread, -, -⟩ | ⟨hdriver, hout, -⟩ |
      ⟨e, hdriver, hout, -⟩ | ⟨hdriver, hout, -⟩ | ⟨status, hbroken, -, -⟩
    · have hforward := Option.map_eq_none_iff.mp (hstuck (.transport .forward) rfl)
      have hdeliver := Option.map_eq_none_iff.mp (hstuck (.transport .deliver) rfl)
      obtain ⟨as', st, hended⟩ := h.honest.books.ended hconn hsender hforward hdeliver
      have hmem : .trailers st ∈ as.map Frame.item := by
        rw [← hread, hended]
        exact List.mem_append_right _ List.mem_cons_self
      obtain ⟨a, -, ha⟩ := List.mem_map.mp hmem
      cases ha
    · rw [hout]
      rcases hdriver with hdriver | hdriver <;> rw [hdriver] <;> rfl
    · rw [hout]
      rcases hdriver with hdriver | hdriver <;> rw [hdriver] <;> rfl
    · rw [hout, hdriver]
      rfl
    · rw [hconn] at hbroken
      cases hbroken
  | cons ev evs ih =>
    obtain ⟨p₁, hstep, hrest⟩ := Option.bind_eq_some_iff.mp hrun
    obtain ⟨hrank, hsame, hexpected, hstill⟩ := step_own (hown ev List.mem_cons_self) hstep
    obtain ⟨hlength, hdone⟩ := ih (h.step ev hstep) (hsame.trans hconn) (hstill hran)
      (fun ev' hev' => hown ev' (List.mem_cons_of_mem ev hev')) hrest
    refine ⟨?_, hexpected ▸ hdone⟩
    rw [List.length_cons]
    omega

end Outcome

/-! ## A run -/

/-- The subprocess reports once and ends with success. -/
def backupDone : Progress := ⟨.finished (.ok ()), State.init.push (.ok (progressCb 1024 2048))⟩

theorem reachable_init {op : Operation} : Reachable op init := .init rfl

theorem reachable_backupDone : Reachable basebackup backupDone := by
  have hrun : Trace.run (step basebackup) init [.progress 1024 2048, .finish (.ok ())] =
      some backupDone := rfl
  exact reachable_init.run hrun

/-- Its last steps. -/
def lastSteps : List ProgressEvent :=
  [.sendFinal, .exit, .transport .forward, .transport .deliver, .transport .forward,
    .transport .deliver, .transport .forward, .transport .deliver]

theorem run_lastSteps : ∃ p, Trace.run (step basebackup) backupDone lastSteps = some p ∧
    outcome basebackup p = some (.ok ()) ∧
      ∀ ev, isOwn ev = true → step basebackup p ev = none := by
  refine ⟨_, rfl, by decide, fun ev h => ?_⟩
  cases ev with
  | transport ev =>
    cases ev with
    | forward => rfl
    | deliver => rfl
    | _ => cases h
  | sendFinal => rfl
  | exit => rfl
  | _ => cases h

/-- The caller may conclude from its result that the backup is done. -/
theorem drain_outcome_backup : ∃ p, outcome basebackup p = some (.ok ()) ∧
    Reports p.driver (.ok ()) := by
  obtain ⟨p, hrun, hout, -⟩ := run_lastSteps
  exact ⟨p, hout, (drain_outcome (reachable_backupDone.run hrun)).1 hout⟩

/-- The caller gets the result of the subprocess after that many steps. -/
theorem drain_completes_backup : lastSteps.length ≤ rank backupDone ∧
    ∃ p, Trace.run (step basebackup) backupDone lastSteps = some p ∧
      outcome basebackup p = some (expected basebackup backupDone.driver) := by
  obtain ⟨p, hrun, -, hstuck⟩ := run_lastSteps
  obtain ⟨hlength, hdone⟩ := drain_completes reachable_backupDone rfl nofun (by decide) hrun
  exact ⟨hlength, p, hrun, hdone hstuck⟩

end Progress

end Peer
end PgAgent
