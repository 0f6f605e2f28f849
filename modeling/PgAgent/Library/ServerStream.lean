import Mathlib.Data.List.Infix

/-!
# A stream of answers over a connection

A server answers a request with a stream: what a task puts into a bounded channel is taken from it
and sent to the client, one item after the other.  An error is the last thing that is sent; if the
channel is empty and no sender is left, the stream ends with success.  The connection may break at
any moment, and the client may go away.

The client reads frames, and does not see what is going on behind them.

* `Books` --- what has been sent is what the channel took in, and what is read is what has been
  sent;
* `Books.step` --- every step keeps that, in whatever order the parties act;
* `Books.view` --- what the client can conclude from what it has read;
* `Books.ended` --- while the connection holds, nothing but the client's own reading is left to wait
  for, once the senders are gone;
* `rank_step` --- and that comes to an end.
-/

namespace ServerStream

variable {α ε : Type*}

/-- What is sent: items, and the status at the end, which is success if there is none. -/
inductive Frame (α ε : Type*)
  | item (a : α)
  | trailers (status : Option ε)
  deriving DecidableEq, Repr

/-- The connection: it holds, it broke with a status that the client gets to see, or the client went
away. -/
inductive Connection (ε : Type*)
  | holds
  | broken (status : ε)
  | cancelled
  deriving DecidableEq, Repr

def Connection.up : Connection ε → Bool
  | .holds => true
  | _ => false

theorem Connection.up_iff {c : Connection ε} : c.up = true ↔ c = .holds := by
  rcases c with _ | _ | _
  · exact ⟨fun _ => rfl, fun _ => rfl⟩
  · exact ⟨nofun, nofun⟩
  · exact ⟨nofun, nofun⟩

structure State (α ε : Type*) where
  /-- What is in the channel, oldest first. -/
  queue : List (Except ε α)
  /-- A sender of the channel is left. -/
  sender : Bool
  /-- The server reads from the channel. -/
  receiver : Bool
  connection : Connection ε
  /-- What is under way to the client. -/
  wire : List (Frame α ε)
  /-- What the client has read. -/
  read : List (Frame α ε)
  /-- All that the channel has taken in, and all that the server has sent. -/
  accepted : List (Except ε α)
  sent : List (Frame α ε)
  deriving DecidableEq, Repr

def State.init : State α ε := ⟨[], true, true, .holds, [], [], [], []⟩

inductive Event (α ε : Type*)
  /-- A sender does not wait: without room the message is lost. -/
  | trySend (m : Except ε α)
  /-- A sender waits for room. -/
  | send (m : Except ε α)
  /-- The last sender goes. -/
  | close
  /-- The server takes the next message from the channel. -/
  | forward
  /-- The client reads the next frame. -/
  | deliver
  /-- The connection breaks; of what is under way, so many frames still arrive. -/
  | breakOff (arrive : ℕ) (status : ε)
  /-- The client goes away. -/
  | cancel
  /-- The server learns that the connection is no more. -/
  | hangUp
  deriving DecidableEq, Repr

namespace State

/-- The channel takes a message in. -/
def push (s : State α ε) (m : Except ε α) : State α ε :=
  { s with queue := s.queue ++ [m], accepted := s.accepted ++ [m] }

/-- The server sends a frame, which is lost if the connection is no more. -/
def emit (s : State α ε) (f : Frame α ε) : State α ε :=
  match s.connection with
  | .holds => { s with wire := s.wire ++ [f], sent := s.sent ++ [f] }
  | _ => s

end State

/-- A step, `none` where it is not possible. -/
def step (capacity : ℕ) (s : State α ε) : Event α ε → Option (State α ε)
  | .trySend m =>
    if !s.sender then none
    else if s.receiver && decide (s.queue.length < capacity) then some (s.push m)
    else some s
  | .send m =>
    if !s.sender then none
    else if !s.receiver then some s
    else if s.queue.length < capacity then some (s.push m)
    else none
  | .close => if s.sender then some { s with sender := false } else none
  | .forward =>
    if !s.receiver then none
    else
      match s.queue with
      | .ok a :: queue => some ({ s with queue := queue }.emit (.item a))
      | .error e :: _ => some ({ s with queue := [], receiver := false }.emit (.trailers (some e)))
      | [] =>
        if s.sender then none else some ({ s with receiver := false }.emit (.trailers none))
  | .deliver =>
    match s.wire with
    | f :: wire => some { s with wire := wire, read := s.read ++ [f] }
    | [] => none
  | .breakOff arrive status =>
    if s.connection.up then
      some { s with
        connection := .broken status
        wire := s.wire.take arrive ++ [.trailers (some status)] }
    else none
  | .cancel =>
    if s.connection.up then some { s with connection := .cancelled, wire := [] }
    else none
  | .hangUp =>
    if s.receiver && !s.connection.up then
      some { s with queue := [], receiver := false }
    else none

/-! ## The books -/

/-- What the server has sent: items, and perhaps the end. -/
inductive Served (s : State α ε) : Prop
  | open (as : List α) (hreceiver : s.receiver = true) (hsent : s.sent = as.map .item)
      (haccepted : s.accepted = as.map .ok ++ s.queue)
  | lost (as : List α) (hconnection : s.connection ≠ .holds) (hsent : s.sent = as.map .item)
      (haccepted : as.map Except.ok <+: s.accepted)
  | done (as : List α) (hreceiver : s.receiver = false) (hsender : s.sender = false)
      (hsent : s.sent = as.map .item ++ [.trailers none]) (haccepted : s.accepted = as.map .ok)
  | failed (as : List α) (e : ε) (hreceiver : s.receiver = false)
      (hsent : s.sent = as.map .item ++ [.trailers (some e)])
      (haccepted : as.map Except.ok ++ [.error e] <+: s.accepted)

/-- What the client reads is what has been sent, up to a broken connection. -/
structure Books (s : State α ε) : Prop where
  served : Served s
  holds : s.connection = .holds → s.read ++ s.wire = s.sent
  broken : ∀ e, s.connection = .broken e →
    ∃ arrived, arrived <+: s.sent ∧ s.read ++ s.wire = arrived ++ [.trailers (some e)]
  cancelled : s.connection = .cancelled → s.read ++ s.wire <+: s.sent

theorem books_init : Books (State.init : State α ε) where
  served := .open [] rfl rfl rfl
  holds _ := rfl
  broken := nofun
  cancelled := nofun

section Step

variable {capacity : ℕ} {s s' : State α ε}

theorem Books.push (h : Books s) (hreceiver : s.receiver = true) (m : Except ε α) :
    Books (s.push m) where
  served := by
    rcases h.served with ⟨as, hopen, hsent, hacc⟩ | ⟨as, hconn, hsent, hacc⟩ |
      ⟨as, hgone, -, -, -⟩ | ⟨as, e, hgone, -, -⟩
    · refine .open as hopen hsent ?_
      show s.accepted ++ [m] = _ ++ (s.queue ++ [m])
      rw [hacc, List.append_assoc]
    · exact .lost as hconn hsent (hacc.trans (List.prefix_append _ _))
    · rw [hgone] at hreceiver
      cases hreceiver
    · rw [hgone] at hreceiver
      cases hreceiver
  holds := h.holds
  broken := h.broken
  cancelled := h.cancelled

theorem Books.close (h : Books s) : Books { s with sender := false } where
  served := by
    rcases h.served with ⟨as, hopen, hsent, hacc⟩ | ⟨as, hconn, hsent, hacc⟩ |
      ⟨as, hgone, -, hsent, hacc⟩ | ⟨as, e, hgone, hsent, hacc⟩
    · exact .open as hopen hsent hacc
    · exact .lost as hconn hsent hacc
    · exact .done as hgone rfl hsent hacc
    · exact .failed as e hgone hsent hacc
  holds := h.holds
  broken := h.broken
  cancelled := h.cancelled

/-- The server takes from the channel and sends. -/
theorem Books.emit {queue : List (Except ε α)} {receiver : Bool} {f : Frame α ε} (h : Books s)
    (hserved : s.connection = .holds →
      Served { s with
        queue := queue
        receiver := receiver
        wire := s.wire ++ [f]
        sent := s.sent ++ [f] })
    (hopen : s.receiver = true) :
    Books (({ s with queue := queue, receiver := receiver } : State α ε).emit f) := by
  have hlost : s.connection ≠ .holds →
      Books ({ s with queue := queue, receiver := receiver } : State α ε) := by
    intro hlost
    refine ⟨?_, h.holds, h.broken, h.cancelled⟩
    rcases h.served with ⟨as, -, hsent, hacc⟩ | ⟨as, -, hsent, hacc⟩ |
      ⟨as, hgone, -, -, -⟩ | ⟨as, e, hgone, -, -⟩
    · exact .lost as hlost hsent (hacc ▸ List.prefix_append _ _)
    · exact .lost as hlost hsent hacc
    · rw [hgone] at hopen
      cases hopen
    · rw [hgone] at hopen
      cases hopen
  unfold State.emit
  split
  · next hconn =>
    have hread : s.read ++ (s.wire ++ [f]) = s.sent ++ [f] := by
      rw [← List.append_assoc, h.holds hconn]
    refine ⟨hserved hconn, fun _ => hread, fun e he => ?_, fun hcancel => ?_⟩
    · cases hconn.symm.trans he
    · cases hconn.symm.trans hcancel
  · next hconn => exact hlost hconn

theorem Books.forward (h : Books s) (hstep : step capacity s .forward = some s') : Books s' := by
  unfold ServerStream.step at hstep
  dsimp only at hstep
  split at hstep
  · cases hstep
  next hnot =>
  have hopen : s.receiver = true := by simpa using hnot
  have hserves : s.connection = .holds →
      ∃ as : List α, s.sent = as.map Frame.item ∧ s.accepted = as.map .ok ++ s.queue := by
    intro hconn
    rcases h.served with ⟨as, -, hsent, hacc⟩ | ⟨as, hlost, -, -⟩ |
      ⟨as, hgone, -, -, -⟩ | ⟨as, e, hgone, -, -⟩
    · exact ⟨as, hsent, hacc⟩
    · exact absurd hconn hlost
    · rw [hgone] at hopen
      cases hopen
    · rw [hgone] at hopen
      cases hopen
  split at hstep
  · next a queue hqueue =>
    obtain rfl := Option.some.inj hstep
    refine h.emit (fun hconn => ?_) hopen
    obtain ⟨as, hsent, hacc⟩ := hserves hconn
    refine .open (as ++ [a]) hopen ?_ ?_
    · show s.sent ++ _ = _
      rw [hsent, List.map_append, List.map_singleton]
    · show s.accepted = _ ++ queue
      rw [hacc, hqueue, List.map_append, List.map_singleton, List.append_assoc,
        List.singleton_append]
  · next e rest hqueue =>
    obtain rfl := Option.some.inj hstep
    refine h.emit (fun hconn => ?_) hopen
    obtain ⟨as, hsent, hacc⟩ := hserves hconn
    refine .failed as e rfl ?_ ?_
    · show s.sent ++ _ = _
      rw [hsent]
    · show _ <+: s.accepted
      rw [hacc, hqueue]
      exact ⟨rest, by rw [List.append_assoc, List.singleton_append]⟩
  · next hqueue =>
    split at hstep
    · cases hstep
    next hnone =>
    obtain rfl := Option.some.inj hstep
    refine h.emit (fun hconn => ?_) hopen
    obtain ⟨as, hsent, hacc⟩ := hserves hconn
    refine .done as rfl (by simpa using hnone) ?_ ?_
    · show s.sent ++ _ = _
      rw [hsent]
    · rw [hqueue, List.append_nil] at hacc
      exact hacc

theorem Books.deliver (h : Books s) (hstep : step capacity s .deliver = some s') : Books s' := by
  unfold ServerStream.step at hstep
  dsimp only at hstep
  split at hstep
  case h_2 => cases hstep
  next f wire hwire =>
  obtain rfl := Option.some.inj hstep
  have hshift : s.read ++ [f] ++ wire = s.read ++ s.wire := by
    rw [hwire, List.append_assoc, List.singleton_append]
  refine ⟨?_, fun hconn => ?_, fun e he => ?_, fun hconn => ?_⟩
  · rcases h.served with ⟨as, hopen, hsent, hacc⟩ | ⟨as, hconn, hsent, hacc⟩ |
      ⟨as, hgone, hsender, hsent, hacc⟩ | ⟨as, e, hgone, hsent, hacc⟩
    · exact .open as hopen hsent hacc
    · exact .lost as hconn hsent hacc
    · exact .done as hgone hsender hsent hacc
    · exact .failed as e hgone hsent hacc
  · exact hshift.trans (h.holds hconn)
  · obtain ⟨arrived, hsent, hread⟩ := h.broken e he
    exact ⟨arrived, hsent, hshift.trans hread⟩
  · show s.read ++ [f] ++ wire <+: s.sent
    rw [hshift]
    exact h.cancelled hconn

/-- The connection is lost, with so much of what was under way still to be read. -/
theorem Books.lose {connection : Connection ε} {wire : List (Frame α ε)} (h : Books s)
    (hlost : connection ≠ .holds)
    (hbroken : ∀ e, connection = .broken e →
      ∃ arrived, arrived <+: s.sent ∧ s.read ++ wire = arrived ++ [.trailers (some e)])
    (hcancelled : connection = .cancelled → s.read ++ wire <+: s.sent) :
    Books { s with connection := connection, wire := wire } where
  served := by
    rcases h.served with ⟨as, hopen, hsent, hacc⟩ | ⟨as, -, hsent, hacc⟩ |
      ⟨as, hgone, hsender, hsent, hacc⟩ | ⟨as, e, hgone, hsent, hacc⟩
    · exact .open as hopen hsent hacc
    · exact .lost as hlost hsent hacc
    · exact .done as hgone hsender hsent hacc
    · exact .failed as e hgone hsent hacc
  holds hconn := absurd hconn hlost
  broken := hbroken
  cancelled := hcancelled

theorem Books.hangUp (h : Books s) (hlost : s.connection ≠ .holds) :
    Books { s with queue := [], receiver := false } where
  served := by
    rcases h.served with ⟨as, -, hsent, hacc⟩ | ⟨as, -, hsent, hacc⟩ |
      ⟨as, -, hsender, hsent, hacc⟩ | ⟨as, e, -, hsent, hacc⟩
    · exact .lost as hlost hsent (hacc ▸ List.prefix_append _ _)
    · exact .lost as hlost hsent hacc
    · exact .done as rfl hsender hsent hacc
    · exact .failed as e rfl hsent hacc
  holds := h.holds
  broken := h.broken
  cancelled := h.cancelled

/-- **Every step keeps the books.** -/
theorem Books.step {ev : Event α ε} (h : Books s) (hstep : step capacity s ev = some s') :
    Books s' := by
  rcases ev with m | m | _ | _ | _ | ⟨arrive, status⟩ | _ | _
  case forward => exact h.forward hstep
  case deliver => exact h.deliver hstep
  all_goals
    unfold ServerStream.step at hstep
    dsimp only at hstep
    split at hstep
  case trySend.isTrue => cases hstep
  case trySend.isFalse =>
    split at hstep
    · next hroom =>
      obtain rfl := Option.some.inj hstep
      exact h.push (Bool.and_eq_true_iff.mp hroom).1 m
    · exact Option.some.inj hstep ▸ h
  case send.isTrue => cases hstep
  case send.isFalse =>
    split at hstep
    · exact Option.some.inj hstep ▸ h
    next hopen =>
    split at hstep
    · obtain rfl := Option.some.inj hstep
      exact h.push (by simpa using hopen) m
    · cases hstep
  case close.isTrue => exact Option.some.inj hstep ▸ h.close
  case close.isFalse => cases hstep
  case breakOff.isTrue hup =>
    have hconn := Connection.up_iff.mp hup
    obtain rfl := Option.some.inj hstep
    refine h.lose nofun (fun e he => ⟨s.read ++ s.wire.take arrive, ?_, ?_⟩) nofun
    · rw [← h.holds hconn, List.prefix_append_right_inj]
      exact List.take_prefix _ _
    · obtain rfl := Connection.broken.inj he
      rw [List.append_assoc]
  case breakOff.isFalse => cases hstep
  case cancel.isTrue hup =>
    have hconn := Connection.up_iff.mp hup
    obtain rfl := Option.some.inj hstep
    refine h.lose nofun nofun fun _ => ?_
    rw [List.append_nil, ← h.holds hconn]
    exact List.prefix_append _ _
  case cancel.isFalse => cases hstep
  case hangUp.isTrue hcond =>
    obtain rfl := Option.some.inj hstep
    refine h.hangUp fun hconn => ?_
    rw [Connection.up_iff.mpr hconn, Bool.not_true, Bool.and_false] at hcond
    cases hcond
  case hangUp.isFalse => cases hstep

theorem emit_frame {queue : List (Except ε α)} {receiver : Bool} {f : Frame α ε} :
    (({ s with queue := queue, receiver := receiver } : State α ε).emit f).sender = s.sender ∧
      (({ s with queue := queue, receiver := receiver } : State α ε).emit f).accepted =
        s.accepted ∧
      (({ s with queue := queue, receiver := receiver } : State α ε).emit f).connection =
        s.connection ∧
      (s.connection ≠ .holds →
        (({ s with queue := queue, receiver := receiver } : State α ε).emit f).sent =
          s.sent) := by
  unfold State.emit
  split
  · next hconn => exact ⟨rfl, rfl, rfl, fun hlost => absurd hconn hlost⟩
  · exact ⟨rfl, rfl, rfl, fun _ => rfl⟩

theorem step_trySend {m : Except ε α} (hstep : step capacity s (.trySend m) = some s') :
    s' = s ∨ s' = s.push m := by
  unfold ServerStream.step at hstep
  dsimp only at hstep
  split at hstep
  · cases hstep
  split at hstep
  · exact Or.inr (Option.some.inj hstep).symm
  · exact Or.inl (Option.some.inj hstep).symm

theorem step_send {m : Except ε α} (hstep : step capacity s (.send m) = some s') :
    s.receiver = false ∧ s' = s ∨ s.receiver = true ∧ s' = s.push m := by
  unfold ServerStream.step at hstep
  dsimp only at hstep
  split at hstep
  · cases hstep
  split at hstep
  · next hgone => exact Or.inl ⟨by simpa using hgone, (Option.some.inj hstep).symm⟩
  next hopen =>
  split at hstep
  · exact Or.inr ⟨by simpa using hopen, (Option.some.inj hstep).symm⟩
  · cases hstep

theorem step_close (hstep : step capacity s .close = some s') :
    s' = { s with sender := false } := by
  unfold ServerStream.step at hstep
  dsimp only at hstep
  split at hstep
  · exact (Option.some.inj hstep).symm
  · cases hstep

/-- The events that are not a sender's. -/
def Event.isTransport : Event α ε → Bool
  | .trySend _ | .send _ | .close => false
  | .forward | .deliver | .breakOff _ _ | .cancel | .hangUp => true

/-- They leave the senders and the history of the channel alone, and do not repair the
connection. -/
theorem step_transport {ev : Event α ε} (hev : ev.isTransport = true)
    (hstep : step capacity s ev = some s') :
    s'.sender = s.sender ∧ s'.accepted = s.accepted ∧
      (s'.connection = s.connection ∨ s'.connection ≠ .holds) ∧
      (s.connection ≠ .holds → s'.sent = s.sent) := by
  unfold ServerStream.step at hstep
  rcases ev with m | m | _ | _ | _ | ⟨arrive, status⟩ | _ | _
  case trySend => cases hev
  case send => cases hev
  case close => cases hev
  all_goals
    dsimp only at hstep
    split at hstep
  case forward.isTrue => cases hstep
  case forward.isFalse =>
    have hemit : ∀ {queue : List (Except ε α)} {receiver : Bool} {f : Frame α ε},
        ({ s with queue := queue, receiver := receiver } : State α ε).emit f = s' →
        s'.sender = s.sender ∧ s'.accepted = s.accepted ∧
          (s'.connection = s.connection ∨ s'.connection ≠ .holds) ∧
          (s.connection ≠ .holds → s'.sent = s.sent) := by
      rintro queue receiver f rfl
      obtain ⟨hsender, haccepted, hconn, hsent⟩ := emit_frame (s := s)
      exact ⟨hsender, haccepted, Or.inl hconn, hsent⟩
    split at hstep
    · exact hemit (Option.some.inj hstep)
    · exact hemit (Option.some.inj hstep)
    · split at hstep
      · cases hstep
      · exact hemit (Option.some.inj hstep)
  case h_1 => exact Option.some.inj hstep ▸ ⟨rfl, rfl, Or.inl rfl, fun _ => rfl⟩
  case h_2 => cases hstep
  case breakOff.isTrue => exact Option.some.inj hstep ▸ ⟨rfl, rfl, Or.inr nofun, fun _ => rfl⟩
  case breakOff.isFalse => cases hstep
  case cancel.isTrue => exact Option.some.inj hstep ▸ ⟨rfl, rfl, Or.inr nofun, fun _ => rfl⟩
  case cancel.isFalse => cases hstep
  case hangUp.isTrue => exact Option.some.inj hstep ▸ ⟨rfl, rfl, Or.inl rfl, fun _ => rfl⟩
  case hangUp.isFalse => cases hstep

/-- Forwarding and reading do not break the connection. -/
theorem step_connection {ev : Event α ε} (hev : ev = .forward ∨ ev = .deliver)
    (hstep : step capacity s ev = some s') : s'.connection = s.connection := by
  unfold ServerStream.step at hstep
  rcases hev with rfl | rfl
  · dsimp only at hstep
    split at hstep
    · cases hstep
    split at hstep
    · exact Option.some.inj hstep ▸ emit_frame.2.2.1
    · exact Option.some.inj hstep ▸ emit_frame.2.2.1
    · split at hstep
      · cases hstep
      · exact Option.some.inj hstep ▸ emit_frame.2.2.1
  · dsimp only at hstep
    split at hstep
    · exact Option.some.inj hstep ▸ rfl
    · cases hstep

end Step

/-! ## What the client sees -/

section View

variable {capacity : ℕ} {s s' : State α ε}

/-- What has been read of items and an end. -/
theorem prefix_items {as : List α} {l ending : List (Frame α ε)}
    (h : l <+: as.map .item ++ ending) :
    (∃ as', as' <+: as ∧ l = as'.map .item) ∨
      ∃ f rest, f :: rest <+: ending ∧ l = as.map .item ++ f :: rest := by
  rcases List.prefix_or_prefix_of_prefix h (List.prefix_append _ ending) with hitems | hmore
  · obtain ⟨as', has, rfl⟩ := List.prefix_map_iff.mp hitems
    exact Or.inl ⟨as', has, rfl⟩
  · obtain ⟨_ | ⟨f, rest⟩, rfl⟩ := hmore
    · exact Or.inl ⟨as, List.prefix_rfl, by rw [List.append_nil]⟩
    · exact Or.inr ⟨f, rest, (List.prefix_append_right_inj _).mp h, rfl⟩

/-- Items that are the first of a list with errors at its end are the first of its items. -/
theorem prefix_of_ok_prefix {as cs : List α} {ending : List (Except ε α)}
    (hending : ∀ a, Except.ok a ∉ ending)
    (h : as.map Except.ok <+: cs.map Except.ok ++ ending) : as <+: cs := by
  induction as generalizing cs with
  | nil => exact List.nil_prefix
  | cons a as ih =>
    rcases cs with _ | ⟨c, cs⟩
    · exact absurd (h.subset List.mem_cons_self) (hending a)
    · obtain ⟨hac, hrest⟩ := List.cons_prefix_cons.mp h
      exact List.cons_prefix_cons.mpr ⟨Except.ok.inj hac, ih hrest⟩

/-- What the client has read: items, and perhaps the end. -/
inductive View (s : State α ε) : Prop
  | reading (as : List α) (hread : s.read = as.map .item)
      (haccepted : as.map Except.ok <+: s.accepted)
  | done (as : List α) (rest : List (Frame α ε))
      (hread : s.read = as.map .item ++ .trailers none :: rest)
      (hsender : s.sender = false) (haccepted : s.accepted = as.map .ok)
  | failed (as : List α) (e : ε) (rest : List (Frame α ε))
      (hread : s.read = as.map .item ++ .trailers (some e) :: rest)
      (haccepted : as.map Except.ok <+: s.accepted)
      (hcause : as.map Except.ok ++ [.error e] <+: s.accepted ∨ s.connection = .broken e)

/-- What has been sent are items that the channel took in, and perhaps an end that tells the
truth. -/
theorem Served.sent_eq (h : Served s) : ∃ as : List α, as.map Except.ok <+: s.accepted ∧
    (s.sent = as.map .item ∨
      s.sent = as.map .item ++ [.trailers none] ∧ s.sender = false ∧ s.accepted = as.map .ok ∨
      ∃ e, s.sent = as.map .item ++ [.trailers (some e)] ∧
        as.map Except.ok ++ [.error e] <+: s.accepted) := by
  rcases h with ⟨as, -, hsent, hacc⟩ | ⟨as, -, hsent, hacc⟩ |
    ⟨as, -, hsender, hsent, hacc⟩ | ⟨as, e, -, hsent, hacc⟩
  · exact ⟨as, hacc ▸ List.prefix_append _ _, Or.inl hsent⟩
  · exact ⟨as, hacc, Or.inl hsent⟩
  · exact ⟨as, hacc ▸ List.prefix_rfl, Or.inr (Or.inl ⟨hsent, hsender, hacc⟩)⟩
  · exact ⟨as, (List.prefix_append _ _).trans hacc, Or.inr (Or.inr ⟨e, hsent, hacc⟩)⟩

/-- A client that has read a part of what has been sent, and perhaps of what follows a break. -/
theorem Served.view (h : Served s) (ending : List (Frame α ε)) {arrived : List (Frame α ε)}
    (harrived : arrived <+: s.sent) (hread : s.read <+: arrived ++ ending)
    (hending : ∀ f ∈ ending, ∃ e, f = .trailers (some e) ∧ s.connection = .broken e) :
    View s := by
  obtain ⟨as, hacc, hsent⟩ := h.sent_eq
  have hok : ∀ as' : List α, as' <+: as → as'.map Except.ok <+: s.accepted := fun as' has =>
    (has.map _).trans hacc
  -- the items have arrived in part, or all of them and the end with them
  have hcut : (∃ as', as' <+: as ∧ arrived = as'.map .item) ∨
      ∃ st, s.sent = as.map .item ++ [.trailers st] ∧
        arrived = as.map .item ++ [.trailers st] := by
    rcases hsent with hsent | ⟨hsent, -, -⟩ | ⟨e, hsent, -⟩
    · rw [hsent, ← List.append_nil (as.map Frame.item)] at harrived
      rcases prefix_items harrived with ⟨as', has, rfl⟩ | ⟨f, rest, hcons, -⟩
      · exact Or.inl ⟨as', has, rfl⟩
      · exact absurd (List.prefix_nil.mp hcons) (List.cons_ne_nil _ _)
    all_goals
      rw [hsent] at harrived
      rcases prefix_items harrived with ⟨as', has, rfl⟩ | ⟨f, rest, hcons, rfl⟩
      · exact Or.inl ⟨as', has, rfl⟩
      · obtain ⟨rfl, hrest⟩ := List.cons_prefix_cons.mp hcons
        obtain rfl := List.prefix_nil.mp hrest
        exact Or.inr ⟨_, hsent, rfl⟩
  rcases hcut with ⟨as', has, rfl⟩ | ⟨st, hst, rfl⟩
  · rcases prefix_items hread with ⟨as'', has', hread⟩ | ⟨f, rest, hcons, hread⟩
    · exact .reading as'' hread (hok as'' (has'.trans has))
    · obtain ⟨e, rfl, hbroken⟩ := hending f (hcons.subset List.mem_cons_self)
      exact .failed as' e rest hread (hok as' has) (Or.inr hbroken)
  · rw [List.append_assoc] at hread
    rcases prefix_items hread with ⟨as', has, hread⟩ | ⟨f, rest, hcons, hread⟩
    · exact .reading as' hread (hok as' has)
    · obtain ⟨rfl, -⟩ := List.cons_prefix_cons.mp hcons
      rcases hsent with hsent | ⟨hsent, hsender, hall⟩ | ⟨e, hsent, hall⟩
      · rw [hst] at hsent
        simp at hsent
      · rw [hst] at hsent
        obtain rfl : st = none := by simpa using hsent
        exact .done as rest hread hsender hall
      · rw [hst] at hsent
        obtain rfl : st = some e := by simpa using hsent
        exact .failed as e rest hread hacc (Or.inl hall)

/-- **What the client can conclude**: the items that it has read are the first that the channel took
in; if the stream has ended with success, they are all of them and no sender is left; if it has
ended with a status, a sender put it into the channel after these items, or the connection is
broken. -/
theorem Books.view (h : Books s) : View s := by
  rcases hconn : s.connection with _ | e | _
  · refine h.served.view [] List.prefix_rfl ?_ nofun
    rw [List.append_nil, ← h.holds hconn]
    exact List.prefix_append _ _
  · obtain ⟨arrived, hsent, hread⟩ := h.broken e hconn
    refine h.served.view _ hsent (hread ▸ List.prefix_append _ _) fun f hf => ?_
    exact ⟨e, List.mem_singleton.mp hf, hconn⟩
  · refine h.served.view [] List.prefix_rfl ?_ nofun
    rw [List.append_nil]
    exact (List.prefix_append _ _).trans (h.cancelled hconn)

/-- While the connection holds and a sender is left that has not reported an error, the server reads
from the channel. -/
theorem Books.receiver_of_holds (h : Books s) (hconn : s.connection = .holds)
    (hsender : s.sender = true) (hok : ∀ e, Except.error e ∉ s.accepted) :
    s.receiver = true := by
  rcases h.served with ⟨as, hopen, -, -⟩ | ⟨as, hlost, -, -⟩ | ⟨as, -, hgone, -, -⟩ |
    ⟨as, e, -, -, hacc⟩
  · exact hopen
  · exact absurd hconn hlost
  · rw [hsender] at hgone
    cases hgone
  · exact absurd (hacc.subset (List.mem_append_right _ List.mem_cons_self)) (hok e)

/-- A stream whose senders are left has not ended with success. -/
theorem Books.success_notMem_sent (h : Books s) (hsender : s.sender = true) :
    .trailers none ∉ s.sent := by
  intro hmem
  rcases h.served with ⟨as, -, hsent, -⟩ | ⟨as, -, hsent, -⟩ | ⟨as, -, hgone, -, -⟩ |
    ⟨as, e, -, hsent, -⟩
  · simp [hsent] at hmem
  · simp [hsent] at hmem
  · rw [hsender] at hgone
    cases hgone
  · simp [hsent] at hmem

/-- The success that the client reads has been sent. -/
theorem Books.success_mem_sent (h : Books s) (hmem : .trailers none ∈ s.read) :
    .trailers none ∈ s.sent := by
  have hmem' : .trailers none ∈ s.read ++ s.wire := List.mem_append_left _ hmem
  rcases hconn : s.connection with _ | e | _
  · rwa [h.holds hconn] at hmem'
  · obtain ⟨arrived, hsent, hread⟩ := h.broken e hconn
    rw [hread] at hmem'
    rcases List.mem_append.mp hmem' with harrived | hlast
    · exact hsent.subset harrived
    · cases List.mem_singleton.mp hlast
  · exact (h.cancelled hconn).subset hmem'

/-- If the senders are gone, the connection holds and nothing is left to forward or to read, the
client has seen the end. -/
theorem Books.ended (h : Books s) (hconn : s.connection = .holds) (hsender : s.sender = false)
    (hforward : ServerStream.step capacity s .forward = none)
    (hdeliver : ServerStream.step capacity s .deliver = none) :
    ∃ (as : List α) (st : Option ε), s.read = as.map .item ++ [.trailers st] := by
  have hwire : s.wire = [] := by
    rcases hwire : s.wire with _ | ⟨f, wire⟩
    · rfl
    · unfold ServerStream.step at hdeliver
      rw [hwire] at hdeliver
      cases hdeliver
  have hread : s.read = s.sent := by
    have hsent := h.holds hconn
    rwa [hwire, List.append_nil] at hsent
  have hgone : s.receiver = false := by
    unfold ServerStream.step at hforward
    rcases hopen : s.receiver with _ | _
    · rfl
    · rcases hqueue : s.queue with _ | ⟨_ | _, _⟩
      all_goals
        rw [hopen, hqueue, hsender] at hforward
        cases hforward
  rcases h.served with ⟨as, hopen, -, -⟩ | ⟨as, hlost, -, -⟩ | ⟨as, -, -, hsent, -⟩ |
    ⟨as, e, -, hsent, -⟩
  · rw [hgone] at hopen
    cases hopen
  · exact absurd hconn hlost
  · exact ⟨as, none, hread.trans hsent⟩
  · exact ⟨as, some e, hread.trans hsent⟩

/-- What is left to forward and to read. -/
def rank (s : State α ε) : ℕ := 2 * s.queue.length + s.wire.length + if s.receiver then 2 else 0

theorem rank_push (s : State α ε) (m : Except ε α) : rank (s.push m) = rank s + 2 := by
  show 2 * (s.queue ++ [m]).length + s.wire.length + (if s.receiver then 2 else 0) =
    2 * s.queue.length + s.wire.length + (if s.receiver then 2 else 0) + 2
  rw [List.length_append, List.length_singleton]
  omega

theorem rank_emit (s : State α ε) (f : Frame α ε) : rank (s.emit f) ≤ rank s + 1 := by
  unfold State.emit rank
  split
  · dsimp only
    rw [List.length_append, List.length_singleton]
    omega
  · omega

theorem rank_step {ev : Event α ε} (hev : ev = .forward ∨ ev = .deliver)
    (hstep : step capacity s ev = some s') : rank s' < rank s := by
  unfold ServerStream.step at hstep
  rcases hev with rfl | rfl
  · dsimp only at hstep
    split at hstep
    · cases hstep
    next hnot =>
    have hopen : s.receiver = true := by simpa using hnot
    split at hstep
    · next a queue hqueue =>
      obtain rfl := Option.some.inj hstep
      refine (rank_emit _ _).trans_lt ?_
      simp only [rank, hopen, hqueue, List.length_cons]
      omega
    · next e rest hqueue =>
      obtain rfl := Option.some.inj hstep
      refine (rank_emit _ _).trans_lt ?_
      simp only [rank, hopen, hqueue, List.length_cons, List.length_nil, if_true,
        Bool.false_eq_true, if_false]
      omega
    · next hqueue =>
      split at hstep
      · cases hstep
      obtain rfl := Option.some.inj hstep
      refine (rank_emit _ _).trans_lt ?_
      simp only [rank, hopen, hqueue, if_true, Bool.false_eq_true, if_false]
      omega
  · dsimp only at hstep
    split at hstep
    case h_2 => cases hstep
    next f wire hwire =>
    obtain rfl := Option.some.inj hstep
    simp only [rank, hwire, List.length_cons]
    omega

end View

end ServerStream
