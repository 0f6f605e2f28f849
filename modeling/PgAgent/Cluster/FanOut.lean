import Mathlib.Data.List.Induction
import PgAgent.Cluster.View

/-!
# The status fan-out over the channel pool

`collect_statuses` asks all peers at once, each in a task of its own.  Every task first
asks `PeerPool::client` for a channel.  The pool's map of channels sits behind one
asynchronous lock, which serves the tasks in the order they came, and a task without a
usable channel dials *while it holds the lock*.  So the tasks wait for each other's
dials, and the fan-out's budget is as long as one dial may take.

* `serveQueue` runs the tasks of one fan-out through the pool, in the order in which they
  reached it, and `FanOut.views` is what the fan-out returns.
* `FanOut.dialsAhead` is the time the dials in front of a task take.  `clientReady` says
  that this is exactly when the lock comes free for it.
* `ownEvidence_iff` is the answer to "does one slow peer degrade only its own
  evidence": it does exactly when every peer that answers in time by itself still does
  with the dials ahead of it added.
-/

namespace PgAgent

open Rust

/-- `MAX_CONNECTION_AGE`: twelve hours. -/
def maxConnectionAge : Duration := Duration.fromSecs 43200

/-- `DEFAULT_CONNECT_TIMEOUT`. -/
def defaultConnectTimeout : Duration := Duration.fromSecs 5

/-- `STATUS_FANOUT_BUDGET`. -/
def statusFanoutBudget : Duration := Duration.fromSecs 5

/-! ## The pool -/

/-- A cached channel: when it was dialled, and whether a transport error broke it. -/
structure ChannelEntry where
  createdAt : Instant
  poisoned : Bool
  deriving DecidableEq, Repr

/-- The cache hit test of `PeerPool::client`. -/
def ChannelEntry.usable (entry : ChannelEntry) (now : Instant) : Bool :=
  decide (Instant.durationSince now entry.createdAt < maxConnectionAge) && !entry.poisoned

abbrev ChannelMap := NodeMap ChannelEntry

/-- A channel of the node is cached and usable. -/
def ChannelMap.hit (channels : ChannelMap) (now : Instant) (id : NodeId) : Bool :=
  match channels.lookup id with
  | some entry => entry.usable now
  | none => false

/-- A dial: how long it takes, at most the connect timeout, and whether it connects. -/
structure Dial where
  took : Duration
  connected : Bool
  took_le : took ≤ defaultConnectTimeout

/-- A dial that uses up the connect timeout and fails. -/
def Dial.dead : Dial := ⟨defaultConnectTimeout, false, le_refl _⟩

/-- A dial that connects at once. -/
def Dial.instant : Dial := ⟨0, true, Nat.zero_le _⟩

/-- The answer of a connected peer to `GetStatus`: how long it takes, and the status or an
error. -/
structure Reply where
  took : Duration
  status : Option NodeStatus

/-- `PeerPool::client` for a caller that holds the lock from `now` on: the channels
afterwards, the time at which the lock is free again, and whether there is a client. -/
def PeerPool.client (channels : ChannelMap) (now : Instant) (node : NodeConfig) (dial : Dial) :
    ChannelMap × Instant × Bool :=
  if channels.hit now node.id then (channels, now, true)
  else
    let done := now + dial.took
    if dial.connected then (AList.insert node.id ⟨done, false⟩ channels, done, true)
    else (channels, done, false)

/-- The tasks of a fan-out at the lock, one after the other: for each, when it leaves the
pool and whether it has a client. -/
def serveQueue (dial : NodeConfig → Dial) :
    ChannelMap → Instant → List NodeConfig → List (NodeConfig × Instant × Bool)
  | _, _, [] => []
  | channels, now, node :: rest =>
      let (channels', done, ok) := PeerPool.client channels now node (dial node)
      (node, done, ok) :: serveQueue dial channels' done rest

/-! ## A fan-out -/

/-- Everything one fan-out depends on. -/
structure FanOut where
  nodes : List NodeConfig
  /-- The nodes have distinct ids. -/
  nodup : (nodes.map NodeConfig.id).Nodup
  /-- The order in which the tasks reach the pool. -/
  queue : List NodeConfig
  perm : queue.Perm nodes
  start : Instant
  channels : ChannelMap
  dial : NodeConfig → Dial
  reply : NodeConfig → Reply

namespace FanOut

/-- When a node's task leaves the pool, and whether it has a client. -/
def client (f : FanOut) (node : NodeConfig) : Option (Instant × Bool) :=
  ((serveQueue f.dial f.channels f.start f.queue).find? fun r => r.1 = node).map Prod.snd

/-- How a node's task ends: with the peer's answer or with an error, in order of
completion, if that is before the deadline. -/
def taskEnd (f : FanOut) (node : NodeConfig) : TaskEnd :=
  match f.client node with
  | some (ready, true) =>
      let finish := ready + (f.reply node).took
      if finish < f.start + statusFanoutBudget then .answered finish (f.reply node).status
      else .late
  | some (ready, false) =>
      if ready < f.start + statusFanoutBudget then .answered ready none else .late
  | none => .late

/-- `collect_statuses` over the pool. -/
def views (f : FanOut) : List PeerStatusView := collectStatuses f.nodes f.taskEnd

/-! ## What a peer's evidence should depend on -/

/-- The time a node's own dial takes when its task gets the lock at `now`: none with a
usable channel. -/
def dialTime (f : FanOut) (now : Instant) (node : NodeConfig) : Duration :=
  if f.channels.hit now node.id then 0 else (f.dial node).took

/-- A node gets a client when its task gets the lock at `now`. -/
def connects (f : FanOut) (now : Instant) (node : NodeConfig) : Bool :=
  f.channels.hit now node.id || (f.dial node).connected

/-- The time the dials of some tasks take, one after the other. -/
def dialsAhead (f : FanOut) (ahead : List NodeConfig) : Duration :=
  ahead.foldl (fun waited node => waited + f.dialTime (f.start + waited) node) 0

/-- With `waited` before its turn, a node connects, answers `s`, and does both within the
budget. -/
def AnswersAfter (f : FanOut) (waited : Duration) (node : NodeConfig) (s : NodeStatus) : Prop :=
  f.connects (f.start + waited) node = true ∧ (f.reply node).status = some s ∧
    waited + f.dialTime (f.start + waited) node + (f.reply node).took < statusFanoutBudget

/-- Every peer that connects and answers within the budget by itself is reported with its
own answer. -/
def OwnEvidence (f : FanOut) : Prop :=
  ∀ node ∈ f.nodes, ∀ s, f.AnswersAfter 0 node s → ⟨node, some s⟩ ∈ f.views

end FanOut

/-! ## The lock serves the queue in order -/

theorem hit_insert_of_ne {channels : ChannelMap} {id id' : NodeId} (h : id' ≠ id)
    (entry : ChannelEntry) (now : Instant) :
    ChannelMap.hit (AList.insert id entry channels) now id' = channels.hit now id' := by
  rw [ChannelMap.hit, AList.lookup_insert_ne h, ChannelMap.hit]

/-- A call of `client` decides nothing about the channels of other nodes. -/
theorem hit_client_of_ne {channels : ChannelMap} {now : Instant} {node : NodeConfig} {dial : Dial}
    {id : NodeId} (h : id ≠ node.id) (t : Instant) :
    ChannelMap.hit (PeerPool.client channels now node dial).1 t id = channels.hit t id := by
  rw [PeerPool.client]
  split
  · rfl
  · dsimp only
    split
    · exact hit_insert_of_ne h _ t
    · rfl

namespace FanOut

variable {f : FanOut}

/-- The call of `client` of a task that finds the cache as it was at the start. -/
theorem client_snd (f : FanOut) {channels : ChannelMap} {now : Instant} {node : NodeConfig}
    (h : channels.hit now node.id = f.channels.hit now node.id) :
    (PeerPool.client channels now node (f.dial node)).2 =
      (now + f.dialTime now node, f.connects now node) := by
  rw [PeerPool.client, h, dialTime, connects]
  cases hh : f.channels.hit now node.id with
  | true => simp
  | false => cases hc : (f.dial node).connected <;> simp

/-- The lock comes free for a task after the dials of the tasks ahead of it.  The induction is
on the tasks ahead: each leaves the channels of all later ones as they were. -/
theorem find_serveQueue (f : FanOut) (ahead : List NodeConfig) (waited : Duration)
    {channels : ChannelMap} (behind : List NodeConfig) (node : NodeConfig)
    (hnodup : ((ahead ++ node :: behind).map NodeConfig.id).Nodup)
    (hcache : ∀ n ∈ ahead ++ node :: behind, ∀ t, channels.hit t n.id =
      f.channels.hit t n.id) :
    ((serveQueue f.dial channels (f.start + waited) (ahead ++ node :: behind)).find?
        fun r => r.1 = node).map Prod.snd =
      let waited' := ahead.foldl (fun w n => w + f.dialTime (f.start + w) n) waited
      some (f.start + waited' + f.dialTime (f.start + waited') node,
        f.connects (f.start + waited') node) := by
  induction ahead generalizing waited channels with
  | nil =>
    have hown := client_snd f (hcache node (by simp) (f.start + waited))
    rw [List.nil_append, serveQueue, List.find?_cons_of_pos (by simp), Option.map_some]
    exact congrArg some hown
  | cons a ahead ih =>
    rw [List.cons_append, List.map_cons, List.nodup_cons] at hnodup
    have hne : ∀ n ∈ ahead ++ node :: behind, n.id ≠ a.id := by
      intro n hn heq
      exact hnodup.1 (heq ▸ List.mem_map_of_mem hn)
    have ha : ¬ a = node := by
      rintro rfl
      exact hne a (by simp) rfl
    have hown := client_snd f (hcache a (by simp) (f.start + waited))
    rw [List.cons_append, serveQueue, List.find?_cons_of_neg (by simpa using ha)]
    rw [show (PeerPool.client channels (f.start + waited) a (f.dial a)).2.1 =
      f.start + (waited + f.dialTime (f.start + waited) a) by rw [hown, Nat.add_assoc]]
    refine ih (waited + f.dialTime (f.start + waited) a) hnodup.2 ?_
    intro n hn t
    rw [hit_client_of_ne (hne n hn)]
    exact hcache n (List.mem_cons_of_mem a hn) t

/-- A task leaves the pool when the dials ahead of it and its own are done. -/
theorem clientReady {ahead behind : List NodeConfig} {node : NodeConfig}
    (hq : f.queue = ahead ++ node :: behind) :
    f.client node = some (f.start + f.dialsAhead ahead +
        f.dialTime (f.start + f.dialsAhead ahead) node,
      f.connects (f.start + f.dialsAhead ahead) node) := by
  have hnodup : (f.queue.map NodeConfig.id).Nodup :=
    (f.perm.map NodeConfig.id).nodup_iff.mpr f.nodup
  rw [hq] at hnodup
  have h := find_serveQueue f ahead 0 behind node hnodup fun _ _ _ => rfl
  rw [client, hq]
  exact h

theorem taskEnd_answer_iff {ahead behind : List NodeConfig} {node : NodeConfig}
    (hq : f.queue = ahead ++ node :: behind) (s : NodeStatus) :
    (f.taskEnd node).answer = some s ↔ f.AnswersAfter (f.dialsAhead ahead) node s := by
  rw [taskEnd, clientReady hq, AnswersAfter]
  cases hc : f.connects (f.start + f.dialsAhead ahead) node with
  | true =>
    dsimp only
    split
    · rename_i hlt
      simp only [TaskEnd.answer, true_and]
      refine ⟨fun hs => ⟨hs, ?_⟩, fun hs => hs.1⟩
      grind
    · rename_i hlt
      simp only [TaskEnd.answer, true_and]
      refine ⟨fun hs => by simp at hs, fun hs => absurd ?_ hlt⟩
      grind
  | false =>
    dsimp only
    split <;> simp [TaskEnd.answer]

/-- A peer is reported with an answer exactly when its task ended with it. -/
theorem mem_views_iff {node : NodeConfig} (hn : node ∈ f.nodes) (s : NodeStatus) :
    ⟨node, some s⟩ ∈ f.views ↔ (f.taskEnd node).answer = some s :=
  ⟨fun h => (mem_of_mem_collectStatuses h).2.symm, fun h => mem_collectStatuses_of_answer hn h⟩

/-- One slow peer: **it degrades only its own evidence exactly when the dials ahead of
every peer that answers in time by itself leave it the time to answer**. -/
theorem ownEvidence_iff (f : FanOut) :
    f.OwnEvidence ↔ ∀ ahead node behind, f.queue = ahead ++ node :: behind →
      ∀ s, f.AnswersAfter 0 node s → f.AnswersAfter (f.dialsAhead ahead) node s := by
  constructor
  · intro h ahead node behind hq s hs
    have hn : node ∈ f.nodes := f.perm.mem_iff.mp (by rw [hq]; simp)
    exact (taskEnd_answer_iff hq s).mp ((mem_views_iff hn s).mp (h node hn s hs))
  · intro h node hn s hs
    obtain ⟨ahead, behind, hq⟩ := List.append_of_mem (f.perm.mem_iff.mpr hn)
    exact (mem_views_iff hn s).mpr ((taskEnd_answer_iff hq s).mpr (h ahead node behind hq s hs))

/-- The answer of a serving primary. -/
def servingStatus : NodeStatus where
  isRunning := true
  isInRecovery := false
  isReady := true
  replicationLagBytes := 0
  replicationState := ""
  isPostgresRunning := true
  isPgpoolRunning := true
  isPostgresStatusOk := true
  isPgpoolStatusOk := true
  timelineId := 1
  currentWalLsn := 100
  lastFlushLsn := 100
  peerPrimarySeenAgeMs := ∅

/-- Two peers and an empty cache: node 1 is dead and its task comes first, node 2 serves as
primary and would answer within two milliseconds. -/
def deadPeerFirst : FanOut where
  nodes := [⟨1, "db1"⟩, ⟨2, "db2"⟩]
  nodup := by decide
  queue := [⟨1, "db1"⟩, ⟨2, "db2"⟩]
  perm := List.Perm.refl _
  start := 0
  channels := ∅
  dial n := if n.id = 1 then Dial.dead else ⟨Duration.fromMillis 1, true, by decide⟩
  reply _ := ⟨Duration.fromMillis 1, some servingStatus⟩

/-- The dead peer hides the healthy primary. -/
theorem deadPeerFirst_hides : ¬ deadPeerFirst.OwnEvidence := by
  intro h
  have hq : deadPeerFirst.queue = [⟨1, "db1"⟩] ++ ⟨2, "db2"⟩ :: [] := rfl
  have hnode : (⟨2, "db2"⟩ : NodeConfig) ∈ deadPeerFirst.nodes := by simp [deadPeerFirst]
  have hmem := h ⟨2, "db2"⟩ hnode servingStatus ⟨rfl, rfl, by decide +kernel⟩
  obtain ⟨-, -, hlt⟩ :=
    (taskEnd_answer_iff hq servingStatus).mp ((mem_views_iff hnode _).mp hmem)
  exact absurd hlt (by decide +kernel)

/-! ## For every timing

Which tasks may dial at all, if no dial is to cost another peer its evidence? -/

/-- The same fan-out with other durations. -/
def withTiming (f : FanOut) (dial : NodeConfig → Dial) (reply : NodeConfig → Reply) : FanOut :=
  { f with dial := dial, reply := reply }

theorem dialsAhead_eq_zero {ahead : List NodeConfig}
    (h : ∀ n ∈ ahead, f.channels.hit f.start n.id = true) : f.dialsAhead ahead = 0 := by
  induction ahead using List.reverseRecOn with
  | nil => rfl
  | append_singleton l n ih =>
    have hl := ih fun m hm => h m (List.mem_append_left _ hm)
    rw [dialsAhead, List.foldl_append, ← dialsAhead, hl]
    simp [dialTime, h n (by simp)]

/-- The timing that hurts most: one peer is dead, all others connect and answer at once. -/
def slowPeer (f : FanOut) (node : NodeConfig) (s : NodeStatus) : FanOut :=
  f.withTiming (fun m => if m = node then Dial.dead else Dial.instant) fun _ => ⟨0, some s⟩

theorem slowPeer_dialsAhead {ahead : List NodeConfig} {node : NodeConfig} {s : NodeStatus}
    (hahead : ∀ n ∈ ahead, f.channels.hit f.start n.id = true)
    (hmiss : f.channels.hit f.start node.id = false) :
    (f.slowPeer node s).dialsAhead (ahead ++ [node]) = defaultConnectTimeout := by
  have h0 : (f.slowPeer node s).dialsAhead ahead = 0 := dialsAhead_eq_zero hahead
  have hdead : (f.slowPeer node s).dial node = Dial.dead := if_pos rfl
  have htime : (f.slowPeer node s).dialTime (f.start + 0) node = defaultConnectTimeout := by
    rw [dialTime, hdead, Nat.add_zero]
    exact if_neg (by rw [show (f.slowPeer node s).channels = f.channels from rfl, hmiss]; decide)
  rw [dialsAhead, List.foldl_append, ← dialsAhead, h0, List.foldl_cons,
    List.foldl_nil, Nat.zero_add]
  exact htime

theorem slowPeer_answersAfter {node next : NodeConfig} {s : NodeStatus} (hne : ¬ next = node) :
    (f.slowPeer node s).AnswersAfter 0 next s := by
  have hfast : (f.slowPeer node s).dial next = Dial.instant := if_neg hne
  have hzero : (f.slowPeer node s).dialTime ((f.slowPeer node s).start + 0) next = 0 := by
    simp [dialTime, hfast, Dial.instant]
  refine ⟨by simp [connects, hfast, Dial.instant], rfl, ?_⟩
  rw [hzero]
  show 0 < statusFanoutBudget
  decide

/-- A fan-out keeps every peer's own evidence **under every timing exactly when every task
but the last finds a usable channel**: any other task may dial a dead peer for the whole
budget. -/
theorem ownEvidence_forall_timing_iff (f : FanOut) (s : NodeStatus) :
    (∀ dial reply, (f.withTiming dial reply).OwnEvidence) ↔
      ∀ ahead node behind, f.queue = ahead ++ node :: behind → behind ≠ [] →
        f.channels.hit f.start node.id = true := by
  constructor
  · intro h ahead node behind hq hb
    induction hlen : ahead.length using Nat.strong_induction_on generalizing ahead node behind with
    | _ len ih =>
      have hahead : ∀ m ∈ ahead, f.channels.hit f.start m.id = true := by
        intro m hm
        obtain ⟨front, rest, rfl⟩ := List.append_of_mem hm
        refine ih front.length ?_ front m (rest ++ node :: behind) ?_ (by simp) rfl
        · rw [← hlen]
          simp
        · rw [hq, List.append_assoc, List.cons_append]
      obtain ⟨next, rest, rfl⟩ := List.exists_cons_of_ne_nil hb
      by_contra hmiss
      have hgq : (f.slowPeer node s).queue = (ahead ++ [node]) ++ next :: rest := by
        rw [List.append_assoc]
        exact hq
      have hne : ¬ next = node := by
        rintro rfl
        have hnodup := (f.perm.map NodeConfig.id).nodup_iff.mpr f.nodup
        rw [hq] at hnodup
        simp [List.nodup_append] at hnodup
      have hnext : next ∈ (f.slowPeer node s).nodes := f.perm.mem_iff.mp (by rw [hq]; simp)
      -- `next` has to wait for the whole budget, and so is not reported
      have hslow : (f.slowPeer node s).OwnEvidence := h _ _
      obtain ⟨-, -, hlt⟩ := (taskEnd_answer_iff hgq s).mp
        ((mem_views_iff hnext s).mp (hslow next hnext s (slowPeer_answersAfter hne)))
      rw [slowPeer_dialsAhead hahead (by simpa using hmiss)] at hlt
      exact absurd (lt_of_le_of_lt (Nat.le_add_right _ _) (Nat.lt_of_add_right_lt hlt))
        (lt_irrefl _)
  · intro h dial reply node hn s' hs
    obtain ⟨ahead, behind, hq⟩ :=
      List.append_of_mem ((f.withTiming dial reply).perm.mem_iff.mpr hn)
    have hzero : (f.withTiming dial reply).dialsAhead ahead = 0 := by
      refine dialsAhead_eq_zero fun m hm => ?_
      obtain ⟨front, rest, rfl⟩ := List.append_of_mem hm
      exact h front m (rest ++ node :: behind)
        (by rw [← List.cons_append, ← List.append_assoc]; exact hq) (by simp)
    refine (mem_views_iff hn s').mpr ((taskEnd_answer_iff hq s').mpr ?_)
    rw [hzero]
    exact hs

end FanOut
end PgAgent
