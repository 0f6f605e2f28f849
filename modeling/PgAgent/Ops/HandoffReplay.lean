import PgAgent.Ops.Handoff
import PgAgent.Ops.JournalStore

/-!
# Handoffs that are asked for again

A second `cluster_handoff` between the same two nodes is answered from the journal: if the
latest entry of the pair is done, the reply is `ok = true` and nothing is driven.  The entry
says that such a handoff was completed once; it does not say what has happened to the
primary since.

What has happened is a list of role events, the latest first.  A completed handoff leaves
its target a primary and its source a standby, so a source that is a primary again has been
promoted since: the reply from the journal is then about a handoff that has been undone.

* `stillThere_not_primary` --- while a completed handoff stands, its source is no primary;
* `repliesTruly_iff` --- a reply `ok = true` is true exactly when the journal does not give it.
-/

namespace PgAgent

/-! ## The whole request -/

/-- The ladder from a position on, over the outcomes of its calls: the calls with their
outcomes, and the reply if it comes to one. -/
def HandoffOp.drive (op : HandoffOp) :
    LadderPosition → List (Except String Unit) → List (HandoffCall × Except String Unit) ×
      Option OpReply
  | _, [] => ([], none)
  | pos, outcome :: outcomes =>
      match op.next pos outcome with
      | .inl pos' =>
          let (calls, reply) := op.drive pos' outcomes
          ((pos.call, outcome) :: calls, reply)
      | .inr reply => ([(pos.call, outcome)], some reply)

/-- `cluster_handoff`: its preflight, then the ladder from the start. -/
def clusterHandoff (pool : NodePool) (req : ClusterHandoffRequest) (p : PreflightProbes)
    (outcomes : List (Except String Unit)) : Option OpReply :=
  match handoffPreflight pool req p with
  | .error reply => some reply
  | .ok op => (op.drive HandoffPhase.preflightDone.start outcomes).2

/-- The request has driven the ladder, and the ladder's last call has completed the entry. -/
def DroveToEnd (pool : NodePool) (req : ClusterHandoffRequest) (p : PreflightProbes)
    (outcomes : List (Except String Unit)) : Prop :=
  ∃ op, handoffPreflight pool req p = .ok op ∧
    (op.drive HandoffPhase.preflightDone.start outcomes).1.getLast? = some (.complete, .ok ())

theorem HandoffOp.getLast_of_accepted {op : HandoffOp} {pos : LadderPosition}
    {outcomes : List (Except String Unit)} {reply : OpReply}
    (h : (op.drive pos outcomes).2 = some reply) (hok : reply.isAccepted = true) :
    (op.drive pos outcomes).1.getLast? = some (.complete, .ok ()) := by
  induction outcomes generalizing pos with
  | nil => cases h
  | cons outcome outcomes ih =>
    unfold drive at h ⊢
    cases hnext : op.next pos outcome with
    | inl pos' =>
      rw [hnext] at h
      have hlast := ih h
      dsimp only
      rw [List.getLast?_cons, hlast]
      rfl
    | inr r =>
      rw [hnext] at h
      obtain rfl := Option.some.inj h
      have hcall := HandoffOp.complete_of_accepted hnext hok
      have houtcome : outcome = .ok () := by
        cases outcome with
        | ok u => rfl
        | error e =>
          obtain ⟨call, ran, note⟩ := pos
          obtain rfl := hcall
          obtain rfl := Sum.inr.inj hnext
          cases hok
      dsimp only
      rw [List.getLast?_singleton, hcall, houtcome]

/-! ## What has happened to the primary -/

/-- A change of roles, or of the holder of the lease. -/
inductive RoleEvent where
  | promoted (n : NodeId)
  | demoted (n : NodeId)
  | leased (n : NodeId)
  | handedOff (fromId toId : NodeId)
  deriving DecidableEq, Repr

/-- The roles after some events, the latest first. -/
def isPrimaryAfter (initial : NodeId → Bool) : List RoleEvent → NodeId → Bool
  | [], n => initial n
  | .promoted m :: past, n => n == m || isPrimaryAfter initial past n
  | .demoted m :: past, n => n != m && isPrimaryAfter initial past n
  | .leased _ :: past, n => isPrimaryAfter initial past n
  | .handedOff a b :: past, n => n == b || (n != a && isPrimaryAfter initial past n)

/-- The event moves the primary away from `n`. -/
def RoleEvent.movesAway (n : NodeId) : RoleEvent → Bool
  | promoted m => m != n
  | demoted m => m == n
  | leased m => m != n
  | handedOff _ b => b != n

/-- A handoff between the nodes has been completed, and nothing has moved the primary away from
its target since. -/
def StillThere (past : List RoleEvent) (fromId toId : NodeId) : Prop :=
  ∃ later earlier, past = later ++ .handedOff fromId toId :: earlier ∧
    ∀ e ∈ later, e.movesAway toId = false

theorem not_primary_of_kept {initial : NodeId → Bool} {fromId toId : NodeId}
    (hne : fromId ≠ toId)
    {later : List RoleEvent} (hkept : ∀ e ∈ later, e.movesAway toId = false)
    (earlier : List RoleEvent) :
    isPrimaryAfter initial (later ++ .handedOff fromId toId :: earlier) fromId = false := by
  induction later with
  | nil => simp [isPrimaryAfter, hne]
  | cons e later ih =>
    have hrest := ih fun e' he' => hkept e' (List.mem_cons_of_mem _ he')
    have he := hkept e List.mem_cons_self
    cases e with
    | promoted m =>
      have hm : m = toId := by simpa [RoleEvent.movesAway] using he
      simp [isPrimaryAfter, hrest, hm, hne]
    | demoted m => simp [isPrimaryAfter, hrest]
    | leased m => simpa [isPrimaryAfter] using hrest
    | handedOff a b =>
      have hb : b = toId := by simpa [RoleEvent.movesAway] using he
      simp [isPrimaryAfter, hrest, hb, hne]

/-- While a completed handoff stands, its source is no primary. -/
theorem stillThere_not_primary {initial : NodeId → Bool} {past : List RoleEvent}
    {fromId toId : NodeId} (hne : fromId ≠ toId) (h : StillThere past fromId toId) :
    isPrimaryAfter initial past fromId = false := by
  obtain ⟨later, earlier, rfl, hkept⟩ := h
  exact not_primary_of_kept hne hkept earlier

/-! ## The reply -/

/-- The probes of a request, where the local database answers with the role it has. -/
def probesAfter (initial : NodeId → Bool) (past : List RoleEvent) (pool : NodePool)
    (answered : Except String Unit) (p : PreflightProbes) : PreflightProbes :=
  { p with isInRecovery := answered.map fun _ => !isPrimaryAfter initial past pool.localNodeId }

/-- A reply `ok = true` is true: the request has driven the handoff to its end, or an earlier one
between the same nodes has been completed and still stands. -/
def RepliesTruly (initial : NodeId → Bool) (past : List RoleEvent) (pool : NodePool)
    (req : ClusterHandoffRequest) (answered : Except String Unit) (p : PreflightProbes)
    (outcomes : List (Except String Unit)) : Prop :=
  let probes := probesAfter initial past pool answered p
  ∀ reply, clusterHandoff pool req probes outcomes = some reply → reply.isAccepted = true →
    DroveToEnd pool req probes outcomes ∨ StillThere past pool.localNodeId req.targetNodeId

/-- The latest entry of the pair is done, and the request comes to look it up. -/
structure FindsDone (initial : NodeId → Bool) (past : List RoleEvent) (pool : NodePool)
    (req : ClusterHandoffRequest) (answered : Except String Unit) (p : PreflightProbes) : Prop where
  answered : answered = .ok ()
  primary : isPrimaryAfter initial past pool.localNodeId = true
  localNode : ∃ n, pool.localNode = .ok n
  target : ∃ n, pool.nodeById req.targetNodeId = .ok n
  peer : req.targetNodeId ≠ pool.localNodeId
  entry : ∃ ops op, p.journal = .ok ops ∧
    earlierHandoff ops pool.localNodeId req.targetNodeId = some op ∧ op.status = .done

theorem NodePool.localNodeId_nonneg {pool : NodePool} {n : NodeConfig}
    (h : pool.localNode = .ok n) : 0 ≤ pool.localNodeId := by
  unfold NodePool.localNode at h
  split at h
  · cases h
  · rename_i hle
    exact not_lt.mp hle

theorem answeredFromJournal_iff (initial : NodeId → Bool) (past : List RoleEvent)
    (pool : NodePool) (req : ClusterHandoffRequest) (answered : Except String Unit)
    (p : PreflightProbes) :
    AnsweredFromJournal pool req (probesAfter initial past pool answered p) ↔
      FindsDone initial past pool req answered p := by
  constructor
  · rintro ⟨hprimary, ⟨n, hlocal⟩, htarget, hpeer, hentry⟩
    have hrole : answered = .ok () ∧ isPrimaryAfter initial past pool.localNodeId = true := by
      cases answered with
      | error e => cases hprimary
      | ok u => exact ⟨rfl, by simpa using Except.ok.inj hprimary⟩
    refine ⟨hrole.1, hrole.2, ⟨n, hlocal⟩, htarget, fun heq => ?_, hentry⟩
    exact hpeer ⟨NodePool.localNodeId_nonneg hlocal, heq⟩
  · rintro ⟨rfl, hprimary, hlocal, htarget, hpeer, hentry⟩
    refine ⟨?_, hlocal, htarget, fun hself => hpeer hself.2, hentry⟩
    show Except.ok (!isPrimaryAfter initial past pool.localNodeId) = Except.ok false
    rw [hprimary]
    rfl

/-- A handoff that is accepted **really happened, and stands, exactly when the request does not
find a completed entry of its pair**: whatever the journal, the roles and their past, and the
outcomes of the calls. -/
theorem repliesTruly_iff (initial : NodeId → Bool) (past : List RoleEvent) (pool : NodePool)
    (req : ClusterHandoffRequest) (answered : Except String Unit) (p : PreflightProbes)
    (outcomes : List (Except String Unit)) :
    RepliesTruly initial past pool req answered p outcomes ↔
      ¬ FindsDone initial past pool req answered p := by
  constructor
  · intro htrue hfinds
    have hpre := preflight_of_answeredFromJournal
      ((answeredFromJournal_iff initial past pool req answered p).mpr hfinds)
    have hreply : clusterHandoff pool req (probesAfter initial past pool answered p) outcomes =
        some (OpReply.accepted "cluster_handoff: already processed; skipping duplicate") := by
      rw [clusterHandoff, hpre]
    rcases htrue _ hreply rfl with ⟨op, hop, -⟩ | hstands
    · -- nothing has been driven
      rw [hpre] at hop
      cases hop
    · have hnot : isPrimaryAfter initial past pool.localNodeId = false :=
        stillThere_not_primary hfinds.peer.symm hstands
      rw [hfinds.primary] at hnot
      cases hnot
  · intro hnot reply hreply hok
    unfold clusterHandoff at hreply
    cases hpre : handoffPreflight pool req (probesAfter initial past pool answered p) with
    | error r =>
      rw [hpre] at hreply
      obtain rfl := Option.some.inj hreply
      exact absurd ((answeredFromJournal_iff initial past pool req answered p).mp
        (answeredFromJournal_of_accepted hpre hok)) hnot
    | ok op =>
      rw [hpre] at hreply
      exact Or.inl ⟨op, hpre, HandoffOp.getLast_of_accepted hreply hok⟩

/-! ### There and back -/

/-- The journal of node `0` after it has handed over to node `1`. -/
def handedOver : Journal :=
  Journal.empty.after inflightRetention
    [.begin (.handoff 0 1 "db1" "node0" false) "preflight_done" true 0 (.ok ()),
      .change "0-handoff-0" .complete 10 (.ok ())]

/-- Then node `1` has handed over to node `0`. -/
def thereAndBack : List RoleEvent := [.handedOff 1 0, .handedOff 0 1]

def askedAgain : PreflightProbes where
  isInRecovery := .ok false
  journal := .ok handedOver.ops
  client := .ok ()
  targetStatus := .error "not asked"
  currentWalLsn := .ok 0
  journalAtBegin := .ok handedOver.ops
  written := .ok ()
  now := 20
  seq := 1

def pairPool : NodePool := ⟨[⟨0, "db0"⟩, ⟨1, "db1"⟩], 0⟩

/-- At first node `0` is the primary. -/
def zeroPrimary (n : NodeId) : Bool := n == 0

/-- The third handoff, from node `0` to node `1` again, is answered and not driven. -/
theorem thereAndBack_skipped :
    clusterHandoff pairPool ⟨1, false⟩
        (probesAfter zeroPrimary thereAndBack pairPool (.ok ()) askedAgain) [] =
        some (OpReply.accepted "cluster_handoff: already processed; skipping duplicate") ∧
      ¬ RepliesTruly zeroPrimary thereAndBack pairPool ⟨1, false⟩ (.ok ()) askedAgain [] := by
  have hfound : AnsweredFromJournal pairPool ⟨1, false⟩
      (probesAfter zeroPrimary thereAndBack pairPool (.ok ()) askedAgain) :=
    ⟨rfl, ⟨_, rfl⟩, ⟨_, rfl⟩, by decide, _, _, rfl, rfl, rfl⟩
  have hpre := preflight_of_answeredFromJournal hfound
  have hreply : clusterHandoff pairPool ⟨1, false⟩
      (probesAfter zeroPrimary thereAndBack pairPool (.ok ()) askedAgain) [] =
      some (OpReply.accepted "cluster_handoff: already processed; skipping duplicate") := by
    rw [clusterHandoff, hpre]
  refine ⟨hreply, fun htrue => ?_⟩
  rcases htrue _ hreply rfl with ⟨op, hop, -⟩ | hstands
  · rw [hpre] at hop
    cases hop
  · have hprimary : isPrimaryAfter zeroPrimary thereAndBack 0 = false :=
      stillThere_not_primary (by decide) hstands
    exact absurd hprimary (by decide)

end PgAgent
