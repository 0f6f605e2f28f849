import PgAgent.Consensus.Fencing
import PgAgent.Ha.Candidacy
import PgAgent.System.Cluster

/-!
# Promotion authority

Whoever promotes, promotes under a term of its own.  A promotion is issued for one of
two decisions: a takeover this very tick won, whose term the store has just minted for
this node; or a promotion still awaited, whose term is that of a lease the tick read ---
and a lease in the document was minted for its holder, however stale the read has become
by the time the executor acts.  Terms are fencing tokens (`Consensus.Fenced`), so no two
nodes ever promote under the same one.

The invariant `Authorized` says this of the log, of every agent in the middle of its
loop, and of every action issued; `Authorized.step` is its preservation by every event.
-/

namespace PgAgent

open Rust

/-- The term a decision makes the executor promote under. -/
def HaDecision.promotes : HaDecision → Option UInt64
  | .tookOver term false => some term
  | .awaitingPromotion term _ => some term
  | _ => none

/-- The calls that promote: the executor's, and the signal it sends. -/
def ExecAction.isPromotion : ExecAction → Bool
  | .promoteAndWait _ _ => true
  | .pgPromote => true
  | _ => false

theorem changesRole_of_isPromotion {a : ExecAction} (h : a.isPromotion = true) :
    a.changesRole = true ∧ a ≠ .ensureStopped := by
  constructor
  · cases a <;> first | rfl | cases h
  · rintro rfl
    cases h

/-- The read gave no licence to act: it failed, or showed the cluster paused. -/
def Blind (result : Option ClusterState) : Prop :=
  ∀ st, result = some st → st.paused.isSome = true

/-! ## One tick -/

section Tick

variable {ha : HaLoop} {ts : TickState} {inp : TickInput}

theorem promotes_considerCandidacy {expected : Option (NodeId × UInt64)} {view : LocalView}
    {peers : List PeerView} {t : UInt64}
    (h : (considerCandidacy ha ts expected view peers inp).decision.promotes = some t) :
    ∃ lease, inp.takeover = .ok (.won lease) ∧ lease.term = t ∧
      .tryTakeover ha.localId expected ∈
        (considerCandidacy ha ts expected view peers inp).calls := by
  rcases decision_considerCandidacy ha ts expected view peers inp with
    ⟨_, hd⟩ | ⟨_, hd⟩ | ⟨_, hd⟩ | ⟨lease, already, hwon, hcall, hd⟩
  · rw [hd] at h
    cases h
  · rw [hd] at h
    cases h
  · rw [hd] at h
    cases h
  · rw [hd] at h
    cases already with
    | false => exact ⟨lease, hwon, Option.some.inj h, hcall⟩
    | true => cases h

/-- A tick decides to promote under the term of the local lease it read, or under the
term of the takeover it just won. -/
theorem promotes_tickOnce {t : UInt64} (h : (tickOnce ha ts inp).decision.promotes = some t) :
    (∃ st lease, inp.read ha.timing = some st ∧ st.paused = none ∧ st.lease = some lease ∧
      lease.holder = ha.localId ∧ lease.term = t) ∨
    ∃ lease expected, inp.takeover = .ok (.won lease) ∧ lease.term = t ∧
      .tryTakeover ha.localId expected ∈ (tickOnce ha ts inp).calls := by
  cases tickPath ha ts inp with
  | unknown hread hout =>
    rw [hout, onStoreUnknown] at h
    dsimp only at h
    split at h <;> cases h
  | paused st hread hp hout =>
    rw [hout] at h
    cases h
  | holding st lease hread hp hl hown hout =>
    rw [hout, rememberHolder_decision] at h
    obtain ⟨-, -, -, -, -, -, hd⟩ :=
      holdingLease_spec ha ts.known lease (observeLocal inp.db) inp
    rcases hd with hd | ⟨waiting, hd⟩ | ⟨heldFor, hd⟩ | hd
    · rw [hd] at h
      cases h
    · rw [hd] at h
      exact Or.inl ⟨st, lease, hread, hp, hl, hown, Option.some.inj h⟩
    · rw [hd] at h
      cases h
    · rw [hd] at h
      cases h
  | healthy st lease hread hp hl hother hh d hd hout =>
    rw [hout, rememberHolder_decision] at h
    rcases hd with rfl | ⟨prev, rfl⟩ <;> cases h
  | watching st lease hread hp hl hother hh hfor hout =>
    rw [hout, rememberHolder_decision] at h
    cases h
  | deposing st lease hread hp hl hother hh hfor hout =>
    rw [hout, rememberHolder_decision] at h
    obtain ⟨won, hwon, hterm, hcall⟩ := promotes_considerCandidacy h
    exact Or.inr ⟨won, _, hwon, hterm, by rw [hout]; exact hcall⟩
  | bootstrapGap st hread hp hl hprim reason hout =>
    rw [hout, rememberHolder_decision] at h
    cases h
  | claiming st hread hp hl hprim hout =>
    rw [hout, rememberHolder_decision] at h
    obtain ⟨won, hwon, hterm, hcall⟩ := promotes_considerCandidacy h
    exact Or.inr ⟨won, _, hwon, hterm, by rw [hout]; exact hcall⟩

/-- A blind tick can decide to wait or to demote. -/
theorem decision_of_blind (hblind : Blind (inp.read ha.timing)) :
    (tickOnce ha ts inp).decision = .paused ∨
    (∃ unknownFor, (tickOnce ha ts inp).decision = .storeUnknown unknownFor) ∨
    ∃ reason, (tickOnce ha ts inp).decision = .wouldDemote reason := by
  cases hread : inp.read ha.timing with
  | none =>
    rw [tickOnce, hread]
    simp only [onStoreUnknown]
    split
    · exact Or.inr (Or.inr ⟨_, rfl⟩)
    · exact Or.inr (Or.inl ⟨_, rfl⟩)
  | some st =>
    have hpaused := hblind st hread
    rw [tickOnce, hread]
    exact Or.inl (by simp [hpaused])

/-- All that is issued for a blind tick is a stop. -/
theorem mem_apply_of_blind {rx : RoleExecutor} {es : ExecState} {ei : ExecInput} {d : HaDecision}
    {a : ExecAction}
    (hd : d = .paused ∨ (∃ unknownFor, d = .storeUnknown unknownFor) ∨
      ∃ reason, d = .wouldDemote reason)
    (h : a ∈ (rx.apply es ei d).2) : a = .ensureStopped := by
  rcases hd with rfl | ⟨_, rfl⟩ | ⟨_, rfl⟩
  · cases h
  · cases h
  · exact List.mem_singleton.mp h

end Tick

/-! ## The invariant -/

/-- The node was granted a lease of that term. -/
def Granted (minted : List Lease) (n : NodeId) (t : UInt64) : Prop :=
  ∃ l ∈ minted, l.holder = n ∧ l.term = t

theorem Granted.mono {minted minted' : List Lease} (hsub : minted ⊆ minted') {n : NodeId}
    {t : UInt64} (h : Granted minted n t) : Granted minted' n t := by
  obtain ⟨l, hl, hn, ht⟩ := h
  exact ⟨l, hsub hl, hn, ht⟩

/-- What an agent in the middle of its loop may rely on. -/
def AgentAuthorized (minted : List Lease) (n : NodeId) : Phase → Prop
  | .idle => True
  | .read result => ∀ st l, result = some st → st.lease = some l → l ∈ minted
  | .decided result d =>
      (∀ t, d.promotes = some t → Granted minted n t) ∧
      (Blind result → d = .paused ∨ (∃ unknownFor, d = .storeUnknown unknownFor) ∨
        ∃ reason, d = .wouldDemote reason)

theorem AgentAuthorized.mono {minted minted' : List Lease} (hsub : minted ⊆ minted') {n : NodeId}
    {p : Phase} (h : AgentAuthorized minted n p) : AgentAuthorized minted' n p := by
  cases p with
  | idle => trivial
  | read result => exact fun st l hst hl => hsub (h st l hst hl)
  | decided result d => exact ⟨fun t ht => (h.1 t ht).mono hsub, h.2⟩

/-- What an issued action rests on. -/
structure IssuedAuthorized (minted : List Lease) (e : Issued) : Prop where
  granted : e.action.isPromotion = true →
    ∃ t, e.decision.promotes = some t ∧ Granted minted e.node t ∧
      ∀ t' deadline, e.action = .promoteAndWait t' deadline → t' = t
  blind : Blind e.read → e.action = .ensureStopped

theorem IssuedAuthorized.mono {minted minted' : List Lease} (hsub : minted ⊆ minted') {e : Issued}
    (h : IssuedAuthorized minted e) : IssuedAuthorized minted' e where
  granted := by
    intro hp
    obtain ⟨t, ht, hg, hterm⟩ := h.granted hp
    exact ⟨t, ht, hg.mono hsub, hterm⟩
  blind := h.blind

structure Authorized (s : System) : Prop where
  /-- Terms are fencing tokens. -/
  fenced : Consensus.Fenced s.log.length s.minted s.store
  /-- Every reply in the log is the store's. -/
  replies : ∀ entry ∈ s.log, ∃ st, entry.2 = (applyCommand st entry.1).2
  agents : ∀ n, AgentAuthorized s.minted n (s.agents n).phase
  issued : ∀ e ∈ s.issued, IssuedAuthorized s.minted e

theorem authorized_initial : Authorized System.initial where
  fenced := Consensus.fenced_default
  replies := by simp [System.initial]
  agents := fun _ => trivial
  issued := by simp [System.initial]

/-! ## Its preservation -/

section Preservation

variable {dep : Deployment} {s s' : System}

theorem commit_eq_some {cmd : ConsensusCommand} {response : CommandResponse}
    (h : s.commit cmd = some (s', response)) :
    s.log.length + 1 < 2 ^ 64 ∧ response = (applyCommand s.store cmd).2 ∧
      s' = { s with store := (applyCommand s.store cmd).1, log := (cmd, response) :: s.log } := by
  unfold System.commit at h
  split at h
  · rename_i hindex
    obtain ⟨hs', hresponse⟩ := Prod.mk.inj (Option.some.inj h)
    exact ⟨hindex, hresponse.symm, by rw [← hs', ← hresponse]⟩
  · cases h

theorem minted_commit {cmd : ConsensusCommand} {response : CommandResponse}
    (h : s.commit cmd = some (s', response)) :
    s'.minted = response.minted.toList ++ s.minted := by
  obtain ⟨-, -, rfl⟩ := commit_eq_some h
  unfold System.minted
  rw [List.filterMap_cons]
  cases response.minted <;> rfl

theorem Authorized.commit {cmd : ConsensusCommand} {response : CommandResponse}
    (hs : Authorized s) (h : s.commit cmd = some (s', response)) : Authorized s' := by
  have hminted := minted_commit h
  have hsub : s.minted ⊆ s'.minted := by
    rw [hminted]
    exact List.subset_append_right _ _
  obtain ⟨hindex, rfl, rfl⟩ := commit_eq_some h
  refine ⟨?_, ?_, ?_, ?_⟩
  · rw [hminted]
    exact hs.fenced.step hindex cmd
  · intro entry hentry
    rcases List.mem_cons.mp hentry with rfl | hentry
    · exact ⟨s.store, rfl⟩
    · exact hs.replies entry hentry
  · exact fun n => (hs.agents n).mono hsub
  · exact fun e he => (hs.issued e he).mono hsub

theorem Authorized.setAgent (hs : Authorized s) {n : NodeId} {a : AgentState}
    (ha : AgentAuthorized s.minted n a.phase) : Authorized (s.setAgent n a) where
  fenced := hs.fenced
  replies := hs.replies
  agents := by
    intro m
    show AgentAuthorized s.minted m (Function.update s.agents n a m).phase
    by_cases hm : m = n
    · subst hm
      rw [Function.update_self]
      exact ha
    · rw [Function.update_of_ne hm]
      exact hs.agents m
  issued := hs.issued

/-- A write of a tick keeps the invariant, and the term of an answered takeover is granted
to the candidate. -/
theorem Authorized.perform (hs : Authorized s) {inp : TickInput} {stamp : Timestamp}
    {released : Bool} {call : StoreCall} (h : System.perform inp stamp released s call = some s') :
    Authorized s' ∧ s.minted ⊆ s'.minted ∧
      ∀ cand expected lease, call = .tryTakeover cand expected →
        inp.takeover = .ok (.won lease) → Granted s'.minted cand lease.term := by
  cases call with
  | tryTakeover candidate expected =>
    unfold System.perform at h
    dsimp only at h
    cases hanswer : inp.takeover with
    | error e =>
      rw [hanswer] at h
      obtain rfl := Option.some.inj h
      exact ⟨hs, fun _ hl => hl, by simp⟩
    | ok outcome =>
      rw [hanswer] at h
      obtain ⟨⟨s'', response⟩, hcommit, hreply⟩ := Option.bind_eq_some_iff.mp h
      dsimp only at hreply
      split at hreply
      · rename_i hresponse
        obtain rfl := Option.some.inj hreply
        have hminted := minted_commit hcommit
        refine ⟨hs.commit hcommit, ?_, ?_⟩
        · rw [hminted]
          exact List.subset_append_right _ _
        · intro cand expected' lease hcall hwon
          obtain ⟨rfl, rfl⟩ := StoreCall.tryTakeover.inj hcall
          obtain rfl := Except.ok.inj hwon
          have hmint : (applyCommand s.store (.takeover candidate expected stamp)).2.minted =
              some lease := by
            rw [← (commit_eq_some hcommit).2.1, hresponse]
            rfl
          obtain ⟨_, _, hcmd, -⟩ := applyCommand_minted hmint
          refine ⟨lease, ?_, (ConsensusCommand.takeover.inj hcmd).1.symm, rfl⟩
          rw [hminted, hresponse]
          exact List.mem_append_left _ List.mem_cons_self
      · cases hreply
  | release holder term =>
    unfold System.perform at h
    dsimp only at h
    split at h
    · obtain ⟨⟨s'', response⟩, hcommit, rfl⟩ := Option.map_eq_some_iff.mp h
      refine ⟨hs.commit hcommit, ?_, by simp⟩
      rw [minted_commit hcommit]
      exact List.subset_append_right _ _
    · obtain rfl := Option.some.inj h
      exact ⟨hs, fun _ hl => hl, by simp⟩

theorem Authorized.performAll {inp : TickInput} {stamp : Timestamp} {released : Bool}
    {calls : List StoreCall} (hs : Authorized s)
    (h : calls.foldlM (System.perform inp stamp released) s = some s') :
    Authorized s' ∧ s.minted ⊆ s'.minted ∧
      ∀ cand expected lease, .tryTakeover cand expected ∈ calls →
        inp.takeover = .ok (.won lease) → Granted s'.minted cand lease.term := by
  induction calls generalizing s with
  | nil =>
    obtain rfl := Option.some.inj h
    exact ⟨hs, fun _ hl => hl, by simp⟩
  | cons call calls ih =>
    rw [List.foldlM_cons] at h
    obtain ⟨t, ht, hrest⟩ := Option.bind_eq_some_iff.mp h
    obtain ⟨hauth, hsub, hgrant⟩ := hs.perform ht
    obtain ⟨hauth', hsub', hgrant'⟩ := ih hauth hrest
    refine ⟨hauth', fun _ hl => hsub' (hsub hl), ?_⟩
    intro cand expected lease hmem hwon
    rcases List.mem_cons.mp hmem with heq | hmem
    · exact (hgrant cand expected lease heq.symm hwon).mono hsub'
    · exact hgrant' cand expected lease hmem hwon

/-- What an executor issues rests on what its agent could rely on. -/
theorem issuedAuthorized_of_mem_actionsOf {n : NodeId} {result : Option ClusterState}
    {d : HaDecision} {inp : ExecInput} {minted : List Lease}
    (hd : AgentAuthorized minted n (.decided result d)) {e : Issued}
    (he : e ∈ s.actionsOf dep n result d inp) : IssuedAuthorized minted e := by
  obtain ⟨a, ha, rfl⟩ := List.mem_map.mp he
  constructor
  · intro hp
    obtain ⟨hrole, hstop⟩ := changesRole_of_isPromotion hp
    obtain ⟨t, hkind, -, hdecision⟩ := promotes_of_mem_apply ha hrole hstop
    have hpromotes : d.promotes = some t := by
      rcases hdecision with rfl | ⟨waiting, rfl⟩ <;> rfl
    refine ⟨t, hpromotes, hd.1 t hpromotes, ?_⟩
    intro t' deadline heq
    rcases hkind with hkind | hkind
    · rw [hkind] at heq
      exact (ExecAction.promoteAndWait.inj heq).1.symm
    · rw [hkind] at heq
      cases heq
  · intro hblind
    exact mem_apply_of_blind (hd.2 hblind) ha

theorem Authorized.issue (hs : Authorized s) {new : List Issued}
    (hnew : ∀ e ∈ new, IssuedAuthorized s.minted e) :
    Authorized { s with issued := new ++ s.issued } where
  fenced := hs.fenced
  replies := hs.replies
  agents := hs.agents
  issued := by
    intro e he
    rcases List.mem_append.mp he with he | he
    · exact hnew e he
    · exact hs.issued e he

/-- The decision of a tick that read what the store said. -/
theorem agentAuthorized_decided {n : NodeId} {result : Option ClusterState} {inp : TickInput}
    {ts : TickState} {minted minted' : List Lease} (hsub : minted ⊆ minted')
    (hread : AgentAuthorized minted n (.read result))
    (hresult : inp.read (dep.timing n) = result)
    (hgrant : ∀ expected lease,
      .tryTakeover n expected ∈ (tickOnce (dep.haLoop n) ts inp).calls →
      inp.takeover = .ok (.won lease) → Granted minted' n lease.term) :
    AgentAuthorized minted' n
      (.decided result (tickOnce (dep.haLoop n) ts inp).decision) := by
  constructor
  · intro t ht
    rcases promotes_tickOnce ht with
      ⟨st, lease, hst, -, hlease, hown, hterm⟩ | ⟨lease, expected, hwon, rfl, hcall⟩
    · exact ⟨lease, hsub (hread st lease (hresult.symm.trans hst) hlease), hown, hterm⟩
    · exact hgrant expected lease hcall hwon
  · intro hblind
    rw [← hresult] at hblind
    exact decision_of_blind hblind

/-- Every event keeps the invariant. -/
theorem Authorized.step (hs : Authorized s) {event : SystemEvent}
    (h : System.step dep s event = some s') : Authorized s' := by
  cases event with
  | commit cmd =>
    obtain ⟨⟨s'', response⟩, hcommit, rfl⟩ := Option.map_eq_some_iff.mp h
    exact hs.commit hcommit
  | read n answered =>
    unfold System.step at h
    dsimp only at h
    split at h
    · obtain rfl := Option.some.inj h
      refine hs.setAgent fun st l hst hl => ?_
      cases answered with
      | false => cases hst
      | true =>
        obtain rfl := Option.some.inj hst
        exact List.mem_of_mem_head? (hs.fenced.lease_head l hl)
    · cases h
  | decide n inp stamp released =>
    unfold System.step at h
    dsimp only at h
    split at h
    · rename_i result hphase
      split at h
      · rename_i hresult
        obtain ⟨t, ht, rfl⟩ := Option.map_eq_some_iff.mp h
        obtain ⟨hauth, hsub, hgrant⟩ := hs.performAll ht
        refine hauth.setAgent (agentAuthorized_decided hsub ?_ hresult ?_)
        · exact hphase ▸ hs.agents n
        · exact fun expected lease hcall hwon => hgrant n expected lease hcall hwon
      · cases h
    · cases h
  | apply n inp =>
    unfold System.step at h
    dsimp only at h
    split at h
    · rename_i result d hphase
      obtain rfl := Option.some.inj h
      have hidle : Authorized (s.setAgent n { s.agents n with
          exec := ((dep.executor n).apply (s.agents n).exec inp d).1, phase := .idle }) :=
        hs.setAgent trivial
      refine hidle.issue fun e he => ?_
      exact issuedAuthorized_of_mem_actionsOf (hphase ▸ hs.agents n) he
    · cases h
  | dieApplying n inp after =>
    unfold System.step at h
    dsimp only at h
    split at h
    · rename_i result d hphase
      obtain rfl := Option.some.inj h
      have hfresh : Authorized (s.setAgent n AgentState.new) := hs.setAgent trivial
      refine hfresh.issue fun e he => ?_
      exact issuedAuthorized_of_mem_actionsOf (hphase ▸ hs.agents n) (List.mem_of_mem_take he)
    · cases h
  | restart n =>
    obtain rfl := Option.some.inj h
    exact hs.setAgent trivial

end Preservation

theorem authorized_of_reachable {dep : Deployment} {s : System} (h : System.Reachable dep s) :
    Authorized s :=
  Trace.Reachable.invariant (fun _ hs => hs ▸ authorized_initial)
    (fun _ _ _ hs hstep => hs.step hstep) h

/-! ## The law -/

/-- A minted lease is the reply to a takeover of its holder. -/
theorem Authorized.mem_log_of_mem_minted {s : System} (hs : Authorized s) {l : Lease}
    (hl : l ∈ s.minted) :
    ∃ expected stamp, (.takeover l.holder expected stamp, .takeover (.won l)) ∈ s.log := by
  obtain ⟨⟨cmd, response⟩, hentry, hmint⟩ := List.mem_filterMap.mp hl
  obtain ⟨st, hreply⟩ := hs.replies _ hentry
  dsimp only at hmint hreply
  obtain ⟨expected, stamp, hcmd, -⟩ := applyCommand_minted (hreply ▸ hmint)
  rw [CommandResponse.minted_eq_some] at hmint
  exact ⟨expected, stamp, by rw [← hcmd, ← hmint]; exact hentry⟩

/-- Promotion authority, across every interleaving of any number of agents.  Every
promotion an executor issued was issued under a term that a won takeover of its own node
minted; no two nodes promoted under one term; and a tick whose read failed or showed the
cluster paused led to nothing but a stop. -/
theorem promotionAuthority (dep : Deployment) (s : System) (h : System.Reachable dep s) :
    (∀ e ∈ s.issued, e.action.isPromotion = true →
      ∃ t expected stamp lease, e.decision.promotes = some t ∧
        (∀ t' deadline, e.action = .promoteAndWait t' deadline → t' = t) ∧
        (.takeover e.node expected stamp, .takeover (.won lease)) ∈ s.log ∧
        lease.holder = e.node ∧ lease.term = t) ∧
    (∀ e ∈ s.issued, ∀ e' ∈ s.issued, e.action.isPromotion = true →
      e'.action.isPromotion = true → e.decision.promotes = e'.decision.promotes →
      e.node = e'.node) ∧
    (∀ e ∈ s.issued, Blind e.read → e.action = .ensureStopped) := by
  have hs := authorized_of_reachable h
  refine ⟨?_, ?_, ?_⟩
  · intro e he hp
    obtain ⟨t, ht, ⟨lease, hl, hn, hterm⟩, hcall⟩ := (hs.issued e he).granted hp
    obtain ⟨expected, stamp, hentry⟩ := hs.mem_log_of_mem_minted hl
    rw [hn] at hentry
    exact ⟨t, expected, stamp, lease, ht, hcall, hentry, hn, hterm⟩
  · intro e he e' he' hp hp' hsame
    obtain ⟨t, ht, ⟨lease, hl, hn, hterm⟩, -⟩ := (hs.issued e he).granted hp
    obtain ⟨t', ht', ⟨lease', hl', hn', hterm'⟩, -⟩ := (hs.issued e' he').granted hp'
    have htt : t = t' := by
      rw [ht, ht'] at hsame
      exact Option.some.inj hsame
    have hlease : lease = lease' :=
      hs.fenced.eq_of_term_eq hl hl' (hterm.trans (htt.trans hterm'.symm))
    rw [← hn, ← hn', hlease]
  · exact fun e he hblind => (hs.issued e he).blind hblind

/-! ## A promotion -/

def threeNodeDeployment : Deployment :=
  ⟨(threeNodes 0).members, fun _ => defaultTiming, 5432, "repl"⟩

/-- Standby `1` is granted the lease, reads it, and promotes. -/
def promotionEvents : List SystemEvent :=
  [.commit (.takeover 1 none 0),
   .read 1 true,
   .decide 1
    { now := 0
      readTook := 0
      readResult := some (leaseOf 1 1)
      db := detachedStandby 100
      ends := fun _ => .late
      takeover := .error "no leader"
      random := 0 } 0 false,
   .apply 1
    { now := 0
      nowPromoted := secs 1
      probes := ⟨some true, some true, none⟩
      journal := some "op"
      recovery := some true
      signalled := true
      recoveryEnded := true
      slotCreated := fun _ => true
      setting := some ""
      connected := some []
      dialled := true
      peerSlotCreated := true
      followed := true }]

theorem promotionAuthority_awaited :
    ∃ s, System.Reachable threeNodeDeployment s ∧ ∃ e ∈ s.issued,
      e.action = .promoteAndWait 1 (secs 30) ∧
      ∃ expected stamp lease,
        (.takeover e.node expected stamp, .takeover (.won lease)) ∈ s.log ∧ lease.term = 1 := by
  have hrun : (Trace.run (System.step threeNodeDeployment) System.initial
      promotionEvents).isSome = true := by decide
  obtain ⟨s, hs⟩ := Option.isSome_iff_exists.mp hrun
  have hinit : System.Reachable threeNodeDeployment System.initial := .init rfl
  have hreach : System.Reachable threeNodeDeployment s := hinit.run hs
  have hissued : ∃ e ∈ s.issued, e.action = .promoteAndWait 1 (secs 30) := by
    have hmap : (Trace.run (System.step threeNodeDeployment) System.initial
        promotionEvents).map
          (fun s => s.issued.any fun e => e.action = .promoteAndWait 1 (secs 30)) =
        some true := by decide
    rw [hs, Option.map_some] at hmap
    obtain ⟨e, he, hcall⟩ := List.any_eq_true.mp (Option.some.inj hmap)
    exact ⟨e, he, of_decide_eq_true hcall⟩
  obtain ⟨e, he, hcall⟩ := hissued
  obtain ⟨t, expected, stamp, lease, -, hterm, hentry, -, hlease⟩ :=
    (promotionAuthority threeNodeDeployment s hreach).1 e he (by rw [hcall]; rfl)
  exact ⟨s, hreach, e, he, hcall, expected, stamp, lease, hentry,
    hlease.trans (hterm 1 _ hcall).symm⟩

end PgAgent
