import PgAgent.Agent.Startup
import PgAgent.Consensus.Command
import PgAgent.Library.Polling
import PgAgent.RoleExec.Apply

/-!
# The start of the agent

`Agent::serve`, from the startup check to the spawning of the HA loop.  Two parts decide about the
local PostgreSQL there, one after the other:

* the startup check, with its retries, stops PostgreSQL unless it confirms the role or finds none
  to confirm;
* `cold_start_reconcile` starts a PostgreSQL that is down: a standby at once, a primary if the
  store says that this node holds the lease.

The second does not know the verdict of the first.  `neverRestarts_iff` says for which inputs it
starts again what the first has stopped.
-/

namespace PgAgent

open Rust

/-! ## The startup check with retries -/

def startupCheckRetries : ℕ := 3

/-- What one pass of the startup check meets. -/
structure CheckProbes where
  probes : StatusProbes
  ends : NodeConfig → TaskEnd

def CheckProbes.verdict (pool : NodePool) (required : ℕ) (c : CheckProbes) : PrimaryVerdict :=
  verifyPrimaryAtStartup pool required c.probes c.ends

/-- `verify_primary_with_retries_params`: the verdict after `retries` further passes, of which
only an unverifiable one needs the next. -/
def verifyPrimaryWithRetriesParams (pool : NodePool) (required : ℕ)
    (passes : ℕ → CheckProbes) :
    ℕ → PrimaryVerdict
  | 0 => (passes 0).verdict pool required
  | retries + 1 =>
      match verifyPrimaryWithRetriesParams pool required passes retries with
      | .unverifiable _ => (passes (retries + 1)).verdict pool required
      | verdict => verdict

/-! ## Stopping -/

/-- The attempts of `retry_result`, with the errors so far. -/
def retryLoop {α : Type} (op : ℕ → Except String α) :
    ℕ → ℕ → List String → Except (List String) α
  | 0, _, errors => .error errors
  | remaining + 1, attempt, errors =>
      match op attempt with
      | .ok a => .ok a
      | .error e =>
          retryLoop op remaining (attempt + 1)
            (errors ++ ["attempt " ++ toString attempt ++ ": " ++ e])

/-- `retry_result` of `retry.rs`; the attempts are numbered from one. -/
def retryResult {α : Type} (desc : String) (attempts : ℕ) (op : ℕ → Except String α) :
    Except String α :=
  (retryLoop op (max attempts 1) 1 []).mapError fun errors =>
    desc ++ " failed after " ++ toString (max attempts 1) ++ " attempts: " ++
      "; ".intercalate errors

def stopPostgresWithRetry (stop : ℕ → Except String Unit) : Except String Unit :=
  retryResult "stop_postgres" 2 stop

/-! ## Cold start -/

def coldStartQuorumBudget : Duration := Duration.fromSecs 10

/-- What the reconciliation meets: the instance, the data directory, and for the polling its start,
how each read comes back, and the clock after it.  Between two attempts it sleeps for a second. -/
structure ColdProbes where
  instance' : InstanceProbes
  pgVersion : Bool
  standbySignal : Bool
  start : Instant
  reads : ℕ → Except String ClusterState
  clock : ℕ → Instant
  started : start ≤ clock 0
  slept : ∀ k, clock k + Duration.fromSecs 1 ≤ clock (k + 1)

/-- How the reconciliation ends.  Two of the endings start PostgreSQL. -/
inductive ColdStart where
  | notDown
  | uninitialised
  | standby
  | holder (lease : Lease)
  | deposed (lease : Lease)
  | vacant
  | unreadable (error : String)
  deriving DecidableEq, Repr

/-- PostgreSQL is started on primary-shaped data. -/
def ColdStart.startsPrimary : ColdStart → Bool
  | .holder _ => true
  | _ => false

/-- The ending that the last read decides. -/
def ColdStart.ofRead (localId : NodeId) : Except String ClusterState → ColdStart
  | .error e => .unreadable e
  | .ok state =>
      match state.lease with
      | some lease => if lease.holder = localId then .holder lease else .deposed lease
      | none => .vacant

def ColdProbes.deadline (p : ColdProbes) : Instant := p.start + coldStartQuorumBudget

/-- `cold_start_reconcile`, with fuel for the polling. -/
def coldStartReconcile (localId : NodeId) (p : ColdProbes) (fuel : ℕ) : Option ColdStart :=
  if instanceState p.instance' ≠ .down then some .notDown
  else if !p.pgVersion then some .uninitialised
  else if p.standbySignal then some .standby
  else (Polling.poll p.reads p.clock p.deadline fuel 0).map fun last => .ofRead localId last.2

/-! ## Serving -/

/-- The verdicts after which PostgreSQL is stopped. -/
def PrimaryVerdict.stops : PrimaryVerdict → Bool
  | .confirmed => false
  | .notApplicable => false
  | .phantom _ _ => true
  | .splitBrain _ _ => true
  | .unverifiable _ => true

/-- The verdicts that have evidence against the local primary. -/
def PrimaryVerdict.convicts : PrimaryVerdict → Bool
  | .phantom _ _ => true
  | .splitBrain _ _ => true
  | _ => false

/-- What `serve` meets; `ha` says whether the HA wiring is there. -/
structure ServeProbes where
  passes : ℕ → CheckProbes
  stop : ℕ → Except String Unit
  ha : Bool
  cold : ColdProbes

/-- How `serve` comes to the HA loop, or that it gives up because PostgreSQL cannot be stopped. -/
inductive ServeEnd where
  | aborts (verdict : PrimaryVerdict) (error : String)
  | spawns (verdict : PrimaryVerdict) (cold : Option ColdStart)
  deriving DecidableEq, Repr

def ServeProbes.verdict (pool : NodePool) (required : ℕ) (p : ServeProbes) : PrimaryVerdict :=
  verifyPrimaryWithRetriesParams pool required p.passes startupCheckRetries

/-- `Agent::serve`, up to the spawning of the HA loop. -/
def serve (pool : NodePool) (required : ℕ) (p : ServeProbes) (fuel : ℕ) : Option ServeEnd :=
  let verdict := p.verdict pool required
  match if verdict.stops then stopPostgresWithRetry p.stop else .ok () with
  | .error e => some (.aborts verdict e)
  | .ok _ =>
      if p.ha then
        (coldStartReconcile pool.localNodeId p.cold fuel).map fun cold =>
          .spawns verdict (some cold)
      else some (.spawns verdict none)

/-! ## The evidence of the startup check -/

section Evidence

variable {pool : NodePool} {required : ℕ}

/-- A peer's answer that speaks against a primary on the timeline `tl`: its own is higher, or it
serves on the same one. -/
def NodeStatus.Against (tl : ℤ) (s : NodeStatus) : Prop :=
  tl < s.timelineId ∨
    s.timelineId = tl ∧ (s.isPostgresStatusOk && s.isPostgresRunning && !s.isInRecovery) = true

/-- A pass that finds a running local primary, and a peer whose answer speaks against it. -/
def CheckProbes.Convicts (pool : NodePool) (c : CheckProbes) : Prop :=
  c.probes.statusPostgres = some true ∧ c.probes.db.isInRecovery = some false ∧
    ∃ tl, c.probes.db.timelineId = some tl ∧ 0 < tl ∧
      ∃ n ∈ pool.others, ∃ s, (c.ends n).answer = some s ∧ s.Against tl

theorem classifyPrimary_convicts_iff {localTl : ℤ} {observations : List PeerObservation} :
    (classifyPrimary localTl observations required).convicts = true ↔
      ∃ o ∈ observations, localTl < o.timelineId ∨
        o.timelineId = localTl ∧ o.assertingPrimary = true := by
  by_cases hphantom : ∃ o ∈ observations, localTl < o.timelineId
  · obtain ⟨o, ho, hlt⟩ := hphantom
    have hne : (observations.filter fun o => o.timelineId > localTl).isEmpty = false := by
      rw [List.isEmpty_eq_false_iff_exists_mem]
      exact ⟨o, List.mem_filter.mpr ⟨ho, by simpa using hlt⟩⟩
    have hverdict : (classifyPrimary localTl observations required).convicts = true := by
      simp only [classifyPrimary, hne, Bool.not_false, if_true]
      rfl
    exact ⟨fun _ => ⟨o, ho, Or.inl hlt⟩, fun _ => hverdict⟩
  · have hempty : (observations.filter fun o => o.timelineId > localTl).isEmpty = true := by
      rw [List.isEmpty_iff, List.filter_eq_nil_iff]
      intro o ho hgt
      exact hphantom ⟨o, ho, by simpa using hgt⟩
    by_cases hsplit : ∃ o ∈ observations, o.timelineId = localTl ∧ o.assertingPrimary = true
    · obtain ⟨o, ho, htl, hassert⟩ := hsplit
      have hne : (observations.filter fun o =>
          o.timelineId = localTl && o.assertingPrimary).isEmpty = false := by
        rw [List.isEmpty_eq_false_iff_exists_mem]
        exact ⟨o, List.mem_filter.mpr ⟨ho, by simp [htl, hassert]⟩⟩
      have hverdict : (classifyPrimary localTl observations required).convicts = true := by
        simp only [classifyPrimary, hempty, hne, Bool.not_true, Bool.not_false, Bool.false_eq_true,
          if_false, if_true]
        rfl
      exact ⟨fun _ => ⟨o, ho, Or.inr ⟨htl, hassert⟩⟩, fun _ => hverdict⟩
    · have hempty' : (observations.filter fun o =>
          o.timelineId = localTl && o.assertingPrimary).isEmpty = true := by
        rw [List.isEmpty_iff, List.filter_eq_nil_iff]
        intro o ho hboth
        rw [Bool.and_eq_true, decide_eq_true_eq] at hboth
        exact hsplit ⟨o, ho, hboth⟩
      constructor
      · intro h
        simp only [classifyPrimary, hempty, hempty', Bool.not_true, Bool.false_eq_true,
          if_false] at h
        split at h <;> cases h
      · rintro ⟨o, ho, hlt | hsame⟩
        · exact absurd ⟨o, ho, hlt⟩ hphantom
        · exact absurd ⟨o, ho, hsame⟩ hsplit

/-- The observations are the answers with a known timeline. -/
theorem mem_observations_iff {nodes : List NodeConfig} {ends : NodeConfig → TaskEnd}
    {P : PeerObservation → Prop} :
    (∃ o ∈ (collectStatuses nodes ends).filterMap PeerObservation.ofView, P o) ↔
      ∃ n ∈ nodes, ∃ s, (ends n).answer = some s ∧ 0 < s.timelineId ∧
        P ⟨n.id, n.hostname, s.timelineId, s.isInRecovery,
          s.isPostgresStatusOk && s.isPostgresRunning && !s.isInRecovery⟩ := by
  constructor
  · rintro ⟨o, ho, hP⟩
    obtain ⟨v, hv, hvo⟩ := List.mem_filterMap.mp ho
    obtain ⟨hn, hstatus⟩ := mem_of_mem_collectStatuses hv
    unfold PeerObservation.ofView at hvo
    cases hs : v.status with
    | none => simp [hs] at hvo
    | some s =>
      rw [hs] at hvo
      dsimp only at hvo
      by_cases hpos : s.timelineId > 0
      · rw [if_pos hpos] at hvo
        refine ⟨v.node, hn, s, hstatus.symm.trans hs, hpos, ?_⟩
        rw [← Option.some.inj hvo] at hP
        exact hP
      · rw [if_neg hpos] at hvo
        cases hvo
  · rintro ⟨n, hn, s, hs, hpos, hP⟩
    refine ⟨_, List.mem_filterMap.mpr ⟨⟨n, some s⟩,
      mem_collectStatuses_of_answer hn hs, ?_⟩, hP⟩
    simp only [PeerObservation.ofView]
    rw [if_pos hpos]

theorem verdict_convicts_iff (pool : NodePool) (required : ℕ) (c : CheckProbes) :
    (c.verdict pool required).convicts = true ↔ c.Convicts pool := by
  unfold CheckProbes.verdict verifyPrimaryAtStartup CheckProbes.Convicts
  rcases c.probes.statusPostgres with _ | _ | _
  · simp [PrimaryVerdict.convicts]
  · simp [PrimaryVerdict.convicts]
  rcases c.probes.db.isInRecovery with _ | _ | _
  · simp [PrimaryVerdict.convicts]
  · cases c.probes.db.timelineId with
    | none => simp [PrimaryVerdict.convicts]
    | some tl =>
      dsimp only
      by_cases hpos : tl > 0
      · rw [if_pos hpos, classifyPrimary_convicts_iff, mem_observations_iff]
        constructor
        · rintro ⟨n, hn, s, hs, -, hagainst⟩
          exact ⟨rfl, rfl, tl, rfl, hpos, n, hn, s, hs, hagainst⟩
        · rintro ⟨-, -, tl', htl, hpos', n, hn, s, hs, hagainst⟩
          obtain rfl := Option.some.inj htl
          refine ⟨n, hn, s, hs, ?_, hagainst⟩
          rcases hagainst with hlt | ⟨heq, -⟩ <;> omega
      · rw [if_neg hpos]
        constructor
        · intro h
          cases h
        · rintro ⟨-, -, tl', htl, hpos', -⟩
          rw [← Option.some.inj htl] at hpos'
          exact absurd hpos' hpos
  · simp [PrimaryVerdict.convicts]

/-- A pass of which nothing can be concluded. -/
def CheckProbes.Unverifiable (pool : NodePool) (required : ℕ) (c : CheckProbes) : Prop :=
  ∃ reason, c.verdict pool required = .unverifiable reason

variable {passes : ℕ → CheckProbes}

theorem verifyPrimaryWithRetriesParams_unverifiable {retries : ℕ} {reason : UnverifiableReason}
    (h : verifyPrimaryWithRetriesParams pool required passes retries = .unverifiable reason) :
    ∀ j ≤ retries, (passes j).Unverifiable pool required := by
  induction retries generalizing reason with
  | zero =>
    intro j hj
    obtain rfl := Nat.le_zero.mp hj
    exact ⟨reason, h⟩
  | succ retries ih =>
    rw [verifyPrimaryWithRetriesParams] at h
    cases hprev : verifyPrimaryWithRetriesParams pool required passes retries with
    | unverifiable reason' =>
      rw [hprev] at h
      intro j hj
      by_cases hlast : j = retries + 1
      · rw [hlast]
        exact ⟨reason, h⟩
      · exact ih hprev j (by omega)
    | _ =>
      rw [hprev] at h
      cases h

theorem unverifiable_of_forall {retries : ℕ}
    (h : ∀ j ≤ retries, (passes j).Unverifiable pool required) :
    ∃ reason, verifyPrimaryWithRetriesParams pool required passes retries =
      .unverifiable reason := by
  induction retries with
  | zero => exact h 0 (le_refl 0)
  | succ retries ih =>
    obtain ⟨reason, hprev⟩ := ih fun j hj => h j (by omega)
    obtain ⟨reason', hlast⟩ := h (retries + 1) (le_refl _)
    exact ⟨reason', by rw [verifyPrimaryWithRetriesParams, hprev]; exact hlast⟩

/-- The verdict convicts if the first pass of which something can be concluded does. -/
theorem verifyPrimaryWithRetriesParams_convicts_iff {retries : ℕ} :
    (verifyPrimaryWithRetriesParams pool required passes retries).convicts = true ↔
      ∃ k ≤ retries, (∀ j < k, (passes j).Unverifiable pool required) ∧
        (passes k).Convicts pool := by
  induction retries with
  | zero =>
    rw [verifyPrimaryWithRetriesParams, verdict_convicts_iff]
    constructor
    · intro h
      exact ⟨0, le_refl 0, fun j hj => absurd hj (Nat.not_lt_zero j), h⟩
    · rintro ⟨k, hk, -, h⟩
      rwa [Nat.le_zero.mp hk] at h
  | succ retries ih =>
    cases hprev : verifyPrimaryWithRetriesParams pool required passes retries with
    | unverifiable reason =>
      have hall := verifyPrimaryWithRetriesParams_unverifiable hprev
      have hnext : verifyPrimaryWithRetriesParams pool required passes (retries + 1) =
          (passes (retries + 1)).verdict pool required := by
        rw [verifyPrimaryWithRetriesParams, hprev]
      rw [hnext, verdict_convicts_iff]
      constructor
      · intro h
        exact ⟨retries + 1, le_refl _, fun j hj => hall j (by omega), h⟩
      · rintro ⟨k, hk, -, h⟩
        by_cases hlast : k = retries + 1
        · rwa [hlast] at h
        · -- an earlier pass is unverifiable, so it does not convict
          obtain ⟨reason', hr⟩ := hall k (by omega)
          rw [← verdict_convicts_iff pool required, hr] at h
          cases h
    | _ =>
      have hnext : verifyPrimaryWithRetriesParams pool required passes (retries + 1) =
          verifyPrimaryWithRetriesParams pool required passes retries := by
        rw [verifyPrimaryWithRetriesParams, hprev]
      rw [hnext, ih]
      constructor
      · rintro ⟨k, hk, h⟩
        exact ⟨k, by omega, h⟩
      · rintro ⟨k, hk, hbefore, h⟩
        by_cases hlast : k = retries + 1
        · -- then all the earlier passes would be unverifiable, and with them the verdict
          have hall : ∀ j ≤ retries, (passes j).Unverifiable pool required := by
            intro j hj
            exact hbefore j (by omega)
          obtain ⟨reason, hr⟩ := unverifiable_of_forall hall
          rw [hprev] at hr
          cases hr
        · exact ⟨k, by omega, hbefore, h⟩

end Evidence

/-! ## Stopping and starting again -/

section Serve

variable {pool : NodePool} {required : ℕ} {p : ServeProbes}

theorem stopPostgresWithRetry_eq_ok_iff {stop : ℕ → Except String Unit} :
    stopPostgresWithRetry stop = .ok () ↔ stop 1 = .ok () ∨ stop 2 = .ok () := by
  unfold stopPostgresWithRetry retryResult
  cases h1 : stop 1 with
  | ok u => simp [retryLoop, h1, Except.mapError]
  | error e1 =>
    cases h2 : stop 2 with
    | ok u => simp [retryLoop, h1, h2, Except.mapError]
    | error e2 => simp [retryLoop, h1, h2, Except.mapError]

/-- The first read that comes back, before the budget is over, names the node as the holder. -/
def ColdProbes.ReadsHolder (localId : NodeId) (p : ColdProbes) (k : ℕ) (l : Lease) : Prop :=
  (∀ j < k, Polling.GoesOn p.reads p.clock p.deadline j) ∧
    ∃ state, p.reads k = .ok state ∧ state.lease = some l ∧ l.holder = localId

theorem ofRead_eq_holder_iff {localId : NodeId} {r : Except String ClusterState} {l : Lease} :
    ColdStart.ofRead localId r = .holder l ↔
      ∃ state, r = .ok state ∧ state.lease = some l ∧ l.holder = localId := by
  cases r with
  | error e => simp [ColdStart.ofRead]
  | ok state =>
    cases hl : state.lease with
    | none => simp [ColdStart.ofRead, hl]
    | some lease =>
      by_cases hown : lease.holder = localId
      · simp only [ColdStart.ofRead, hl, hown, if_true, ColdStart.holder.injEq, Except.ok.injEq,
          exists_eq_left', Option.some.injEq]
        constructor
        · rintro rfl
          exact ⟨rfl, hown⟩
        · exact fun h => h.1
      · simp only [ColdStart.ofRead, hl, hown, if_false, reduceCtorEq, Except.ok.injEq,
          exists_eq_left', Option.some.injEq, false_iff, not_and]
        rintro rfl
        exact hown

/-- The reconciliation starts a primary exactly from a stopped instance on primary-shaped data,
when the first read that comes back names the node. -/
theorem coldStartReconcile_eq_holder_iff {localId : NodeId} {p : ColdProbes} {fuel : ℕ}
    {l : Lease} :
    coldStartReconcile localId p fuel = some (.holder l) ↔
      instanceState p.instance' = .down ∧ p.pgVersion = true ∧ p.standbySignal = false ∧
        ∃ k < fuel, p.ReadsHolder localId k l := by
  unfold coldStartReconcile
  by_cases hdown : instanceState p.instance' = .down
  · rw [if_neg (not_not.mpr hdown)]
    cases hversion : p.pgVersion with
    | false => simp
    | true =>
      cases hsignal : p.standbySignal with
      | true => simp
      | false =>
        simp only [Bool.not_true, Bool.false_eq_true, if_false, Option.map_eq_some_iff,
          Prod.exists, ofRead_eq_holder_iff, Polling.poll_eq_some_iff]
        constructor
        · rintro ⟨k, r, ⟨-, hk, hbefore, -, rfl⟩, hread⟩
          exact ⟨hdown, trivial, trivial, k, by omega, fun j hj => hbefore j (Nat.zero_le j) hj,
            hread⟩
        · rintro ⟨-, -, -, k, hk, hbefore, hread⟩
          refine ⟨k, _, ⟨Nat.zero_le k, by omega, fun j _ hj => hbefore j hj, ?_, rfl⟩,
            hread⟩
          rintro ⟨⟨e, he⟩, -⟩
          obtain ⟨state, hok, -⟩ := hread
          rw [he] at hok
          cases hok
  · rw [if_pos hdown]
    constructor
    · intro h
      cases h
    · rintro ⟨h, -⟩
      exact absurd h hdown

/-- The polling ends after eleven attempts at the latest. -/
theorem coldStartReconcile_ends (localId : NodeId) (p : ColdProbes) :
    ∃ cold, coldStartReconcile localId p 11 = some cold := by
  obtain ⟨n, r, hpoll⟩ : ∃ n r, Polling.poll p.reads p.clock p.deadline 11 0 =
      some (n, r) := by
    refine Polling.poll_ends (by simpa using p.started) p.slept ?_
    show p.start + Duration.fromSecs 10 ≤ p.start + (0 + 10) * Duration.fromSecs 1
    have hten : Duration.fromSecs 10 = (0 + 10) * Duration.fromSecs 1 := by decide
    rw [hten]
  unfold coldStartReconcile
  split
  · exact ⟨_, rfl⟩
  · split
    · exact ⟨_, rfl⟩
    · split
      · exact ⟨_, rfl⟩
      · exact ⟨_, by rw [hpoll]; rfl⟩

/-- PostgreSQL could be stopped, or did not have to be. -/
def ServeProbes.StopsInTime (pool : NodePool) (required : ℕ) (p : ServeProbes) : Prop :=
  (p.verdict pool required).stops = true → p.stop 1 = .ok () ∨ p.stop 2 = .ok ()

theorem serve_of_stopsInTime (h : p.StopsInTime pool required) (fuel : ℕ) :
    serve pool required p fuel =
      if p.ha then (coldStartReconcile pool.localNodeId p.cold fuel).map fun cold =>
        .spawns (p.verdict pool required) (some cold)
      else some (.spawns (p.verdict pool required) none) := by
  unfold serve
  dsimp only
  by_cases hstops : (p.verdict pool required).stops = true
  · rw [if_pos hstops, stopPostgresWithRetry_eq_ok_iff.mpr (h hstops)]
  · rw [if_neg hstops]

theorem serve_of_not_stopsInTime (h : ¬ p.StopsInTime pool required) :
    ∃ e, ∀ fuel, serve pool required p fuel = some (.aborts (p.verdict pool required) e) := by
  obtain ⟨hstops, hfail⟩ := Classical.not_imp.mp h
  cases hstop : stopPostgresWithRetry p.stop with
  | ok u => exact absurd (stopPostgresWithRetry_eq_ok_iff.mp hstop) hfail
  | error e =>
    refine ⟨e, fun fuel => ?_⟩
    unfold serve
    dsimp only
    rw [if_pos hstops, hstop]

/-- When `serve` starts a primary. -/
theorem serve_eq_holder_iff {fuel : ℕ} {verdict : PrimaryVerdict} {l : Lease} :
    serve pool required p fuel = some (.spawns verdict (some (.holder l))) ↔
      verdict = p.verdict pool required ∧ p.StopsInTime pool required ∧ p.ha = true ∧
        coldStartReconcile pool.localNodeId p.cold fuel = some (.holder l) := by
  by_cases hstop : p.StopsInTime pool required
  · rw [serve_of_stopsInTime hstop]
    cases hha : p.ha with
    | false => simp
    | true =>
      simp only [if_true, Option.map_eq_some_iff, ServeEnd.spawns.injEq, Option.some.injEq,
        true_and, hstop]
      constructor
      · rintro ⟨cold, hcold, hv, rfl⟩
        exact ⟨hv.symm, hcold⟩
      · rintro ⟨hv, hcold⟩
        exact ⟨_, hcold, hv.symm, rfl⟩
  · obtain ⟨e, he⟩ := serve_of_not_stopsInTime hstop
    rw [he]
    simp [hstop]

/-- The start of the agent never restarts a convicted primary: it comes to an end; a primary is
started only after the first read that comes back, and that names this node; and never after a
verdict that has evidence against it. -/
structure NeverRestarts (pool : NodePool) (required : ℕ) (p : ServeProbes) : Prop where
  ends : ∃ e, serve pool required p 11 = some e
  reads : ∀ fuel verdict cold, serve pool required p fuel = some (.spawns verdict (some cold)) →
    cold.startsPrimary = true → ∃ k l, p.cold.ReadsHolder pool.localNodeId k l
  unconvicted : ∀ fuel verdict cold,
    serve pool required p fuel = some (.spawns verdict (some cold)) →
      cold.startsPrimary = true → verdict.convicts = false

/-- The inputs for which the two deciders disagree: the first pass of the check of which something
can be concluded convicts, PostgreSQL is stopped by one of the two attempts and found down, its
data are a primary's, and the first read that comes back names this node. -/
structure Disagree (pool : NodePool) (required : ℕ) (p : ServeProbes) : Prop where
  convicted : ∃ k ≤ startupCheckRetries,
    (∀ j < k, (p.passes j).Unverifiable pool required) ∧
    (p.passes k).Convicts pool
  stopped : p.stop 1 = .ok () ∨ p.stop 2 = .ok ()
  wired : p.ha = true
  down : instanceState p.cold.instance' = .down
  primaryShaped : p.cold.pgVersion = true ∧ p.cold.standbySignal = false
  holder : ∃ k l, p.cold.ReadsHolder pool.localNodeId k l

theorem startsPrimary_eq_true_iff {cold : ColdStart} :
    cold.startsPrimary = true ↔ ∃ l, cold = .holder l := by
  cases cold <;> simp [ColdStart.startsPrimary]

/-- The start of the agent **never restarts a primary that it has convicted, exactly unless the
lease still names it**. -/
theorem neverRestarts_iff (pool : NodePool) (required : ℕ) (p : ServeProbes) :
    NeverRestarts pool required p ↔ ¬ Disagree pool required p := by
  constructor
  · rintro ⟨-, -, hnever⟩ ⟨hconv, hstop, hha, hdown, ⟨hversion, hsignal⟩, k, l, hread⟩
    have hcold : coldStartReconcile pool.localNodeId p.cold (k + 1) = some (.holder l) :=
      coldStartReconcile_eq_holder_iff.mpr
        ⟨hdown, hversion, hsignal, k, Nat.lt_succ_self k, hread⟩
    have hserve : serve pool required p (k + 1) =
        some (.spawns (p.verdict pool required) (some (.holder l))) :=
      serve_eq_holder_iff.mpr ⟨rfl, fun _ => hstop, hha, hcold⟩
    have hclean := hnever _ _ _ hserve rfl
    have hguilty := verifyPrimaryWithRetriesParams_convicts_iff.mpr hconv
    rw [ServeProbes.verdict, hguilty] at hclean
    cases hclean
  · intro hagree
    refine ⟨?_, fun fuel verdict cold hserve hstart => ?_,
      fun fuel verdict cold hserve hstart => ?_⟩
    · by_cases hstop : p.StopsInTime pool required
      · obtain ⟨cold, hcold⟩ := coldStartReconcile_ends pool.localNodeId p.cold
        rw [serve_of_stopsInTime hstop, hcold]
        cases p.ha with
        | false => exact ⟨_, rfl⟩
        | true => exact ⟨_, rfl⟩
      · obtain ⟨e, he⟩ := serve_of_not_stopsInTime hstop
        exact ⟨_, he 11⟩
    · obtain ⟨l, rfl⟩ := startsPrimary_eq_true_iff.mp hstart
      obtain ⟨-, -, -, hcold⟩ := serve_eq_holder_iff.mp hserve
      obtain ⟨-, -, -, k, -, hread⟩ := coldStartReconcile_eq_holder_iff.mp hcold
      exact ⟨k, l, hread⟩
    · obtain ⟨l, rfl⟩ := startsPrimary_eq_true_iff.mp hstart
      obtain ⟨rfl, hstop, hha, hcold⟩ := serve_eq_holder_iff.mp hserve
      obtain ⟨hdown, hversion, hsignal, k, -, hread⟩ :=
        coldStartReconcile_eq_holder_iff.mp hcold
      by_contra hguilty
      rw [Bool.not_eq_false] at hguilty
      have hstops : (p.verdict pool required).stops = true := by
        cases hv : p.verdict pool required with
        | phantom tl peers => rfl
        | splitBrain tl peers => rfl
        | _ =>
          rw [hv] at hguilty
          cases hguilty
      exact hagree ⟨verifyPrimaryWithRetriesParams_convicts_iff.mp hguilty,
        hstop hstops, hha, hdown,
        ⟨hversion, hsignal⟩, k, l, hread⟩

/-- `db0` runs as a primary on timeline 3 and `db1` answers with timeline 4, but the lease still
names `db0`. -/
def stillHolder : ServeProbes where
  passes _ :=
    { probes := ⟨⟨some false, none, some 3, none, none⟩, some true, some true, none⟩
      ends := fun _ => .answered 0 (some
        { isRunning := true, isInRecovery := false, isReady := true, replicationLagBytes := 0,
          replicationState := "", isPostgresRunning := true, isPgpoolRunning := false,
          isPostgresStatusOk := true, isPgpoolStatusOk := true, timelineId := 4,
          currentWalLsn := 0, lastFlushLsn := 0, peerPrimarySeenAgeMs := ∅ }) }
  stop _ := .ok ()
  ha := true
  cold :=
    { instance' := ⟨some false, none, none⟩
      pgVersion := true
      standbySignal := false
      start := 0
      reads := fun _ => .ok { ClusterState.default with lease := some ⟨0, 1, 0⟩ }
      clock := fun k => k * Duration.fromSecs 1
      started := Nat.zero_le _
      slept := fun k => (Nat.succ_mul k _).ge }

theorem stillHolder_restarted :
    ¬ NeverRestarts ⟨[⟨0, "db0"⟩, ⟨1, "db1"⟩], 0⟩ 1 stillHolder := by
  intro h
  have hclean := h.unconvicted 1 _ (.holder ⟨0, 1, 0⟩) rfl rfl
  cases hclean

end Serve

end PgAgent
