import Mathlib.Data.List.Dedup
import PgAgent.RoleExec.Apply

/-!
# Quorum commit

A primary that holds the lease keeps `synchronous_standby_names` at `ANY 1` over the other members
of the pool, so that an acknowledged commit is on a second node. `ensure_quorum_commit` arms an
empty value only once a standby is attached, since a value that names nobody who is connected makes
every commit wait.

Who is attached, the database says by a pattern: `connected_standby_names` returns every name that
looks like a node's. Nothing compares these with the names that are about to be written.

* `mem_ensureQuorumCommit_iff` --- when a call writes, and what;
* `quorumCommitSafe_iff` --- the calls that are safe.
-/

namespace PgAgent

open Rust

/-- `^node[0-9]+$`. -/
def matchesNodeName (name : String) : Bool :=
  match name.toList with
  | 'n' :: 'o' :: 'd' :: 'e' :: digits => !digits.isEmpty && digits.all Char.isDigit
  | _ => false

/-- `connected_standby_names`, from the application names in `pg_stat_replication`. -/
def connectedStandbyNames (senders : List String) : List String :=
  (senders.filter matchesNodeName).dedup

/-- The names in `pg_stat_replication` are given; `none` if the query fails. -/
def ExecInput.withSenders (inp : ExecInput) (senders : Option (List String)) : ExecInput :=
  { inp with connected := senders.map connectedStandbyNames }

section Quorum

variable (rx : RoleExecutor) (es : ExecState) (force : Bool) (now : Instant) (inp : ExecInput)

/-- The probe is due: it is forced, or the last one is long enough ago. -/
def ProbeDue : Prop :=
  force = true ∨ recently es.syncArmLastProbe now syncArmProbeInterval = false

variable {rx es force now inp}

/-- When a call writes, and what. -/
theorem mem_ensureQuorumCommit_iff {a : ExecAction} :
    a ∈ (ensureQuorumCommit rx es force now inp).2 ↔
      a = .setSynchronousStandbyNames rx.desiredSyncNames ∧ ProbeDue es force now ∧
        rx.memberSlots ≠ [] ∧
        ∃ current, inp.setting = some current ∧ current ≠ rx.desiredSyncNames ∧
          (current = "" → inp.connected.getD [] ≠ []) := by
  unfold ensureQuorumCommit ProbeDue
  by_cases hlimited : (!force && recently es.syncArmLastProbe now syncArmProbeInterval) = true
  · rw [if_pos hlimited]
    refine iff_of_false List.not_mem_nil ?_
    rintro ⟨-, hdue, -⟩
    obtain ⟨hforce, hrecent⟩ := Bool.and_eq_true_iff.mp hlimited
    rcases hdue with hdue | hdue
    · rw [hdue] at hforce
      cases hforce
    · rw [hdue] at hrecent
      cases hrecent
  rw [if_neg hlimited]
  have hdue : force = true ∨
      recently es.syncArmLastProbe now syncArmProbeInterval = false := by
    cases force with
    | true => exact Or.inl rfl
    | false => exact Or.inr (by simpa using hlimited)
  dsimp only
  by_cases hmembers : rx.memberSlots = []
  · rw [if_pos (by simp [hmembers])]
    exact iff_of_false List.not_mem_nil fun h => h.2.2.1 hmembers
  rw [if_neg (by simpa using hmembers)]
  cases hsetting : inp.setting with
  | none =>
    refine iff_of_false List.not_mem_nil ?_
    rintro ⟨-, -, -, current, hcurrent, -⟩
    cases hcurrent
  | some current =>
    dsimp only
    by_cases hdesired : current = rx.desiredSyncNames
    · rw [if_pos hdesired]
      refine iff_of_false List.not_mem_nil ?_
      rintro ⟨-, -, -, current', hcurrent, hne, -⟩
      exact hne (Option.some.inj hcurrent ▸ hdesired)
    rw [if_neg hdesired]
    by_cases hwait : (decide (current = "") && (inp.connected.getD []).isEmpty) = true
    · rw [if_pos hwait]
      obtain ⟨hempty, hnobody⟩ := Bool.and_eq_true_iff.mp hwait
      refine iff_of_false List.not_mem_nil ?_
      rintro ⟨-, -, -, current', hcurrent, -, harm⟩
      exact harm (Option.some.inj hcurrent ▸ of_decide_eq_true hempty)
        (List.isEmpty_iff.mp hnobody)
    · rw [if_neg hwait, List.mem_singleton]
      have harm : current = "" → inp.connected.getD [] ≠ [] := by
        intro hempty hnobody
        exact hwait (by simp [hempty, hnobody])
      exact ⟨fun ha => ⟨ha, hdue, hmembers, current, rfl, hdesired, harm⟩, fun h => h.1⟩

/-- What a written value says: any one of the other members. -/
theorem desiredSyncNames_spec (rx : RoleExecutor) :
    ∃ names : List String, names.Perm rx.memberSlots ∧
      rx.desiredSyncNames = "ANY 1 (" ++ ", ".intercalate names ++ ")" :=
  ⟨rx.memberSlots.insertionSort (· ≤ ·), List.perm_insertionSort _ _, rfl⟩

theorem desiredSyncNames_ne_empty (rx : RoleExecutor) : rx.desiredSyncNames ≠ "" := by
  intro h
  have hlist := congrArg String.toList h
  unfold RoleExecutor.desiredSyncNames at hlist
  rw [String.toList_append, String.toList_append] at hlist
  cases hlist

/-- A converged value is left alone. -/
theorem ensureQuorumCommit_of_converged (h : inp.setting = some rx.desiredSyncNames) :
    (ensureQuorumCommit rx es force now inp).2 = [] := by
  refine List.eq_nil_iff_forall_not_mem.mpr fun a ha => ?_
  obtain ⟨-, -, -, current, hcurrent, hne, -⟩ := mem_ensureQuorumCommit_iff.mp ha
  rw [h] at hcurrent
  exact hne (Option.some.inj hcurrent).symm

/-- A call is safe: what it writes is not empty and names exactly the other members; an empty value
is armed only while a standby that is named in the new one is connected; and once the new value is
the current one, no later call writes. -/
structure QuorumCommitSafe (rx : RoleExecutor) (es : ExecState) (force : Bool) (now : Instant)
    (inp : ExecInput) (senders : Option (List String)) : Prop where
  written : ∀ value,
    .setSynchronousStandbyNames value ∈
      (ensureQuorumCommit rx es force now (inp.withSenders senders)).2 →
    value ≠ "" ∧
      ∃ names : List String, names.Perm (rx.pool.others.map NodeConfig.slotName) ∧
        value = "ANY 1 (" ++ ", ".intercalate names ++ ")" ∧
        (inp.setting = some "" → ∃ connected, senders = some connected ∧
          ∃ name ∈ connected, name ∈ names)
  settled : ∀ value,
    .setSynchronousStandbyNames value ∈
      (ensureQuorumCommit rx es force now (inp.withSenders senders)).2 →
    ∀ es' force' now' inp', inp'.setting = some value →
      (ensureQuorumCommit rx es' force' now' inp').2 = []

/-- The only standbys that are connected under a node's name are no members of the pool. -/
def OnlyForeignStandbys (rx : RoleExecutor) (senders : Option (List String)) : Prop :=
  ∃ connected, senders = some connected ∧
    (∃ name ∈ connected, matchesNodeName name = true) ∧
    ∀ name ∈ connected, name ∉ rx.memberSlots

theorem mem_connectedStandbyNames {connected : List String} {name : String} :
    name ∈ connectedStandbyNames connected ↔
      name ∈ connected ∧ matchesNodeName name = true := by
  rw [connectedStandbyNames, List.mem_dedup, List.mem_filter]

/-- Somebody is attached, as the executor sees it. -/
theorem connected_ne_nil_iff {senders : Option (List String)} :
    (inp.withSenders senders).connected.getD [] ≠ [] ↔
      ∃ connected, senders = some connected ∧
        ∃ name ∈ connected, matchesNodeName name = true := by
  unfold ExecInput.withSenders
  cases senders with
  | none => exact iff_of_false (fun h => h rfl) fun ⟨_, h, _⟩ => nomatch h
  | some connected =>
    show connectedStandbyNames connected ≠ [] ↔ _
    simp only [ne_eq, List.eq_nil_iff_forall_not_mem, not_forall, not_not,
      mem_connectedStandbyNames, Option.some.injEq, exists_eq_left']

/-- Arming is safe **unless the probe is due in a pool with other members, the current value is
empty, and the only standbys connected under a node's name are no members**. -/
theorem quorumCommitSafe_iff (rx : RoleExecutor) (es : ExecState) (force : Bool) (now : Instant)
    (inp : ExecInput) (senders : Option (List String)) :
    QuorumCommitSafe rx es force now inp senders ↔
      ¬ (ProbeDue es force now ∧ rx.memberSlots ≠ [] ∧ inp.setting = some "" ∧
        OnlyForeignStandbys rx senders) := by
  constructor
  · rintro ⟨hwritten, -⟩ ⟨hdue, hmembers, hsetting, connected, rfl, hnamed, hforeign⟩
    have hwrites : .setSynchronousStandbyNames rx.desiredSyncNames ∈
        (ensureQuorumCommit rx es force now (inp.withSenders (some connected))).2 := by
      refine mem_ensureQuorumCommit_iff.mpr ⟨rfl, hdue, hmembers, "", hsetting, ?_, fun _ => ?_⟩
      · exact (desiredSyncNames_ne_empty rx).symm
      · exact connected_ne_nil_iff.mpr ⟨connected, rfl, hnamed⟩
    obtain ⟨-, names, hperm, -, harm⟩ := hwritten _ hwrites
    obtain ⟨connected', heq, name, hname, hlisted⟩ := harm hsetting
    obtain rfl := Option.some.inj heq
    exact hforeign name hname (hperm.mem_iff.mp hlisted)
  · intro hcond
    have hvalue : ∀ value, .setSynchronousStandbyNames value ∈
        (ensureQuorumCommit rx es force now (inp.withSenders senders)).2 →
        value = rx.desiredSyncNames := by
      intro value hmem
      exact ExecAction.setSynchronousStandbyNames.inj (mem_ensureQuorumCommit_iff.mp hmem).1
    refine ⟨fun value hmem => ?_, fun value hmem es' force' now' inp' hsetting => ?_⟩
    · obtain ⟨-, hdue, hmembers, current, hcurrent, -, harm⟩ :=
        mem_ensureQuorumCommit_iff.mp hmem
      obtain ⟨names, hperm, hnames⟩ := desiredSyncNames_spec rx
      rw [hvalue value hmem]
      refine ⟨desiredSyncNames_ne_empty rx, names, hperm, hnames, fun hempty => ?_⟩
      have hcurrent' : current = "" := by
        have hboth : some current = some "" := hcurrent.symm.trans hempty
        exact Option.some.inj hboth
      obtain ⟨connected, rfl, hnamed⟩ := connected_ne_nil_iff.mp (harm hcurrent')
      -- if none of them were a member, the call would be the one that is excluded
      by_contra hnone
      refine hcond ⟨hdue, hmembers, hempty, connected, rfl, hnamed,
        fun name hname hmember => ?_⟩
      exact hnone ⟨connected, rfl, name, hname, hperm.mem_iff.mpr hmember⟩
    · refine ensureQuorumCommit_of_converged ?_
      rw [hsetting, hvalue value hmem]

/-- Three members, and a fourth standby from elsewhere that calls itself `node9`. -/
def threeMembers : RoleExecutor where
  pool := ⟨[⟨0, "db0"⟩, ⟨1, "db1"⟩, ⟨2, "db2"⟩], 0⟩
  promoteDeadline := 0
  pgPort := 5432
  replUser := "repl"

/-- An unarmed primary. -/
def unarmed : ExecInput where
  now := 0
  nowPromoted := 0
  probes := ⟨some true, some false, none⟩
  journal := none
  recovery := none
  signalled := false
  recoveryEnded := false
  slotCreated _ := true
  setting := some ""
  connected := none
  dialled := false
  peerSlotCreated := false
  followed := false

/-- With only the foreign standby attached, every commit will wait for a member that is not
there. -/
theorem foreignStandby_arms :
    .setSynchronousStandbyNames "ANY 1 (node1, node2)" ∈
        (ensureQuorumCommit threeMembers ExecState.new false 0
          (unarmed.withSenders (some ["node9"]))).2 ∧
      ¬ QuorumCommitSafe threeMembers ExecState.new false 0 unarmed (some ["node9"]) := by
  refine ⟨by decide, fun hsafe => ?_⟩
  obtain ⟨-, names, hperm, -, harm⟩ := hsafe.written "ANY 1 (node1, node2)" (by decide)
  obtain ⟨connected, heq, name, hname, hlisted⟩ := harm rfl
  obtain rfl := Option.some.inj heq
  have hmember := hperm.mem_iff.mp hlisted
  rw [List.mem_singleton.mp hname] at hmember
  exact absurd hmember (by decide)

end Quorum

end PgAgent
