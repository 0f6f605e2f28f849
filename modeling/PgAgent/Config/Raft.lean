import PgAgent.Config.Pool
import PgAgent.Ha.Tick

/-!
# The `[raft]` section

`RaftConfig` of `config.rs`: the timing of consensus and of the loop, with its defaults
and the check made when the configuration is loaded.  `haTiming` is the timing the daemon
hands to its loop.

The keys admit every `u64`, and the check adds and multiplies durations, which panic where
the result is not representable.

* `validate_eq_ok_iff` --- what an accepted section guarantees;
* `validate_eq_none_iff` --- the sections on which the check panics;
* `validatesExactly_iff` --- the sections on which it is exact.
-/

namespace PgAgent

open Rust

/-- The `[raft]` section; an absent key is `none`. -/
structure RaftConfig where
  obsoleteEnabled : Option Bool
  loopWaitSecs : Option UInt64
  retryTimeoutSecs : Option UInt64
  leaderTtlSecs : Option UInt64
  electionTimeoutMs : Option UInt64
  deriving DecidableEq, Repr

def defaultRaftLoopWaitSecs : UInt64 := 10

def defaultRaftRetryTimeoutSecs : UInt64 := 10

def defaultRaftLeaderTtlSecs : UInt64 := 30

def defaultRaftElectionTimeoutMs : UInt64 := 5000

namespace RaftConfig

/-- The section of a configuration that does not mention it. -/
def default : RaftConfig := ⟨none, none, none, none, none⟩

def effectiveLoopWait (cfg : RaftConfig) : Duration :=
  Duration.fromSecs (cfg.loopWaitSecs.getD defaultRaftLoopWaitSecs)

def effectiveRetryTimeout (cfg : RaftConfig) : Duration :=
  Duration.fromSecs (cfg.retryTimeoutSecs.getD defaultRaftRetryTimeoutSecs)

def effectiveLeaderTtl (cfg : RaftConfig) : Duration :=
  Duration.fromSecs (cfg.leaderTtlSecs.getD defaultRaftLeaderTtlSecs)

def effectiveElectionTimeout (cfg : RaftConfig) : Duration :=
  Duration.fromMillis (cfg.electionTimeoutMs.getD defaultRaftElectionTimeoutMs)

/-- The text that refuses `enabled = false`. -/
def enabledFalseMessage : String :=
  "[raft] enabled = false is no longer a valid configuration — consensus is not optional. " ++
  "The lease is the only promotion authority the daemon has, so a node that does not join it " ++
  "cannot learn it has been deposed. Delete the line (the rest of [raft] is timing and still " ++
  "applies)."

/-- The text that refuses a short `leader_ttl`. -/
def leaderTtlMessage (ttl loopWait retry : Duration) : String :=
  "leader_ttl (" ++ toString (Duration.asSecs ttl) ++ "s) must be >= loop_wait (" ++
  toString (Duration.asSecs loopWait) ++ "s) + 2 * retry_timeout (" ++
  toString (Duration.asSecs retry) ++ "s) — otherwise a candidate can become eligible to take " ++
  "over before the current holder has exhausted its retry budget and demoted"

/-- The text that refuses a short `retry_timeout`. -/
def retryTimeoutMessage (retry election : Duration) : String :=
  "retry_timeout (" ++ toString (Duration.asMillis retry) ++ "ms) must exceed election_timeout (" ++
  toString (Duration.asMillis election) ++
    "ms) — a linearizable read cannot complete during an " ++
  "election, so a shorter retry budget turns every Raft re-election into a demotion of a " ++
  "healthy primary"

/-- `validate`; `none` where the arithmetic on durations panics. -/
def validate (cfg : RaftConfig) : Option (Except AgentError Unit) :=
  if cfg.obsoleteEnabled = some false then some (.error (.raftConfig enabledFalseMessage))
  else
    let loopWait := cfg.effectiveLoopWait
    let retry := cfg.effectiveRetryTimeout
    let ttl := cfg.effectiveLeaderTtl
    let election := cfg.effectiveElectionTimeout
    (Duration.checkedMul 2 retry).bind fun twice =>
    (Duration.checkedAdd loopWait twice).map fun least =>
    if ttl < least then .error (.raftConfig (leaderTtlMessage ttl loopWait retry))
    else if retry ≤ election then .error (.raftConfig (retryTimeoutMessage retry election))
    else .ok ()

/-- The loop's timing, as the daemon builds it. -/
def haTiming (cfg : RaftConfig) : HaTiming where
  loopWait := cfg.effectiveLoopWait
  retryTimeout := cfg.effectiveRetryTimeout
  leaderTtl := cfg.effectiveLeaderTtl

/-- What an accepted section guarantees, and all it guarantees. -/
theorem validate_eq_ok_iff (cfg : RaftConfig) :
    cfg.validate = some (.ok ()) ↔
      cfg.obsoleteEnabled ≠ some false ∧
      cfg.effectiveLoopWait + 2 * cfg.effectiveRetryTimeout ≤ cfg.effectiveLeaderTtl ∧
      cfg.effectiveElectionTimeout < cfg.effectiveRetryTimeout := by
  unfold validate
  by_cases henabled : cfg.obsoleteEnabled = some false
  · simp [henabled]
  rw [if_neg henabled]
  dsimp only
  constructor
  · intro h
    obtain ⟨twice, htwice, h⟩ := Option.bind_eq_some_iff.mp h
    obtain ⟨least, hleast, h⟩ := Option.map_eq_some_iff.mp h
    obtain ⟨-, rfl⟩ := Duration.checkedMul_eq_some_iff.mp htwice
    obtain ⟨-, rfl⟩ := Duration.checkedAdd_eq_some_iff.mp hleast
    split at h
    · cases h
    rename_i httl
    split at h
    · cases h
    rename_i hretry
    exact ⟨henabled, not_lt.mp httl, not_le.mp hretry⟩
  · rintro ⟨-, httl, hretry⟩
    -- a representable ttl bounds the sum, so nothing panics
    have hadd := httl.trans (Duration.fromSecs_le_max _)
    have hmul : 2 * cfg.effectiveRetryTimeout ≤ Duration.max :=
      (Nat.le_add_left _ _).trans hadd
    rw [Duration.checkedMul_eq_some_iff.mpr ⟨hmul, rfl⟩, Option.bind_some,
      Duration.checkedAdd_eq_some_iff.mpr ⟨hadd, rfl⟩, Option.map_some,
      if_neg (not_lt.mpr httl), if_neg (not_le.mpr hretry)]

/-! ## The check over the unbounded integers -/

/-- `loop_wait_secs` in force. -/
def loopWait (cfg : RaftConfig) : ℕ := (cfg.loopWaitSecs.getD defaultRaftLoopWaitSecs).toNat

/-- `retry_timeout_secs` in force. -/
def retryTimeout (cfg : RaftConfig) : ℕ :=
  (cfg.retryTimeoutSecs.getD defaultRaftRetryTimeoutSecs).toNat

/-- `leader_ttl_secs` in force. -/
def leaderTtl (cfg : RaftConfig) : ℕ := (cfg.leaderTtlSecs.getD defaultRaftLeaderTtlSecs).toNat

/-- `election_timeout_ms` in force. -/
def electionTimeout (cfg : RaftConfig) : ℕ :=
  (cfg.electionTimeoutMs.getD defaultRaftElectionTimeoutMs).toNat

/-- The least `leader_ttl` that is accepted is a number of seconds that a duration can hold. -/
def LeastTtlFits (cfg : RaftConfig) : Prop := cfg.loopWait + 2 * cfg.retryTimeout < 2 ^ 64

/-- The check returns, and accepts exactly the timings with the two inequalities, unless
`enabled = false` has refused the section before. -/
def ValidatesExactly (cfg : RaftConfig) : Prop :=
  ∃ verdict, cfg.validate = some verdict ∧
    (cfg.obsoleteEnabled ≠ some false →
      (verdict = .ok () ↔
        cfg.loopWait + 2 * cfg.retryTimeout ≤ cfg.leaderTtl ∧
          cfg.electionTimeout < 1000 * cfg.retryTimeout))

/-- The sections on which the check panics. -/
theorem validate_eq_none_iff (cfg : RaftConfig) :
    cfg.validate = none ↔ cfg.obsoleteEnabled ≠ some false ∧ ¬ cfg.LeastTtlFits := by
  unfold validate LeastTtlFits
  by_cases henabled : cfg.obsoleteEnabled = some false
  · rw [if_pos henabled]
    exact iff_of_false (Option.some_ne_none _) fun h => h.1 henabled
  rw [if_neg henabled]
  dsimp only
  have hsum : cfg.effectiveLoopWait + 2 * cfg.effectiveRetryTimeout =
      Duration.ofSecs (cfg.loopWait + 2 * cfg.retryTimeout) := by
    show cfg.loopWait * 1000000000 + 2 * (cfg.retryTimeout * 1000000000) =
      (cfg.loopWait + 2 * cfg.retryTimeout) * 1000000000
    omega
  constructor
  · intro h
    refine ⟨henabled, fun hfits => ?_⟩
    have hadd : cfg.effectiveLoopWait + 2 * cfg.effectiveRetryTimeout ≤ Duration.max := by
      rw [hsum]
      exact Duration.ofSecs_le_max_iff.mpr hfits
    have hmul : 2 * cfg.effectiveRetryTimeout ≤ Duration.max := (Nat.le_add_left _ _).trans hadd
    rw [Duration.checkedMul_eq_some_iff.mpr ⟨hmul, rfl⟩, Option.bind_some,
      Duration.checkedAdd_eq_some_iff.mpr ⟨hadd, rfl⟩] at h
    cases h
  · rintro ⟨-, hnot⟩
    rw [Option.bind_eq_none_iff]
    intro twice htwice
    obtain ⟨-, rfl⟩ := Duration.checkedMul_eq_some_iff.mp htwice
    rw [Option.map_eq_none_iff, Option.eq_none_iff_forall_ne_some]
    intro least hleast
    obtain ⟨hadd, -⟩ := Duration.checkedAdd_eq_some_iff.mp hleast
    rw [hsum] at hadd
    exact hnot (Duration.ofSecs_le_max_iff.mp hadd)

/-- The check is exact on a section **exactly when the least `leader_ttl` it would accept is
representable**, or `enabled = false` refuses the section first. -/
theorem validatesExactly_iff (cfg : RaftConfig) :
    cfg.ValidatesExactly ↔ cfg.obsoleteEnabled = some false ∨ cfg.LeastTtlFits := by
  constructor
  · rintro ⟨verdict, hverdict, -⟩
    by_contra hnot
    rw [not_or] at hnot
    rw [(validate_eq_none_iff cfg).mpr hnot] at hverdict
    cases hverdict
  · intro hfits
    obtain ⟨verdict, hverdict⟩ : ∃ verdict, cfg.validate = some verdict := by
      refine Option.ne_none_iff_exists'.mp fun hnone => ?_
      obtain ⟨henabled, hnot⟩ := (validate_eq_none_iff cfg).mp hnone
      exact hfits.elim henabled hnot
    refine ⟨verdict, hverdict, fun henabled => ?_⟩
    have hok : verdict = .ok () ↔ cfg.validate = some (.ok ()) := by
      rw [hverdict, Option.some_inj]
    rw [hok, validate_eq_ok_iff]
    -- the two sides differ by the unit of the numbers only
    have httl : cfg.effectiveLoopWait + 2 * cfg.effectiveRetryTimeout ≤ cfg.effectiveLeaderTtl ↔
        cfg.loopWait + 2 * cfg.retryTimeout ≤ cfg.leaderTtl := by
      show cfg.loopWait * 1000000000 + 2 * (cfg.retryTimeout * 1000000000) ≤
        cfg.leaderTtl * 1000000000 ↔ _
      omega
    have hretry : cfg.effectiveElectionTimeout < cfg.effectiveRetryTimeout ↔
        cfg.electionTimeout < 1000 * cfg.retryTimeout := by
      show cfg.electionTimeout * 1000000 < cfg.retryTimeout * 1000000000 ↔ _
      omega
    rw [httl, hretry]
    exact and_iff_right henabled

/-- With the greatest integer that TOML has for `retry_timeout_secs`, the check panics. -/
theorem validate_panics :
    (⟨none, none, some 9223372036854775807, none, none⟩ : RaftConfig).validate = none ∧
      ¬ (⟨none, none, some 9223372036854775807, none, none⟩ :
        RaftConfig).ValidatesExactly := by
  have hpanics : (⟨none, none, some 9223372036854775807, none, none⟩ : RaftConfig).validate =
      none := by decide
  refine ⟨hpanics, ?_⟩
  rintro ⟨verdict, hverdict, -⟩
  rw [hpanics] at hverdict
  cases hverdict

end RaftConfig

end PgAgent
