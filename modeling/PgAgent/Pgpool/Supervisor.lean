import PgAgent.Library.Duration
import PgAgent.Library.Spacing
import PgAgent.Library.Trace

/-!
# The supervisor of pgpool

The agent looks at the unit of pgpool again and again and starts it when it is not active.  Attempts
keep a distance from one another, and after so many failed ones in a row it gives up, until it sees
the unit active again.

A failed attempt is one whose `StartUnit` fails.  A start that is reported as done but does not make
the unit active is no failure, so that attempts then go on without an end.

* `tickOnce_cases` --- what a tick can do;
* `attempts_spaced` --- the attempts of every run, and how many of them fail in a row;
* `givesUp_iff` --- when the attempts come to an end.
-/

namespace PgAgent
namespace Pgpool

open Rust

/-- `PgpoolSupervisor`, the parameters.  Times are nanoseconds. -/
structure PgpoolSupervisor where
  tick : ℕ
  minAttemptGap : ℕ
  maxConsecutiveFailures : ℕ
  deriving DecidableEq, Repr

/-- `PgpoolSupervisor::new`: `TICK`, `MIN_ATTEMPT_GAP` and `MAX_CONSECUTIVE_FAILURES`. -/
def PgpoolSupervisor.new : PgpoolSupervisor where
  tick := Duration.ofSecs 5
  minAttemptGap := Duration.ofSecs 30
  maxConsecutiveFailures := 10

/-- `PgpoolSupervisor`, what changes. -/
structure SupervisorState where
  lastAttempt : Option ℕ
  consecutiveFailures : ℕ
  startedCount : ℕ
  deriving DecidableEq, Repr

def SupervisorState.new : SupervisorState := ⟨none, 0, 0⟩

/-- What a beat meets: the answer of `status_pgpool`, `none` if it fails; the clock at the test of
the cooldown and at the attempt; and whether `start_pgpool` succeeds. -/
structure Beat where
  status : Option Bool
  checked : ℕ
  attempted : ℕ
  started : Bool
  deriving DecidableEq, Repr

/-- `attempt_start`. -/
def attemptStart (s : SupervisorState) (b : Beat) : SupervisorState where
  lastAttempt := some b.attempted
  consecutiveFailures := if b.started then s.consecutiveFailures else s.consecutiveFailures + 1
  startedCount := s.startedCount + 1

/-- `ensure_running_once`: the new state, and whether a start was attempted, `none` if the status
could not be asked for. -/
def ensureRunningOnce (s : SupervisorState) (b : Beat) : SupervisorState × Option Bool :=
  match b.status with
  | none => (s, none)
  | some true => (s, some false)
  | some false => (attemptStart s b, some true)

/-- `tick_once`: the new state, and whether a start was attempted. -/
def tickOnce (sup : PgpoolSupervisor) (s : SupervisorState) (b : Beat) : SupervisorState × Bool :=
  match b.status with
  | none => (s, false)
  | some true => ({ s with consecutiveFailures := 0 }, false)
  | some false =>
    if sup.maxConsecutiveFailures ≤ s.consecutiveFailures then (s, false)
    else
      match s.lastAttempt with
      | some last =>
        if Instant.durationSince b.checked last < sup.minAttemptGap then (s, false)
        else (attemptStart s b, true)
      | none => (attemptStart s b, true)

/-- The cooldown is over. -/
def CooledDown (sup : PgpoolSupervisor) (s : SupervisorState) (now : ℕ) : Prop :=
  ∀ last, s.lastAttempt = some last → sup.minAttemptGap ≤ Instant.durationSince now last

section Step

variable {sup : PgpoolSupervisor} {s : SupervisorState} {b : Beat}

/-- What a tick can do. -/
theorem tickOnce_cases (sup : PgpoolSupervisor) (s : SupervisorState) (b : Beat) :
    (b.status = some true ∧ tickOnce sup s b = ({ s with consecutiveFailures := 0 }, false)) ∨
    (b.status = some false ∧ s.consecutiveFailures < sup.maxConsecutiveFailures ∧
      CooledDown sup s b.checked ∧ tickOnce sup s b = (attemptStart s b, true)) ∨
    (b.status ≠ some true ∧ (b.status = some false →
      sup.maxConsecutiveFailures ≤ s.consecutiveFailures ∨ ¬ CooledDown sup s b.checked) ∧
      tickOnce sup s b = (s, false)) := by
  unfold tickOnce CooledDown
  rcases hstatus : b.status with _ | _ | _
  · exact Or.inr (Or.inr ⟨nofun, nofun, rfl⟩)
  · refine Or.inr ?_
    dsimp only
    split
    · next hcap => exact Or.inr ⟨nofun, fun _ => Or.inl hcap, rfl⟩
    · next hcap =>
      rcases hlast : s.lastAttempt with _ | last
      · exact Or.inl ⟨rfl, not_le.mp hcap, nofun, rfl⟩
      · dsimp only
        split
        · next hgap =>
          refine Or.inr ⟨nofun, fun _ => Or.inr fun hcool => ?_, rfl⟩
          exact absurd (hcool last rfl) (not_le.mpr hgap)
        · next hgap =>
          refine Or.inl ⟨rfl, not_le.mp hcap, fun l hl => ?_, rfl⟩
          obtain rfl := Option.some.inj hl
          exact not_lt.mp hgap
  · exact Or.inl ⟨rfl, rfl⟩

/-- A tick attempts a start exactly if the unit is seen down, the cap is not reached and the
cooldown is over. -/
theorem tickOnce_snd_iff : (tickOnce sup s b).2 = true ↔ b.status = some false ∧
    s.consecutiveFailures < sup.maxConsecutiveFailures ∧ CooledDown sup s b.checked := by
  rcases tickOnce_cases sup s b with ⟨hstatus, h⟩ |
      ⟨hstatus, hcap, hcool, h⟩ | ⟨-, hheld, h⟩
  · rw [h, hstatus]
    exact ⟨nofun, fun hdown => nomatch hdown.1⟩
  · rw [h]
    exact ⟨fun _ => ⟨hstatus, hcap, hcool⟩, fun _ => rfl⟩
  · rw [h]
    refine ⟨nofun, fun hdown => ?_⟩
    rcases hheld hdown.1 with hcap | hcool
    · omega
    · exact absurd hdown.2.2 hcool

end Step

/-! ## Runs -/

/-- A run of the supervisor: the beat at startup, and a tick after each sleep.  The clock does not
go back. -/
structure SupervisorRun where
  sup : PgpoolSupervisor
  startup : Beat
  ticks : ℕ → Beat
  first : startup.attempted ≤ (ticks 0).checked
  within : ∀ k, (ticks k).checked ≤ (ticks k).attempted
  next : ∀ k, (ticks k).attempted + sup.tick ≤ (ticks (k + 1)).checked

namespace SupervisorRun

variable (run : SupervisorRun)

/-- The state before tick `k`. -/
def stateAt : ℕ → SupervisorState :=
  Trace.stateAt (fun s b => (tickOnce run.sup s b).1)
    (ensureRunningOnce SupervisorState.new run.startup).1 run.ticks

/-- Tick `k` attempts a start. -/
def attempts (k : ℕ) : Bool := (tickOnce run.sup (run.stateAt k) (run.ticks k)).2

/-- Tick `k` attempts a start, and it fails. -/
def fails (k : ℕ) : Bool := run.attempts k && !(run.ticks k).started

/-- The moments of the attempts, that at startup and those of the first `n` ticks. -/
def attemptTimes : ℕ → List ℕ
  | 0 => if run.startup.status = some false then [run.startup.attempted] else []
  | n + 1 => attemptTimes n ++ if run.attempts n then [(run.ticks n).attempted] else []

/-- The failed attempts of the ticks from `j` on, `n` of them. -/
def failures (j : ℕ) : ℕ → ℕ
  | 0 => 0
  | n + 1 => failures j n + if run.fails (j + n) then 1 else 0

theorem stateAt_succ (k : ℕ) :
    run.stateAt (k + 1) = (tickOnce run.sup (run.stateAt k) (run.ticks k)).1 :=
  Trace.stateAt_succ k

theorem attempts_iff {k : ℕ} : run.attempts k = true ↔ (run.ticks k).status = some false ∧
    (run.stateAt k).consecutiveFailures < run.sup.maxConsecutiveFailures ∧
    CooledDown run.sup (run.stateAt k) (run.ticks k).checked := tickOnce_snd_iff

theorem checked_mono (k : ℕ) : (run.ticks k).checked ≤ (run.ticks (k + 1)).checked := by
  have hwithin := run.within k
  have hnext := run.next k
  omega

/-- The last attempt is what the state remembers, and it is not later than the next test. -/
theorem getLast?_attemptTimes (n : ℕ) :
    (run.attemptTimes n).getLast? = (run.stateAt n).lastAttempt ∧
      ∀ t, (run.stateAt n).lastAttempt = some t → t ≤ (run.ticks n).checked := by
  induction n with
  | zero =>
    show (if run.startup.status = some false then [run.startup.attempted] else []).getLast? =
      (ensureRunningOnce SupervisorState.new run.startup).1.lastAttempt ∧
      ∀ t, (ensureRunningOnce SupervisorState.new run.startup).1.lastAttempt = some t → _
    unfold ensureRunningOnce
    rcases run.startup.status with _ | _ | _
    · exact ⟨rfl, nofun⟩
    · refine ⟨rfl, fun t ht => ?_⟩
      obtain rfl := Option.some.inj ht
      exact run.first
    · exact ⟨rfl, nofun⟩
  | succ n ih =>
    obtain ⟨hlast, hbefore⟩ := ih
    have hmono := run.checked_mono n
    rw [attemptTimes, stateAt_succ]
    rcases tickOnce_cases run.sup (run.stateAt n) (run.ticks n) with
      ⟨-, h⟩ | ⟨-, -, -, h⟩ | ⟨-, -, h⟩
    · have hno : run.attempts n = false := congrArg Prod.snd h
      rw [hno, if_neg Bool.false_ne_true, List.append_nil, h]
      exact ⟨hlast, fun t ht => (hbefore t ht).trans hmono⟩
    · have hyes : run.attempts n = true := congrArg Prod.snd h
      rw [hyes, if_pos rfl, h, List.getLast?_concat]
      refine ⟨rfl, fun t ht => ?_⟩
      obtain rfl := Option.some.inj ht
      have hnext := run.next n
      omega
    · have hno : run.attempts n = false := congrArg Prod.snd h
      rw [hno, if_neg Bool.false_ne_true, List.append_nil, h]
      exact ⟨hlast, fun t ht => (hbefore t ht).trans hmono⟩

theorem spaced_attemptTimes (n : ℕ) : Spaced run.sup.minAttemptGap (run.attemptTimes n) := by
  induction n with
  | zero =>
    unfold attemptTimes
    split
    · exact Spaced.singleton _
    · exact Spaced.nil
  | succ n ih =>
    rw [attemptTimes]
    split
    · next hattempt =>
      refine ih.snoc fun l hl => ?_
      rw [(run.getLast?_attemptTimes n).1] at hl
      have hcool := (run.attempts_iff.mp hattempt).2.2 l hl
      have hbefore := (run.getLast?_attemptTimes n).2 l hl
      have hwithin := run.within n
      unfold Instant.durationSince at hcool
      omega
    · rwa [List.append_nil]

/-- While the unit is not seen active, the failures add up. -/
theorem consecutiveFailures_add {j n : ℕ}
    (hactive : ∀ k, j ≤ k → k < j + n → (run.ticks k).status ≠ some true) :
    (run.stateAt (j + n)).consecutiveFailures =
        (run.stateAt j).consecutiveFailures + run.failures j n ∧
      (run.failures j n = 0 ∨
        (run.stateAt (j + n)).consecutiveFailures ≤ run.sup.maxConsecutiveFailures) := by
  induction n with
  | zero => exact ⟨rfl, Or.inl rfl⟩
  | succ n ih =>
    obtain ⟨hsum, hcap⟩ := ih fun k hk hkn => hactive k hk (by omega)
    have hnot := hactive (j + n) (by omega) (by omega)
    rw [← Nat.add_assoc, stateAt_succ, failures]
    unfold fails
    rcases tickOnce_cases run.sup (run.stateAt (j + n)) (run.ticks (j + n)) with
      ⟨hup, -⟩ | ⟨-, hlt, -, h⟩ | ⟨-, -, h⟩
    · exact absurd hup hnot
    · have hyes : run.attempts (j + n) = true := congrArg Prod.snd h
      rw [hyes, h]
      rcases hstarted : (run.ticks (j + n)).started with _ | _
      · have hcount :
            (attemptStart (run.stateAt (j + n)) (run.ticks (j + n))).consecutiveFailures =
            (run.stateAt (j + n)).consecutiveFailures + 1 := by
          unfold attemptStart
          rw [hstarted]
          rfl
        dsimp only
        rw [hcount]
        exact ⟨by simp; omega, Or.inr (by omega)⟩
      · have hcount :
            (attemptStart (run.stateAt (j + n)) (run.ticks (j + n))).consecutiveFailures =
            (run.stateAt (j + n)).consecutiveFailures := by
          unfold attemptStart
          rw [hstarted]
          rfl
        dsimp only
        rw [hcount]
        exact ⟨by simpa using hsum, Or.inr (by omega)⟩
    · have hno : run.attempts (j + n) = false := congrArg Prod.snd h
      rw [hno, h]
      exact ⟨by simpa using hsum, by simpa using hcap⟩

/-- **The attempts of a run** keep the distance; in a stretch of time there are so many of them; and
while the unit is not seen active, only so many of the ticks' attempts fail. -/
theorem attempts_spaced (n : ℕ) :
    Spaced run.sup.minAttemptGap (run.attemptTimes n) ∧
      (∀ a len, 0 < run.sup.minAttemptGap →
        ((run.attemptTimes n).filter fun t => decide (a ≤ t) && decide (t < a + len)).length ≤
          len ⌈/⌉ run.sup.minAttemptGap) ∧
      ∀ j, (∀ k, j ≤ k → k < j + n → (run.ticks k).status ≠ some true) →
        run.failures j n ≤ run.sup.maxConsecutiveFailures := by
  refine ⟨run.spaced_attemptTimes n, fun a len hgap => ?_, fun j hactive => ?_⟩
  · exact (run.spaced_attemptTimes n).length_window_le hgap a len
  · obtain ⟨hsum, hcap⟩ := run.consecutiveFailures_add hactive
    omega

/-! ## Giving up -/

theorem checked_le (hsleep : 0 < run.sup.tick) (k : ℕ) : k ≤ (run.ticks k).checked := by
  induction k with
  | zero => exact Nat.zero_le _
  | succ k ih =>
    have hwithin := run.within k
    have hnext := run.next k
    omega

/-- Without an attempt the state remembers the last one. -/
theorem lastAttempt_of_quiet {k n : ℕ} (hkn : k ≤ n)
    (hquiet : ∀ m, k ≤ m → m < n → run.attempts m = false) :
    (run.stateAt n).lastAttempt = (run.stateAt k).lastAttempt := by
  refine Trace.eq_of_frame (g := SupervisorState.lastAttempt) hkn fun m hkm hmn => ?_
  have hno := hquiet m hkm hmn
  show (run.stateAt (m + 1)).lastAttempt = (run.stateAt m).lastAttempt
  rw [stateAt_succ]
  rcases tickOnce_cases run.sup (run.stateAt m) (run.ticks m) with
    ⟨-, h⟩ | ⟨-, -, -, h⟩ | ⟨-, -, h⟩
  · rw [h]
  · have hyes : run.attempts m = true := congrArg Prod.snd h
    rw [hno] at hyes
    cases hyes
  · rw [h]

/-- **When the attempts come to an end.** If the unit is never seen active from some tick on, and is
seen down again and again, then the supervisor stops trying exactly if the failures since then, with
those in front of them, reach the cap.  Starts that are reported as done do not count. -/
theorem givesUp_iff (hsleep : 0 < run.sup.tick) {j : ℕ}
    (hactive : ∀ k, j ≤ k → (run.ticks k).status ≠ some true)
    (hdown : ∀ n, ∃ k, n ≤ k ∧ (run.ticks k).status = some false) :
    (∃ n, ∀ k, n ≤ k → run.attempts k = false) ↔
      ∃ n, run.sup.maxConsecutiveFailures ≤
        (run.stateAt j).consecutiveFailures + run.failures j n := by
  have hsum : ∀ n, (run.stateAt (j + n)).consecutiveFailures =
      (run.stateAt j).consecutiveFailures + run.failures j n := fun n =>
    (run.consecutiveFailures_add fun k hk _ => hactive k hk).1
  constructor
  · rintro ⟨n, hquiet⟩
    by_contra hnever
    push Not at hnever
    -- a tick that sees the unit down when the last attempt is long ago
    obtain ⟨m, hm, hseen⟩ := hdown
      (max (j + n) ((run.stateAt n).lastAttempt.getD 0 + run.sup.minAttemptGap))
    have hno := hquiet m (by omega)
    have hlast := run.lastAttempt_of_quiet (show n ≤ m by omega) fun i hi _ => hquiet i hi
    have hcool : CooledDown run.sup (run.stateAt m) (run.ticks m).checked := by
      intro last hl
      rw [hlast] at hl
      rw [hl, Option.getD_some] at hm
      have hchecked := run.checked_le hsleep m
      unfold Instant.durationSince
      omega
    have hcap : (run.stateAt m).consecutiveFailures < run.sup.maxConsecutiveFailures := by
      have hlt := hnever (m - j)
      rw [← hsum (m - j), show j + (m - j) = m by omega] at hlt
      exact hlt
    rw [run.attempts_iff.mpr ⟨hseen, hcap, hcool⟩] at hno
    cases hno
  · rintro ⟨n, hcap⟩
    refine ⟨j + n, fun k hk => Bool.eq_false_iff.mpr fun hattempt => ?_⟩
    have hlt := (run.attempts_iff.mp hattempt).2.1
    have hadd := (run.consecutiveFailures_add (j := j + n) (n := k - (j + n))
      fun i hi _ => hactive i (by omega)).1
    rw [show j + n + (k - (j + n)) = k by omega, hsum n] at hadd
    omega

end SupervisorRun

/-- Ticks once a second that see the unit down, with starts that fail. -/
def failingRun : SupervisorRun where
  sup := ⟨1, 1, 2⟩
  startup := ⟨some false, 0, 0, false⟩
  ticks k := ⟨some false, k + 1, k + 1, false⟩
  first := Nat.zero_le _
  within _ := le_rfl
  next _ := le_rfl

/-- Two failed starts are all that the ticks come to. -/
theorem failingRun_attempts : failingRun.failures 0 5 ≤ 2 :=
  (failingRun.attempts_spaced 5).2.2 0 fun _ _ _ => nofun

/-- The start at startup and one more fail; then the supervisor gives up. -/
theorem failingRun_givesUp : ∃ n, ∀ k, n ≤ k → failingRun.attempts k = false :=
  (failingRun.givesUp_iff Nat.one_pos (j := 0) (fun _ _ => nofun)
    fun n => ⟨n, le_rfl, rfl⟩).mpr ⟨1, by decide⟩

end Pgpool
end PgAgent
