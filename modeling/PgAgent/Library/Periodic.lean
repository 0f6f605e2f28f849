import Mathlib.Algebra.Order.Floor.Div
import Mathlib.Order.Monotone.Basic
import Mathlib.Tactic.Ring

/-!
# Loops that wait between their rounds

A loop does a round of work, waits, and does the next one.  The wait is a fixed time;
a round takes as long as it takes, up to a bound.  Such a loop notices the passing of
time only when a round starts, and this file is about how late, or how early, that can
be.

* `exists_crossing` --- some round is the first to start after a given moment, and the
  one before it started no later;
* `le_start_of_elapsed` --- a round that starts `elapsed` after the start of one that
  was still busy at `p` starts `noticedAfter wait bound elapsed` after `p`, or later;
* `paced` --- a loop for which that is exact.
-/

/-- Round `k` starts at `start k` and is busy for `busy k`, at most `bound`; the next
one starts `wait` after it ends.  Time goes on. -/
structure Periodic (wait bound : ℕ) (start busy : ℕ → ℕ) : Prop where
  next : ∀ k, start (k + 1) = start k + busy k + wait
  busy_le : ∀ k, busy k ≤ bound
  diverges : ∀ t, ∃ k, t < start k

namespace Periodic

variable {wait bound : ℕ} {start busy : ℕ → ℕ}

theorem monotone (h : Periodic wait bound start busy) : Monotone start := by
  refine monotone_nat_of_le_succ fun k => ?_
  have hk := h.next k
  omega

/-- `n` further waits have passed when the round `n` after the next one starts. -/
theorem end_add_mul_le (h : Periodic wait bound start busy) (j n : ℕ) :
    start j + busy j + (n + 1) * wait ≤ start (j + (n + 1)) := by
  induction n with
  | zero =>
    rw [h.next j, Nat.zero_add, Nat.one_mul]
  | succ n ih =>
    have hn := h.next (j + (n + 1))
    have hmul : (n + 1 + 1) * wait = (n + 1) * wait + wait := Nat.succ_mul _ _
    rw [← add_assoc j (n + 1) 1]
    omega

/-- `n` rounds take at most `n` times the wait and the bound. -/
theorem start_add_le (h : Periodic wait bound start busy) (j n : ℕ) :
    start (j + n) ≤ start j + n * (wait + bound) := by
  induction n with
  | zero => simp
  | succ n ih =>
    have hn := h.next (j + n)
    have hb := h.busy_le (j + n)
    have hmul : (n + 1) * (wait + bound) = n * (wait + bound) + (wait + bound) :=
      Nat.succ_mul _ _
    rw [← add_assoc]
    omega

/-- Among the rounds from `j` on, which starts by `t`, there is a last one to do so. -/
theorem exists_crossing (h : Periodic wait bound start busy) {j t : ℕ} (hj : start j ≤ t) :
    ∃ n, j ≤ n ∧ start n ≤ t ∧ t < start (n + 1) := by
  classical
  have hex := h.diverges t
  have hfind := Nat.find_spec hex
  have hlt : j < Nat.find hex := by
    by_contra hle
    exact absurd (hfind.trans_le (h.monotone (not_lt.mp hle))) (not_lt.mpr hj)
  refine ⟨Nat.find hex - 1, by omega, ?_, ?_⟩
  · exact not_lt.mp (Nat.find_min hex (by omega))
  · rwa [show Nat.find hex - 1 + 1 = Nat.find hex by omega]

/-! ## How early a delay is noticed -/

/-- The least time from the end of a round to the start of one that starts `elapsed`
after it did: as many waits as that takes rounds, or what a full round leaves of
`elapsed`. -/
def noticedAfter (wait bound elapsed : ℕ) : ℕ :=
  max (elapsed ⌈/⌉ (wait + bound) * wait) (elapsed - bound)

/-- A round `m` that starts `elapsed` after round `j` did, which was still busy at `p`. -/
theorem le_start_of_elapsed (h : Periodic wait bound start busy) (hpos : 0 < wait + bound)
    {elapsed j m p : ℕ} (hjm : j < m) (hp : p ≤ start j + busy j)
    (hm : start j + elapsed ≤ start m) : p + noticedAfter wait bound elapsed ≤ start m := by
  obtain ⟨n, rfl⟩ : ∃ n, m = j + (n + 1) := ⟨m - j - 1, by omega⟩
  have hrounds : elapsed ⌈/⌉ (wait + bound) ≤ n + 1 := by
    rw [ceilDiv_le_iff_le_mul hpos, mul_comm]
    have hle := h.start_add_le j (n + 1)
    omega
  have hwaits : elapsed ⌈/⌉ (wait + bound) * wait ≤ (n + 1) * wait :=
    Nat.mul_le_mul_right wait hrounds
  have hend := h.end_add_mul_le j n
  have hb := h.busy_le j
  unfold noticedAfter
  omega

/-! ## Loops with given rounds -/

/-- The starts of the rounds, from the first one and how long each round is busy. -/
def startsFrom (first wait : ℕ) (busy : ℕ → ℕ) : ℕ → ℕ
  | 0 => first
  | k + 1 => startsFrom first wait busy k + busy k + wait

/-- Rounds that take time from some round on make a loop. -/
theorem of_busy {first : ℕ} (N : ℕ) (hbusy : ∀ k, busy k ≤ bound)
    (hlater : ∀ k, N ≤ k → 0 < busy k) :
    Periodic wait bound (startsFrom first wait busy) busy where
  next _ := rfl
  busy_le := hbusy
  diverges t := by
    have hgrow : ∀ n, n ≤ startsFrom first wait busy (N + n) := by
      intro n
      induction n with
      | zero => exact Nat.zero_le _
      | succ n ih =>
        have hpos := hlater (N + n) (Nat.le_add_right N n)
        show n + 1 ≤ startsFrom first wait busy (N + n) + busy (N + n) + wait
        omega
    exact ⟨N + (t + 1), hgrow (t + 1)⟩

/-- A wait that takes time makes a loop. -/
theorem of_wait {first : ℕ} (hbusy : ∀ k, busy k ≤ bound) (hwait : 0 < wait) :
    Periodic wait bound (startsFrom first wait busy) busy where
  next _ := rfl
  busy_le := hbusy
  diverges t := by
    have hgrow : ∀ n, n ≤ startsFrom first wait busy n := by
      intro n
      induction n with
      | zero => exact Nat.zero_le _
      | succ n ih =>
        show n + 1 ≤ startsFrom first wait busy n + busy n + wait
        omega
    exact ⟨t + 1, hgrow (t + 1)⟩

/-- After the end of a round some round is the last to have ended. -/
theorem exists_ended (h : Periodic wait bound start busy) {j t : ℕ}
    (hj : start j + busy j ≤ t) :
    ∃ n, j ≤ n ∧ start n + busy n ≤ t ∧ t < start (n + 1) + busy (n + 1) := by
  obtain ⟨n, hjn, hn, hlt⟩ := h.exists_crossing (j := j) (t := t) (by omega)
  by_cases hended : start n + busy n ≤ t
  · exact ⟨n, hjn, hended, by omega⟩
  · -- the round that has started is still at work, so the one before it was the last to end
    rcases n with _ | n
    · obtain rfl : j = 0 := by omega
      omega
    · have hnext := h.next n
      have hne : j ≠ n + 1 := by
        rintro rfl
        omega
      exact ⟨n, by omega, by omega, by omega⟩

/-- What the rounds after the first have to fill up, besides the waits. -/
def toFill (wait bound elapsed : ℕ) : ℕ :=
  elapsed - bound - elapsed ⌈/⌉ (wait + bound) * wait

/-- The rounds of a loop that notices `elapsed` as early as can be.  Round `0` takes the
bound; the next ones take what is left of `elapsed` beside the waits; the round that
notices, and the one after it, take no time. -/
def pacedBusy (wait bound elapsed slack : ℕ) : ℕ → ℕ
  | 0 => bound
  | i + 1 =>
      if i ≤ elapsed ⌈/⌉ (wait + bound) then min bound (toFill wait bound elapsed - i * bound)
      else slack

/-- The starts of these rounds, from `0`. -/
def paced (wait bound elapsed slack : ℕ) : ℕ → ℕ :=
  startsFrom 0 wait (pacedBusy wait bound elapsed slack)

section Paced

variable {elapsed slack : ℕ}

theorem pacedBusy_pos (hpos : 0 < slack) {k : ℕ}
    (hk : elapsed ⌈/⌉ (wait + bound) + 2 ≤ k) : 0 < pacedBusy wait bound elapsed slack k := by
  obtain ⟨i, rfl⟩ : ∃ i, k = i + 1 := ⟨k - 1, by omega⟩
  rw [pacedBusy, if_neg (by omega)]
  exact hpos

theorem periodic_paced (hslack : slack ≤ bound) (hpos : 0 < slack) :
    Periodic wait bound (paced wait bound elapsed slack) (pacedBusy wait bound elapsed slack) := by
  refine of_busy (elapsed ⌈/⌉ (wait + bound) + 2) ?_ fun k hk => pacedBusy_pos hpos hk
  rintro (_ | i)
  · exact le_rfl
  · simp only [pacedBusy]
    split
    · exact min_le_left _ _
    · exact hslack

/-- The starts up to the round after the one that notices. -/
theorem paced_succ {i : ℕ} (hi : i ≤ elapsed ⌈/⌉ (wait + bound) + 1) :
    paced wait bound elapsed slack (i + 1) =
      bound + (i + 1) * wait + min (toFill wait bound elapsed) (i * bound) := by
  induction i with
  | zero =>
    show 0 + bound + wait = bound + (0 + 1) * wait + min (toFill wait bound elapsed) (0 * bound)
    simp
  | succ i ih =>
    have hbusy : pacedBusy wait bound elapsed slack (i + 1) =
        min bound (toFill wait bound elapsed - i * bound) := if_pos (by omega)
    have hwait : (i + 1 + 1) * wait = (i + 1) * wait + wait := Nat.succ_mul _ _
    have hbound : (i + 1) * bound = i * bound + bound := Nat.succ_mul _ _
    show paced wait bound elapsed slack (i + 1) + pacedBusy wait bound elapsed slack (i + 1) +
      wait = _
    rw [ih (by omega), hbusy]
    omega

variable (hpos : 0 < wait + bound) (helapsed : 0 < elapsed)

include hpos helapsed

theorem one_le_rounds : 1 ≤ elapsed ⌈/⌉ (wait + bound) := by
  by_contra hlt
  have hzero : elapsed ⌈/⌉ (wait + bound) ≤ 0 := by omega
  rw [ceilDiv_le_iff_le_mul hpos] at hzero
  omega

/-- The rounds between the first and the noticing one are enough to fill up. -/
theorem toFill_le : toFill wait bound elapsed ≤ (elapsed ⌈/⌉ (wait + bound) - 1) * bound := by
  have hone := one_le_rounds hpos helapsed
  have hle : elapsed ≤ (wait + bound) * (elapsed ⌈/⌉ (wait + bound)) :=
    (ceilDiv_le_iff_le_mul hpos).mp le_rfl
  unfold toFill
  generalize elapsed ⌈/⌉ (wait + bound) = M at *
  obtain ⟨m, rfl⟩ : ∃ m, M = m + 1 := ⟨M - 1, by omega⟩
  have hmul : (wait + bound) * (m + 1) = (m + 1) * wait + (m * bound + bound) := by ring
  rw [Nat.add_sub_cancel]
  omega

/-- The round that notices. -/
theorem paced_noticing :
    paced wait bound elapsed slack (elapsed ⌈/⌉ (wait + bound)) =
      bound + noticedAfter wait bound elapsed := by
  have hone := one_le_rounds hpos helapsed
  have hfill := toFill_le hpos helapsed
  unfold noticedAfter
  unfold toFill at hfill
  generalize hM : elapsed ⌈/⌉ (wait + bound) = M at *
  obtain ⟨m, rfl⟩ : ∃ m, M = m + 1 := ⟨M - 1, by omega⟩
  rw [paced_succ (by omega), toFill, hM]
  rw [Nat.add_sub_cancel] at hfill
  omega

/-- The round that notices and the one after it take no time. -/
theorem pacedBusy_noticing {i : ℕ} (hi : elapsed ⌈/⌉ (wait + bound) ≤ i)
    (hi' : i ≤ elapsed ⌈/⌉ (wait + bound) + 1) :
    pacedBusy wait bound elapsed slack i = 0 := by
  have hone := one_le_rounds hpos helapsed
  have hfill := toFill_le hpos helapsed
  obtain ⟨m, rfl⟩ : ∃ m, i = m + 1 := ⟨i - 1, by omega⟩
  have hmul : (elapsed ⌈/⌉ (wait + bound) - 1) * bound ≤ m * bound :=
    Nat.mul_le_mul_right bound (by omega)
  rw [pacedBusy, if_pos (by omega)]
  omega

/-- The round after the one that notices. -/
theorem paced_noticing_succ :
    paced wait bound elapsed slack (elapsed ⌈/⌉ (wait + bound) + 1) =
      bound + noticedAfter wait bound elapsed + wait := by
  show paced wait bound elapsed slack (elapsed ⌈/⌉ (wait + bound)) +
    pacedBusy wait bound elapsed slack (elapsed ⌈/⌉ (wait + bound)) + wait = _
  rw [paced_noticing hpos helapsed, pacedBusy_noticing hpos helapsed le_rfl (by omega),
    Nat.add_zero]

end Paced

end Periodic
