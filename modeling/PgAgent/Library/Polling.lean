import Mathlib.Tactic.Ring
import Mathlib.Order.Monotone.Basic

/-!
# Polling until a deadline

A loop asks a source that can fail.  It returns the first answer; after a failure it looks at the
clock, gives up if the deadline has come, and else waits and asks again.

`clock k` is the reading after attempt `k`.  The loop has fuel, since nothing but the clock ends
it: `poll_ends` says that a clock which goes on by the wait is enough.

* `poll_eq_some_iff` --- with which attempt the loop ends, and why;
* `poll_ends` --- that it ends.
-/

namespace Polling

variable {ε α : Type*}

/-- The attempt the loop ends with, and how it came out. -/
def poll (source : ℕ → Except ε α) (clock : ℕ → ℕ) (deadline : ℕ) :
    ℕ → ℕ → Option (ℕ × Except ε α)
  | 0, _ => none
  | fuel + 1, k =>
      match source k with
      | .ok a => some (k, .ok a)
      | .error e =>
          if deadline ≤ clock k then some (k, .error e)
            else poll source clock deadline fuel (k + 1)

variable {source : ℕ → Except ε α} {clock : ℕ → ℕ} {deadline : ℕ}

/-- The loop goes on after attempt `k`. -/
def GoesOn (source : ℕ → Except ε α) (clock : ℕ → ℕ) (deadline k : ℕ) : Prop :=
  (∃ e, source k = .error e) ∧ clock k < deadline

theorem poll_of_goesOn {fuel k : ℕ} (h : GoesOn source clock deadline k) :
    poll source clock deadline (fuel + 1) k = poll source clock deadline fuel (k + 1) := by
  obtain ⟨⟨e, he⟩, hlt⟩ := h
  simp only [poll, he]
  rw [if_neg (not_le.mpr hlt)]

theorem poll_of_not_goesOn {fuel k : ℕ} (h : ¬ GoesOn source clock deadline k) :
    poll source clock deadline (fuel + 1) k = some (k, source k) := by
  cases hsource : source k with
  | ok a => simp only [poll, hsource]
  | error e =>
    have hle : deadline ≤ clock k := by
      by_contra hlt
      exact h ⟨⟨e, hsource⟩, not_le.mp hlt⟩
    simp only [poll, hsource]
    rw [if_pos hle]

/-- The loop ends with the first attempt after which it does not go on. -/
theorem poll_eq_some_iff {fuel k n : ℕ} {r : Except ε α} :
    poll source clock deadline fuel k = some (n, r) ↔
      k ≤ n ∧ n < k + fuel ∧ (∀ j, k ≤ j → j < n → GoesOn source clock deadline j) ∧
        ¬ GoesOn source clock deadline n ∧ r = source n := by
  induction fuel generalizing k with
  | zero =>
    constructor
    · intro h
      cases h
    · rintro ⟨hk, hn, -⟩
      omega
  | succ fuel ih =>
    by_cases hon : GoesOn source clock deadline k
    · rw [poll_of_goesOn hon, ih]
      constructor
      · rintro ⟨hk, hn, hall, hend, hr⟩
        refine ⟨by omega, by omega, fun j hj hjn => ?_, hend, hr⟩
        by_cases hjk : j = k
        · rw [hjk]
          exact hon
        · exact hall j (by omega) hjn
      · rintro ⟨hk, hn, hall, hend, hr⟩
        have hne : n ≠ k := by
          rintro rfl
          exact hend hon
        exact ⟨by omega, by omega, fun j hj hjn => hall j (by omega) hjn, hend, hr⟩
    · rw [poll_of_not_goesOn hon]
      constructor
      · intro h
        obtain ⟨rfl, rfl⟩ := Prod.mk.inj (Option.some.inj h)
        exact ⟨le_refl _, by omega, fun j hj hjn => absurd hjn (by omega), hon, rfl⟩
      · rintro ⟨hk, -, hall, -, rfl⟩
        have hnk : n = k := by
          by_contra hne
          exact hon (hall k (le_refl k) (by omega))
        rw [hnk]

/-- A clock that goes on by `wait` from one attempt to the next reaches the deadline. -/
theorem poll_ends {wait start fuel k : ℕ} (hstart : start + k * wait ≤ clock k)
    (hclock : ∀ j, clock j + wait ≤ clock (j + 1))
    (hfuel : deadline ≤ start + (k + fuel) * wait) :
    ∃ n r, poll source clock deadline (fuel + 1) k = some (n, r) := by
  induction fuel generalizing k with
  | zero =>
    have hend : ¬ GoesOn source clock deadline k := by
      rintro ⟨-, hlt⟩
      have hfuel' : deadline ≤ start + k * wait := by simpa using hfuel
      omega
    exact ⟨k, source k, poll_of_not_goesOn hend⟩
  | succ fuel ih =>
    by_cases hon : GoesOn source clock deadline k
    · rw [poll_of_goesOn hon]
      refine ih ?_ ?_
      · have hnext := hclock k
        rw [Nat.succ_mul]
        omega
      · rwa [show k + 1 + fuel = k + (fuel + 1) by omega]
    · exact ⟨k, source k, poll_of_not_goesOn hon⟩

end Polling
