import Mathlib.Algebra.Order.Ring.Nat
import Mathlib.Tactic.NormNum

/-!
# Durations and instants of the Rust standard library

A `std::time::Duration` is a number of seconds below `2 ^ 64` and a number of
nanoseconds below `10 ^ 9`; it is kept here as the total number of nanoseconds.
Arithmetic that leaves the representable range panics, so the checked operations
return `none` there, and a computation that uses them is `none` exactly when the
code panics.

An `Instant` is a reading of the monotonic clock, in nanoseconds from an arbitrary
origin.  `duration_since` saturates at zero, which is truncated subtraction.
-/

namespace Rust

/-- A duration, in nanoseconds. -/
abbrev Duration := ℕ

/-- A reading of the monotonic clock, in nanoseconds. -/
abbrev Instant := ℕ

/-- The elapsed time from `earlier` to `now`, zero if the readings are reversed. -/
def Instant.durationSince (now earlier : Instant) : Duration := now - earlier

namespace Duration

/-- `Duration::MAX`: all seconds and all nanoseconds. -/
def max : Duration := (2 ^ 64 - 1) * 1000000000 + 999999999

/-- `Duration::from_secs`. -/
def fromSecs (s : UInt64) : Duration := s.toNat * 1000000000

/-- The duration of `n` seconds, over the unbounded integers. -/
def ofSecs (n : ℕ) : Duration := n * 1000000000

/-- `Duration::from_millis`. -/
def fromMillis (ms : UInt64) : Duration := ms.toNat * 1000000

/-- `Duration::as_secs`: the whole seconds. -/
def asSecs (d : Duration) : ℕ := d / 1000000000

/-- `Duration::as_millis`: the whole milliseconds, as a `u128`. -/
def asMillis (d : Duration) : ℕ := d / 1000000

/-- `d.as_millis() as u64`: the cast keeps the low 64 bits. -/
def asMillisU64 (d : Duration) : UInt64 := UInt64.ofNat (asMillis d)

/-- Addition of durations; `none` where it panics. -/
def checkedAdd (a b : Duration) : Option Duration :=
  if a + b ≤ max then some (a + b) else none

/-- Multiplication of a duration by a `u32`; `none` where it panics. -/
def checkedMul (n : ℕ) (d : Duration) : Option Duration :=
  if n * d ≤ max then some (n * d) else none

theorem checkedAdd_eq_some_iff {a b r : Duration} :
    checkedAdd a b = some r ↔ a + b ≤ max ∧ r = a + b := by
  unfold checkedAdd
  split <;> simp_all [eq_comm]

theorem checkedMul_eq_some_iff {n : ℕ} {d r : Duration} :
    checkedMul n d = some r ↔ n * d ≤ max ∧ r = n * d := by
  unfold checkedMul
  split <;> simp_all [eq_comm]

theorem fromSecs_le_max (s : UInt64) : fromSecs s ≤ max := by
  have hlt := s.toNat_lt
  show s.toNat * 1000000000 ≤ (2 ^ 64 - 1) * 1000000000 + 999999999
  omega

theorem fromSecs_eq_ofSecs (s : UInt64) : fromSecs s = ofSecs s.toNat := rfl

theorem ofSecs_injective : Function.Injective ofSecs := by
  intro a b h
  have hmul : a * 1000000000 = b * 1000000000 := h
  omega

theorem ofSecs_le_max_iff {n : ℕ} : ofSecs n ≤ max ↔ n < 2 ^ 64 := by
  show n * 1000000000 ≤ (2 ^ 64 - 1) * 1000000000 + 999999999 ↔ n < 2 ^ 64
  omega

theorem ofSecs_add (a b : ℕ) : ofSecs a + ofSecs b = ofSecs (a + b) := by
  show a * 1000000000 + b * 1000000000 = (a + b) * 1000000000
  omega

/-- Whole seconds are added as long as the seconds of the sum fit. -/
theorem checkedAdd_ofSecs (a b : ℕ) :
    checkedAdd (ofSecs a) (ofSecs b) = if a + b < 2 ^ 64 then some (ofSecs (a + b)) else none := by
  unfold checkedAdd
  rw [ofSecs_add]
  simp only [ofSecs_le_max_iff]

theorem toNat_asMillisU64 (d : Duration) : (asMillisU64 d).toNat = asMillis d % 2 ^ 64 :=
  UInt64.toNat_ofNat'

theorem toNat_asMillisU64_of_lt {d : Duration} (h : asMillis d < 2 ^ 64) :
    (asMillisU64 d).toNat = asMillis d := by
  rw [toNat_asMillisU64, Nat.mod_eq_of_lt h]

theorem toNat_asMillisU64_le (d : Duration) : (asMillisU64 d).toNat ≤ asMillis d := by
  rw [toNat_asMillisU64]
  exact Nat.mod_le _ _

end Duration

end Rust
