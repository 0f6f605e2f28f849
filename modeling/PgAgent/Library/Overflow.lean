import Mathlib

/-!
# Products that do not fit

The operators on the fixed-width integers are checked in a debug build, which panics, and unchecked
in a release build, which keeps the low bits. A computation is `none` exactly when the code panics.

* `mulU64`, `mulI64` --- the products, and `mulU64_eq_some`, `mulI64_eq_some`, that both builds
  agree on the ones that fit.
-/

namespace Rust

/-- The two builds. -/
inductive Profile
  | debug
  | release
  deriving DecidableEq, Repr

/-- `a * b` of two `u64`. -/
def mulU64 (profile : Profile) (a b : UInt64) : Option UInt64 :=
  if a.toNat * b.toNat < 2 ^ 64 then some (a * b)
  else
    match profile with
    | .debug => none
    | .release => some (a * b)

/-- `a * b` of two `i64`. -/
def mulI64 (profile : Profile) (a b : ℤ) : Option ℤ :=
  if -2 ^ 63 ≤ a * b ∧ a * b < 2 ^ 63 then some (a * b)
  else
    match profile with
    | .debug => none
    | .release => some (Int.bmod (a * b) (2 ^ 64))

variable {profile : Profile}

theorem mulU64_eq_some {a b : UInt64} (h : a.toNat * b.toNat < 2 ^ 64) :
    ∃ c, mulU64 profile a b = some c ∧ c.toNat = a.toNat * b.toNat := by
  refine ⟨a * b, if_pos h, ?_⟩
  rw [UInt64.toNat_mul, Nat.mod_eq_of_lt h]

theorem mulU64_debug_eq_none {a b : UInt64} (h : ¬ a.toNat * b.toNat < 2 ^ 64) :
    mulU64 .debug a b = none := if_neg h

theorem mulI64_eq_some {a b : ℤ} (h : -2 ^ 63 ≤ a * b ∧ a * b < 2 ^ 63) :
    mulI64 profile a b = some (a * b) := if_pos h

end Rust
