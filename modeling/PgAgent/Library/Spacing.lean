import Mathlib.Algebra.Order.Floor.Div
import Mathlib.Data.List.Basic
import Mathlib.Tactic.Ring

/-!
# Moments that keep a distance

Something that may not be done again before a while has passed is done at moments that keep a
distance from one another.  A stretch of time then has room for so many of them.

* `Spaced.snoc` --- one more moment, at a distance from the last;
* `Spaced.length_window_le` --- how many moments there are in a stretch of time.
-/

/-- Every moment is at least `gap` after those in front of it. -/
def Spaced (gap : ℕ) (times : List ℕ) : Prop := times.Pairwise fun a b => a + gap ≤ b

namespace Spaced

variable {gap : ℕ} {times : List ℕ}

theorem nil : Spaced gap [] := List.Pairwise.nil

theorem singleton (t : ℕ) : Spaced gap [t] := List.pairwise_singleton _ t

/-- One more moment, at a distance from the last one. -/
theorem snoc (h : Spaced gap times) {t : ℕ}
    (hlast : ∀ l, times.getLast? = some l → l + gap ≤ t) :
    Spaced gap (times ++ [t]) := by
  refine List.pairwise_append.mpr ⟨h, List.pairwise_singleton _ t, ?_⟩
  intro a ha b hb
  rw [List.mem_singleton.mp hb]
  rcases List.eq_nil_or_concat times with rfl | ⟨front, l, rfl⟩
  · cases ha
  · rw [List.concat_eq_append] at h ha hlast
    have hl := hlast l List.getLast?_concat
    rcases List.mem_append.mp ha with hfront | hend
    · have hal := (List.pairwise_append.mp h).2.2 a hfront l List.mem_cons_self
      omega
    · rw [List.mem_singleton.mp hend]
      exact hl

/-- The moments of a stretch take up their distances. -/
theorem length_mul_le (h : Spaced gap times) {a w : ℕ} (ha : ∀ t ∈ times, a ≤ t)
    (hlen : ∀ t ∈ times, t < a + w) : times.length * gap < w + gap ∨ times = [] := by
  induction times generalizing a w with
  | nil => exact Or.inr rfl
  | cons t times ih =>
    obtain ⟨hhead, htail⟩ := List.pairwise_cons.mp h
    have hat := ha t List.mem_cons_self
    have htl := hlen t List.mem_cons_self
    have hmul : (t :: times).length * gap = times.length * gap + gap := by
      rw [List.length_cons]
      ring
    refine Or.inl ?_
    rw [hmul]
    -- what is left of the stretch starts a distance after `t`
    rcases Nat.lt_or_ge (a + w) (t + gap) with hend | hend
    · rcases times with _ | ⟨s, times⟩
      · rw [List.length_nil]
        omega
      · have hs := hhead s List.mem_cons_self
        have hsl := hlen s (List.mem_cons_of_mem t List.mem_cons_self)
        omega
    · have hrest := ih htail (a := t + gap) (w := a + w - (t + gap)) hhead fun s hs => by
        have hsl := hlen s (List.mem_cons_of_mem t hs)
        omega
      rcases hrest with hrest | rfl
      · omega
      · rw [List.length_nil]
        omega

/-- So many moments there are in a stretch of time, at most. -/
theorem length_window_le (h : Spaced gap times) (hgap : 0 < gap) (a len : ℕ) :
    (times.filter fun t => decide (a ≤ t) && decide (t < a + len)).length ≤
      len ⌈/⌉ gap := by
  have hwindow : ∀ t ∈ times.filter fun t => decide (a ≤ t) && decide (t < a + len),
      a ≤ t ∧ t < a + len := by
    intro t ht
    simpa using (List.mem_filter.mp ht).2
  generalize hn : len ⌈/⌉ gap = n
  have hlen : len ≤ gap * n := (ceilDiv_le_iff_le_mul hgap).mp hn.le
  rcases length_mul_le (h.filter _) (fun t ht => (hwindow t ht).1) fun t ht => (hwindow t ht).2 with
    hlt | hnil
  · have hbound : (times.filter fun t => decide (a ≤ t) && decide (t < a + len)).length * gap <
        (n + 1) * gap := by
      calc _ < len + gap := hlt
        _ ≤ gap * n + gap := Nat.add_le_add_right hlen gap
        _ = (n + 1) * gap := by ring
    exact Nat.lt_succ_iff.mp (Nat.lt_of_mul_lt_mul_right hbound)
  · rw [hnil]
    exact Nat.zero_le n

end Spaced
