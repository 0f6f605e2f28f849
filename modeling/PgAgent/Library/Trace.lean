import Mathlib.Data.Nat.Init

/-!
# Runs of a transition function

A component that reads one input after another is a function `step : σ → ι → σ`.
An input sequence `u : ℕ → ι` then determines the state before every input, and
that sequence of states is what the word *run* means here.  Infinite input
sequences lose nothing: a statement about input `k` reads the inputs up to `k`
only.

* `eq_of_frame` --- a field that no step of an interval writes is carried across it;
* `exists_break` --- what holds at one position and not at a later one stops at some
  position between them;
* `exists_of_rank` --- what falls again and again comes to its end;
* `forall_stateAt_iff` --- what a step keeps exactly under a condition holds all along a run exactly
  if every step meets the condition;
* `Reachable.invariant` --- where a step can be refused, what every possible step keeps
  holds in every reachable state;
* `replay_append` --- where every input has an output, replaying a concatenation is
  replaying its parts one after the other.
-/

namespace Trace

variable {σ ι α : Type*}

/-- The state before input `k`, in the run from `s₀` on the inputs `u`. -/
def stateAt (step : σ → ι → σ) (s₀ : σ) (u : ℕ → ι) : ℕ → σ
  | 0 => s₀
  | k + 1 => step (stateAt step s₀ u k) (u k)

variable {step : σ → ι → σ} {s₀ : σ} {u : ℕ → ι}

@[simp] theorem stateAt_zero : stateAt step s₀ u 0 = s₀ := rfl

theorem stateAt_succ (k : ℕ) :
    stateAt step s₀ u (k + 1) = step (stateAt step s₀ u k) (u k) := rfl

/-! ## Remembering -/

/-- A field that no step from `j` up to `k` writes has at `k` the value it had
at `j`. -/
theorem eq_of_frame {g : σ → α} {j k : ℕ} (hjk : j ≤ k)
    (hframe : ∀ i, j ≤ i → i < k →
      g (stateAt step s₀ u (i + 1)) = g (stateAt step s₀ u i)) :
    g (stateAt step s₀ u k) = g (stateAt step s₀ u j) := by
  induction k, hjk using Nat.le_induction with
  | base => rfl
  | succ k hjk ih =>
    rw [hframe k hjk (Nat.lt_succ_self k)]
    exact ih fun i hi hik => hframe i hi (Nat.lt_succ_of_lt hik)

/-- What holds at `i` and no longer at `k` holds without a gap up to some position `j`
between them and stops with the step at `j`. -/
theorem exists_break {P : ℕ → Prop} {i k : ℕ} (hik : i ≤ k) (hi : P i) (hk : ¬ P k) :
    ∃ j, i ≤ j ∧ j < k ∧ (∀ n, i ≤ n → n ≤ j → P n) ∧ ¬ P (j + 1) := by
  refine Classical.byContradiction fun hcon => ?_
  have hall : ∀ n, i ≤ n → n ≤ k → ∀ m, i ≤ m → m ≤ n → P m := by
    intro n hin
    induction n, hin using Nat.le_induction with
    | base =>
      intro _ m him hmi
      rwa [Nat.le_antisymm hmi him]
    | succ n hin ih =>
      intro hnk m him hmn
      have hbelow := ih (by omega)
      rcases Nat.lt_or_ge n m with hnm | hmn'
      · rw [show m = n + 1 by omega]
        refine Classical.byContradiction fun hstop => ?_
        exact hcon ⟨n, hin, by omega, hbelow, hstop⟩
      · exact hbelow m him hmn'
  exact hk (hall k hik (Nat.le_refl k) k hik (Nat.le_refl k))

/-- A run that is at rank `n` keeps its rank with every step, and loses some of it with those that
occur again and again, unless it gets to its end with the step.  Then it gets there. -/
theorem exists_of_rank {P : ℕ → ℕ → Prop} {Q A : ℕ → Prop}
    (hkeeps : ∀ m n, P m n → P (m + 1) n ∨ Q (m + 1))
    (hfalls : ∀ m n, P m n → A m → (∃ n', n' < n ∧ P (m + 1) n') ∨ Q (m + 1))
    (hagain : ∀ m n, P m n → ∃ m', m ≤ m' ∧ A m') {k n : ℕ} (h : P k n) :
    ∃ m, k ≤ m ∧ Q m := by
  induction n using Nat.strongRecOn generalizing k with
  | ind n ih =>
    have hup : ∀ m, k ≤ m → P m n ∨ ∃ l, k ≤ l ∧ Q l := by
      intro m hkm
      induction m, hkm using Nat.le_induction with
      | base => exact Or.inl h
      | succ m hkm ihm =>
        rcases ihm with hm | hend
        · rcases hkeeps m n hm with hnext | hend
          · exact Or.inl hnext
          · exact Or.inr ⟨m + 1, by omega, hend⟩
        · exact Or.inr hend
    obtain ⟨m, hkm, hoccurs⟩ := hagain k n h
    rcases hup m hkm with hm | hend
    · rcases hfalls m n hm hoccurs with ⟨n', hn', hnext⟩ | hend
      · obtain ⟨l, hl, hend⟩ := ih n' hn' hnext
        exact ⟨l, by omega, hend⟩
      · exact ⟨m + 1, by omega, hend⟩
    · exact hend

/-- An invariant that a step keeps exactly if it meets a condition holds all along a run exactly if
every step of the run meets the condition. -/
theorem forall_stateAt_iff {P : σ → Prop} {Q : σ → ι → Prop} (h₀ : P s₀)
    (hstep : ∀ s i, P s → (P (step s i) ↔ Q s i)) :
    (∀ k, P (stateAt step s₀ u k)) ↔ ∀ k, Q (stateAt step s₀ u k) (u k) := by
  constructor
  · intro hall k
    exact (hstep _ (u k) (hall k)).mp (hall (k + 1))
  · intro hall k
    induction k with
    | zero => exact h₀
    | succ k ih => exact (hstep _ (u k) ih).mpr (hall k)

/-! ## Steps that can be refused

Where several parties act on one state, an input names the party and what it does, and
not every input is possible in every state: the step function is partial. -/

/-- The states reached from an initial one by possible steps. -/
inductive Reachable (init : σ → Prop) (step : σ → ι → Option σ) : σ → Prop
  | init {s : σ} (h : init s) : Reachable init step s
  | step {s s' : σ} (i : ι) (hs : Reachable init step s) (h : step s i = some s') :
      Reachable init step s'

/-- What holds initially and is kept by every possible step holds in every reachable
state. -/
theorem Reachable.invariant {init : σ → Prop} {step : σ → ι → Option σ} {P : σ → Prop}
    (h₀ : ∀ s, init s → P s) (hstep : ∀ s i s', P s → step s i = some s' → P s')
    {s : σ} (h : Reachable init step s) : P s := by
  induction h with
  | init h => exact h₀ _ h
  | step i _ h ih => exact hstep _ i _ ih h

/-- The state after a list of inputs, if all of them are possible. -/
def run (step : σ → ι → Option σ) (s : σ) : List ι → Option σ
  | [] => some s
  | i :: is => (step s i).bind fun s' => run step s' is

theorem Reachable.run {init : σ → Prop} {step : σ → ι → Option σ}
    {s s' : σ} {is : List ι} (hs : Reachable init step s) (h : Trace.run step s is = some s') :
    Reachable init step s' := by
  induction is generalizing s with
  | nil => exact Option.some.inj h ▸ hs
  | cons i is ih =>
    obtain ⟨t, ht, hrest⟩ := Option.bind_eq_some_iff.mp h
    exact ih (hs.step i ht) hrest

/-! ## Steps with an output -/

variable {ο : Type*}

/-- The state after a list of inputs, and the output of each of them. -/
def replay (step : σ → ι → σ × ο) (s : σ) : List ι → σ × List ο
  | [] => (s, [])
  | i :: is =>
      let next := step s i
      let rest := replay step next.1 is
      (rest.1, next.2 :: rest.2)

theorem replay_append (step : σ → ι → σ × ο) (s : σ) (is js : List ι) :
    replay step s (is ++ js) =
      ((replay step (replay step s is).1 js).1,
        (replay step s is).2 ++ (replay step (replay step s is).1 js).2) := by
  induction is generalizing s with
  | nil => rfl
  | cons i is ih =>
    rw [List.cons_append, replay, ih]
    rfl

end Trace
