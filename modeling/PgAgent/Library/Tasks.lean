import Mathlib.Logic.Function.Basic
import PgAgent.Library.Trace

/-!
# Tasks on one world

Several tasks work on one world.  Each makes one call after another, and between two calls of one
task the others make theirs; a task is started by a request, may be dropped at any time, and all
of them are gone when the process dies.  The world also changes by what is no task.

What a task may rely on is a predicate `J` of the world and the task.  It holds along a run if a
task keeps its own by its calls and starts with it, and if nobody takes away another one's.

`forall_task_step` and `forall_task_stateAt` are the rule for one event, and for a run.
-/

namespace Tasks

variable {σ π ι ρ η : Type*}

/-- A call changes the world and tells where the task goes, if it goes on; a request tells where a
task starts, if it is not refused; and something else may change the world. -/
structure Program (σ π ι ρ η : Type*) where
  act : σ → π → ι → σ × Option π
  start : σ → ρ → Option π
  change : σ → η → σ

structure State (σ π : Type*) where
  world : σ
  tasks : ℕ → Option π

inductive Event (ι ρ η : Type*) where
  | starts (i : ℕ) (request : ρ)
  | acts (i : ℕ) (input : ι)
  | leaves (i : ℕ)
  | dies
  | changes (e : η)

/-- One event.  A task is started at a free place. -/
def step (P : Program σ π ι ρ η) (s : State σ π) : Event ι ρ η → State σ π
  | .starts i request =>
      match s.tasks i with
      | some _ => s
      | none => { s with tasks := Function.update s.tasks i (P.start s.world request) }
  | .acts i input =>
      match s.tasks i with
      | some task =>
          ⟨(P.act s.world task input).1,
            Function.update s.tasks i (P.act s.world task input).2⟩
      | none => s
  | .leaves i => { s with tasks := Function.update s.tasks i none }
  | .dies => { s with tasks := fun _ => none }
  | .changes e => { s with world := P.change s.world e }

/-- No task is under way. -/
def State.idle (w : σ) : State σ π := ⟨w, fun _ => none⟩

/-- The state before event `k`. -/
def stateAt (P : Program σ π ι ρ η) (s₀ : State σ π) (u : ℕ → Event ι ρ η)
    (k : ℕ) : State σ π :=
  Trace.stateAt (step P) s₀ u k

/-- What a task makes of the world on its own, in at most `n` calls that all meet the same. -/
def alone (P : Program σ π ι ρ η) : ℕ → σ → π → ι → σ × Option π
  | 0, w, task, _ => (w, some task)
  | n + 1, w, task, input =>
      match P.act w task input with
      | (w', some task') => alone P n w' task' input
      | (w', none) => (w', none)

variable {P : Program σ π ι ρ η} {s : State σ π} {e : Event ι ρ η}

/-- The tasks after a change at one place. -/
theorem update_eq_some {tasks : ℕ → Option π} {next : Option π} {i j : ℕ} {other : π}
    (h : Function.update tasks i next j = some other) :
    j = i ∧ next = some other ∨ j ≠ i ∧ tasks j = some other := by
  by_cases hj : j = i
  · rw [hj, Function.update_self] at h
    exact Or.inl ⟨hj, h⟩
  · rw [Function.update_of_ne hj] at h
    exact Or.inr ⟨hj, h⟩

/-- What every task has. -/
def ForallTask (J : σ → π → Prop) (s : State σ π) : Prop :=
  ∀ i task, s.tasks i = some task → J s.world task

/-- What an event has to leave to the tasks: a new task has what it needs, a task that acts keeps
its own, and neither it nor a change of the world takes away another one's. -/
structure Keeps (P : Program σ π ι ρ η) (J : σ → π → Prop) (s : State σ π)
    (e : Event ι ρ η) :
    Prop where
  starts : ∀ i request task, e = .starts i request → P.start s.world request = some task →
    J s.world task
  acts : ∀ i input task task', e = .acts i input → s.tasks i = some task → J s.world task →
    (P.act s.world task input).2 = some task' → J (P.act s.world task input).1 task'
  others : ∀ i input task j other, e = .acts i input → s.tasks i = some task → j ≠ i →
    s.tasks j = some other → J s.world task → J s.world other →
      J (P.act s.world task input).1 other
  changes : ∀ change j other, e = .changes change → s.tasks j = some other →
    J s.world other →
    J (P.change s.world change) other

theorem forall_task_step {J : σ → π → Prop} (hkeeps : Keeps P J s e) (h : ForallTask J s) :
    ForallTask J (step P s e) := by
  intro j other hother
  cases e with
  | starts i request =>
    simp only [step] at hother ⊢
    cases hfree : s.tasks i with
    | some task =>
      rw [hfree] at hother
      exact h j other hother
    | none =>
      simp only [hfree] at hother ⊢
      rcases update_eq_some hother with ⟨-, hstart⟩ | ⟨-, hold⟩
      · exact hkeeps.starts i request other rfl hstart
      · exact h j other hold
  | acts i input =>
    simp only [step] at hother ⊢
    cases htask : s.tasks i with
    | none =>
      simp only [htask] at hother ⊢
      exact h j other hother
    | some task =>
      simp only [htask] at hother ⊢
      rcases update_eq_some hother with ⟨-, hnext⟩ | ⟨hj, hold⟩
      · exact hkeeps.acts i input task other rfl htask (h i task htask) hnext
      · exact hkeeps.others i input task j other rfl htask hj hold (h i task htask)
          (h j other hold)
  | leaves i =>
    simp only [step] at hother ⊢
    rcases update_eq_some hother with ⟨-, hnone⟩ | ⟨-, hold⟩
    · cases hnone
    · exact h j other hold
  | dies => cases hother
  | changes change => exact hkeeps.changes change j other rfl hother (h j other hother)

/-- What every event leaves to the tasks they have along the run. -/
theorem forall_task_stateAt {J : σ → π → Prop} {u : ℕ → Event ι ρ η}
    (h : ForallTask J s)
    (hkeeps : ∀ k, ForallTask J (stateAt P s u k) → Keeps P J (stateAt P s u k) (u k))
    (k : ℕ) :
    ForallTask J (stateAt P s u k) := by
  induction k with
  | zero => exact h
  | succ k ih => exact forall_task_step (hkeeps k ih) ih

theorem forall_task_idle (J : σ → π → Prop) (w : σ) : ForallTask J (State.idle w) := by
  intro i task htask
  cases htask

end Tasks
