import Mathlib.Data.Nat.Init
import Mathlib.Tactic.Common
import PgAgent.Library.Trace

/-!
# Programs that are resumed after a crash

A driver carries out a program on a world, one call after another.  The process may die
between any two calls; the driver is gone then and the world is as the calls have left it.
A later request looks at the world and starts a new driver, or refuses.

* `holds_stateAt` --- what the calls, the deaths and the resumptions keep holds along every
  run;
* `endsIn_of_rank` --- a driver whose calls keep an invariant and lower a rank comes to an
  end, in a world the last call leaves;
* `atMostOne_iff` --- where requests do not wait for the driver to be gone: there is never
  more than one driver exactly when none is started while there is one.
-/

namespace Resumable

variable {σ π ι ρ : Type*}

/-- A call changes the world and tells where the driver goes, if it goes on; a request tells
where a new driver starts, if it is not refused. -/
structure Program (σ π ι ρ : Type*) where
  act : σ → π → ι → σ × Option π
  resume : σ → ρ → Option π

/-! ## One driver at a time -/

structure State (σ π : Type*) where
  world : σ
  driver : Option π

inductive Event (ι ρ : Type*) where
  | acts (input : ι)
  | dies
  | resumes (request : ρ)
  deriving DecidableEq, Repr

/-- One event.  A request is made when the driver is gone. -/
def step (P : Program σ π ι ρ) (s : State σ π) : Event ι ρ → State σ π
  | .acts input =>
      match s.driver with
      | some pos => ⟨(P.act s.world pos input).1, (P.act s.world pos input).2⟩
      | none => s
  | .dies => { s with driver := none }
  | .resumes request =>
      match s.driver with
      | some _ => s
      | none => { s with driver := P.resume s.world request }

/-- The state before event `k`. -/
def stateAt (P : Program σ π ι ρ) (s₀ : State σ π) (u : ℕ → Event ι ρ) (k : ℕ) :
    State σ π :=
  Trace.stateAt (step P) s₀ u k

/-- What holds of a state: something of the world and the driver's position, or something of
the world alone when the driver is gone. -/
def Holds (alive : σ → π → Prop) (dead : σ → Prop) (s : State σ π) : Prop :=
  match s.driver with
  | some pos => alive s.world pos
  | none => dead s.world

/-- The event is no death at a position where the program must not die. -/
def Spares (mayDie : σ → π → Prop) (s : State σ π) : Event ι ρ → Prop
  | .dies => ∀ pos, s.driver = some pos → mayDie s.world pos
  | _ => True

/-- What the calls, the deaths and the resumptions have to keep. -/
structure Keeps (P : Program σ π ι ρ) (alive : σ → π → Prop) (dead : σ → Prop)
    (mayDie : σ → π → Prop) : Prop where
  acts : ∀ w pos input, alive w pos →
    Holds alive dead ⟨(P.act w pos input).1, (P.act w pos input).2⟩
  dies : ∀ w pos, alive w pos → mayDie w pos → dead w
  resumes : ∀ w request, dead w → Holds alive dead ⟨w, P.resume w request⟩

variable {P : Program σ π ι ρ} {alive : σ → π → Prop} {dead : σ → Prop}
  {mayDie : σ → π → Prop} {s : State σ π}

theorem holds_step (hP : Keeps P alive dead mayDie) (h : Holds alive dead s) {e : Event ι ρ}
    (he : Spares mayDie s e) : Holds alive dead (step P s e) := by
  obtain ⟨w, driver⟩ := s
  cases e with
  | acts input =>
    cases driver with
    | none => exact h
    | some pos => exact hP.acts w pos input h
  | dies =>
    cases driver with
    | none => exact h
    | some pos => exact hP.dies w pos h (he pos rfl)
  | resumes request =>
    cases driver with
    | none => exact hP.resumes w request h
    | some pos => exact h

/-- What the events keep holds in every state of a run. -/
theorem holds_stateAt (hP : Keeps P alive dead mayDie) (h : Holds alive dead s)
    {u : ℕ → Event ι ρ} (hu : ∀ k, Spares mayDie (stateAt P s u k) (u k)) (k : ℕ) :
    Holds alive dead (stateAt P s u k) := by
  induction k with
  | zero => exact h
  | succ k ih => exact holds_step hP ih (hu k)

/-! ## A driver left alone -/

/-- The driver's next `n` calls, with nothing in between. -/
def drive (P : Program σ π ι ρ) : ℕ → σ → π → (ℕ → ι) → σ × Option π
  | 0, w, pos, _ => (w, some pos)
  | n + 1, w, pos, inputs =>
      match P.act w pos (inputs 0) with
      | (w', some pos') => drive P n w' pos' fun k => inputs (k + 1)
      | (w', none) => (w', none)

/-- Whatever the inputs, the driver comes to an end, in a world that has `Q`. -/
def EndsIn (P : Program σ π ι ρ) (w : σ) (pos : π) (Q : σ → Prop) : Prop :=
  ∀ inputs, ∃ n w', drive P n w pos inputs = (w', none) ∧ Q w'

theorem EndsIn.mono {Q Q' : σ → Prop} {w : σ} {pos : π} (h : EndsIn P w pos Q)
    (hQ : ∀ w, Q w → Q' w) : EndsIn P w pos Q' := by
  intro inputs
  obtain ⟨n, w', hdrive, hw'⟩ := h inputs
  exact ⟨n, w', hdrive, hQ w' hw'⟩

/-- A rank that every call lowers brings a driver to its end. -/
theorem endsIn_of_rank {Q : σ → Prop} (inv : σ → π → Prop) (rank : π → ℕ)
    (hgoes : ∀ w pos input w' pos', inv w pos → P.act w pos input = (w', some pos') →
      inv w' pos' ∧ rank pos' < rank pos)
    (hends : ∀ w pos input w', inv w pos → P.act w pos input = (w', none) → Q w')
    {w : σ} {pos : π} (h : inv w pos) : EndsIn P w pos Q := by
  intro inputs
  induction hr : rank pos using Nat.strong_induction_on generalizing w pos inputs with
  | _ r ih =>
    rcases hact : P.act w pos (inputs 0) with ⟨w', _ | pos'⟩
    · refine ⟨1, w', ?_, hends w pos _ w' h hact⟩
      simp only [drive, hact]
    · obtain ⟨hinv, hlt⟩ := hgoes w pos _ w' pos' h hact
      obtain ⟨n, w'', hdrive, hQ⟩ :=
        ih (rank pos') (hr ▸ hlt) hinv (fun k => inputs (k + 1)) rfl
      refine ⟨n + 1, w'', ?_, hQ⟩
      simp only [drive, hact]
      exact hdrive

/-- The program with a log: the world before each call, the position and the input, the last call
first. -/
def logged (P : Program σ π ι ρ) : Program (σ × List (σ × π × ι)) π ι ρ where
  act w pos input := (((P.act w.1 pos input).1, (w.1, pos, input) :: w.2), (P.act w.1 pos input).2)
  resume w request := P.resume w.1 request

/-- Where a driver ends is fixed by its inputs, so two descriptions of its end meet. -/
theorem drive_of_none {n : ℕ} {w w' : σ} {pos : π} {inputs : ℕ → ι}
    (h : drive P n w pos inputs = (w', none)) (m : ℕ) :
    drive P (n + m) w pos inputs = (w', none) := by
  induction n generalizing w pos inputs with
  | zero => cases h
  | succ n ih =>
    rw [Nat.succ_add]
    simp only [drive] at h ⊢
    rcases hact : P.act w pos (inputs 0) with ⟨w₁, _ | pos₁⟩
    · rw [hact] at h
      exact h
    · rw [hact] at h
      exact ih h

theorem drive_unique {n m : ℕ} {w w₁ w₂ : σ} {pos : π} {inputs : ℕ → ι}
    (h₁ : drive P n w pos inputs = (w₁, none)) (h₂ : drive P m w pos inputs = (w₂, none)) :
    w₁ = w₂ := by
  have h₁' := drive_of_none h₁ m
  have h₂' := drive_of_none h₂ n
  rw [Nat.add_comm, h₁'] at h₂'
  exact (Prod.mk.inj h₂').1

theorem not_endsIn {Q : σ → Prop} [Nonempty ι] {w : σ} {pos : π}
    (h : EndsIn P w pos fun w' => ¬ Q w') : ¬ EndsIn P w pos Q := by
  intro hQ
  obtain ⟨i⟩ := ‹Nonempty ι›
  obtain ⟨n, w', hn, hnot⟩ := h fun _ => i
  obtain ⟨m, w'', hm, hyes⟩ := hQ fun _ => i
  obtain rfl := drive_unique hn hm
  exact hnot hyes

/-! ## Requests that do not wait -/

/-- The world and all tasks under way: drivers, and requests that are still being looked at. -/
structure Crew (σ π : Type*) where
  world : σ
  tasks : List π

/-- A call of one of the tasks, the end of one of them or of the process, a request at any time,
or a change of the world by something else. -/
inductive CrewEvent (σ ι ρ : Type*) where
  | acts (i : ℕ) (input : ι)
  | leaves (i : ℕ)
  | dies
  | resumes (request : ρ)
  | elapses (world : σ)

/-- One event among several tasks. -/
def crewStep (P : Program σ π ι ρ) (s : Crew σ π) : CrewEvent σ ι ρ → Crew σ π
  | .acts i input =>
      match s.tasks[i]? with
      | none => s
      | some pos =>
          match P.act s.world pos input with
          | (world, some pos') => ⟨world, s.tasks.set i pos'⟩
          | (world, none) => ⟨world, s.tasks.eraseIdx i⟩
  | .leaves i => { s with tasks := s.tasks.eraseIdx i }
  | .dies => { s with tasks := [] }
  | .resumes request =>
      match P.resume s.world request with
      | some pos => { s with tasks := s.tasks ++ [pos] }
      | none => s
  | .elapses world => { s with world := world }

/-- The state before event `k`. -/
def crewAt (P : Program σ π ι ρ) (s₀ : Crew σ π) (u : ℕ → CrewEvent σ ι ρ)
    (k : ℕ) : Crew σ π :=
  Trace.stateAt (crewStep P) s₀ u k

/-- At most one task is a driver. -/
def AtMostOne (drives : π → Bool) (s : Crew σ π) : Prop :=
  s.tasks.countP drives ≤ 1

/-- The event makes a driver of a task that was none. -/
def Starts (P : Program σ π ι ρ) (drives : π → Bool) (s : Crew σ π) :
    CrewEvent σ ι ρ → Prop
  | .acts i input =>
      ∃ pos pos', s.tasks[i]? = some pos ∧ drives pos = false ∧
        (P.act s.world pos input).2 = some pos' ∧ drives pos' = true
  | .resumes request => ∃ pos, P.resume s.world request = some pos ∧ drives pos = true
  | _ => False

/-- No driver is started while there is one. -/
def Waits (P : Program σ π ι ρ) (drives : π → Bool) (s : Crew σ π)
    (e : CrewEvent σ ι ρ) : Prop :=
  Starts P drives s e → ∀ pos ∈ s.tasks, drives pos = false

variable {drives : π → Bool} {c : Crew σ π}

/-- A task that is replaced by another. -/
theorem countP_set_task (drives : π → Bool) {tasks : List π} {i : ℕ} {pos : π}
    (hpos : tasks[i]? = some pos) (pos' : π) :
    (tasks.set i pos').countP drives + (if drives pos then 1 else 0) =
      tasks.countP drives + if drives pos' then 1 else 0 := by
  obtain ⟨hi, hget⟩ := List.getElem?_eq_some_iff.mp hpos
  have hset := List.countP_set (p := drives) (a := pos') hi
  rw [hget] at hset
  rw [hset]
  cases hdrives : drives pos with
  | false => rfl
  | true =>
    have hone : 0 < tasks.countP drives :=
      List.countP_pos_iff.mpr ⟨pos, hget ▸ List.getElem_mem hi, hdrives⟩
    simp only [if_true]
    omega

/-- What an event does to the number of drivers. -/
theorem countP_crewStep (P : Program σ π ι ρ) (drives : π → Bool) (c : Crew σ π)
    (e : CrewEvent σ ι ρ) :
    (Starts P drives c e ∧
        (crewStep P c e).tasks.countP drives = c.tasks.countP drives + 1) ∨
      (¬ Starts P drives c e ∧
        (crewStep P c e).tasks.countP drives ≤ c.tasks.countP drives) := by
  have hleaves : ∀ i, (c.tasks.eraseIdx i).countP drives ≤ c.tasks.countP drives := fun i =>
    (List.eraseIdx_sublist c.tasks i).countP_le
  cases e with
  | acts i input =>
    simp only [crewStep, Starts]
    cases hpos : c.tasks[i]? with
    | none => simp
    | some pos =>
      simp only [Option.some.injEq, exists_and_left, exists_eq_left']
      rcases hact : P.act c.world pos input with ⟨w, _ | pos'⟩
      · refine Or.inr ⟨?_, hleaves i⟩
        rintro ⟨-, pos', hgoes, -⟩
        cases hgoes
      · have hset := countP_set_task drives hpos pos'
        dsimp only
        cases hwas : drives pos with
        | false =>
          cases his : drives pos' <;> simp_all
        | true =>
          refine Or.inr ⟨fun hstarts => Bool.noConfusion hstarts.1, ?_⟩
          rw [hwas, if_pos rfl] at hset
          split at hset
          · exact Nat.le_of_eq (Nat.add_right_cancel hset)
          · exact Nat.le_trans (Nat.le_succ _) (Nat.le_of_eq hset)
  | leaves i => exact Or.inr ⟨id, hleaves i⟩
  | dies => exact Or.inr ⟨id, Nat.zero_le _⟩
  | elapses world => exact Or.inr ⟨id, Nat.le_refl _⟩
  | resumes request =>
    simp only [crewStep, Starts]
    cases hresume : P.resume c.world request with
    | none => simp
    | some pos =>
      simp only [List.countP_append, List.countP_singleton]
      cases hdrives : drives pos <;> simp [hdrives]

theorem atMostOne_crewStep (h : AtMostOne drives c) (e : CrewEvent σ ι ρ) :
    AtMostOne drives (crewStep P c e) ↔ Waits P drives c e := by
  have hnone : c.tasks.countP drives = 0 ↔ ∀ pos ∈ c.tasks, drives pos = false := by
    simp [List.countP_eq_zero]
  unfold AtMostOne at h ⊢
  unfold Waits
  rw [← hnone]
  rcases countP_crewStep P drives c e with ⟨hstarts, hcount⟩ | ⟨hnot, hle⟩
  · rw [hcount]
    constructor
    · intro hone _
      omega
    · intro hzero
      exact Nat.le_of_eq (by rw [hzero hstarts])
  · exact iff_of_true (Nat.le_trans hle h) fun hstarts => absurd hstarts hnot

/-- There is never more than one driver exactly when none is started while there is one. -/
theorem atMostOne_iff (h₀ : AtMostOne drives c) {u : ℕ → CrewEvent σ ι ρ} :
    (∀ k, AtMostOne drives (crewAt P c u k)) ↔ ∀ k, Waits P drives (crewAt P c u k) (u k) :=
  Trace.forall_stateAt_iff h₀ fun _ e h => atMostOne_crewStep h e

end Resumable
