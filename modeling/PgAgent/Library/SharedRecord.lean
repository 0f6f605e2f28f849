import Mathlib.Logic.Function.Basic
import PgAgent.Library.Trace

/-!
# A record that is read, changed and written back

Several callers change one record.  A call reads the record, computes a new one from
what it read, and writes that one back; nothing looks at the write whether the record is
still the one that was read.  Between a call's read and its write any number of other
calls may come and go.

* `written_of_step` --- a record changes only by a write, and to what that write holds;
* `absorbed_iff` --- a feature of the record is final along a run exactly when no single
  write on a final record changes it.
-/

namespace SharedRecord

variable {ι κ ρ τ α : Type*}

/-- What the calls do: which of them end with their read, and what the others write. -/
structure Rules (κ ρ τ : Type*) where
  stops : κ → ρ → Bool
  write : κ → ρ → τ → ρ

/-- The record, and the calls that have read it and not written yet, with what they
read. -/
structure State (ι κ ρ : Type*) where
  record : ρ
  held : ι → Option (κ × ρ)

/-- A call reads, writes at some time, or ends without writing. -/
inductive Event (ι κ τ : Type*) where
  | reads (caller : ι) (call : κ)
  | writes (caller : ι) (time : τ)
  | drops (caller : ι)
  deriving DecidableEq, Repr

/-- The record, with no call under way. -/
def State.quiet (record : ρ) : State ι κ ρ := ⟨record, fun _ => none⟩

variable [DecidableEq ι]

/-- One event.  A caller makes one call at a time. -/
def step (rules : Rules κ ρ τ) (s : State ι κ ρ) : Event ι κ τ → State ι κ ρ
  | .reads caller call =>
      match s.held caller with
      | some _ => s
      | none =>
          if rules.stops call s.record then s
          else { s with held := Function.update s.held caller (some (call, s.record)) }
  | .writes caller time =>
      match s.held caller with
      | some (call, seen) => ⟨rules.write call seen time, Function.update s.held caller none⟩
      | none => s
  | .drops caller => { s with held := Function.update s.held caller none }

/-- What an event writes. -/
def written (rules : Rules κ ρ τ) (s : State ι κ ρ) : Event ι κ τ → Option ρ
  | .writes caller time => (s.held caller).map fun h => rules.write h.1 h.2 time
  | _ => none

variable {rules : Rules κ ρ τ} {s : State ι κ ρ} {e : Event ι κ τ}

theorem written_of_step (rules : Rules κ ρ τ) (s : State ι κ ρ) (e : Event ι κ τ) :
    (step rules s e).record = (written rules s e).getD s.record := by
  cases e with
  | reads caller call =>
    show (match s.held caller with | some _ => s | none => _).record = s.record
    split
    · rfl
    · split <;> rfl
  | writes caller time =>
    cases h : s.held caller with
    | none => simp [step, written, h]
    | some held => simp [step, written, h]
  | drops caller => rfl

theorem held_of_update {held : ι → Option (κ × ρ)} {caller c : ι} {x : Option (κ × ρ)}
    {h : κ × ρ} (hupdate : Function.update held c x caller = some h) :
    (caller = c ∧ x = some h) ∨ held caller = some h := by
  by_cases hc : caller = c
  · subst hc
    rw [Function.update_self] at hupdate
    exact Or.inl ⟨rfl, hupdate⟩
  · rw [Function.update_of_ne hc] at hupdate
    exact Or.inr hupdate

/-- A call comes to hold something only by reading it. -/
theorem held_of_step {caller : ι} {call : κ} {seen : ρ}
    (h : (step rules s e).held caller = some (call, seen)) :
    s.held caller = some (call, seen) ∨
      (e = .reads caller call ∧ seen = s.record ∧ rules.stops call s.record = false) := by
  cases e with
  | reads c k =>
    simp only [step] at h
    split at h
    · exact Or.inl h
    · split at h
      · exact Or.inl h
      · rename_i hstops
        rcases held_of_update h with ⟨rfl, hread⟩ | hbefore
        · obtain ⟨rfl, rfl⟩ := Prod.mk.inj (Option.some.inj hread)
          exact Or.inr ⟨rfl, rfl, by simpa using hstops⟩
        · exact Or.inl hbefore
  | writes c t =>
    simp only [step] at h
    split at h
    · rcases held_of_update h with ⟨-, hnone⟩ | hbefore
      · cases hnone
      · exact Or.inl hbefore
    · exact Or.inl h
  | drops c =>
    rcases held_of_update h with ⟨-, hnone⟩ | hbefore
    · cases hnone
    · exact Or.inl hbefore

/-! ## Runs -/

variable {record : ρ} {u : ℕ → Event ι κ τ}

/-- The state before event `k`, in the run from a record no call has read yet. -/
def stateAt (rules : Rules κ ρ τ) (record : ρ) (u : ℕ → Event ι κ τ) (k : ℕ) :
    State ι κ ρ :=
  Trace.stateAt (step rules) (State.quiet record) u k

theorem stateAt_succ (k : ℕ) :
    stateAt rules record u (k + 1) = step rules (stateAt rules record u k) (u k) := rfl

/-- What is final along a run: a feature `f` of the record, once it is in `T`, stays **exactly
when no write onto a record with `f` in `T` changes it**. -/
theorem absorbed_iff (f : ρ → α) (T : α → Prop) :
    (∀ j k, j ≤ k → T (f (stateAt rules record u j).record) →
        f (stateAt rules record u k).record = f (stateAt rules record u j).record) ↔
      ∀ k r, written rules (stateAt rules record u k) (u k) = some r →
        T (f (stateAt rules record u k).record) → f r = f (stateAt rules record u k).record := by
  constructor
  · intro h k r hr hT
    have hnext := h k (k + 1) (Nat.le_succ k) hT
    rw [stateAt_succ, written_of_step, hr] at hnext
    exact hnext
  · intro h j k hjk hT
    induction k, hjk using Nat.le_induction with
    | base => rfl
    | succ k hjk ih =>
      rw [stateAt_succ, written_of_step]
      cases hr : written rules (stateAt rules record u k) (u k) with
      | none => exact ih
      | some r =>
        have hkept := h k r hr (by rw [ih]; exact hT)
        exact hkept.trans ih

end SharedRecord
