import PgAgent.Library.SharedRecord
import PgAgent.Ops.Journal

/-!
# One journal entry under many calls

`update_phase`, `complete`, `abandon` and `discharge` read the entry's file, change what
they read, and write the file anew.  The task that drives an operation, the operator who
abandons it and a driver that resumes it do this side by side, so a write may come from a
read that is long out of date.  `update_phase` looks at its read whether the entry is
finished already; `complete` and `abandon` do not look at all.

A write is the moment at which a record is published, the rename over the entry's file.  All
calls on an entry share one temporary file, so the rename of one call can publish what another
has written there; that is then the write of the other call, and the first one drops.

`terminalAbsorbing_iff` says when a finished entry stays as it was finished.
-/

namespace PgAgent

open SharedRecord

/-- The calls of the store, as calls on a shared record. -/
def journalRules : Rules JournalCall InflightOp UtcNanos where
  stops call op := (call.stops op).isSome
  write := JournalCall.write

variable {ι : Type}

/-- The event does not undo a finish.  A phase or a discharge is written onto a finished
entry only by a call that has read it with that status; a completion is not written onto an
abandoned entry, and an abandonment not onto one that is done. -/
def RespectsFinish (s : State ι JournalCall InflightOp) : Event ι JournalCall UtcNanos → Prop
  | .writes caller _ =>
      match s.held caller with
      | some (.updatePhase _ _, seen) =>
          s.record.status.isTerminal = true → seen.status = s.record.status
      | some (.discharge, seen) =>
          s.record.status.isTerminal = true → seen.status = s.record.status
      | some (.complete, _) => s.record.status ≠ .abandoned
      | some (.abandon _, _) => s.record.status ≠ .done
      | none => True
  | _ => True

theorem respectsFinish_iff (s : State ι JournalCall InflightOp)
    (e : Event ι JournalCall UtcNanos) :
    RespectsFinish s e ↔ ∀ r, written journalRules s e = some r →
      s.record.status.isTerminal = true → r.status = s.record.status := by
  cases e with
  | reads caller call => simp [RespectsFinish, written]
  | drops caller => simp [RespectsFinish, written]
  | writes caller time =>
    cases hheld : s.held caller with
    | none => simp [RespectsFinish, written, hheld]
    | some held =>
      obtain ⟨call, seen⟩ := held
      have hwritten : written journalRules s (.writes caller time) =
          some (call.write seen time) := by
        rw [written, hheld]
        rfl
      simp only [RespectsFinish, hheld, hwritten, Option.some.injEq, forall_eq']
      cases call with
      | updatePhase phase lastError => exact Iff.rfl
      | discharge => exact Iff.rfl
      | complete =>
        cases s.record.status with
        | inProgress => simp [InflightStatus.isTerminal]
        | done => simp [JournalCall.write]
        | abandoned => simp [JournalCall.write, InflightStatus.isTerminal]
      | abandon reason =>
        cases s.record.status with
        | inProgress => simp [InflightStatus.isTerminal]
        | done => simp [JournalCall.write, InflightStatus.isTerminal]
        | abandoned => simp [JournalCall.write]

variable [DecidableEq ι]

/-- Along the run, an entry that is persisted as done or abandoned keeps that status. -/
def TerminalAbsorbing (op : InflightOp) (u : ℕ → Event ι JournalCall UtcNanos) : Prop :=
  ∀ j k, j ≤ k → (stateAt journalRules op u j).record.status.isTerminal = true →
    (stateAt journalRules op u k).record.status = (stateAt journalRules op u j).record.status

/-- Finished entries: **in a run they stay finished as they were exactly when every event
respects the finish**. -/
theorem terminalAbsorbing_iff (op : InflightOp) (u : ℕ → Event ι JournalCall UtcNanos) :
    TerminalAbsorbing op u ↔ ∀ k, RespectsFinish (stateAt journalRules op u k) (u k) := by
  unfold TerminalAbsorbing
  rw [absorbed_iff InflightOp.status fun status => status.isTerminal = true]
  exact forall_congr' fun k => (respectsFinish_iff _ _).symm

/-- A handoff that has just begun. -/
def begunHandoff : InflightOp where
  id := "0-handoff-0"
  status := .inProgress
  payload := .handoff 0 2 "db2" "node0" false
  phase := "preflight_done"
  startedAt := 0
  updatedAt := 0
  completedAt := none
  dischargedAt := none
  lastError := none

/-- The driver, caller `0`, is about to write its phase; meanwhile the operator, caller `1`,
abandons the entry. -/
def abandonedUnderway : ℕ → Event ℕ JournalCall UtcNanos
  | 0 => .reads 0 (.updatePhase "target_promoted" none)
  | 1 => .reads 1 (.abandon "operator-abandoned")
  | 2 => .writes 1 1
  | _ => .writes 0 2

/-- The abandoned entry is in progress again. -/
theorem abandonedUnderway_revived : ¬ TerminalAbsorbing begunHandoff abandonedUnderway := by
  intro h
  have hrevived := h 3 4 (by decide) rfl
  exact absurd hrevived (by decide)

end PgAgent
