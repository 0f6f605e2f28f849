import PgAgent.Ops.JournalStore

/-!
# Exclusive entries

A caller of `begin` may ask to be alone: with `exclusive = true` the gate refuses if any entry
is in progress.  The flag is the newcomer's.  It is not written into the entry, so an entry that
was begun alone does not stay alone: a newcomer that does not ask for it is let in beside it, and
the tests of the journal build such a directory.

The model keeps the flags, and the order of the beginnings, beside the journal.

* `Ordered.step` --- what one operation of the store does to the entries in progress;
* `exclusive_first` --- of two entries in progress the one begun later was not begun
  exclusively.
-/

namespace PgAgent

/-- How an entry was begun: as which one in the order of the beginnings, and with which flag. -/
structure Begun where
  order : ℕ
  exclusive : Bool
  deriving DecidableEq, Repr

/-- A journal, and how the entries of it were begun. -/
structure FlaggedJournal where
  journal : Journal
  begun : String → Option Begun
  count : ℕ

namespace FlaggedJournal

def empty : FlaggedJournal := ⟨Journal.empty, fun _ => none, 0⟩

/-- One operation of the store. -/
def step (retention : ℤ) (s : FlaggedJournal) (e : JournalStep) : FlaggedJournal :=
  let journal := s.journal.step retention e
  match e with
  | .begin payload phase exclusive now written =>
      match (s.journal.begin payload phase exclusive now written).2 with
      | .ok op =>
          { journal := journal
            begun := Function.update s.begun op.id (some ⟨s.count, exclusive⟩)
            count := s.count + 1 }
      | .error _ => { s with journal := journal }
  | _ => { s with journal := journal }

/-- The journal after some operations. -/
def after (retention : ℤ) (s : FlaggedJournal) (steps : List JournalStep) : FlaggedJournal :=
  steps.foldl (step retention) s

/-- Two entries in progress. -/
structure Together (s : FlaggedJournal) (a b : InflightOp) : Prop where
  left : a ∈ s.journal.ops
  right : b ∈ s.journal.ops
  ne : a.id ≠ b.id
  leftFlying : a.status = .inProgress
  rightFlying : b.status = .inProgress

/-- An entry that was begun exclusively is alone while it is in progress. -/
def Alone (s : FlaggedJournal) : Prop :=
  ∀ a b, s.Together a b → ∀ x, s.begun a.id = some x → x.exclusive = false

/-- Every entry in progress has been begun, and of two of them the one begun later not
exclusively. -/
structure Ordered (s : FlaggedJournal) : Prop where
  begun : ∀ o ∈ s.journal.ops, o.status = .inProgress →
    ∃ x, s.begun o.id = some x ∧ x.order < s.count
  later : ∀ a b, s.Together a b → ∀ x y, s.begun a.id = some x → s.begun b.id = some y →
    x.order ≠ y.order ∧ (x.order < y.order → y.exclusive = false)

/-! ## The operations of the store -/

variable {retention : ℤ} {s : FlaggedJournal}

theorem Together.symm {a b : InflightOp} (h : s.Together a b) : s.Together b a :=
  ⟨h.right, h.left, h.ne.symm, h.rightFlying, h.leftFlying⟩

/-- What begins no entry keeps the order: whatever is in progress after it was so before. -/
theorem Ordered.of_subset (h : Ordered s) {j : Journal}
    (hj : ∀ o ∈ j.ops, o.status = .inProgress →
      ∃ o' ∈ s.journal.ops, o'.id = o.id ∧ o'.status = .inProgress) :
    Ordered { s with journal := j } where
  begun o ho hflying := by
    obtain ⟨o', ho', hid, hflying'⟩ := hj o ho hflying
    rw [← hid]
    exact h.begun o' ho' hflying'
  later a b hab x y hx hy := by
    obtain ⟨a', ha', haid, haflying⟩ := hj a hab.left hab.leftFlying
    obtain ⟨b', hb', hbid, hbflying⟩ := hj b hab.right hab.rightFlying
    have hne : a'.id ≠ b'.id := by
      rw [haid, hbid]
      exact hab.ne
    have hx' : s.begun a'.id = some x := by
      rw [haid]
      exact hx
    have hy' : s.begun b'.id = some y := by
      rw [hbid]
      exact hy
    exact h.later a' b' ⟨ha', hb', hne, haflying, hbflying⟩ x y hx' hy'

/-- A new entry is the last one; if it is exclusive, it is the only one in progress. -/
theorem Ordered.of_begin (h : Ordered s) {op : InflightOp} {exclusive : Bool}
    (halone : exclusive = true → ∀ o ∈ s.journal.ops, o.status ≠ .inProgress) {j : Journal}
    (hj : j.ops = (s.journal.put op).ops) :
    Ordered ⟨j, Function.update s.begun op.id (some ⟨s.count, exclusive⟩),
      s.count + 1⟩ := by
  have hmem : ∀ o ∈ j.ops, o.id ≠ op.id → o ∈ s.journal.ops := by
    intro o ho hne
    rw [hj, Journal.mem_put] at ho
    rcases ho with ⟨hold, -⟩ | rfl
    · exact hold
    · exact absurd rfl hne
  have hold : ∀ o ∈ j.ops, o.id ≠ op.id →
      Function.update s.begun op.id (some ⟨s.count, exclusive⟩) o.id = s.begun o.id := by
    intro o _ hne
    exact Function.update_of_ne hne _ _
  -- an entry that was in progress before the new one leaves it no claim to be alone
  have hshared : ∀ o ∈ j.ops, o.id ≠ op.id → o.status = .inProgress →
      exclusive = false := by
    intro o ho hne hflying
    cases exclusive with
    | false => rfl
    | true => exact absurd hflying (halone rfl o (hmem o ho hne))
  constructor
  · intro o ho hflying
    by_cases hid : o.id = op.id
    · refine ⟨⟨s.count, exclusive⟩, ?_, Nat.lt_succ_self _⟩
      rw [hid]
      exact Function.update_self _ _ _
    · obtain ⟨x, hx, hlt⟩ := h.begun o (hmem o ho hid) hflying
      exact ⟨x, (hold o ho hid).trans hx, Nat.lt_succ_of_lt hlt⟩
  · intro a b hab x y hx hy
    dsimp only at hx hy
    by_cases ha : a.id = op.id
    · have hb : b.id ≠ op.id := fun hb => hab.ne (ha.trans hb.symm)
      rw [ha, Function.update_self] at hx
      rw [hold b hab.right hb] at hy
      obtain rfl := Option.some.inj hx
      obtain ⟨y', hy', hlt⟩ := h.begun b (hmem b hab.right hb) hab.rightFlying
      obtain rfl := Option.some.inj (hy'.symm.trans hy)
      exact ⟨Nat.ne_of_gt hlt, fun hgt => absurd hgt (Nat.lt_asymm hlt)⟩
    · rw [hold a hab.left ha] at hx
      by_cases hb : b.id = op.id
      · rw [hb, Function.update_self] at hy
        obtain rfl := Option.some.inj hy
        obtain ⟨x', hx', hlt⟩ := h.begun a (hmem a hab.left ha) hab.leftFlying
        obtain rfl := Option.some.inj (hx'.symm.trans hx)
        exact ⟨Nat.ne_of_lt hlt, fun _ => hshared a hab.left ha hab.leftFlying⟩
      · rw [hold b hab.right hb] at hy
        exact h.later a b ⟨hmem a hab.left ha, hmem b hab.right hb, hab.ne, hab.leftFlying,
          hab.rightFlying⟩ x y hx hy

theorem Ordered.step (h : Ordered s) (retention : ℤ) (e : JournalStep) :
    Ordered (s.step retention e) := by
  cases e with
  | begin payload phase exclusive now written =>
    unfold FlaggedJournal.step
    dsimp only
    rcases Journal.begin_cases s.journal payload phase exclusive now written with
      ⟨hsame, e, he⟩ | ⟨hgate, op, hok, hops, -, -, -⟩
    · rw [he]
      refine h.of_subset fun o ho hflying => ⟨o, ?_, rfl, hflying⟩
      rw [← hsame]
      exact ho
    · rw [hok]
      refine h.of_begin (fun hexclusive o ho hflying => ?_) hops
      have hnot := (Journal.status_of_gate hgate ho hflying).2
      rw [hexclusive] at hnot
      cases hnot
  | change id call now written =>
    refine h.of_subset fun o ho hflying => ?_
    rcases Journal.mem_step ho with
      hold | ⟨_, _, _, _, _, hbegin, -⟩ | ⟨op, hop, call', now', _, -, -, rfl⟩
    · exact ⟨o, hold, rfl, hflying⟩
    · cases hbegin
    · exact ⟨op, hop, (JournalCall.write_id call' op now').symm,
        Journal.inProgress_of_write hflying⟩
  | sweep now removes =>
    exact h.of_subset fun o ho hflying => ⟨o, List.mem_of_mem_filter ho, rfl, hflying⟩

theorem ordered_after (h : Ordered s) (retention : ℤ) (steps : List JournalStep) :
    Ordered (s.after retention steps) := by
  induction steps generalizing s with
  | nil => exact h
  | cons e steps ih => exact ih (h.step retention e)

theorem ordered_empty : Ordered empty := by
  constructor
  · intro o ho
    cases ho
  · intro a b hab
    exact absurd hab.left List.not_mem_nil

/-! ## Two entries in progress -/

/-- Of two entries in progress one was begun first, and the other one later and not
exclusively. -/
def LaterShared (s : FlaggedJournal) : Prop :=
  ∀ a b, s.Together a b → ∃ x y, s.begun a.id = some x ∧ s.begun b.id = some y ∧
    ((x.order < y.order ∧ y.exclusive = false) ∨ (y.order < x.order ∧ x.exclusive = false))

/-- An entry that is begun exclusively **finds no other in progress, after every history of the
store**; one that is let in beside it later was not begun exclusively. -/
theorem exclusive_first (retention : ℤ) (steps : List JournalStep) :
    LaterShared (empty.after retention steps) := by
  intro a b h
  have hordered := ordered_after ordered_empty retention steps
  obtain ⟨x, hx, -⟩ := hordered.begun a h.left h.leftFlying
  obtain ⟨y, hy, -⟩ := hordered.begun b h.right h.rightFlying
  refine ⟨x, y, hx, hy, ?_⟩
  obtain ⟨hne, hxy⟩ := hordered.later a b h x y hx hy
  obtain ⟨-, hyx⟩ := hordered.later b a h.symm y x hy hx
  rcases Nat.lt_or_gt_of_ne hne with hlt | hgt
  · exact Or.inl ⟨hlt, hxy hlt⟩
  · exact Or.inr ⟨hgt, hyx hgt⟩

/-- A handoff is begun, exclusively; a recovery is begun after it. -/
def handoffThenRecovery : List JournalStep :=
  [.begin (.handoff 0 1 "db1" "node0" false) "preflight_done" true 0 (.ok ()),
    .begin (.recovery 0 2 "db2" "node2") "started" false 1 (.ok ())]

/-- Both are in progress: the exclusive one is not alone. -/
theorem handoffThenRecovery_together :
    ¬ Alone (empty.after inflightRetention handoffThenRecovery) := by
  intro halone
  have hops : (empty.after inflightRetention handoffThenRecovery).journal.ops =
      [{ id := "0-handoff-0", status := .inProgress
         payload := .handoff 0 1 "db1" "node0" false, phase := "preflight_done"
         startedAt := 0, updatedAt := 0, completedAt := none, dischargedAt := none
         lastError := none },
       { id := "1-recovery-1", status := .inProgress
         payload := .recovery 0 2 "db2" "node2", phase := "started"
         startedAt := 1, updatedAt := 1, completedAt := none, dischargedAt := none
         lastError := none }] := by decide
  have htogether := halone _ _ ⟨hops ▸ List.mem_cons_self,
    hops ▸ List.mem_cons_of_mem _ List.mem_cons_self, by decide, rfl, rfl⟩ ⟨0, true⟩
    (by decide)
  cases htogether

end FlaggedJournal

end PgAgent
