import PgAgent.Ha.Candidacy
import PgAgent.System.Authority
import PgAgent.System.World

/-!
# What a takeover keeps of the acknowledged writes

Quorum commit puts every acknowledged write on two members: the primary that generated it
and a standby.  Deposing the holder removes one of them from the count, so a candidate
that has compared itself with *every* other member finds the second copy.  `Durable` is
that argument as an invariant, and `noAcknowledgedWriteLost` its conclusion.

The comparison, though, is with the members that answered.  A member that does not answer,
or whose position probe failed, is not compared with, and a member may flush more after it
answered.  `acknowledgedWriteLost_unreachable` is a run in which the one standby that
holds an acknowledged write is out of reach, and the takeover goes to the other.
-/

namespace PgAgent

open Rust

/-! ## What an event can change -/

theorem Postgres.effect_flush (members : List NodeConfig) (p : Postgres) (a : ExecAction) :
    (p.effect members a).flush = p.flush := by
  unfold Postgres.effect
  split
  · rfl
  · split <;> rfl
  · rfl
  · rfl
  · rfl

theorem Postgres.effects_flush (members : List NodeConfig) (takes : ExecAction → Bool)
    (p : Postgres) (actions : List ExecAction) :
    (p.effects members takes actions).flush = p.flush := by
  unfold Postgres.effects
  induction actions.filter takes generalizing p with
  | nil => rfl
  | cons a rest ih => rw [List.foldl_cons, ih, Postgres.effect_flush]

/-- How far one event can take the world. -/
structure Advances (dep : Deployment) (w w' : World) : Prop where
  /-- Flushed positions never go back. -/
  flush_le : ∀ n, (w.pg n).flush ≤ (w'.pg n).flush
  /-- A write is acknowledged by a member, after another member has flushed it. -/
  acked : ∀ lsn ∈ w'.acked, lsn ∈ w.acked ∨
    ∃ a ∈ dep.members, ∃ b ∈ dep.members, a.id ≠ b.id ∧
      lsn ≤ (w.pg a.id).flush ∧ lsn ≤ (w.pg b.id).flush
  /-- A node's probes are kept, dropped, or made anew. -/
  probed : ∀ n, (w'.obs n).db = (w.obs n).db ∨ (w'.obs n).db = Observation.blank.db ∨
    ∃ f, (w'.obs n).db = (w.pg n).probe f
  /-- A proposal in flight was there before, or has just been made. -/
  pending : ∀ pr ∈ w'.pending, pr ∈ w.pending ∨ ∃ n now readTook takeover random stamp,
    pr ∈ w.proposals dep n (w.tickInput n now readTook takeover random) stamp
  wins : w'.wins = w.wins
  /-- The agents and the store move by an event of their own, or stand still. -/
  sys : w'.sys = w.sys ∨ ∃ event, w.sys.step dep event = some w'.sys

section Advance

variable {dep : Deployment} {w w' : World}

theorem Advances.refl : Advances dep w w where
  flush_le := fun _ => le_rfl
  acked := fun _ h => Or.inl h
  probed := fun _ => Or.inl rfl
  pending := fun _ h => Or.inl h
  wins := rfl
  sys := Or.inl rfl

theorem Advances.setPg (h : Advances dep w w') {n : NodeId} {p : Postgres}
    (hp : (w.pg n).flush ≤ p.flush) : Advances dep w (w'.setPg n p) where
  flush_le := by
    intro m
    show (w.pg m).flush ≤ (Function.update w'.pg n p m).flush
    by_cases hm : m = n
    · subst hm
      rw [Function.update_self]
      exact hp
    · rw [Function.update_of_ne hm]
      exact h.flush_le m
  acked := h.acked
  probed := h.probed
  pending := h.pending
  wins := h.wins
  sys := h.sys

theorem Advances.setObs (h : Advances dep w w') {n : NodeId} {o : Observation}
    (ho : o.db = (w.obs n).db ∨ o.db = Observation.blank.db ∨ ∃ f, o.db = (w.pg n).probe f) :
    Advances dep w (w'.setObs n o) where
  flush_le := h.flush_le
  acked := h.acked
  probed := by
    intro m
    show (Function.update w'.obs n o m).db = _ ∨ (Function.update w'.obs n o m).db = _ ∨
      ∃ f, (Function.update w'.obs n o m).db = _
    by_cases hm : m = n
    · subst hm
      rw [Function.update_self]
      exact ho
    · rw [Function.update_of_ne hm]
      exact h.probed m
  pending := h.pending
  wins := h.wins
  sys := h.sys

theorem advances_of_sysStep {event : SystemEvent} (h : w.sysStep dep event = some w') :
    Advances dep w w' := by
  obtain ⟨sys, hsys, rfl⟩ := Option.map_eq_some_iff.mp h
  exact { Advances.refl with sys := Or.inr ⟨event, hsys⟩ }

/-- Every event stays within these bounds. -/
theorem advances_of_advance {event : WorldEvent} (h : w.advance dep event = some w') :
    Advances dep w w' := by
  cases event with
  | generate n lsn =>
    obtain ⟨hcond, heq⟩ := Option.ite_none_right_eq_some.mp h
    obtain rfl := Option.some.inj heq
    simp only [Bool.and_eq_true, decide_eq_true_eq] at hcond
    exact Advances.refl.setPg hcond.2
  | connect n =>
    simp only [World.advance] at h
    split at h
    · obtain ⟨-, heq⟩ := Option.ite_none_right_eq_some.mp h
      obtain rfl := Option.some.inj heq
      exact Advances.refl.setPg le_rfl
    · cases h
  | disconnect n =>
    obtain rfl := Option.some.inj h
    exact Advances.refl.setPg le_rfl
  | receive n lsn =>
    simp only [World.advance] at h
    split at h
    · obtain ⟨hcond, heq⟩ := Option.ite_none_right_eq_some.mp h
      obtain rfl := Option.some.inj heq
      simp only [Bool.and_eq_true, decide_eq_true_eq] at hcond
      exact Advances.refl.setPg hcond.1.1.2
    · cases h
  | acknowledge n lsn =>
    obtain ⟨hcond, heq⟩ := Option.ite_none_right_eq_some.mp h
    obtain rfl := Option.some.inj heq
    simp only [Bool.and_eq_true, decide_eq_true_eq, List.any_eq_true, beq_iff_eq,
      bne_iff_ne] at hcond
    obtain ⟨⟨⟨-, hown⟩, a, ha, haid⟩, b, hb, hbid, hflush⟩ := hcond
    refine { Advances.refl with acked := fun l hl => ?_ }
    rcases List.mem_cons.mp hl with rfl | hl
    · exact Or.inr ⟨a, ha, b, hb, by rw [haid]; exact hbid.symm,
        by rw [haid]; exact hown, hflush⟩
    · exact Or.inl hl
  | crashPostgres n =>
    obtain rfl := Option.some.inj h
    exact Advances.refl.setPg le_rfl
  | startPostgres n =>
    obtain rfl := Option.some.inj h
    exact Advances.refl.setPg le_rfl
  | setReach n m reaches =>
    obtain rfl := Option.some.inj h
    exact { Advances.refl with }
  | command cmd =>
    simp only [World.advance] at h
    split at h
    · cases h
    · exact advances_of_sysStep h
  | read n answered =>
    obtain ⟨w'', hsys, rfl⟩ := Option.map_eq_some_iff.mp h
    exact (advances_of_sysStep hsys).setObs (Or.inr (Or.inl rfl))
  | probeLocal n f =>
    obtain rfl := Option.some.inj h
    exact Advances.refl.setObs (Or.inr (Or.inr ⟨f, rfl⟩))
  | hear n m rank f pgpool ages =>
    obtain ⟨-, heq⟩ := Option.ite_none_right_eq_some.mp h
    obtain rfl := Option.some.inj heq
    exact Advances.refl.setObs (Or.inl rfl)
  | decide n now readTook takeover random stamp released =>
    obtain ⟨w'', hsys, rfl⟩ := Option.map_eq_some_iff.mp h
    cases takeover with
    | error e =>
      refine { advances_of_sysStep hsys with pending := fun pr hpr => ?_ }
      rcases List.mem_append.mp hpr with hpr | hpr
      · exact Or.inr ⟨n, now, readTook, .error e, random, stamp, hpr⟩
      · exact Or.inl hpr
    | ok outcome => exact advances_of_sysStep hsys
  | commitLate index =>
    simp only [World.advance] at h
    split at h
    · exact advances_of_sysStep h
    · cases h
  | act n inp f takes =>
    obtain ⟨w'', hsys, rfl⟩ := Option.map_eq_some_iff.mp h
    exact (advances_of_sysStep hsys).setPg (by rw [Postgres.effects_flush])
  | dieActing n inp f takes after =>
    obtain ⟨w'', hsys, rfl⟩ := Option.map_eq_some_iff.mp h
    exact (advances_of_sysStep hsys).setPg (by rw [Postgres.effects_flush])
  | restartAgent n => exact advances_of_sysStep h

end Advance

/-! ## The invariant -/

/-- The candidate had flushed at least every position it was answered. -/
def Proposal.Sound (dep : Deployment) (pg : NodeId → Postgres) (pr : Proposal) : Prop :=
  ∃ my : WalPosition, my.timeline = worldTimeline ∧ my.lsn ≤ (pg pr.candidate).flush ∧
    ∀ m ∈ dep.members, m.id ≠ pr.candidate → ∀ q,
      (pr.ends m.id).answer.bind WalPosition.fromStatus = some q → q ≤ my

theorem Proposal.Sound.mono {dep : Deployment} {pg pg' : NodeId → Postgres}
    (hle : ∀ n, (pg n).flush ≤ (pg' n).flush) {pr : Proposal} (h : pr.Sound dep pg) :
    pr.Sound dep pg' := by
  obtain ⟨my, htimeline, hlsn, hall⟩ := h
  exact ⟨my, htimeline, hlsn.trans (hle _), hall⟩

structure Durable (dep : Deployment) (w : World) : Prop where
  /-- Every acknowledged write is on two members. -/
  copies : ∀ lsn ∈ w.acked, ∃ a ∈ dep.members, ∃ b ∈ dep.members, a.id ≠ b.id ∧
    lsn ≤ (w.pg a.id).flush ∧ lsn ≤ (w.pg b.id).flush
  /-- A node has flushed at least what its own probe said. -/
  probed : ∀ n p, (observeLocal (w.obs n).db).pos = some p →
    p.timeline = worldTimeline ∧ p.lsn ≤ (w.pg n).flush
  pending : ∀ pr ∈ w.pending, pr.Sound dep w.pg
  lossless : w.Lossless

section Durable

variable {dep : Deployment} {w w' : World}

theorem durable_of_initial (h : w.Initial) : Durable dep w where
  copies := by simp [h.acked]
  probed := by
    intro n p hp
    rw [h.obs] at hp
    cases hp
  pending := by simp [h.pending]
  lossless := by
    intro win hwin
    rw [h.wins] at hwin
    cases hwin

/-- A probe that answers a position answers the one of the moment. -/
theorem pos_observeLocal_probe {p : Postgres} {f : ProbeFailures} {q : WalPosition}
    (h : (observeLocal (p.probe f)).pos = some q) :
    q.timeline = worldTimeline ∧ q.lsn = p.flush := by
  have hquery : ∀ {α : Type} {fails : Bool} {value got : α},
      p.query fails value = some got → got = value := by
    intro α fails value got hgot
    unfold Postgres.query at hgot
    split at hgot
    · cases hgot
    · exact (Option.some.inj hgot).symm
  unfold observeLocal at h
  dsimp only at h
  split at h
  · split at h
    · rename_i timeline lsn htimeline hlsn
      obtain rfl := Option.some.inj h
      exact ⟨hquery (Option.filter_eq_some_iff.mp htimeline).1,
        hquery (Option.filter_eq_some_iff.mp hlsn).1⟩
    · cases h
  · cases h

/-- What a node proposes is sound: its own position is at least every answered one. -/
theorem Durable.sound_of_mem_proposals (h : Durable dep w) {n : NodeId} {now : Instant}
    {readTook : Duration} {takeover : Except String TakeoverOutcome} {random : ℕ}
    {stamp : Timestamp} {pr : Proposal}
    (hpr : pr ∈ w.proposals dep n (w.tickInput n now readTook takeover random) stamp) :
    pr.Sound dep w.pg := by
  obtain ⟨call, hcall, hmake⟩ := List.mem_filterMap.mp hpr
  cases call with
  | release holder term => cases hmake
  | tryTakeover candidate expected =>
    obtain rfl := Option.some.inj hmake
    obtain ⟨rfl, -⟩ := proposes_of_mem_calls hcall
    obtain ⟨my, hmy, hall⟩ := first_of_mem_calls hcall
    obtain ⟨htimeline, hlsn⟩ := h.probed candidate my hmy
    refine ⟨my, htimeline, hlsn, fun m hm hne q hq => ?_⟩
    obtain ⟨status, hstatus, hpos⟩ := Option.bind_eq_some_iff.mp hq
    have hother : m ∈ (dep.haLoop candidate).pool.others := NodePool.mem_others.mpr ⟨hm, hne⟩
    exact (hall m.id q (reports_observePeers_of_answer hother hstatus hpos)).1

theorem Durable.sound_of_mem_wonBy (h : Durable dep w) {event : WorldEvent}
    {x : Proposal × NodeId} (hx : x ∈ w.wonBy dep event) : x.1.Sound dep w.pg := by
  unfold World.wonBy at hx
  split at hx
  · split at hx
    · obtain ⟨pr, hpr, hexp⟩ := List.mem_filterMap.mp hx
      obtain ⟨e, -, rfl⟩ := Option.map_eq_some_iff.mp hexp
      exact h.sound_of_mem_proposals hpr
    · cases hx
  · split at hx
    · rename_i pr hpr
      split at hx
      · obtain ⟨e, -, rfl⟩ := Option.map_eq_some_iff.mp (Option.mem_toList.mp hx)
        exact h.pending pr (List.mem_of_getElem? hpr)
      · cases hx
    · cases hx
  · cases hx

/-- A winner that has heard every other member has everything that was acknowledged. -/
theorem Durable.lossless_of_heard (h : Durable dep w) {event : WorldEvent}
    (hheard : w.Heard dep event) {x : Proposal × NodeId} (hx : x ∈ w.wonBy dep event) {lsn : ℕ}
    (hlsn : lsn ∈ w.acked) : lsn ≤ (w.pg x.1.candidate).flush := by
  -- of the two members that hold the write, one is not the deposed holder
  have hcopy : ∃ m ∈ dep.members, m.id ≠ x.2 ∧ lsn ≤ (w.pg m.id).flush := by
    obtain ⟨a, ha, b, hb, hne, hfa, hfb⟩ := h.copies lsn hlsn
    by_cases hax : a.id = x.2
    · exact ⟨b, hb, fun hbx => hne (hax.trans hbx.symm), hfb⟩
    · exact ⟨a, ha, hax, hfa⟩
  obtain ⟨m, hm, hdeposed, hflush⟩ := hcopy
  by_cases hself : m.id = x.1.candidate
  · rw [← hself]
    exact hflush
  · obtain ⟨my, htimeline, hmy, hall⟩ := h.sound_of_mem_wonBy hx
    have hle := hall m hm hself _ (hheard x hx m hm hdeposed hself)
    rw [WalPosition.le_iff_of_timeline_eq htimeline.symm] at hle
    exact hflush.trans (hle.trans hmy)

/-- An event keeps the invariant, if every other member was heard at its wins. -/
theorem Durable.step (h : Durable dep w) {event : WorldEvent}
    (hstep : w.heardStep dep event = some w') : Durable dep w' := by
  obtain ⟨hheard, hstep⟩ := Option.ite_none_right_eq_some.mp hstep
  obtain ⟨w'', hadv, rfl⟩ := Option.map_eq_some_iff.mp hstep
  have hadvances := advances_of_advance hadv
  refine ⟨?_, ?_, ?_, ?_⟩
  · intro lsn hlsn
    have hold : ∃ a ∈ dep.members, ∃ b ∈ dep.members, a.id ≠ b.id ∧
        lsn ≤ (w.pg a.id).flush ∧ lsn ≤ (w.pg b.id).flush := by
      rcases hadvances.acked lsn hlsn with hlsn | hnew
      · exact h.copies lsn hlsn
      · exact hnew
    obtain ⟨a, ha, b, hb, hne, hfa, hfb⟩ := hold
    exact ⟨a, ha, b, hb, hne, hfa.trans (hadvances.flush_le _),
      hfb.trans (hadvances.flush_le _)⟩
  · intro n p hp
    change (observeLocal (w''.obs n).db).pos = some p at hp
    rcases hadvances.probed n with hsame | hblank | ⟨f, hnew⟩
    · rw [hsame] at hp
      obtain ⟨htimeline, hlsn⟩ := h.probed n p hp
      exact ⟨htimeline, hlsn.trans (hadvances.flush_le n)⟩
    · rw [hblank] at hp
      cases hp
    · rw [hnew] at hp
      obtain ⟨htimeline, hlsn⟩ := pos_observeLocal_probe hp
      exact ⟨htimeline, hlsn.le.trans (hadvances.flush_le n)⟩
  · intro pr hpr
    refine Proposal.Sound.mono hadvances.flush_le ?_
    rcases hadvances.pending pr hpr with hpr | ⟨n, now, readTook, takeover, random, stamp, hpr⟩
    · exact h.pending pr hpr
    · exact h.sound_of_mem_proposals hpr
  · intro win hwin lsn hlsn
    rcases List.mem_append.mp hwin with hnew | hold
    · obtain ⟨x, hx, rfl⟩ := List.mem_map.mp hnew
      exact h.lossless_of_heard hheard hx hlsn
    · rw [hadvances.wins] at hold
      exact h.lossless win hold lsn hlsn

end Durable

/-- No acknowledged write is lost, in every run whose takeovers were all decided with the
current position of every other member at hand. -/
theorem noAcknowledgedWriteLost (dep : Deployment) (w : World)
    (h : Trace.Reachable World.Initial (fun w event => w.heardStep dep event) w) :
    w.Lossless := by
  have hdurable : Durable dep w :=
    Trace.Reachable.invariant (fun _ hw => durable_of_initial hw)
      (fun _ _ _ hw hstep => hw.step hstep) h
  exact hdurable.lossless

/-! ## A standby out of reach -/

/-- Node `0` is the primary; node `2` streams from it, node `1` does not. -/
def splitWorld : World where
  sys := System.initial
  pg := fun n =>
    if n = 0 then ⟨50, true, false, none, none⟩
    else if n = 1 then ⟨50, true, true, none, none⟩
    else ⟨50, true, true, some 0, some 0⟩
  reach := fun _ _ => true
  obs := fun _ => Observation.blank
  pending := []
  acked := []
  wins := []

theorem splitWorld_initial : splitWorld.Initial := ⟨rfl, rfl, rfl, rfl, rfl⟩

/-- A write at `100` reaches node `2` and is acknowledged; then the primary dies. -/
def ackedThenCrash : List WorldEvent :=
  [.command (.takeover 0 none 0), .generate 0 100, .receive 2 100, .acknowledge 0 100,
   .crashPostgres 0, .disconnect 2]

/-- An executor none of whose calls succeeds. -/
def quietExec : ExecInput where
  now := 0
  nowPromoted := 0
  probes := ⟨none, none, none⟩
  journal := none
  recovery := none
  signalled := false
  recoveryEnded := false
  slotCreated := fun _ => false
  setting := none
  connected := none
  dialled := false
  peerSlotCreated := false
  followed := false

/-- A whole tick of node `n` at second `s`, with the peers it hears. -/
def tickEvents (n : NodeId) (s : ℕ) (hears : List NodeId)
    (takeover : Except String TakeoverOutcome) : List WorldEvent :=
  [.read n true, .probeLocal n .none] ++ hears.map (fun m => .hear n m 0 .none none ∅) ++
    [.decide n (secs s) 0 takeover 0 0 false, .act n quietExec .none fun _ => true]

/-- Node `n` watches the holder down for the ttl, samples, and takes over. -/
def takeoverEvents (n : NodeId) (hears : List NodeId) : List WorldEvent :=
  tickEvents n 0 hears (.error "no leader") ++ tickEvents n 30 hears (.error "no leader") ++
    tickEvents n 40 hears (.ok (.won ⟨n, 2, 0⟩))

/-- Node `2`, which hears node `1`, takes over with the acknowledged write. -/
theorem noAcknowledgedWriteLost_heard :
    ∃ w, Trace.Reachable World.Initial
        (fun w event => w.heardStep threeNodeDeployment event) w ∧
      w.wins = [⟨2, 0, 100, [100]⟩] ∧ w.Lossless := by
  have hrun : (Trace.run (fun w event => w.heardStep threeNodeDeployment event) splitWorld
      (ackedThenCrash ++ takeoverEvents 2 [0, 1])).map World.wins =
      some [⟨2, 0, 100, [100]⟩] := by decide +kernel
  obtain ⟨w, hw, hwins⟩ := Option.map_eq_some_iff.mp hrun
  have hreach := Trace.Reachable.run (.init splitWorld_initial) hw
  exact ⟨w, hreach, hwins, noAcknowledgedWriteLost threeNodeDeployment w hreach⟩

/-- Node `1`, which does not reach node `2`, takes over without it. -/
theorem acknowledgedWriteLost_unreachable :
    3 ≤ threeNodeDeployment.members.length ∧
      ∃ w, Trace.Reachable World.Initial (fun w event => w.step threeNodeDeployment event) w ∧
        w.wins = [⟨1, 0, 50, [100]⟩] ∧ ¬ w.Lossless := by
  refine ⟨by decide, ?_⟩
  have hrun : (Trace.run (fun w event => w.step threeNodeDeployment event) splitWorld
      (ackedThenCrash ++ [.setReach 1 2 false] ++ takeoverEvents 1 [0])).map World.wins =
      some [⟨1, 0, 50, [100]⟩] := by decide +kernel
  obtain ⟨w, hw, hwins⟩ := Option.map_eq_some_iff.mp hrun
  refine ⟨w, Trace.Reachable.run (.init splitWorld_initial) hw, hwins, fun hlossless => ?_⟩
  have hwin := hlossless ⟨1, 0, 50, [100]⟩ (by rw [hwins]; exact List.mem_singleton.mpr rfl) 100
  exact absurd (hwin (List.mem_singleton.mpr rfl)) (by decide)

end PgAgent
