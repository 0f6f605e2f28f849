import PgAgent.System.Authority
import PgAgent.System.World

/-!
# What one event does to the cluster

Inversion lemmas for `System.step` and `World.step`, for the proofs that follow single
nodes through a run:

* `phase_of_step` --- how an event moves one node through its loop;
* `mem_newlyIssued` --- what the executors issue in an event;
* `sys_of_step` --- the event of the cluster behind an event of the world.
-/

namespace PgAgent

open Rust

namespace System

/-- The node the committed lease names. -/
def holder (s : System) : Option NodeId := s.store.lease.map (·.holder)

/-- What was issued on the way from `s` to `s'`. -/
def newlyIssued (s s' : System) : List Issued :=
  s'.issued.take (s'.issued.length - s.issued.length)

end System

/-! ## The writes of a tick -/

/-- All the writes of a tick are the same one. -/
theorem eq_of_mem_calls {ha : HaLoop} {ts : TickState} {inp : TickInput} {call call' : StoreCall}
    (h : call ∈ (tickOnce ha ts inp).calls) (h' : call' ∈ (tickOnce ha ts inp).calls) :
    call = call' := by
  cases tickPath ha ts inp with
  | unknown hread hout =>
    obtain ⟨d, hd⟩ := onStoreUnknown_spec ha ts inp.now
    rw [hout, hd] at h
    cases h
  | paused st hread hp hout =>
    rw [hout] at h
    cases h
  | holding st lease hread hp hl hown hout =>
    rw [hout, rememberHolder_calls] at h h'
    obtain ⟨-, -, -, -, -, hcalls, -⟩ :=
      holdingLease_spec ha ts.known lease (observeLocal inp.db) inp
    rw [hcalls call h, hcalls call' h']
  | healthy st lease hread hp hl hother hh d hd hout =>
    rw [hout] at h
    cases h
  | watching st lease hread hp hl hother hh hfor hout =>
    rw [hout] at h
    cases h
  | deposing st lease hread hp hl hother hh hfor hout =>
    rw [hout, rememberHolder_calls] at h h'
    rw [(mem_calls_considerCandidacy.mp h).1, (mem_calls_considerCandidacy.mp h').1]
  | bootstrapGap st hread hp hl hprim reason hout =>
    rw [hout] at h
    cases h
  | claiming st hread hp hl hprim hout =>
    rw [hout, rememberHolder_calls] at h h'
    rw [(mem_calls_considerCandidacy.mp h).1, (mem_calls_considerCandidacy.mp h').1]

section Writes

variable {s s' : System} {inp : TickInput} {stamp : Timestamp} {released : Bool}

/-- A write of a tick moves no agent. -/
theorem agents_of_perform {call : StoreCall}
    (h : System.perform inp stamp released s call = some s') :
    s'.agents = s.agents ∧ s'.issued = s.issued := by
  have hcommit : ∀ {cmd t response}, s.commit cmd = some (t, response) →
      t.agents = s.agents ∧ t.issued = s.issued := by
    intro cmd t response hc
    obtain ⟨-, -, rfl⟩ := commit_eq_some hc
    exact ⟨rfl, rfl⟩
  cases call with
  | tryTakeover candidate expected =>
    unfold System.perform at h
    dsimp only at h
    split at h
    · obtain rfl := Option.some.inj h
      exact ⟨rfl, rfl⟩
    · obtain ⟨⟨t, response⟩, hc, hreply⟩ := Option.bind_eq_some_iff.mp h
      obtain ⟨-, heq⟩ := Option.ite_none_right_eq_some.mp hreply
      obtain rfl := Option.some.inj heq
      exact hcommit hc
  | release holder term =>
    unfold System.perform at h
    dsimp only at h
    split at h
    · obtain ⟨⟨t, response⟩, hc, rfl⟩ := Option.map_eq_some_iff.mp h
      exact hcommit hc
    · obtain rfl := Option.some.inj h
      exact ⟨rfl, rfl⟩

theorem agents_of_performAll {calls : List StoreCall}
    (h : calls.foldlM (System.perform inp stamp released) s = some s') :
    s'.agents = s.agents ∧ s'.issued = s.issued := by
  induction calls generalizing s with
  | nil =>
    obtain rfl := Option.some.inj h
    exact ⟨rfl, rfl⟩
  | cons call calls ih =>
    rw [List.foldlM_cons] at h
    obtain ⟨t, ht, hrest⟩ := Option.bind_eq_some_iff.mp h
    obtain ⟨hagents, hissued⟩ := agents_of_perform ht
    obtain ⟨hagents', hissued'⟩ := ih hrest
    exact ⟨hagents'.trans hagents, hissued'.trans hissued⟩

/-- After a takeover that was answered with "won", the lease names the candidate. -/
theorem holder_of_won {cand : NodeId} {expected : Option (NodeId × UInt64)} {lease : Lease}
    (h : System.perform inp stamp released s (.tryTakeover cand expected) = some s')
    (hwon : inp.takeover = .ok (.won lease)) : s'.holder = some cand := by
  unfold System.perform at h
  dsimp only at h
  rw [hwon] at h
  obtain ⟨⟨t, response⟩, hc, hreply⟩ := Option.bind_eq_some_iff.mp h
  obtain ⟨hresponse, heq⟩ := Option.ite_none_right_eq_some.mp hreply
  obtain rfl := Option.some.inj heq
  obtain ⟨-, hanswer, rfl⟩ := commit_eq_some hc
  have hmint : (applyCommand s.store (.takeover cand expected stamp)).2.minted = some lease := by
    rw [← hanswer, show response = .takeover (.won lease) from hresponse]
    rfl
  obtain ⟨_, _, hcmd, -, -, hlease, -⟩ := applyCommand_minted hmint
  show ((applyCommand s.store _).1.lease.map fun l => l.holder) = some cand
  rw [hlease, (ConsensusCommand.takeover.inj hcmd).1]
  rfl

/-- A tick whose takeover was answered with "won" leaves the lease with its node. -/
theorem holder_of_performAll {calls : List StoreCall} {cand : NodeId}
    {expected : Option (NodeId × UInt64)} {lease : Lease}
    (h : calls.foldlM (System.perform inp stamp released) s = some s')
    (hmem : .tryTakeover cand expected ∈ calls)
    (honly : ∀ call ∈ calls, call = .tryTakeover cand expected)
    (hwon : inp.takeover = .ok (.won lease)) : s'.holder = some cand := by
  induction calls generalizing s with
  | nil => cases hmem
  | cons call calls ih =>
    rw [List.foldlM_cons] at h
    obtain ⟨t, ht, hrest⟩ := Option.bind_eq_some_iff.mp h
    cases calls with
    | nil =>
      obtain rfl := Option.some.inj hrest
      rw [honly call List.mem_cons_self] at ht
      exact holder_of_won ht hwon
    | cons call' calls =>
      have hmem' : call' ∈ call' :: calls := List.mem_cons_self
      have hcall' := honly call' (List.mem_cons_of_mem _ hmem')
      exact ih hrest (hcall' ▸ hmem') fun c hc => honly c (List.mem_cons_of_mem _ hc)

end Writes

/-! ## The agents and the store -/

section SystemStep

variable {dep : Deployment} {s s' : System} {event : SystemEvent}

/-- An event leaves a node where it is in its loop, or brings it to the end of a tick, or
is its read, or its decision. -/
theorem phase_of_step (h : s.step dep event = some s') (n : NodeId) :
    ((s'.agents n).phase = (s.agents n).phase ∧ ∀ answered, event ≠ .read n answered) ∨
    (s'.agents n).phase = .idle ∨
    (∃ answered, event = .read n answered ∧ s'.store = s.store ∧
      (s'.agents n).phase = .read (if answered then some s.store else none)) ∨
    ∃ inp stamp released result, event = .decide n inp stamp released ∧
      (s.agents n).phase = .read result ∧ inp.read (dep.timing n) = result ∧
      (s'.agents n).phase =
        .decided result (tickOnce (dep.haLoop n) (s.agents n).tick inp).decision ∧
      ∀ lease expected, inp.takeover = .ok (.won lease) →
        .tryTakeover n expected ∈ (tickOnce (dep.haLoop n) (s.agents n).tick inp).calls →
        s'.holder = some n := by
  have hother : ∀ {t : System} {m : NodeId} {a : AgentState}, t.agents = s.agents → n ≠ m →
      ((t.setAgent m a).agents n).phase = (s.agents n).phase := by
    intro t m a ht hnm
    show (Function.update t.agents m a n).phase = _
    rw [Function.update_of_ne hnm, ht]
  cases event with
  | commit cmd =>
    obtain ⟨⟨t, response⟩, hc, rfl⟩ := Option.map_eq_some_iff.mp h
    obtain ⟨-, -, rfl⟩ := commit_eq_some hc
    exact Or.inl ⟨rfl, by simp⟩
  | read m answered =>
    simp only [System.step] at h
    split at h
    · obtain rfl := Option.some.inj h
      by_cases hm : n = m
      · subst hm
        refine Or.inr (Or.inr (Or.inl ⟨answered, rfl, rfl, ?_⟩))
        show (Function.update s.agents n _ n).phase = _
        rw [Function.update_self]
      · refine Or.inl ⟨hother rfl hm, fun answered' heq => hm ?_⟩
        exact (SystemEvent.read.inj heq).1.symm
    · cases h
  | decide m inp stamp released =>
    simp only [System.step] at h
    split at h
    · rename_i result hphase
      obtain ⟨hread, hmap⟩ := Option.ite_none_right_eq_some.mp h
      obtain ⟨t, hcalls, rfl⟩ := Option.map_eq_some_iff.mp hmap
      have hagents := (agents_of_performAll hcalls).1
      by_cases hm : n = m
      · subst hm
        refine Or.inr
          (Or.inr (Or.inr ⟨inp, stamp, released, result, rfl, hphase, hread, ?_, ?_⟩))
        · show (Function.update t.agents n _ n).phase = _
          rw [Function.update_self]
        · intro lease expected hwon hmem
          have hheld : t.holder = some n :=
            holder_of_performAll hcalls hmem (fun c hc => eq_of_mem_calls hc hmem) hwon
          exact hheld
      · exact Or.inl ⟨hother hagents hm, by simp⟩
    · cases h
  | apply m inp =>
    simp only [System.step] at h
    split at h
    · obtain rfl := Option.some.inj h
      by_cases hm : n = m
      · subst hm
        refine Or.inr (Or.inl ?_)
        show (Function.update s.agents n _ n).phase = _
        rw [Function.update_self]
      · exact Or.inl ⟨hother rfl hm, by simp⟩
    · cases h
  | dieApplying m inp after =>
    simp only [System.step] at h
    split at h
    · obtain rfl := Option.some.inj h
      by_cases hm : n = m
      · subst hm
        refine Or.inr (Or.inl ?_)
        show (Function.update s.agents n _ n).phase = _
        rw [Function.update_self]
        rfl
      · exact Or.inl ⟨hother rfl hm, by simp⟩
    · cases h
  | restart m =>
    obtain rfl := Option.some.inj h
    by_cases hm : n = m
    · subst hm
      refine Or.inr (Or.inl ?_)
      show (Function.update s.agents n _ n).phase = _
      rw [Function.update_self]
      rfl
    · exact Or.inl ⟨hother rfl hm, by simp⟩

/-- What an event issues was decided before it, by the node that issues it. -/
theorem mem_newlyIssued (h : s.step dep event = some s') {e : Issued}
    (he : e ∈ s.newlyIssued s') :
    (s.agents e.node).phase = .decided e.read e.decision ∧ s'.store = s.store ∧
      ∃ es inp, e.action ∈ ((dep.executor e.node).apply es inp e.decision).2 := by
  have hnone : s'.issued = s.issued → False := by
    intro hsame
    rw [System.newlyIssued, hsame, Nat.sub_self] at he
    cases he
  have hsome : ∀ {new : List Issued}, s'.issued = new ++ s.issued → e ∈ new := by
    intro new hnew
    rw [System.newlyIssued, hnew, List.length_append, Nat.add_sub_cancel, List.take_left] at he
    exact he
  have hactions : ∀ {m : NodeId} {result : Option ClusterState} {d : HaDecision}
      {inp : ExecInput}, e ∈ s.actionsOf dep m result d inp →
      e.node = m ∧ e.read = result ∧ e.decision = d ∧
        e.action ∈ ((dep.executor m).apply (s.agents m).exec inp d).2 := by
    intro m result d inp hmem
    obtain ⟨a, ha, rfl⟩ := List.mem_map.mp hmem
    exact ⟨rfl, rfl, rfl, ha⟩
  cases event with
  | commit cmd =>
    obtain ⟨⟨t, response⟩, hc, rfl⟩ := Option.map_eq_some_iff.mp h
    obtain ⟨-, -, rfl⟩ := commit_eq_some hc
    exact absurd rfl hnone
  | read m answered =>
    simp only [System.step] at h
    split at h
    · obtain rfl := Option.some.inj h
      exact absurd rfl hnone
    · cases h
  | decide m inp stamp released =>
    simp only [System.step] at h
    split at h
    · obtain ⟨-, hmap⟩ := Option.ite_none_right_eq_some.mp h
      obtain ⟨t, hcalls, rfl⟩ := Option.map_eq_some_iff.mp hmap
      exact absurd (agents_of_performAll hcalls).2 hnone
    · cases h
  | apply m inp =>
    simp only [System.step] at h
    split at h
    · rename_i result d hphase
      obtain rfl := Option.some.inj h
      obtain ⟨hnode, hread, hdec, hmem⟩ := hactions (hsome rfl)
      rw [hnode, hread, hdec]
      exact ⟨hphase, rfl, _, _, hmem⟩
    · cases h
  | dieApplying m inp after =>
    simp only [System.step] at h
    split at h
    · rename_i result d hphase
      obtain rfl := Option.some.inj h
      obtain ⟨hnode, hread, hdec, hmem⟩ := hactions (List.mem_of_mem_take (hsome rfl))
      rw [hnode, hread, hdec]
      exact ⟨hphase, rfl, _, _, hmem⟩
    · cases h
  | restart m =>
    obtain rfl := Option.some.inj h
    exact absurd rfl hnone

end SystemStep

/-! ## The world -/

/-- The event of the agents and the store behind an event of the world, if there is one. -/
def World.sysEvent (w : World) : WorldEvent → Option SystemEvent
  | .command cmd => some (.commit cmd)
  | .read n answered => some (.read n answered)
  | .decide n now readTook takeover random stamp released =>
      some (.decide n (w.tickInput n now readTook takeover random) stamp released)
  | .commitLate index =>
      w.pending[index]?.map fun pr => .commit (.takeover pr.candidate pr.expected pr.stamp)
  | .act n inp f _ => some (.apply n (w.execInput n inp f))
  | .dieActing n inp f _ after => some (.dieApplying n (w.execInput n inp f) after)
  | .restartAgent n => some (.restart n)
  | _ => none

/-- An event of the world moves the agents and the store by the event behind it, and not
at all if there is none. -/
theorem sys_of_step {dep : Deployment} {w w' : World} {event : WorldEvent}
    (h : w.step dep event = some w') :
    (w.sysEvent event = none ∧ w'.sys = w.sys) ∨
    ∃ sysEvent, w.sysEvent event = some sysEvent ∧ w.sys.step dep sysEvent = some w'.sys := by
  have hsys : ∀ {v v' : World} {sysEvent : SystemEvent}, v.sysStep dep sysEvent = some v' →
      v.sys.step dep sysEvent = some v'.sys := by
    intro v v' sysEvent hv
    obtain ⟨sys, hstep, rfl⟩ := Option.map_eq_some_iff.mp hv
    exact hstep
  obtain ⟨w'', hadv, rfl⟩ := Option.map_eq_some_iff.mp h
  show (_ ∧ w''.sys = w.sys) ∨ ∃ sysEvent, _ ∧ w.sys.step dep sysEvent = some w''.sys
  cases event with
  | generate n lsn =>
    obtain ⟨-, heq⟩ := Option.ite_none_right_eq_some.mp hadv
    obtain rfl := Option.some.inj heq
    exact Or.inl ⟨rfl, rfl⟩
  | connect n =>
    simp only [World.advance] at hadv
    split at hadv
    · obtain ⟨-, heq⟩ := Option.ite_none_right_eq_some.mp hadv
      obtain rfl := Option.some.inj heq
      exact Or.inl ⟨rfl, rfl⟩
    · cases hadv
  | receive n lsn =>
    simp only [World.advance] at hadv
    split at hadv
    · obtain ⟨-, heq⟩ := Option.ite_none_right_eq_some.mp hadv
      obtain rfl := Option.some.inj heq
      exact Or.inl ⟨rfl, rfl⟩
    · cases hadv
  | acknowledge n lsn =>
    obtain ⟨-, heq⟩ := Option.ite_none_right_eq_some.mp hadv
    obtain rfl := Option.some.inj heq
    exact Or.inl ⟨rfl, rfl⟩
  | hear n m rank f pgpool ages =>
    obtain ⟨-, heq⟩ := Option.ite_none_right_eq_some.mp hadv
    obtain rfl := Option.some.inj heq
    exact Or.inl ⟨rfl, rfl⟩
  | disconnect n | crashPostgres n | startPostgres n | setReach n m reaches | probeLocal n f =>
    obtain rfl := Option.some.inj hadv
    exact Or.inl ⟨rfl, rfl⟩
  | command cmd =>
    simp only [World.advance] at hadv
    split at hadv
    · cases hadv
    · exact Or.inr ⟨_, rfl, hsys hadv⟩
  | read n answered =>
    obtain ⟨v, hv, rfl⟩ := Option.map_eq_some_iff.mp hadv
    have hstep := hsys hv
    exact Or.inr ⟨_, rfl, hstep⟩
  | decide n now readTook takeover random stamp released =>
    obtain ⟨v, hv, rfl⟩ := Option.map_eq_some_iff.mp hadv
    have hstep := hsys hv
    refine Or.inr ⟨_, rfl, ?_⟩
    cases takeover with
    | error e => exact hstep
    | ok outcome => exact hstep
  | commitLate index =>
    simp only [World.advance] at hadv
    split at hadv
    · rename_i pr hpr
      exact Or.inr ⟨_, by simp only [World.sysEvent, hpr, Option.map_some], hsys hadv⟩
    · cases hadv
  | act n inp f takes =>
    obtain ⟨v, hv, rfl⟩ := Option.map_eq_some_iff.mp hadv
    have hstep := hsys hv
    exact Or.inr ⟨_, rfl, hstep⟩
  | dieActing n inp f takes after =>
    obtain ⟨v, hv, rfl⟩ := Option.map_eq_some_iff.mp hadv
    have hstep := hsys hv
    exact Or.inr ⟨_, rfl, hstep⟩
  | restartAgent n => exact Or.inr ⟨_, rfl, hsys hadv⟩

theorem eq_read_of_sysEvent {w : World} {event : WorldEvent} {n : NodeId} {answered : Bool}
    (h : w.sysEvent event = some (.read n answered)) : event = .read n answered := by
  cases event with
  | read m answered' =>
    obtain ⟨rfl, rfl⟩ := SystemEvent.read.inj (Option.some.inj h)
    rfl
  | commitLate index =>
    obtain ⟨pr, -, hpr⟩ := Option.map_eq_some_iff.mp h
    cases hpr
  | _ => cases h

theorem eq_decide_of_sysEvent {w : World} {event : WorldEvent} {n : NodeId} {inp : TickInput}
    {stamp : Timestamp} {released : Bool}
    (h : w.sysEvent event = some (.decide n inp stamp released)) :
    ∃ now readTook takeover random,
      event = .decide n now readTook takeover random stamp released ∧
      inp = w.tickInput n now readTook takeover random := by
  cases event with
  | decide m now readTook takeover random stamp' released' =>
    obtain ⟨rfl, rfl, rfl, rfl⟩ := SystemEvent.decide.inj (Option.some.inj h)
    exact ⟨now, readTook, takeover, random, rfl, rfl⟩
  | commitLate index =>
    obtain ⟨pr, -, hpr⟩ := Option.map_eq_some_iff.mp h
    cases hpr
  | _ => cases h

section WorldStep

variable {dep : Deployment} {w w' : World} {event : WorldEvent}

/-- `phase_of_step`, of an event of the world. -/
theorem World.phase_of_step (h : w.step dep event = some w') (n : NodeId) :
    ((w'.sys.agents n).phase = (w.sys.agents n).phase ∧
      ∀ answered, event ≠ .read n answered) ∨
    (w'.sys.agents n).phase = .idle ∨
    (∃ answered, event = .read n answered ∧ w'.sys.store = w.sys.store ∧
      (w'.sys.agents n).phase = .read (if answered then some w.sys.store else none)) ∨
    ∃ now readTook takeover random stamp released result,
      event = .decide n now readTook takeover random stamp released ∧
      (w.sys.agents n).phase = .read result ∧
      (w.tickInput n now readTook takeover random).read (dep.timing n) = result ∧
      (w'.sys.agents n).phase = .decided result
        (tickOnce (dep.haLoop n) (w.sys.agents n).tick
          (w.tickInput n now readTook takeover random)).decision ∧
      ∀ lease expected, takeover = .ok (.won lease) →
        .tryTakeover n expected ∈ (tickOnce (dep.haLoop n) (w.sys.agents n).tick
          (w.tickInput n now readTook takeover random)).calls →
        w'.sys.holder = some n := by
  rcases sys_of_step h with ⟨hnone, hsame⟩ | ⟨sysEvent, hevent, hstep⟩
  · refine Or.inl ⟨by rw [hsame], ?_⟩
    rintro answered rfl
    cases hnone
  · rcases PgAgent.phase_of_step hstep n with ⟨hphase, hne⟩ | hidle |
      ⟨answered, rfl, hstore, hphase⟩ | ⟨inp, stamp, released, result, rfl, hrest⟩
    · refine Or.inl ⟨hphase, ?_⟩
      rintro answered rfl
      exact hne answered (Option.some.inj hevent).symm
    · exact Or.inr (Or.inl hidle)
    · exact Or.inr (Or.inr (Or.inl ⟨answered, eq_read_of_sysEvent hevent, hstore, hphase⟩))
    · obtain ⟨now, readTook, takeover, random, rfl, rfl⟩ := eq_decide_of_sysEvent hevent
      exact Or.inr (Or.inr (Or.inr ⟨now, readTook, takeover, random, stamp, released, result, rfl,
        hrest⟩))

/-- A node that has read a document read it before, or reads the committed one now. -/
theorem World.read_of_step (h : w.step dep event = some w') {n : NodeId} {doc : ClusterState}
    (hphase : (w'.sys.agents n).phase = .read (some doc)) :
    ((w.sys.agents n).phase = .read (some doc) ∧ ∀ answered, event ≠ .read n answered) ∨
    (doc = w.sys.store ∧ w'.sys.store = w.sys.store) := by
  rcases World.phase_of_step h n with ⟨hsame, hne⟩ | hidle | ⟨answered, -, hstore, hread⟩ |
    ⟨_, _, _, _, _, _, _, -, -, -, hdecided, -⟩
  · exact Or.inl ⟨hsame.symm.trans hphase, hne⟩
  · rw [hidle] at hphase
    cases hphase
  · rw [hread] at hphase
    cases answered with
    | true => exact Or.inr ⟨(Option.some.inj (Phase.read.inj hphase)).symm, hstore⟩
    | false => cases hphase
  · rw [hdecided] at hphase
    cases hphase

/-- A node that has decided decided before, or decides now. -/
theorem World.decided_of_step (h : w.step dep event = some w') {n : NodeId}
    {result : Option ClusterState} {d : HaDecision}
    (hphase : (w'.sys.agents n).phase = .decided result d) :
    ((w.sys.agents n).phase = .decided result d ∧ ∀ answered, event ≠ .read n answered) ∨
    ∃ now readTook takeover random stamp released,
      event = .decide n now readTook takeover random stamp released ∧
      (w.sys.agents n).phase = .read result ∧
      (w.tickInput n now readTook takeover random).read (dep.timing n) = result ∧
      d = (tickOnce (dep.haLoop n) (w.sys.agents n).tick
          (w.tickInput n now readTook takeover random)).decision ∧
      ∀ lease expected, takeover = .ok (.won lease) →
        .tryTakeover n expected ∈ (tickOnce (dep.haLoop n) (w.sys.agents n).tick
          (w.tickInput n now readTook takeover random)).calls →
        w'.sys.holder = some n := by
  rcases World.phase_of_step h n with ⟨hsame, hne⟩ | hidle | ⟨_, -, -, hread⟩ |
    ⟨now, readTook, takeover, random, stamp, released, st, hevent, hbefore, hread,
      hdecided, hwon⟩
  · exact Or.inl ⟨hsame.symm.trans hphase, hne⟩
  · rw [hidle] at hphase
    cases hphase
  · rw [hread] at hphase
    cases hphase
  · rw [hdecided] at hphase
    obtain ⟨rfl, rfl⟩ := Phase.decided.inj hphase
    exact Or.inr ⟨now, readTook, takeover, random, stamp, released, hevent, hbefore, hread, rfl,
      hwon⟩

/-- `mem_newlyIssued`, of an event of the world. -/
theorem World.mem_newlyIssued (h : w.step dep event = some w') {e : Issued}
    (he : e ∈ w.sys.newlyIssued w'.sys) :
    (w.sys.agents e.node).phase = .decided e.read e.decision ∧
      ∃ es inp, e.action ∈ ((dep.executor e.node).apply es inp e.decision).2 := by
  rcases sys_of_step h with ⟨-, hsame⟩ | ⟨sysEvent, -, hstep⟩
  · rw [hsame, System.newlyIssued, Nat.sub_self] at he
    cases he
  · obtain ⟨hphase, -, hmem⟩ := PgAgent.mem_newlyIssued hstep he
    exact ⟨hphase, hmem⟩

end WorldStep

end PgAgent
