import PgAgent.Cluster.FanOut

/-!
# Draining the status tasks

`View` says what a fan-out returns, given how every task ended. Here is the loop of
`collect_statuses` itself, which takes the tasks out of their `JoinSet` one by one until the set is
empty or the deadline is reached, records the peers it saw serving, and then fills the gaps.

A run of the loop is the list of the tasks that finish, in the order in which they do. A task that
never finishes is not on it.

* `mem_drain` --- the loop takes exactly the tasks that finish before the deadline;
* `views_nodes_perm` --- one view for each node;
* `views_perm_collectStatuses` --- the loop returns the views of `collectStatuses`.
-/

namespace PgAgent

open Rust

/-- What `join_next` hands out for a finished task: the view that it returned, or its panic. -/
inductive TaskResult where
  | view (status : Option NodeStatus)
  | panicked

/-- A task that finishes: the clock reading of the iteration that waits for it, and the instant at
which it is joined. -/
structure JoinEvent where
  looked : Instant
  joined : Instant
  node : NodeConfig
  result : TaskResult

/-- A run of the loop over the tasks of `nodes`. -/
structure DrainRun (nodes : List NodeConfig) where
  start : Instant
  budget : Duration
  events : List JoinEvent
  looked_le : ∀ e ∈ events, e.looked ≤ e.joined
  /-- The tasks are joined in the order in which they finish. -/
  ordered : events.Pairwise fun a b => a.joined ≤ b.joined
  spawned : ∀ e ∈ events, e.node ∈ nodes
  once : (events.map JoinEvent.node).Nodup

/-- The `while` loop: the views that are joined. -/
def drain (deadline : Instant) : List JoinEvent → List PeerStatusView
  | [] => []
  | e :: es =>
    if deadline ≤ e.looked then []
    -- the timeout of `join_next` expires at the deadline
    else if deadline ≤ e.joined then []
    else
      match e.result with
      | .view status => ⟨e.node, status⟩ :: drain deadline es
      | .panicked => drain deadline es

/-- The last loop: a failure for each node that has no view yet. -/
def fillGaps (nodes : List NodeConfig) (out : List PeerStatusView) : List PeerStatusView :=
  nodes.foldl
    (fun out n => if out.any fun v => v.node.id == n.id then out else out ++ [⟨n, none⟩])
    out

namespace DrainRun

variable {nodes : List NodeConfig}

def deadline (run : DrainRun nodes) : Instant := run.start + run.budget

/-- The views that have been joined when the loop ends. -/
def out (run : DrainRun nodes) : List PeerStatusView := drain run.deadline run.events

/-- What `collect_statuses` returns. -/
def views (run : DrainRun nodes) : List PeerStatusView := fillGaps nodes run.out

/-- What `collect_statuses` leaves in the record of sightings. -/
def sightings (run : DrainRun nodes) (seen : PeerSeen) (now : Instant) : PeerSeen :=
  recordSightings seen now run.out

/-- The peer answered with `s` before the budget. -/
def Answered (run : DrainRun nodes) (n : NodeConfig) (s : NodeStatus) : Prop :=
  ∃ e ∈ run.events, e.node = n ∧ e.joined < run.deadline ∧ e.result = .view (some s)

end DrainRun

/-! ## The loop -/

theorem drain_cons_of_lt {deadline : Instant} {e : JoinEvent} (es : List JoinEvent)
    (hlooked : e.looked ≤ e.joined) (hjoined : e.joined < deadline) :
    drain deadline (e :: es) =
      match e.result with
      | .view status => ⟨e.node, status⟩ :: drain deadline es
      | .panicked => drain deadline es := by
  rw [drain, if_neg (not_le.mpr (lt_of_le_of_lt hlooked hjoined)), if_neg (not_le.mpr hjoined)]

/-- The loop takes exactly the views of the tasks that finish before the deadline. -/
theorem mem_drain {deadline : Instant} {events : List JoinEvent} {v : PeerStatusView}
    (hlooked : ∀ e ∈ events, e.looked ≤ e.joined)
    (hordered : events.Pairwise fun a b => a.joined ≤ b.joined) :
    v ∈ drain deadline events ↔
      ∃ e ∈ events, e.node = v.node ∧ e.joined < deadline ∧ e.result = .view v.status := by
  induction events with
  | nil => simp [drain]
  | cons e es ih =>
    obtain ⟨hfirst, hrest⟩ := List.pairwise_cons.mp hordered
    have ih := ih (fun d hd => hlooked d (List.mem_cons_of_mem e hd)) hrest
    have hle := hlooked e List.mem_cons_self
    by_cases hlate : deadline ≤ e.joined
    · -- the first task is late, and so are all behind it
      have hnil : drain deadline (e :: es) = [] := by
        rw [drain, if_pos hlate, ite_self]
      rw [hnil]
      constructor
      · intro hv
        exact absurd hv List.not_mem_nil
      · rintro ⟨d, hd, -, hjoined, -⟩
        rcases List.mem_cons.mp hd with rfl | hmem
        · exact absurd hlate (not_le.mpr hjoined)
        · exact absurd (le_trans hlate (hfirst d hmem)) (not_le.mpr hjoined)
    · have hjoined : e.joined < deadline := not_le.mp hlate
      rw [drain_cons_of_lt es hle hjoined, List.exists_mem_cons_iff]
      obtain ⟨vn, vs⟩ := v
      cases hresult : e.result with
      | view status =>
        dsimp only
        rw [List.mem_cons, ih]
        refine or_congr_left ⟨?_, ?_⟩
        · intro hv
          obtain ⟨rfl, rfl⟩ := PeerStatusView.mk.inj hv
          exact ⟨rfl, hjoined, rfl⟩
        · rintro ⟨rfl, -, hs⟩
          rw [TaskResult.view.inj hs]
      | panicked =>
        dsimp only
        rw [ih]
        refine (or_iff_right ?_).symm
        rintro ⟨-, -, hs⟩
        cases hs

/-- The loop keeps the order of the tasks. -/
theorem drain_sublist (deadline : Instant) (events : List JoinEvent) :
    ((drain deadline events).map PeerStatusView.node).Sublist (events.map JoinEvent.node) := by
  induction events with
  | nil => exact List.Sublist.refl _
  | cons e es ih =>
    rw [drain, List.map_cons]
    split
    · exact List.nil_sublist _
    · split
      · exact List.nil_sublist _
      · split
        · exact ih.cons_cons e.node
        · exact ih.cons e.node

/-! ## The gaps -/

theorem any_node_id {out : List PeerStatusView} {id : NodeId} :
    (out.any fun v => v.node.id == id) = true ↔ id ∈ out.map fun v => v.node.id := by
  rw [List.any_eq_true, List.mem_map]
  simp only [beq_iff_eq]

/-- The failures stand behind what was joined, one for each node that has no view. -/
theorem fillGaps_eq {nodes : List NodeConfig} (hids : (nodes.map NodeConfig.id).Nodup)
    (out : List PeerStatusView) :
    fillGaps nodes out =
      out ++ (nodes.filter fun n => !out.any fun v => v.node.id == n.id).map
        fun n => ⟨n, none⟩ := by
  induction nodes generalizing out with
  | nil => simp [fillGaps]
  | cons n ns ih =>
    obtain ⟨hnot, hrest⟩ := List.nodup_cons.mp hids
    rw [fillGaps, List.foldl_cons, ← fillGaps]
    by_cases hany : (out.any fun v => v.node.id == n.id) = true
    · rw [if_pos hany, ih hrest, List.filter_cons_of_neg (by simp [hany])]
    · rw [if_neg hany, ih hrest, List.filter_cons_of_pos (by simpa using hany), List.map_cons,
        List.append_assoc, List.singleton_append]
      -- the new failure is about none of the nodes behind `n`
      have hfilter : (ns.filter fun m => !(out ++ [(⟨n, none⟩ : PeerStatusView)]).any
            fun v => v.node.id == m.id) =
              ns.filter fun m => !out.any fun v => v.node.id == m.id := by
        refine List.filter_congr fun m hm => ?_
        have hne : (n.id == m.id) = false := by
          rw [beq_eq_false_iff_ne]
          exact fun h => hnot (h ▸ List.mem_map_of_mem hm)
        rw [List.any_append, List.any_cons, List.any_nil, hne, Bool.or_false, Bool.or_false]
      rw [hfilter]

namespace DrainRun

variable {nodes : List NodeConfig} (run : DrainRun nodes)

theorem mem_out {v : PeerStatusView} :
    v ∈ run.out ↔
      ∃ e ∈ run.events, e.node = v.node ∧ e.joined < run.deadline ∧
        e.result = .view v.status :=
  mem_drain run.looked_le run.ordered

theorem out_node_mem {v : PeerStatusView} (hv : v ∈ run.out) : v.node ∈ nodes := by
  obtain ⟨e, he, hnode, -, -⟩ := run.mem_out.mp hv
  exact hnode ▸ run.spawned e he

theorem out_nodup : (run.out.map PeerStatusView.node).Nodup :=
  (drain_sublist run.deadline run.events).nodup run.once

/-- A task is joined at most once. -/
theorem event_unique {d e : JoinEvent} (hd : d ∈ run.events) (he : e ∈ run.events)
    (h : d.node = e.node) : d = e :=
  List.inj_on_of_nodup_map run.once hd he h

section Views

variable (hids : (nodes.map NodeConfig.id).Nodup)
include hids

/-- With distinct ids, a gap is a node without a view. -/
theorem gap_iff {n : NodeConfig} (hn : n ∈ nodes) :
    (!run.out.any fun v => v.node.id == n.id) = true ↔ n ∉ run.out.map PeerStatusView.node := by
  rw [Bool.not_eq_true', ← Bool.not_eq_true, any_node_id, not_iff_not, List.mem_map, List.mem_map]
  constructor
  · rintro ⟨v, hv, hid⟩
    exact ⟨v, hv, List.inj_on_of_nodup_map hids (run.out_node_mem hv) hn hid⟩
  · rintro ⟨v, hv, rfl⟩
    exact ⟨v, hv, rfl⟩

/-- One view for each node. -/
theorem views_nodes_perm : (run.views.map PeerStatusView.node).Perm nodes := by
  have hnodup : nodes.Nodup := List.Nodup.of_map _ hids
  have hmap : run.views.map PeerStatusView.node =
      run.out.map PeerStatusView.node ++
        nodes.filter fun n => !run.out.any fun v => v.node.id == n.id := by
    rw [views, fillGaps_eq hids, List.map_append, List.map_map]
    congr 1
    exact List.map_id _
  rw [hmap]
  refine (List.perm_ext_iff_of_nodup ?_ hnodup).mpr fun n => ?_
  · refine List.nodup_append'.mpr ⟨run.out_nodup, hnodup.filter _, fun n hout hgap => ?_⟩
    obtain ⟨hn, hgap⟩ := List.mem_filter.mp hgap
    exact (run.gap_iff hids hn).mp hgap hout
  · rw [List.mem_append, List.mem_filter]
    constructor
    · rintro (hout | ⟨hn, -⟩)
      · obtain ⟨v, hv, rfl⟩ := List.mem_map.mp hout
        exact run.out_node_mem hv
      · exact hn
    · intro hn
      by_cases hout : n ∈ run.out.map PeerStatusView.node
      · exact Or.inl hout
      · exact Or.inr ⟨hn, (run.gap_iff hids hn).mpr hout⟩

/-- A view is what its peer answered before the budget, and a failure if it did not answer. -/
theorem status_eq_some_iff {v : PeerStatusView} (hv : v ∈ run.views) (s : NodeStatus) :
    v.status = some s ↔ run.Answered v.node s := by
  rw [views, fillGaps_eq hids, List.mem_append] at hv
  rcases hv with hout | hgap
  · obtain ⟨e, he, hnode, hjoined, hresult⟩ := run.mem_out.mp hout
    constructor
    · intro hs
      exact ⟨e, he, hnode, hjoined, hs ▸ hresult⟩
    · rintro ⟨d, hd, hdnode, -, hdresult⟩
      rw [run.event_unique hd he (hdnode.trans hnode.symm), hresult] at hdresult
      exact TaskResult.view.inj hdresult
  · obtain ⟨n, hn, rfl⟩ := List.mem_map.mp hgap
    obtain ⟨hmem, hany⟩ := List.mem_filter.mp hn
    have hnot := (run.gap_iff hids hmem).mp hany
    constructor
    · intro hs
      cases hs
    · rintro ⟨d, hd, hdnode, hjoined, hresult⟩
      have hout : (⟨n, some s⟩ : PeerStatusView) ∈ run.out :=
        run.mem_out.mpr ⟨d, hd, hdnode, hjoined, hresult⟩
      exact absurd (List.mem_map_of_mem hout) hnot

end Views

end DrainRun

/-! ## The record of sightings -/

theorem recordSightings_cons (seen : PeerSeen) (now : Instant) (v : PeerStatusView)
    (out : List PeerStatusView) :
    recordSightings seen now (v :: out) = recordSightings (recordSightings seen now [v]) now out :=
  rfl

/-- A serving view writes its own id, -/
theorem recordSightings_serving (seen : PeerSeen) (now : Instant) {v : PeerStatusView}
    {s : NodeStatus} (hs : v.status = some s) (hserving : s.serving = true) :
    recordSightings seen now [v] = seen.recordPrimary now v.node.id := by
  unfold recordSightings
  rw [List.foldl_cons, List.foldl_nil, hs]
  exact if_pos hserving

/-- and any other view writes nothing. -/
theorem recordSightings_other (seen : PeerSeen) (now : Instant) {v : PeerStatusView}
    (h : ¬ ∃ s, v.status = some s ∧ s.serving = true) :
    recordSightings seen now [v] = seen := by
  unfold recordSightings
  rw [List.foldl_cons, List.foldl_nil]
  cases hs : v.status with
  | some s => exact if_neg fun hserving => h ⟨s, hs, hserving⟩
  | none => rfl

/-- Recording touches the ids of the serving views and no others. -/
theorem lookup_recordSightings (seen : PeerSeen) (now : Instant) (out : List PeerStatusView)
    (id : NodeId) :
    ((∃ v ∈ out, v.node.id = id ∧ ∃ s, v.status = some s ∧ s.serving = true) →
        (recordSightings seen now out).lookup id = some now) ∧
      ((¬ ∃ v ∈ out, v.node.id = id ∧ ∃ s, v.status = some s ∧ s.serving = true) →
        (recordSightings seen now out).lookup id = seen.lookup id) := by
  induction out generalizing seen with
  | nil => exact ⟨fun ⟨v, hv, _⟩ => absurd hv List.not_mem_nil, fun _ => rfl⟩
  | cons v out ih =>
    rw [recordSightings_cons, List.exists_mem_cons_iff]
    obtain ⟨hrecorded, hkept⟩ := ih (recordSightings seen now [v])
    by_cases hlater : ∃ w ∈ out, w.node.id = id ∧
      ∃ s, w.status = some s ∧ s.serving = true
    · exact ⟨fun _ => hrecorded hlater, fun hnone => absurd (Or.inr hlater) hnone⟩
    · rw [hkept hlater]
      constructor
      · rintro (⟨hid, s, hs, hserving⟩ | hin)
        · rw [recordSightings_serving seen now hs hserving, PeerSeen.recordPrimary, hid,
            AList.lookup_insert]
        · exact absurd hin hlater
      · intro hnone
        by_cases hserving : ∃ s, v.status = some s ∧ s.serving = true
        · have hne : id ≠ v.node.id := fun hid => hnone (Or.inl ⟨hid.symm, hserving⟩)
          obtain ⟨s, hs, hserving⟩ := hserving
          rw [recordSightings_serving seen now hs hserving, PeerSeen.recordPrimary,
            AList.lookup_insert_ne hne]
        · rw [recordSightings_other seen now hserving]

namespace DrainRun

variable {nodes : List NodeConfig} (run : DrainRun nodes)

/-- The joined views that say "serving" are those of the peers that answered so. -/
theorem exists_serving_iff (id : NodeId) :
    (∃ v ∈ run.out, v.node.id = id ∧ ∃ s, v.status = some s ∧ s.serving = true) ↔
      ∃ n ∈ nodes, n.id = id ∧ ∃ s, run.Answered n s ∧ s.serving = true := by
  constructor
  · rintro ⟨v, hv, hid, s, hs, hserving⟩
    obtain ⟨e, he, hnode, hjoined, hresult⟩ := run.mem_out.mp hv
    exact ⟨v.node, run.out_node_mem hv, hid, s,
      ⟨e, he, hnode, hjoined, hs ▸ hresult⟩, hserving⟩
  · rintro ⟨n, hn, hid, s, ⟨e, he, hnode, hjoined, hresult⟩, hserving⟩
    exact ⟨⟨n, some s⟩, run.mem_out.mpr ⟨e, he, hnode, hjoined, hresult⟩, hid, s,
      rfl, hserving⟩

/-- A fan-out degrades peer by peer: one view for each node, which is what the peer answered before
the budget and a failure otherwise; and the sightings are updated for exactly the peers that
answered before the budget that they are running and not in recovery. -/
theorem drain_degrades_per_peer (hids : (nodes.map NodeConfig.id).Nodup) (seen : PeerSeen)
    (now : Instant) :
    (run.views.map PeerStatusView.node).Perm nodes ∧
      (∀ v ∈ run.views, ∀ s, v.status = some s ↔ run.Answered v.node s) ∧
      ∀ id,
        ((∃ n ∈ nodes, n.id = id ∧ ∃ s, run.Answered n s ∧ s.serving = true) →
          (run.sightings seen now).lookup id = some now) ∧
        ((¬ ∃ n ∈ nodes, n.id = id ∧ ∃ s, run.Answered n s ∧ s.serving = true) →
          (run.sightings seen now).lookup id = seen.lookup id) := by
  refine ⟨run.views_nodes_perm hids, fun v hv => run.status_eq_some_iff hids hv, fun id => ?_⟩
  rw [← run.exists_serving_iff id]
  exact lookup_recordSightings seen now run.out id

/-- Three peers: the last one answers first, the first one panics, and the second one outlives the
budget. -/
def oneOfThree : DrainRun [⟨1, "db1"⟩, ⟨2, "db2"⟩, ⟨3, "db3"⟩] where
  start := 0
  budget := 5
  events :=
    [⟨0, 1, ⟨3, "db3"⟩, .view (some FanOut.servingStatus)⟩,
      ⟨1, 2, ⟨1, "db1"⟩, .panicked⟩,
      ⟨2, 7, ⟨2, "db2"⟩, .view (some FanOut.servingStatus)⟩]
  looked_le := by simp
  ordered := by simp
  spawned := by simp
  once := by decide

theorem drain_degrades_oneOfThree :
    oneOfThree.Answered ⟨3, "db3"⟩ FanOut.servingStatus ∧
      ¬ oneOfThree.Answered ⟨2, "db2"⟩ FanOut.servingStatus ∧
      (oneOfThree.views.map PeerStatusView.node).Perm
        [⟨1, "db1"⟩, ⟨2, "db2"⟩, ⟨3, "db3"⟩] ∧
      (oneOfThree.sightings ∅ 4).lookup 3 = some 4 := by
  have hanswered : oneOfThree.Answered ⟨3, "db3"⟩ FanOut.servingStatus :=
    ⟨_, List.mem_cons_self, rfl, by decide, rfl⟩
  obtain ⟨hperm, -, hseen⟩ := oneOfThree.drain_degrades_per_peer (by decide) ∅ 4
  refine ⟨hanswered, ?_, hperm,
    (hseen 3).1 ⟨⟨3, "db3"⟩, by decide, rfl, _, hanswered, rfl⟩⟩
  rintro ⟨e, he, hnode, hjoined, -⟩
  simp only [oneOfThree, List.mem_cons, List.not_mem_nil, or_false] at he
  rcases he with rfl | rfl | rfl
  · exact absurd hnode (by decide)
  · exact absurd hnode (by decide)
  · exact absurd hjoined (by decide)

/-! ## The views of `collectStatuses` -/

/-- How the tasks end in the run; the instants of joining are the ranks. -/
def ends (n : NodeConfig) : TaskEnd :=
  match run.events.find? fun e => e.node = n with
  | none => .late
  | some e =>
    if e.joined < run.deadline then
      match e.result with
      | .view status => .answered e.joined status
      | .panicked => .panicked
    else .late

theorem find?_event {e : JoinEvent} (he : e ∈ run.events) :
    (run.events.find? fun d => d.node = e.node) = some e := by
  cases hfind : run.events.find? fun d => d.node = e.node with
  | none => exact absurd (decide_eq_true rfl) (List.find?_eq_none.mp hfind e he)
  | some d =>
    have hnode : d.node = e.node := by simpa using List.find?_some hfind
    rw [run.event_unique (List.mem_of_find?_eq_some hfind) he hnode]

theorem ends_eq_answered_iff {n : NodeConfig} {status : Option NodeStatus} :
    (∃ rank, run.ends n = .answered rank status) ↔
      ∃ e ∈ run.events, e.node = n ∧ e.joined < run.deadline ∧ e.result = .view status := by
  constructor
  · rintro ⟨rank, hends⟩
    unfold ends at hends
    split at hends
    · cases hends
    rename_i e hfind
    split at hends
    · rename_i hjoined
      split at hends
      · rename_i t hresult
        obtain ⟨-, rfl⟩ := TaskEnd.answered.inj hends
        have hnode : e.node = n := by simpa using List.find?_some hfind
        exact ⟨e, List.mem_of_find?_eq_some hfind, hnode, hjoined, hresult⟩
      · cases hends
    · cases hends
  · rintro ⟨e, he, rfl, hjoined, hresult⟩
    refine ⟨e.joined, ?_⟩
    unfold ends
    rw [run.find?_event he]
    dsimp only
    rw [if_pos hjoined, hresult]

end DrainRun

theorem arrivedView_sublist (nodes : List NodeConfig) (ends : NodeConfig → TaskEnd) :
    ((nodes.filterMap (arrivedView ends)).map fun p => p.2.node).Sublist nodes := by
  induction nodes with
  | nil => exact List.Sublist.refl _
  | cons n ns ih =>
    rw [List.filterMap_cons]
    cases hview : arrivedView ends n with
    | none => exact ih.cons n
    | some p =>
      have hnode : p.2.node = n := by
        unfold arrivedView at hview
        split at hview
        · rw [← Option.some.inj hview]
        · cases hview
        · cases hview
      show ((p.2.node) :: _).Sublist (n :: ns)
      rw [hnode]
      exact ih.cons_cons n

/-- No node is joined twice. -/
theorem arrived_nodes_nodup {nodes : List NodeConfig} (h : nodes.Nodup)
    (ends : NodeConfig → TaskEnd) : ((arrived nodes ends).map PeerStatusView.node).Nodup := by
  have hperm : ((arrived nodes ends).map PeerStatusView.node).Perm
      ((nodes.filterMap (arrivedView ends)).map fun p => p.2.node) := by
    rw [arrived, List.map_map]
    exact (List.perm_insertionSort _ _).map _
  exact hperm.nodup_iff.mpr ((arrivedView_sublist nodes ends).nodup h)

namespace DrainRun

variable {nodes : List NodeConfig} (run : DrainRun nodes)

/-- The loop returns the views of `collectStatuses`. -/
theorem views_perm_collectStatuses (hids : (nodes.map NodeConfig.id).Nodup) :
    run.views.Perm (collectStatuses nodes run.ends) := by
  have hout : run.out.Perm (arrived nodes run.ends) := by
    refine (List.perm_ext_iff_of_nodup (List.Nodup.of_map _ run.out_nodup)
      (List.Nodup.of_map _ (arrived_nodes_nodup (List.Nodup.of_map _ hids) run.ends))).mpr
        fun v => ?_
    rw [mem_arrived, run.ends_eq_answered_iff, ← run.mem_out]
    exact ⟨fun hv => ⟨run.out_node_mem hv, hv⟩, fun hv => hv.2⟩
  rw [views, fillGaps_eq hids, collectStatuses]
  refine hout.append (List.Perm.of_eq ?_)
  congr 1
  refine List.filter_congr fun n _ => ?_
  rw [Bool.not_inj_iff, Bool.eq_iff_iff, any_node_id, any_node_id]
  exact (hout.map _).mem_iff

end DrainRun

end PgAgent
