import Mathlib.Data.List.MinMax
import PgAgent.Cluster.View

/-!
# The lead marker of `cluster status`

`print_status_table` marks at most one node with `*` and tells the operator what the mark means.
With two or more running primaries the mark says which one to keep, the others being recovered to
it; with none it says which data directory to start. The second mark is given to a unique maximum
only; the first goes to the last of several maxima, and leaves out the positions that are unknown in
both halves but not those that are unknown in one.

* `coldLead_eq_some_iff` --- which node is marked when nothing is running;
* `runningLead_spec` --- the mark among running primaries has a maximal position;
* `leadSound_iff` --- when the mark says what the operator takes it to say.
-/

namespace PgAgent

/-! ## The rows -/

/-- `StatusRow`. -/
structure StatusRow where
  id : NodeId
  hostname : String
  result : Except String NodeStatus

/-- `LeadBasis`. -/
inductive LeadBasis
  | runningPrimaries
  | coldTimelines
  deriving DecidableEq, Repr

def LeadBasis.footnote : LeadBasis → String
  | runningPrimaries => "* lead primary by (timeline, LSN) — recover other primaries to this one"
  | coldTimelines => "* furthest-ahead data directory by timeline (nothing is running) — " ++
      "`cluster start-primary` there, then recover the others to it"

/-! ## The mark -/

/-- `max_by_key`: of several maxima the last one. -/
def maxByKey {α β : Type} [LinearOrder β] (key : α → β) (l : List α) : Option α :=
  l.reverse.argmax key

namespace StatusRow

def isRunningPrimary (r : StatusRow) : Bool :=
  match r.result with
  | .ok s => s.isPostgresStatusOk && s.isPostgresRunning && !s.isInRecovery
  | .error _ => false

/-- What is ranked of a running primary. -/
def ranked (r : StatusRow) : Option (ℤ × ℕ × NodeId) :=
  match r.result with
  | .ok s =>
    if s.timelineId = 0 ∧ s.currentWalLsn = 0 then none
    else some (s.timelineId, s.currentWalLsn, r.id)
  | .error _ => none

/-- What is ranked when nothing is running. -/
def known (r : StatusRow) : Option (ℤ × NodeId) :=
  match r.result with
  | .ok s => if 0 < s.timelineId then some (s.timelineId, r.id) else none
  | .error _ => none

end StatusRow

namespace StatusTable

def primaries (rows : List StatusRow) : List StatusRow := rows.filter StatusRow.isRunningPrimary

/-- The branch of two or more running primaries. -/
def runningLead (rows : List StatusRow) : Option NodeId :=
  (maxByKey (fun p => toLex (p.1, p.2.1)) ((primaries rows).filterMap StatusRow.ranked)).map
    fun p => p.2.2

/-- The branch without a running primary. -/
def coldLead (rows : List StatusRow) : Option NodeId :=
  let known := rows.filterMap StatusRow.known
  match (known.map Prod.fst).max? with
  | some top =>
    if (known.filter fun p => p.1 == top).length = 1 then
      (known.find? fun p => p.1 == top).map Prod.snd
    else none
  | none => none

/-- The `lead` of `print_status_table`. -/
def lead (rows : List StatusRow) : Option (NodeId × LeadBasis) :=
  if 2 ≤ (primaries rows).length then
    (runningLead rows).map fun id => (id, .runningPrimaries)
  else if primaries rows = [] then (coldLead rows).map fun id => (id, .coldTimelines)
  else none

def leadId (rows : List StatusRow) : Option NodeId := (lead rows).map Prod.fst

/-- The cell `ROLE` of a row in front of the mark. -/
def role (r : StatusRow) : String :=
  match r.result with
  | .ok s =>
    if !(s.isPostgresStatusOk && s.isPostgresRunning) then "unknown"
    else if s.isInRecovery then "standby"
    else "primary"
  | .error _ => "—"

/-- The cell `ROLE` of a row of the table. -/
def roleCell (rows : List StatusRow) (r : StatusRow) : String :=
  if some r.id = leadId rows then role r ++ "*" else role r

theorem roleCell_marked_iff {rows : List StatusRow} {r : StatusRow} :
    roleCell rows r = role r ++ "*" ↔ leadId rows = some r.id := by
  have hne : role r ≠ role r ++ "*" := by
    intro h
    have hlength := congrArg String.length h
    rw [String.length_append] at hlength
    have hone : "*".length = 1 := by decide
    omega
  unfold roleCell
  constructor
  · intro h
    by_contra hlead
    rw [if_neg fun heq => hlead heq.symm] at h
    exact hne h
  · intro h
    rw [if_pos h.symm]

/-! ## What a row says -/

/-- The timeline of a row; `0` is unknown. -/
def timeline (r : StatusRow) : ℤ :=
  match r.result with
  | .ok s => s.timelineId
  | .error _ => 0

/-- The LSN of a row; `0` is unknown. -/
def lsn (r : StatusRow) : ℕ :=
  match r.result with
  | .ok s => s.currentWalLsn
  | .error _ => 0

/-- Timeline and LSN, compared in this order. -/
def position (r : StatusRow) : ℤ ×ₗ ℕ := toLex (timeline r, lsn r)

/-- Both halves of the position are known. -/
def Known (r : StatusRow) : Prop := timeline r ≠ 0 ∧ lsn r ≠ 0

/-- One half of the position is known: the row is not left out. -/
def Ranked (r : StatusRow) : Prop := ¬ (timeline r = 0 ∧ lsn r = 0)

instance : DecidablePred Ranked := fun _ => inferInstanceAs (Decidable (¬ _))

/-! ## What the mark says -/

/-- The mark does not depend on the order of the rows; among running primaries it says that the
position is known and ahead of every other known one, and without one it says this of the timeline;
a single primary is not marked. -/
structure LeadSound (rows : List StatusRow) : Prop where
  perm : ∀ rows' : List StatusRow, rows'.Perm rows → leadId rows' = leadId rows
  running : 2 ≤ (primaries rows).length → ∀ i, leadId rows = some i →
    ∃ r ∈ primaries rows, r.id = i ∧ Known r ∧
      ∀ r' ∈ primaries rows, r'.id ≠ i → Known r' → position r' < position r
  cold : primaries rows = [] → ∀ i, leadId rows = some i →
    ∃ r ∈ rows, r.id = i ∧ 0 < timeline r ∧
      ∀ r' ∈ rows, r'.id ≠ i → timeline r' ≠ 0 → timeline r' < timeline r
  single : (primaries rows).length = 1 → leadId rows = none

/-- A primary whose position is not known keeps all of them from being marked. -/
structure LeadSoundStrict (rows : List StatusRow) : Prop extends LeadSound rows where
  compared : 2 ≤ (primaries rows).length → leadId rows ≠ none →
      ∀ r ∈ primaries rows, Known r

/-- Of the running primaries that are not left out, one is ahead of all others, and its position is
known. -/
def LeadClear (rows : List StatusRow) : Prop :=
  2 ≤ (primaries rows).length →
    (∀ r ∈ primaries rows, ¬ Ranked r) ∨
      ∃ w ∈ primaries rows, Known w ∧
        ∀ r ∈ primaries rows, r.id ≠ w.id → Ranked r → position r < position w

/-- The positions of all running primaries are known, and one is ahead of all others. -/
def LeadClearStrict (rows : List StatusRow) : Prop :=
  2 ≤ (primaries rows).length →
    (∀ r ∈ primaries rows, ¬ Ranked r) ∨
      (∀ r ∈ primaries rows, Known r) ∧
        ∃ w ∈ primaries rows, ∀ r ∈ primaries rows, r.id ≠ w.id →
          position r < position w

/-! ## The branches -/

section Branches

variable {rows rows' : List StatusRow} {r w : StatusRow} {i : NodeId}

theorem ranked_eq (r : StatusRow) :
    r.ranked = if Ranked r then some (timeline r, lsn r, r.id) else none := by
  obtain ⟨i, hostname, result⟩ := r
  cases result with
  | ok s => exact (ite_not _ _ _).symm
  | error _ => exact (if_neg (not_not.mpr ⟨rfl, rfl⟩)).symm

theorem known_eq (r : StatusRow) :
    r.known = if 0 < timeline r then some (timeline r, r.id) else none := by
  unfold StatusRow.known timeline
  split
  · rfl
  · rw [if_neg (lt_irrefl 0)]

theorem mem_ranked_iff {p : ℤ × ℕ × NodeId} :
    p ∈ (primaries rows).filterMap StatusRow.ranked ↔
      ∃ r ∈ primaries rows, Ranked r ∧ p = (timeline r, lsn r, r.id) := by
  rw [List.mem_filterMap]
  refine exists_congr fun r => and_congr_right fun _ => ?_
  rw [ranked_eq, Option.ite_none_right_eq_some, Option.some_inj, @eq_comm _ _ p]

theorem mem_known_iff {p : ℤ × NodeId} :
    p ∈ rows.filterMap StatusRow.known ↔
      ∃ r ∈ rows, 0 < timeline r ∧ p = (timeline r, r.id) := by
  rw [List.mem_filterMap]
  refine exists_congr fun r => and_congr_right fun _ => ?_
  rw [known_eq, Option.ite_none_right_eq_some, Option.some_inj, @eq_comm _ _ p]

theorem Known.ranked (h : Known r) : Ranked r := fun hzero => h.1 hzero.1

theorem mem_of_mem_primaries (h : r ∈ primaries rows) : r ∈ rows := (List.mem_filter.mp h).1

theorem eq_of_id_eq (hids : (rows.map StatusRow.id).Nodup) (hr : r ∈ rows) (hw : w ∈ rows)
    (h : r.id = w.id) : r = w :=
  List.inj_on_of_nodup_map hids hr hw h

theorem primaries_perm (h : rows'.Perm rows) : (primaries rows').Perm (primaries rows) :=
  h.filter _

/-- The mark among running primaries is on one with a maximal position. -/
theorem runningLead_spec (h : runningLead rows = some i) :
    ∃ r ∈ primaries rows, r.id = i ∧ Ranked r ∧
      ∀ r' ∈ primaries rows, Ranked r' → position r' ≤ position r := by
  obtain ⟨p, hmax, rfl⟩ := Option.map_eq_some_iff.mp h
  have hmem := List.mem_reverse.mp (List.argmax_mem (Option.mem_def.mpr hmax))
  obtain ⟨r, hr, hranked, rfl⟩ := mem_ranked_iff.mp hmem
  refine ⟨r, hr, rfl, hranked, fun r' hr' hranked' => ?_⟩
  have hmem' : (timeline r', lsn r', r'.id) ∈
      ((primaries rows).filterMap StatusRow.ranked).reverse :=
    List.mem_reverse.mpr (mem_ranked_iff.mpr ⟨r', hr', hranked', rfl⟩)
  have hle := List.le_of_mem_argmax hmem' (Option.mem_def.mpr hmax)
  exact hle

theorem runningLead_eq_none_iff :
    runningLead rows = none ↔ ∀ r ∈ primaries rows, ¬ Ranked r := by
  unfold runningLead maxByKey
  rw [Option.map_eq_none_iff, List.argmax_eq_none, List.reverse_eq_nil_iff,
    List.filterMap_eq_nil_iff]
  refine forall₂_congr fun r _ => ?_
  rw [ranked_eq, ite_eq_right_iff]
  exact ⟨fun h hranked => Option.some_ne_none _ (h hranked), fun h hranked => absurd hranked h⟩

/-- One that is ahead of all others is marked. -/
theorem runningLead_of_ahead (hw : w ∈ primaries rows) (hranked : Ranked w)
    (hahead : ∀ r ∈ primaries rows, r.id ≠ w.id → Ranked r → position r < position w) :
    runningLead rows = some w.id := by
  cases hlead : runningLead rows with
  | none => exact absurd hranked (runningLead_eq_none_iff.mp hlead w hw)
  | some i =>
    obtain ⟨r, hr, rfl, hrranked, hmax⟩ := runningLead_spec hlead
    by_contra hne
    have hlt := hahead r hr (fun heq => hne (congrArg some heq)) hrranked
    exact absurd (hmax w hw hranked) (not_le_of_gt hlt)

theorem nodup_known (hids : (rows.map StatusRow.id).Nodup) :
    (rows.filterMap StatusRow.known).Nodup := by
  rw [List.Nodup, List.pairwise_filterMap]
  refine (List.pairwise_map.mp hids).imp fun {r r'} hne p hp p' hp' heq => hne ?_
  rw [known_eq, Option.ite_none_right_eq_some, Option.some_inj] at hp hp'
  exact congrArg Prod.snd (hp.2.trans (heq.trans hp'.2.symm))

/-- A list without repetitions that has one element. -/
theorem eq_singleton_of_nodup {α : Type} {l : List α} {a : α} (hnodup : l.Nodup) (hmem : a ∈ l)
    (hall : ∀ b ∈ l, b = a) : l = [a] := by
  cases l with
  | nil => cases hmem
  | cons b l =>
    obtain rfl := hall b List.mem_cons_self
    cases l with
    | nil => rfl
    | cons c l =>
      have hc : c = b := hall c (List.mem_cons_of_mem _ List.mem_cons_self)
      exact absurd (hc ▸ List.mem_cons_self) (List.nodup_cons.mp hnodup).1

/-- Without a running primary the mark is on the one with the greatest known timeline. -/
theorem coldLead_eq_some_iff (hids : (rows.map StatusRow.id).Nodup) :
    coldLead rows = some i ↔ ∃ r ∈ rows, r.id = i ∧ 0 < timeline r ∧
      ∀ r' ∈ rows, r'.id ≠ i → 0 < timeline r' → timeline r' < timeline r := by
  unfold coldLead
  dsimp only
  cases hmax : ((rows.filterMap StatusRow.known).map Prod.fst).max? with
  | none =>
    rw [List.max?_eq_none_iff, List.map_eq_nil_iff] at hmax
    refine iff_of_false (fun h => Option.some_ne_none _ h.symm) ?_
    rintro ⟨r, hr, -, hpos, -⟩
    have hmem := mem_known_iff.mpr ⟨r, hr, hpos, rfl⟩
    rw [hmax] at hmem
    cases hmem
  | some top =>
    obtain ⟨htop, hle⟩ := List.max?_eq_some_iff.mp hmax
    have hbound : ∀ r ∈ rows, 0 < timeline r → timeline r ≤ top := fun r hr hpos =>
      hle _ (List.mem_map.mpr ⟨_, mem_known_iff.mpr ⟨r, hr, hpos, rfl⟩, rfl⟩)
    have hfilter : ∀ p, p ∈ (rows.filterMap StatusRow.known).filter (fun p => p.1 == top) ↔
        ∃ r ∈ rows, 0 < timeline r ∧ timeline r = top ∧ p = (timeline r, r.id) := by
      intro p
      rw [List.mem_filter, mem_known_iff, beq_iff_eq]
      constructor
      · rintro ⟨⟨r, hr, hpos, rfl⟩, heq⟩
        exact ⟨r, hr, hpos, heq, rfl⟩
      · rintro ⟨r, hr, hpos, heq, rfl⟩
        exact ⟨⟨r, hr, hpos, rfl⟩, heq⟩
    dsimp only
    constructor
    · intro h
      split at h
      · next hone =>
        obtain ⟨p, hfind, rfl⟩ := Option.map_eq_some_iff.mp h
        obtain ⟨q, hq⟩ := List.length_eq_one_iff.mp hone
        have hp : p ∈ (rows.filterMap StatusRow.known).filter fun p => p.1 == top := by
          rw [← List.head?_filter] at hfind
          exact List.mem_of_head? hfind
        obtain ⟨r, hr, hpos, heq, rfl⟩ := (hfilter p).mp hp
        refine ⟨r, hr, rfl, hpos, fun r' hr' hne hpos' => ?_⟩
        refine lt_of_le_of_ne (heq ▸ hbound r' hr' hpos') fun htie => hne ?_
        -- a second one at the top would be in the list of one
        have hp' := (hfilter _).mpr ⟨r', hr', hpos', htie.trans heq, rfl⟩
        rw [hq, List.mem_singleton] at hp hp'
        exact congrArg Prod.snd (hp'.trans hp.symm)
      · cases h
    · rintro ⟨r, hr, rfl, hpos, hahead⟩
      obtain ⟨p, hp, rfl⟩ := List.mem_map.mp htop
      obtain ⟨r', hr', hpos', rfl⟩ := mem_known_iff.mp hp
      have hid : r'.id = r.id := by
        by_contra hne
        exact absurd (hbound r hr hpos) (not_le_of_gt (hahead r' hr' hne hpos'))
      obtain rfl := eq_of_id_eq hids hr' hr hid
      have hone : (rows.filterMap StatusRow.known).filter (fun p => p.1 == timeline r') =
          [(timeline r', r'.id)] := by
        refine eq_singleton_of_nodup ((nodup_known hids).filter _)
          ((hfilter _).mpr ⟨r', hr, hpos, rfl, rfl⟩) fun p hp => ?_
        obtain ⟨r, hr, hpos, heq, rfl⟩ := (hfilter p).mp hp
        have hid : r.id = r'.id := by
          by_contra hne
          exact absurd heq (ne_of_lt (hahead r hr hne hpos))
        rw [heq, hid]
      rw [← List.head?_filter, hone]
      rfl

/-! ## The table -/

theorem leadId_running (h : 2 ≤ (primaries rows).length) : leadId rows = runningLead rows := by
  unfold leadId lead
  rw [if_pos h, Option.map_map]
  exact congrFun Option.map_id _

theorem leadId_cold (h : primaries rows = []) : leadId rows = coldLead rows := by
  unfold leadId lead
  rw [if_neg (by rw [h]; decide), if_pos h, Option.map_map]
  exact congrFun Option.map_id _

theorem leadId_single (h : (primaries rows).length = 1) : leadId rows = none := by
  have hne : primaries rows ≠ [] := fun hnil => by rw [hnil] at h; cases h
  unfold leadId lead
  rw [if_neg (by omega), if_neg hne]
  rfl

/-- Where one is ahead, the mark does not depend on the order. -/
theorem leadId_perm (hids : (rows.map StatusRow.id).Nodup) (hclear : LeadClear rows)
    (hperm : rows'.Perm rows) : leadId rows' = leadId rows := by
  have hp := primaries_perm hperm
  have hids' : (rows'.map StatusRow.id).Nodup := (hperm.map _).nodup_iff.mpr hids
  have hlength := hp.length_eq
  rcases lt_trichotomy (primaries rows).length 1 with hzero | hone | htwo
  · have hnil : primaries rows = [] := List.length_eq_zero_iff.mp (by omega)
    have hnil' : primaries rows' = [] := List.length_eq_zero_iff.mp (by omega)
    rw [leadId_cold hnil, leadId_cold hnil']
    ext i
    simp only [coldLead_eq_some_iff hids, coldLead_eq_some_iff hids', hperm.mem_iff]
  · rw [leadId_single hone, leadId_single (hlength.trans hone)]
  · rw [leadId_running htwo, leadId_running (hlength.symm ▸ htwo)]
    rcases hclear htwo with hnone | ⟨w, hw, hknown, hahead⟩
    · rw [runningLead_eq_none_iff.mpr hnone,
        runningLead_eq_none_iff.mpr fun r hr => hnone r (hp.mem_iff.mp hr)]
    · rw [runningLead_of_ahead hw hknown.ranked hahead,
        runningLead_of_ahead (hp.mem_iff.mpr hw) hknown.ranked
          fun r hr => hahead r (hp.mem_iff.mp hr)]

theorem LeadSound.clear (hids : (rows.map StatusRow.id).Nodup) (h : LeadSound rows) :
    LeadClear rows := by
  intro htwo
  cases hlead : runningLead rows with
  | none => exact Or.inl (runningLead_eq_none_iff.mp hlead)
  | some i =>
    obtain ⟨w, hw, rfl, -, hmax⟩ := runningLead_spec hlead
    obtain ⟨r, hr, hid, hknown, hahead⟩ := h.running htwo _ ((leadId_running htwo).trans hlead)
    obtain rfl := eq_of_id_eq hids (mem_of_mem_primaries hr) (mem_of_mem_primaries hw) hid
    refine Or.inr ⟨r, hr, hknown, fun r' hr' hne hranked => ?_⟩
    -- one that is not behind is at the same position, which is known
    refine lt_of_le_of_ne (hmax r' hr' hranked) fun heq => ?_
    have hpair : timeline r' = timeline r ∧ lsn r' = lsn r := Prod.mk.inj (toLex.injective heq)
    have hknown' : Known r' := by
      unfold Known
      rw [hpair.1, hpair.2]
      exact hknown
    exact absurd heq (ne_of_lt (hahead r' hr' hne hknown'))

theorem LeadClear.sound (hids : (rows.map StatusRow.id).Nodup) (h : LeadClear rows) :
    LeadSound rows where
  perm _ hperm := leadId_perm hids h hperm
  running htwo i hlead := by
    rw [leadId_running htwo] at hlead
    rcases h htwo with hnone | ⟨w, hw, hknown, hahead⟩
    · rw [runningLead_eq_none_iff.mpr hnone] at hlead
      cases hlead
    · rw [runningLead_of_ahead hw hknown.ranked hahead] at hlead
      obtain rfl := Option.some.inj hlead
      exact ⟨w, hw, rfl, hknown, fun r hr hne hr' => hahead r hr hne hr'.ranked⟩
  cold hnil i hlead := by
    rw [leadId_cold hnil, coldLead_eq_some_iff hids] at hlead
    obtain ⟨r, hr, hid, hpos, hahead⟩ := hlead
    refine ⟨r, hr, hid, hpos, fun r' hr' hne _ => ?_⟩
    by_cases hpos' : 0 < timeline r'
    · exact hahead r' hr' hne hpos'
    · omega
  single := leadId_single

/-- When the mark says what the operator takes it to say: whether the unknown positions are left out
of the comparison, or keep every primary from being marked. -/
theorem leadSound_iff (rows : List StatusRow) (hids : (rows.map StatusRow.id).Nodup) :
    (LeadSound rows ↔ LeadClear rows) ∧ (LeadSoundStrict rows ↔ LeadClearStrict rows) := by
  refine ⟨⟨fun h => h.clear hids, fun h => h.sound hids⟩, fun h htwo => ?_, fun h => ?_⟩
  · rcases h.toLeadSound.clear hids htwo with hnone | ⟨w, hw, hknown, hahead⟩
    · exact Or.inl hnone
    · have hlead : leadId rows ≠ none := by
        rw [leadId_running htwo, runningLead_of_ahead hw hknown.ranked hahead]
        exact Option.some_ne_none _
      have hall := h.compared htwo hlead
      exact Or.inr ⟨hall, w, hw, fun r hr hne => hahead r hr hne (hall r hr).ranked⟩
  · have hclear : LeadClear rows := by
      intro htwo
      rcases h htwo with hnone | ⟨hall, w, hw, hahead⟩
      · exact Or.inl hnone
      · exact Or.inr ⟨w, hw, hall w hw, fun r hr hne _ => hahead r hr hne⟩
    refine ⟨hclear.sound hids, fun htwo hlead => ?_⟩
    rcases h htwo with hnone | ⟨hall, -⟩
    · rw [leadId_running htwo, runningLead_eq_none_iff.mpr hnone] at hlead
      exact absurd rfl hlead
    · exact hall

end Branches

/-- A running primary at a position. -/
def primaryRow (i : NodeId) (timelineId : ℤ) (lsn : ℕ) : StatusRow where
  id := i
  hostname := "db"
  result := .ok
    { isRunning := true, isInRecovery := false, isReady := true, replicationLagBytes := 0,
      replicationState := "", isPostgresRunning := true, isPgpoolRunning := true,
      isPostgresStatusOk := true, isPgpoolStatusOk := true, timelineId, currentWalLsn := lsn,
      lastFlushLsn := lsn, peerPrimarySeenAgeMs := ∅ }

theorem leadSound_timelines : LeadSound [primaryRow 0 7 200, primaryRow 1 8 100] := by
  refine ((leadSound_iff _ (by decide)).1).mpr fun _ => Or.inr ?_
  have hmem : primaryRow 1 8 100 ∈ primaries [primaryRow 0 7 200, primaryRow 1 8 100] :=
    List.mem_cons_of_mem _ List.mem_cons_self
  exact ⟨_, hmem, ⟨by decide, by decide⟩, by decide⟩

/-- Two primaries at one position: the one that comes last is marked. -/
theorem leadSound_tie : ¬ ∀ rows : List StatusRow, (rows.map StatusRow.id).Nodup →
    LeadSound rows := by
  intro h
  have hperm := (h [primaryRow 0 7 100, primaryRow 1 7 100] (by decide)).perm
    [primaryRow 1 7 100, primaryRow 0 7 100] (List.Perm.swap _ _ _)
  exact absurd hperm (by decide)

end StatusTable

end PgAgent
