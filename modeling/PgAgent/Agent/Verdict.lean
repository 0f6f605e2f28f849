import PgAgent.Agent.Startup

/-!
# The verdict of the startup check

The check asks every peer and classifies the answers that have a known timeline. It does not matter
in which order they come in (`classifyPrimary_perm`), and a further answer can only accuse, never
acquit, since an accusation rests on one peer (`classifyPrimary_accuses_iff`).

* `observations_perm` --- the observations, without the fan-out that brought them;
* `classifyPrimary_accuses_iff`, `classifyPrimary_eq_confirmed_iff` --- the verdict, by the answers.
-/

namespace PgAgent

open Rust

namespace PrimaryVerdict

/-- The same kind of verdict, with the same set of accused peers. -/
def Same : PrimaryVerdict → PrimaryVerdict → Prop
  | confirmed, confirmed => True
  | notApplicable, notApplicable => True
  | phantom tl peers, phantom tl' peers' => tl = tl' ∧ ∀ o, o ∈ peers ↔ o ∈ peers'
  | splitBrain tl peers, splitBrain tl' peers' => tl = tl' ∧ ∀ o, o ∈ peers ↔ o ∈ peers'
  | unverifiable reason, unverifiable reason' => reason = reason'
  | _, _ => False

/-- `Phantom` or `SplitBrain`. -/
def Accuses (v : PrimaryVerdict) : Prop :=
  (∃ tl peers, v = phantom tl peers) ∨ ∃ tl peers, v = splitBrain tl peers

theorem Same.refl (v : PrimaryVerdict) : v.Same v := by
  cases v with
  | confirmed => trivial
  | notApplicable => trivial
  | phantom tl peers => exact ⟨rfl, fun _ => Iff.rfl⟩
  | splitBrain tl peers => exact ⟨rfl, fun _ => Iff.rfl⟩
  | unverifiable reason => rfl

end PrimaryVerdict

/-! ## Classifying -/

section Classify

variable {localTl : ℤ} {observations observations' : List PeerObservation} {required : ℕ}

/-- The peers on a higher timeline. -/
def phantomPeers (localTl : ℤ) (observations : List PeerObservation) : List PeerObservation :=
  observations.filter fun o => o.timelineId > localTl

/-- The peers that assert the primary role on the same timeline. -/
def splitPeers (localTl : ℤ) (observations : List PeerObservation) : List PeerObservation :=
  observations.filter fun o => o.timelineId = localTl && o.assertingPrimary

theorem mem_phantomPeers {o : PeerObservation} :
    o ∈ phantomPeers localTl observations ↔ o ∈ observations ∧ localTl < o.timelineId := by
  rw [phantomPeers, List.mem_filter, decide_eq_true_iff]

theorem mem_splitPeers {o : PeerObservation} :
    o ∈ splitPeers localTl observations ↔
      o ∈ observations ∧ o.timelineId = localTl ∧ o.assertingPrimary = true := by
  rw [splitPeers, List.mem_filter, Bool.and_eq_true, decide_eq_true_iff]

/-- The ways in which a verdict comes about. -/
theorem classifyPrimary_cases (localTl : ℤ) (observations : List PeerObservation)
    (required : ℕ) :
    (phantomPeers localTl observations ≠ [] ∧
        classifyPrimary localTl observations required =
          .phantom localTl (phantomPeers localTl observations)) ∨
      (phantomPeers localTl observations = [] ∧ splitPeers localTl observations ≠ [] ∧
        classifyPrimary localTl observations required =
          .splitBrain localTl (splitPeers localTl observations)) ∨
      (phantomPeers localTl observations = [] ∧ splitPeers localTl observations = [] ∧
        classifyPrimary localTl observations required =
          if observations.length < required then
            .unverifiable (.tooFewPeers observations.length required)
          else .confirmed) := by
  have hunfold : classifyPrimary localTl observations required =
      if !(phantomPeers localTl observations).isEmpty then
        .phantom localTl (phantomPeers localTl observations)
      else if !(splitPeers localTl observations).isEmpty then
        .splitBrain localTl (splitPeers localTl observations)
      else if observations.length < required then
        .unverifiable (.tooFewPeers observations.length required)
      else .confirmed := rfl
  rw [hunfold]
  by_cases hphantom : phantomPeers localTl observations = []
  · by_cases hsplit : splitPeers localTl observations = []
    · refine Or.inr (Or.inr ⟨hphantom, hsplit, ?_⟩)
      rw [hphantom, hsplit]
      rfl
    · refine Or.inr (Or.inl ⟨hphantom, hsplit, ?_⟩)
      rw [if_neg (by simp [hphantom]), if_pos (by simpa using hsplit)]
  · refine Or.inl ⟨hphantom, ?_⟩
    rw [if_pos (by simpa using hphantom)]

/-- The order of the observations does not matter. -/
theorem classifyPrimary_perm (h : observations.Perm observations') :
    (classifyPrimary localTl observations required).Same
      (classifyPrimary localTl observations' required) := by
  have hphantoms : (phantomPeers localTl observations).Perm (phantomPeers localTl observations') :=
    h.filter _
  have hsplits : (splitPeers localTl observations).Perm (splitPeers localTl observations') :=
    h.filter _
  obtain ⟨hne, hv⟩ | ⟨hnil, hne, hv⟩ | ⟨hnil, hnil', hv⟩ :=
    classifyPrimary_cases localTl observations required
  · obtain ⟨-, hv'⟩ | ⟨hnil', -⟩ | ⟨hnil', -⟩ :=
      classifyPrimary_cases localTl observations' required
    · rw [hv, hv']
      exact ⟨rfl, fun o => hphantoms.mem_iff⟩
    · exact absurd (List.perm_nil.mp (hnil' ▸ hphantoms)) hne
    · exact absurd (List.perm_nil.mp (hnil' ▸ hphantoms)) hne
  · obtain ⟨hne', -⟩ | ⟨-, -, hv'⟩ | ⟨-, hnil', -⟩ :=
      classifyPrimary_cases localTl observations' required
    · exact absurd (List.nil_perm.mp (hnil ▸ hphantoms)) hne'
    · rw [hv, hv']
      exact ⟨rfl, fun o => hsplits.mem_iff⟩
    · exact absurd (List.perm_nil.mp (hnil' ▸ hsplits)) hne
  · obtain ⟨hne', -⟩ | ⟨-, hne', -⟩ | ⟨-, -, hv'⟩ :=
      classifyPrimary_cases localTl observations' required
    · exact absurd (List.nil_perm.mp (hnil ▸ hphantoms)) hne'
    · exact absurd (List.nil_perm.mp (hnil' ▸ hsplits)) hne'
    · rw [hv, hv', h.length_eq]
      exact PrimaryVerdict.Same.refl _

/-- An accusation needs one peer on a higher timeline, or one that asserts the role on the same
timeline. -/
theorem classifyPrimary_accuses_iff :
    (classifyPrimary localTl observations required).Accuses ↔
      ∃ o ∈ observations,
        localTl < o.timelineId ∨ (o.timelineId = localTl ∧ o.assertingPrimary = true) := by
  have hphantom : phantomPeers localTl observations ≠ [] ↔
      ∃ o ∈ observations, localTl < o.timelineId := by
    simp only [ne_eq, List.eq_nil_iff_forall_not_mem, not_forall, not_not, mem_phantomPeers]
  have hsplit : splitPeers localTl observations ≠ [] ↔
      ∃ o ∈ observations, o.timelineId = localTl ∧ o.assertingPrimary = true := by
    simp only [ne_eq, List.eq_nil_iff_forall_not_mem, not_forall, not_not, mem_splitPeers]
  obtain ⟨hne, hv⟩ | ⟨-, hne, hv⟩ | ⟨hnil, hnil', hv⟩ :=
    classifyPrimary_cases localTl observations required
  · obtain ⟨o, ho, hhigher⟩ := hphantom.mp hne
    rw [hv]
    exact iff_of_true (Or.inl ⟨_, _, rfl⟩) ⟨o, ho, Or.inl hhigher⟩
  · obtain ⟨o, ho, hsame⟩ := hsplit.mp hne
    rw [hv]
    exact iff_of_true (Or.inr ⟨_, _, rfl⟩) ⟨o, ho, Or.inr hsame⟩
  · refine iff_of_false ?_ ?_
    · rw [hv]
      rintro (⟨tl, peers, heq⟩ | ⟨tl, peers, heq⟩)
      · split at heq <;> cases heq
      · split at heq <;> cases heq
    · rintro ⟨o, ho, hhigher | hsame⟩
      · exact hphantom.mpr ⟨o, ho, hhigher⟩ hnil
      · exact hsplit.mpr ⟨o, ho, hsame⟩ hnil'

/-- Confirmed: enough observations, and none that accuses. -/
theorem classifyPrimary_eq_confirmed_iff :
    classifyPrimary localTl observations required = .confirmed ↔
      required ≤ observations.length ∧
        ∀ o ∈ observations,
          ¬ (localTl < o.timelineId ∨
            (o.timelineId = localTl ∧ o.assertingPrimary = true)) := by
  have haccuses : (classifyPrimary localTl observations required).Accuses ↔ _ :=
    classifyPrimary_accuses_iff
  obtain ⟨-, hv⟩ | ⟨-, -, hv⟩ | ⟨hnil, hnil', hv⟩ :=
    classifyPrimary_cases localTl observations required
  · obtain ⟨o, ho, hconvicts⟩ := haccuses.mp (hv ▸ Or.inl ⟨_, _, rfl⟩)
    rw [hv]
    exact iff_of_false (fun h => nomatch h) fun h => h.2 o ho hconvicts
  · obtain ⟨o, ho, hconvicts⟩ := haccuses.mp (hv ▸ Or.inr ⟨_, _, rfl⟩)
    rw [hv]
    exact iff_of_false (fun h => nomatch h) fun h => h.2 o ho hconvicts
  · have hnone : ∀ o ∈ observations,
        ¬ (localTl < o.timelineId ∨ (o.timelineId = localTl ∧ o.assertingPrimary = true)) := by
      rintro o ho (hhigher | hsame)
      · exact List.not_mem_nil (hnil ▸ mem_phantomPeers.mpr ⟨ho, hhigher⟩)
      · exact List.not_mem_nil (hnil' ▸ mem_splitPeers.mpr ⟨ho, hsame⟩)
    rw [hv]
    split
    · rename_i hfew
      exact iff_of_false (fun h => nomatch h) fun h => absurd h.1 (not_le.mpr hfew)
    · rename_i henough
      exact iff_of_true rfl ⟨not_lt.mp henough, hnone⟩

end Classify

/-! ## The answers behind the observations -/

/-- The observation of a peer, if it answered with a known timeline. -/
def PeerObservation.ofEnd (ends : NodeConfig → TaskEnd) (n : NodeConfig) :
    Option PeerObservation :=
  PeerObservation.ofView ⟨n, (ends n).answer⟩

theorem ofView_failed (n : NodeConfig) : PeerObservation.ofView ⟨n, none⟩ = none := rfl

/-- An observation is an answer with a known timeline. -/
theorem ofView_eq_some_iff {n : NodeConfig} {status : Option NodeStatus} {o : PeerObservation} :
    PeerObservation.ofView ⟨n, status⟩ = some o ↔
      ∃ s, status = some s ∧ 0 < s.timelineId ∧
        o = ⟨n.id, n.hostname, s.timelineId, s.isInRecovery,
          s.isPostgresStatusOk && s.isPostgresRunning && !s.isInRecovery⟩ := by
  unfold PeerObservation.ofView
  dsimp only
  constructor
  · intro h
    split at h
    · rename_i s
      split at h
      · rename_i hknown
        exact ⟨s, rfl, hknown, (Option.some.inj h).symm⟩
      · cases h
    · cases h
  · rintro ⟨s, rfl, hknown, rfl⟩
    dsimp only
    rw [if_pos hknown]

/-- The observations of a fan-out are those of the peers, in some order. -/
theorem observations_perm (nodes : List NodeConfig) (ends : NodeConfig → TaskEnd) :
    ((collectStatuses nodes ends).filterMap PeerObservation.ofView).Perm
      (nodes.filterMap (PeerObservation.ofEnd ends)) := by
  have hgaps : ∀ ns : List NodeConfig,
      (ns.map fun n => (⟨n, none⟩ : PeerStatusView)).filterMap PeerObservation.ofView = [] := by
    intro ns
    refine List.filterMap_eq_nil_iff.mpr fun v hv => ?_
    obtain ⟨n, -, rfl⟩ := List.mem_map.mp hv
    exact ofView_failed n
  have hsorted : (arrived nodes ends).Perm ((nodes.filterMap (arrivedView ends)).map Prod.snd) :=
    (List.perm_insertionSort _ _).map _
  have hviews : ((nodes.filterMap (arrivedView ends)).map Prod.snd).filterMap
      PeerObservation.ofView = nodes.filterMap (PeerObservation.ofEnd ends) := by
    rw [List.filterMap_map, List.filterMap_filterMap]
    refine List.filterMap_congr fun n _ => ?_
    -- a task without an answer and an answer without a status give no observation
    unfold arrivedView PeerObservation.ofEnd
    cases ends n with
    | answered rank status => rfl
    | panicked => rfl
    | late => rfl
  rw [collectStatuses, List.filterMap_append, hgaps, List.append_nil, ← hviews]
  exact hsorted.filterMap _

theorem mem_observations {nodes : List NodeConfig} {ends : NodeConfig → TaskEnd}
    {o : PeerObservation} :
    o ∈ (collectStatuses nodes ends).filterMap PeerObservation.ofView ↔
      ∃ n ∈ nodes, ∃ s, (ends n).answer = some s ∧ 0 < s.timelineId ∧
        o = ⟨n.id, n.hostname, s.timelineId, s.isInRecovery,
          s.isPostgresStatusOk && s.isPostgresRunning && !s.isInRecovery⟩ := by
  rw [(observations_perm nodes ends).mem_iff, List.mem_filterMap]
  simp only [PeerObservation.ofEnd, ofView_eq_some_iff]

/-- The answer has a known timeline. -/
def knownTimeline (ends : NodeConfig → TaskEnd) (n : NodeConfig) : Bool :=
  (ends n).answer.any fun s => decide (0 < s.timelineId)

theorem length_observations (nodes : List NodeConfig) (ends : NodeConfig → TaskEnd) :
    ((collectStatuses nodes ends).filterMap PeerObservation.ofView).length =
      (nodes.filter (knownTimeline ends)).length := by
  have hknown : ∀ n, knownTimeline ends n = (PeerObservation.ofEnd ends n).isSome := by
    intro n
    unfold knownTimeline PeerObservation.ofEnd PeerObservation.ofView
    dsimp only
    cases (ends n).answer with
    | none => rfl
    | some s =>
      by_cases hpos : 0 < s.timelineId
      · simp [hpos]
      · simp [hpos]
  rw [(observations_perm nodes ends).length_eq, List.length_filterMap_eq_countP,
    List.countP_eq_length_filter]
  exact congrArg List.length (List.filter_congr fun n _ => (hknown n).symm)

/-! ## The check -/

/-- The node runs as a primary on the known timeline `localTl`. -/
def RunsAsPrimary (p : StatusProbes) (localTl : ℤ) : Prop :=
  p.statusPostgres = some true ∧ p.db.isInRecovery = some false ∧
    p.db.timelineId = some localTl ∧ 0 < localTl

/-- The check classifies the observations of a running primary; about any other node it says
nothing, whatever the peers say. -/
theorem verifyPrimaryAtStartup_cases (required : ℕ) (p : StatusProbes) :
    (∃ localTl, RunsAsPrimary p localTl ∧ ∀ pool ends,
        verifyPrimaryAtStartup pool required p ends =
          classifyPrimary localTl
            ((collectStatuses pool.others ends).filterMap PeerObservation.ofView) required) ∨
      ((∀ localTl, ¬ RunsAsPrimary p localTl) ∧
        ∃ v, (v = .notApplicable ∨ ∃ reason, v = .unverifiable reason) ∧
          ∀ pool ends, verifyPrimaryAtStartup pool required p ends = v) := by
  unfold verifyPrimaryAtStartup RunsAsPrimary
  cases p.statusPostgres with
  | none => exact Or.inr ⟨fun _ h => (nomatch h.1), _, Or.inr ⟨_, rfl⟩, fun _ _ => rfl⟩
  | some running =>
    cases running with
    | false => exact Or.inr ⟨fun _ h => (nomatch h.1), _, Or.inl rfl, fun _ _ => rfl⟩
    | true =>
      cases p.db.isInRecovery with
      | none => exact Or.inr ⟨fun _ h => (nomatch h.2.1), _, Or.inr ⟨_, rfl⟩,
          fun _ _ => rfl⟩
      | some inRecovery =>
        cases inRecovery with
        | true => exact Or.inr ⟨fun _ h => (nomatch h.2.1), _, Or.inl rfl, fun _ _ => rfl⟩
        | false =>
          cases p.db.timelineId with
          | none => exact Or.inr ⟨fun _ h => (nomatch h.2.2.1), _, Or.inr ⟨_, rfl⟩,
              fun _ _ => rfl⟩
          | some tl =>
            by_cases hpos : 0 < tl
            · exact Or.inl ⟨tl, ⟨rfl, rfl, rfl, hpos⟩, fun _ _ => if_pos hpos⟩
            · refine Or.inr ⟨?_, _, Or.inr ⟨_, rfl⟩, fun _ _ => if_neg hpos⟩
              rintro tl' ⟨-, -, htl, hpos'⟩
              rw [← Option.some.inj htl] at hpos'
              exact hpos hpos'

/-- The answer of a peer that serves as primary, as the check reads it. -/
def NodeStatus.assertsPrimary (s : NodeStatus) : Bool :=
  s.isPostgresStatusOk && s.isPostgresRunning && !s.isInRecovery

/-- An agent that reports a serving PostgreSQL has asked systemd. -/
theorem assertsPrimary_getStatus (p : StatusProbes) (ages : NodeMap UInt64) :
    (getStatus p ages).assertsPrimary = (getStatus p ages).serving := by
  show (p.statusPostgres.isSome && p.statusPostgres.getD false && !p.db.isInRecovery.getD false) =
    (p.statusPostgres.getD false && !p.db.isInRecovery.getD false)
  cases p.statusPostgres with
  | none => rfl
  | some running => rfl

/-- The verdict of the startup check: **it does not depend on the order of the answers; it is
`Confirmed` exactly for a running primary with a known timeline, enough peers that answered with
one, none on a higher timeline and none that serves as primary on the same one; and a further answer
turns no accusation into an acquittal**. -/
theorem startup_verdict (pool : NodePool) (required : ℕ) (p : StatusProbes)
    (ends : NodeConfig → TaskEnd) :
    (∀ ends', (∀ n ∈ pool.others, (ends' n).answer = (ends n).answer) →
      (verifyPrimaryAtStartup pool required p ends).Same
        (verifyPrimaryAtStartup pool required p ends')) ∧
    (verifyPrimaryAtStartup pool required p ends = .confirmed ↔
      ∃ localTl, RunsAsPrimary p localTl ∧
        required ≤ (pool.others.filter (knownTimeline ends)).length ∧
        ∀ n ∈ pool.others, ∀ s, (ends n).answer = some s →
          ¬ localTl < s.timelineId ∧ ¬ (s.timelineId = localTl ∧ s.assertsPrimary = true)) ∧
    ∀ pool' ends',
      (∀ n ∈ pool.others, ∀ s, (ends n).answer = some s →
        n ∈ pool'.others ∧ (ends' n).answer = some s) →
      (verifyPrimaryAtStartup pool required p ends).Accuses →
        (verifyPrimaryAtStartup pool' required p ends').Accuses := by
  obtain ⟨localTl, hprimary, hclassify⟩ | ⟨hnot, v, hkind, hv⟩ :=
    verifyPrimaryAtStartup_cases required p
  · refine ⟨fun ends' hanswers => ?_, ?_, fun pool' ends' hmore haccuses => ?_⟩
    · rw [hclassify, hclassify]
      refine classifyPrimary_perm ((observations_perm pool.others ends).trans ?_)
      have hends : pool.others.filterMap (PeerObservation.ofEnd ends) =
          pool.others.filterMap (PeerObservation.ofEnd ends') := by
        refine List.filterMap_congr fun n hn => ?_
        rw [PeerObservation.ofEnd, PeerObservation.ofEnd, hanswers n hn]
      rw [hends]
      exact (observations_perm pool.others ends').symm
    · rw [hclassify, classifyPrimary_eq_confirmed_iff, length_observations]
      constructor
      · rintro ⟨henough, hnone⟩
        refine ⟨localTl, hprimary, henough, fun n hn s hs => ?_⟩
        have hpos : 0 < localTl := hprimary.2.2.2
        refine ⟨fun hhigher => ?_, fun ⟨hsame, hasserts⟩ => ?_⟩
        · exact hnone _ (mem_observations.mpr ⟨n, hn, s, hs, by omega, rfl⟩) (Or.inl hhigher)
        · exact hnone _ (mem_observations.mpr ⟨n, hn, s, hs, by omega, rfl⟩)
            (Or.inr ⟨hsame, hasserts⟩)
      · rintro ⟨tl, htl, henough, hnone⟩
        have heq : tl = localTl :=
          Option.some.inj (htl.2.2.1.symm.trans hprimary.2.2.1)
        subst heq
        refine ⟨henough, fun o ho hconvicts => ?_⟩
        obtain ⟨n, hn, s, hs, -, rfl⟩ := mem_observations.mp ho
        rcases hconvicts with hhigher | hsame
        · exact (hnone n hn s hs).1 hhigher
        · exact (hnone n hn s hs).2 hsame
    · rw [hclassify, classifyPrimary_accuses_iff] at haccuses
      rw [hclassify, classifyPrimary_accuses_iff]
      obtain ⟨o, ho, hconvicts⟩ := haccuses
      obtain ⟨n, hn, s, hs, hknown, rfl⟩ := mem_observations.mp ho
      obtain ⟨hn', hs'⟩ := hmore n hn s hs
      exact ⟨_, mem_observations.mpr ⟨n, hn', s, hs', hknown, rfl⟩, hconvicts⟩
  · refine ⟨fun ends' _ => ?_, ?_, fun pool' ends' _ haccuses => ?_⟩
    · rw [hv, hv]
      exact PrimaryVerdict.Same.refl v
    · refine iff_of_false ?_ fun ⟨tl, htl, _⟩ => hnot tl htl
      rw [hv]
      rcases hkind with rfl | ⟨reason, rfl⟩
      · exact fun h => nomatch h
      · exact fun h => nomatch h
    · rw [hv] at haccuses ⊢
      exact haccuses

end PgAgent
