import PgAgent.Library.Resumable

/-!
# Ladders with a compensation

A handler makes one call after another.  One of the calls acquires something, a later one
commits it, and what fails between the two has to release what was acquired; if the release
fails as well, it is deferred to somebody else.  Each call comes with what is done when it
fails, so the ladder is a list, and whether a failure is compensated in every place can be read
off the list.

The calls work on a world `σ`, and a call's answer may depend on it.

* `endsIn_of_after` --- a handler comes to its end; what its calls keep holds there;
* `Guarded` --- every rung between the acquisition and the commitment compensates, and no other
  rung does;
* `endsIn_accounted` --- a guarded ladder comes to its end, whatever its calls answer; it has
  then committed, or what it acquired has been released or its release deferred;
* `climbed_of_done` --- a handler that is done has climbed every rung whose failure would have
  ended it.
-/

namespace Compensation

open Resumable

variable {σ κ τ ε ι : Type*}

/-- What is done about a call that has failed.  The label says what the failure is called. -/
inductive OnError (κ τ : Type*) where
  | answers (label : τ)
  | givesUp (label : τ)
  | cleansUp (label : τ)
  | goesOn
  /-- Another call is made instead; its failure is cleaned up. -/
  | fallsBack (call : κ) (label : τ)
  deriving DecidableEq, Repr

structure Rung (κ τ : Type*) where
  call : κ
  onError : OnError κ τ
  deriving DecidableEq, Repr

/-- Where a handler is. -/
inductive At (κ τ ε : Type*) where
  | climbing (rung : Rung κ τ) (rest : List (Rung κ τ))
  | releasing (label : τ) (error : ε)
  | deferring (label : τ) (error releaseError : ε)
  | givingUp (label : τ) (error : ε)
  deriving DecidableEq, Repr

/-- How a handler ends: at the top, early with nothing to do, or with an error. -/
inductive Ending (τ ε : Type*) where
  | done
  | skipped
  | failed (label : τ) (error : ε)
  deriving DecidableEq, Repr

def Ending.succeeded : Ending τ ε → Bool
  | done => true
  | skipped => true
  | failed _ _ => false

/-- The rest of a ladder. -/
def climb : List (Rung κ τ) → At κ τ ε ⊕ Ending τ ε
  | [] => .inr .done
  | rung :: rest => .inl (.climbing rung rest)

/-- Where the handler goes, by the answer of the call it is at; `false` means that there is
nothing to do.  A handler that has something to give up does so before it ends. -/
def At.next (gives : Bool) (pos : At κ τ ε) (answer : Except ε Bool) :
    At κ τ ε ⊕ Ending τ ε :=
  let fails (label : τ) (e : ε) : At κ τ ε ⊕ Ending τ ε :=
    if gives then .inl (.givingUp label e) else .inr (.failed label e)
  match pos, answer with
  | .climbing _ rest, .ok true => climb rest
  | .climbing _ _, .ok false => .inr .skipped
  | .climbing rung rest, .error e =>
      match rung.onError with
      | .answers label => .inr (.failed label e)
      | .givesUp label => fails label e
      | .cleansUp label => .inl (.releasing label e)
      | .goesOn => climb rest
      | .fallsBack call label => .inl (.climbing ⟨call, .cleansUp label⟩ rest)
  | .releasing label e, .ok _ => fails label e
  | .releasing label e, .error e' => .inl (.deferring label e e')
  | .deferring label e _, _ => fails label e
  | .givingUp label e, _ => .inr (.failed label e)

/-- A handler is on its ladder after a call only if it was before: on the next rung, or on a
substitute for the one that has failed. -/
theorem At.climbing_of_next {gives : Bool} {pos : At κ τ ε} {answer : Except ε Bool}
    {rung' : Rung κ τ} {rest' : List (Rung κ τ)}
    (h : pos.next gives answer = .inl (.climbing rung' rest')) :
    ∃ rung rest, pos = .climbing rung rest ∧ (rest = rung' :: rest' ∨
      ∃ call label, rung.onError = .fallsBack call label ∧
        rung' = ⟨call, .cleansUp label⟩ ∧
        rest' = rest) := by
  have hclimb : ∀ rest : List (Rung κ τ), (climb rest : At κ τ ε ⊕ Ending τ ε) =
      .inl (.climbing rung' rest') → rest = rung' :: rest' := by
    intro rest hc
    cases rest with
    | nil => cases hc
    | cons above rest =>
      obtain ⟨rfl, rfl⟩ := At.climbing.inj (Sum.inl.inj hc)
      rfl
  cases pos with
  | climbing rung rest =>
    refine ⟨rung, rest, rfl, ?_⟩
    rcases answer with e | more
    · simp only [At.next] at h
      cases herror : rung.onError with
      | answers label => simp [herror] at h
      | givesUp label =>
        simp only [herror] at h
        split at h <;> cases h
      | cleansUp label => simp [herror] at h
      | goesOn =>
        simp only [herror] at h
        exact Or.inl (hclimb rest h)
      | fallsBack call label =>
        simp only [herror] at h
        obtain ⟨rfl, rfl⟩ := At.climbing.inj (Sum.inl.inj h)
        exact Or.inr ⟨call, label, rfl, rfl, rfl⟩
    · cases more with
      | true => exact Or.inl (hclimb rest h)
      | false => cases h
  | releasing label e =>
    rcases answer with e' | more
    · cases h
    · simp only [At.next] at h
      split at h <;> cases h
  | deferring label e e' =>
    simp only [At.next] at h
    split at h <;> cases h
  | givingUp label e => cases h

/-- What the calls do. -/
structure Site (σ κ τ ε ι : Type*) where
  perform : σ → At κ τ ε → ι → σ × Except ε Bool

/-- What has come of a handler so far: the world, the calls it has made with their answers, the
last one first, and how it has ended. -/
structure Run (σ κ τ ε : Type*) where
  world : σ
  calls : List (At κ τ ε × Except ε Bool)
  ending : Option (Ending τ ε)

def Run.start (w : σ) : Run σ κ τ ε := ⟨w, [], none⟩

/-- The handler on its own. -/
def program (site : Site σ κ τ ε ι) (gives : Bool) :
    Program (Run σ κ τ ε) (At κ τ ε) ι Unit where
  act run pos input :=
    let (world, answer) := site.perform run.world pos input
    let calls := (pos, answer) :: run.calls
    match pos.next gives answer with
    | .inl pos' => (⟨world, calls, none⟩, some pos')
    | .inr ending => (⟨world, calls, some ending⟩, none)
  resume _ _ := none

/-! ## Handlers come to an end -/

/-- How far a handler is from its end. -/
def At.rank : At κ τ ε → ℕ
  | climbing ⟨_, .fallsBack _ _⟩ rest => 5 + 2 * rest.length
  | climbing _ rest => 4 + 2 * rest.length
  | releasing _ _ => 3
  | deferring _ _ _ => 2
  | givingUp _ _ => 1

theorem At.rank_climb_lt {rung : Rung κ τ} {rest : List (Rung κ τ)} {pos' : At κ τ ε}
    (h : (climb rest : At κ τ ε ⊕ Ending τ ε) = .inl pos') :
    pos'.rank < (At.climbing rung rest : At κ τ ε).rank := by
  obtain ⟨call, onError⟩ := rung
  cases rest with
  | nil => cases h
  | cons next rest =>
    obtain rfl := Sum.inl.inj h
    obtain ⟨call', onError'⟩ := next
    cases onError <;> cases onError' <;> simp only [rank, List.length_cons] <;> omega

theorem At.rank_next {gives : Bool} {pos pos' : At κ τ ε} {answer : Except ε Bool}
    (h : pos.next gives answer = .inl pos') : pos'.rank < pos.rank := by
  cases pos with
  | climbing rung rest =>
    have hclimb : climb rest = .inl pos' → pos'.rank < (At.climbing rung rest).rank :=
      At.rank_climb_lt
    obtain ⟨call, onError⟩ := rung
    rcases answer with e | more
    · cases onError with
      | answers label => cases h
      | givesUp label =>
        cases gives with
        | true =>
          obtain rfl := Sum.inl.inj h
          simp only [rank]
          omega
        | false => cases h
      | cleansUp label =>
        obtain rfl := Sum.inl.inj h
        simp only [rank]
        omega
      | goesOn => exact hclimb h
      | fallsBack other label =>
        obtain rfl := Sum.inl.inj h
        simp only [rank]
        omega
    · cases more with
      | true => exact hclimb h
      | false => cases h
  | releasing label e =>
    rcases answer with e' | more
    · obtain rfl := Sum.inl.inj h
      simp only [rank]
      omega
    · cases gives with
      | true =>
        obtain rfl := Sum.inl.inj h
        simp only [rank]
        omega
      | false => cases h
  | deferring label e e' =>
    cases gives with
    | true =>
      obtain rfl := Sum.inl.inj h
      simp only [rank]
      omega
    | false => cases h
  | givingUp label e => cases h

/-- What holds once a call has been answered: the invariant, where the handler goes on, and what is
to hold at the end, where it ends. -/
def After (inv : Run σ κ τ ε → At κ τ ε → Prop)
    (post : Run σ κ τ ε → Prop) (w : σ)
    (calls : List (At κ τ ε × Except ε Bool)) : At κ τ ε ⊕ Ending τ ε → Prop
  | .inl pos => inv ⟨w, calls, none⟩ pos
  | .inr ending => post ⟨w, calls, some ending⟩

/-- A handler whose calls keep an invariant comes to an end that the last of them leaves. -/
theorem endsIn_of_after {site : Site σ κ τ ε ι} {gives : Bool}
    {inv : Run σ κ τ ε → At κ τ ε → Prop} {post : Run σ κ τ ε → Prop}
    (hafter : ∀ run pos input, inv run pos →
      After inv post (site.perform run.world pos input).1
        ((pos, (site.perform run.world pos input).2) :: run.calls)
        (pos.next gives (site.perform run.world pos input).2))
    {run : Run σ κ τ ε} {pos : At κ τ ε} (h : inv run pos) :
    EndsIn (program site gives) run pos post := by
  refine endsIn_of_rank inv At.rank ?_ ?_ h
  · intro run pos input run' pos' hinv hact
    have hnext := hafter run pos input hinv
    simp only [program] at hact
    cases hgoes : pos.next gives (site.perform run.world pos input).2 with
    | inl at' =>
      rw [hgoes] at hact hnext
      obtain ⟨rfl, hpos⟩ := Prod.mk.inj hact
      obtain rfl := Option.some.inj hpos
      exact ⟨hnext, At.rank_next hgoes⟩
    | inr ending =>
      rw [hgoes] at hact
      cases (Prod.mk.inj hact).2
  · intro run pos input run' hinv hact
    have hnext := hafter run pos input hinv
    simp only [program] at hact
    cases hgoes : pos.next gives (site.perform run.world pos input).2 with
    | inl at' =>
      rw [hgoes] at hact
      cases (Prod.mk.inj hact).2
    | inr ending =>
      rw [hgoes] at hact hnext
      obtain ⟨rfl, -⟩ := Prod.mk.inj hact
      exact hnext

/-- What has been called stays called. -/
theorem calls_subset_of_drive {site : Site σ κ τ ε ι} {gives : Bool} {n : ℕ}
    {run run' : Run σ κ τ ε} {pos : At κ τ ε} {inputs : ℕ → ι}
    (h : drive (program site gives) n run pos inputs = (run', none)) :
    run.calls ⊆ run'.calls := by
  induction n generalizing run pos inputs with
  | zero => cases h
  | succ n ih =>
    simp only [drive, program] at h
    cases hnext : pos.next gives (site.perform run.world pos (inputs 0)).2 with
    | inl pos' =>
      rw [hnext] at h
      exact List.Subset.trans (List.subset_cons_self _ _) (ih h)
    | inr ending =>
      rw [hnext] at h
      obtain ⟨rfl, -⟩ := Prod.mk.inj h
      exact List.subset_cons_self _ _

/-- The call a handler is at is made before the handler ends. -/
theorem mem_calls_of_drive {site : Site σ κ τ ε ι} {gives : Bool} {n : ℕ}
    {run run' : Run σ κ τ ε} {pos : At κ τ ε} {inputs : ℕ → ι}
    (h : drive (program site gives) n run pos inputs = (run', none)) :
    ∃ answer, (pos, answer) ∈ run'.calls := by
  refine ⟨(site.perform run.world pos (inputs 0)).2, ?_⟩
  cases n with
  | zero => cases h
  | succ n =>
    simp only [drive, program] at h
    cases hnext : pos.next gives (site.perform run.world pos (inputs 0)).2 with
    | inl pos' =>
      rw [hnext] at h
      exact calls_subset_of_drive h List.mem_cons_self
    | inr ending =>
      rw [hnext] at h
      obtain ⟨rfl, -⟩ := Prod.mk.inj h
      exact List.mem_cons_self

/-- A handler that ends with the call it is at. -/
theorem drive_of_ending {site : Site σ κ τ ε ι} {gives : Bool} {run : Run σ κ τ ε}
    {pos : At κ τ ε} {inputs : ℕ → ι} {answer : Except ε Bool} {ending : Ending τ ε}
    (hanswer : (site.perform run.world pos (inputs 0)).2 = answer)
    (hends : pos.next gives answer = .inr ending) :
    drive (program site gives) 1 run pos inputs =
      (⟨(site.perform run.world pos (inputs 0)).1, (pos, answer) :: run.calls, some ending⟩,
        none) := by
  simp only [drive, program, hanswer, hends]

/-- A rung that does not stop the handler leads to the next one. -/
theorem drive_of_climbing {site : Site σ κ τ ε ι} {gives : Bool} {n : ℕ}
    {run run' : Run σ κ τ ε}
    {rung next : Rung κ τ} {rest : List (Rung κ τ)} {inputs : ℕ → ι}
    (h : drive (program site gives) n run (.climbing rung (next :: rest)) inputs = (run', none))
    (hpasses : (At.climbing rung (next :: rest)).next gives
        (site.perform run.world (.climbing rung (next :: rest)) (inputs 0)).2 =
      .inl (.climbing next rest)) :
    ∃ m run₁, drive (program site gives) m run₁ (.climbing next rest)
      (fun k => inputs (k + 1)) = (run', none) := by
  cases n with
  | zero => cases h
  | succ n =>
    simp only [drive, program] at h
    rw [hpasses] at h
    exact ⟨n, _, h⟩

/-! ## What a run has done -/

/-- The calls a handler has made, with their answers. -/
abbrev Calls (κ τ ε : Type*) := List (At κ τ ε × Except ε Bool)

namespace Calls

/-- A call of the kind was answered without an error. -/
def Made (calls : Calls κ τ ε) (kind : κ → Bool) : Prop :=
  ∃ rung rest more, kind rung.call = true ∧ (At.climbing rung rest, .ok more) ∈ calls

/-- A release was tried. -/
def Released (calls : Calls κ τ ε) : Prop :=
  ∃ label e answer, (At.releasing label e, answer) ∈ calls

/-- Every deferral was taken. -/
def DeferralsTaken (calls : Calls κ τ ε) : Prop :=
  ∀ label e e' error, (At.deferring label e e', Except.error error) ∉ calls

variable {calls : Calls κ τ ε} {kind : κ → Bool} {pos : At κ τ ε} {answer : Except ε Bool}

theorem made_cons_climbing {rung : Rung κ τ} {rest : List (Rung κ τ)} {more : Bool} :
    Made ((.climbing rung rest, .ok more) :: calls) kind ↔
      kind rung.call = true ∨ Made calls kind := by
  constructor
  · rintro ⟨rung', rest', more', hkind, hmem⟩
    rcases List.mem_cons.mp hmem with heq | hmem
    · obtain ⟨hpos, -⟩ := Prod.mk.inj heq
      obtain ⟨rfl, -⟩ := At.climbing.inj hpos
      exact Or.inl hkind
    · exact Or.inr ⟨rung', rest', more', hkind, hmem⟩
  · rintro (hkind | ⟨rung', rest', more', hkind, hmem⟩)
    · exact ⟨rung, rest, more, hkind, List.mem_cons_self⟩
    · exact ⟨rung', rest', more', hkind, List.mem_cons_of_mem _ hmem⟩

/-- A call that is no rung, or fails, is no call of any kind. -/
theorem made_cons_of_ne
    (h : ∀ rung rest more, (pos, answer) ≠ (.climbing rung rest, .ok more)) :
    Made ((pos, answer) :: calls) kind ↔ Made calls kind := by
  constructor
  · rintro ⟨rung, rest, more, hkind, hmem⟩
    rcases List.mem_cons.mp hmem with heq | hmem
    · exact absurd heq.symm (h rung rest more)
    · exact ⟨rung, rest, more, hkind, hmem⟩
  · rintro ⟨rung, rest, more, hkind, hmem⟩
    exact ⟨rung, rest, more, hkind, List.mem_cons_of_mem _ hmem⟩

theorem released_cons_of_ne (h : ∀ label e, pos ≠ .releasing label e) :
    Released ((pos, answer) :: calls) ↔ Released calls := by
  constructor
  · rintro ⟨label, e, answer', hmem⟩
    rcases List.mem_cons.mp hmem with heq | hmem
    · exact absurd (Prod.mk.inj heq).1.symm (h label e)
    · exact ⟨label, e, answer', hmem⟩
  · rintro ⟨label, e, answer', hmem⟩
    exact ⟨label, e, answer', List.mem_cons_of_mem _ hmem⟩

theorem DeferralsTaken.of_cons (h : DeferralsTaken ((pos, answer) :: calls)) :
    DeferralsTaken calls :=
  fun label e e' error hmem => h label e e' error (List.mem_cons_of_mem _ hmem)

end Calls

open Calls

/-- What is acquired is accounted for: without a commitment it is settled, and after one, or with
a success, no release has been tried. -/
structure Accounted (acquires commits : κ → Bool) (Settled : σ → Prop)
    (run : Run σ κ τ ε) :
    Prop where
  settled : DeferralsTaken run.calls → Made run.calls acquires → ¬ Made run.calls commits →
    Settled run.world
  kept : Made run.calls commits ∨ run.ending.any Ending.succeeded = true → ¬ Released run.calls

/-! ## Guarded ladders -/

/-- The call neither acquires nor commits. -/
def neutral (acquires commits : κ → Bool) (call : κ) : Bool := !acquires call && !commits call

/-- What is done about a failure is right, given whether something is held. -/
def OnError.guards (acquires commits skips : κ → Bool) (held : Bool) (call : κ) :
    OnError κ τ → Bool
  | answers _ => !held
  | givesUp _ => !held
  | cleansUp _ => held
  | goesOn => neutral acquires commits call
  | fallsBack other _ =>
      held && (neutral acquires commits call && (neutral acquires commits other && !skips other))

/-- Every rung between the acquisition and the commitment cleans up, and no other rung does.  The
flags say what has happened below the rungs. -/
def Guarded (acquires commits skips : κ → Bool) : Bool → Bool → List (Rung κ τ) → Bool
  | acquired, committed, [] => !acquired || committed
  | acquired, committed, rung :: rest =>
      let held := acquired && !committed
      (!skips rung.call || (!held && neutral acquires commits rung.call)) &&
        (rung.onError.guards acquires commits skips held rung.call &&
          Guarded acquires commits skips (acquired || acquires rung.call)
            (committed || commits rung.call) rest)

/-- What the releases, the deferrals and the giving up have to do to the world, and which calls may
find that there is nothing to do. -/
structure Settles (site : Site σ κ τ ε ι) (skips : κ → Bool) (Settled : σ → Prop) :
    Prop where
  skips : ∀ w rung rest input, (site.perform w (.climbing rung rest) input).2 = .ok false →
    skips rung.call = true
  released : ∀ w label e input more, (site.perform w (.releasing label e) input).2 = .ok more →
    Settled (site.perform w (.releasing label e) input).1
  deferred : ∀ w label e e' input more,
    (site.perform w (.deferring label e e') input).2 = .ok more →
      Settled (site.perform w (.deferring label e e') input).1
  givenUp : ∀ w label e input, Settled w → Settled (site.perform w (.givingUp label e) input).1

section

variable {acquires commits skips : κ → Bool} {Settled : σ → Prop} {site : Site σ κ τ ε ι}
  {gives : Bool}

/-- What holds of a handler that is about to clean up, or to end. -/
structure Fair (acquires commits : κ → Bool) (Settled : σ → Prop) (w : σ)
    (calls : Calls κ τ ε) :
    Prop where
  settled : DeferralsTaken calls → Made calls acquires → ¬ Made calls commits → Settled w
  kept : Made calls commits → ¬ Released calls

/-- The flags say what the calls have done. -/
def Flags (acquires commits : κ → Bool) (calls : Calls κ τ ε) (acquired committed : Bool) :
    Prop :=
  (acquired = true ↔ Made calls acquires) ∧ (committed = true ↔ Made calls commits)

/-- The invariant of a guarded ladder, by where the handler is. -/
def Holds (acquires commits skips : κ → Bool) (Settled : σ → Prop) (run : Run σ κ τ ε) :
    At κ τ ε → Prop
  | .climbing rung rest => ¬ Released run.calls ∧ ∃ acquired committed,
      Flags acquires commits run.calls acquired committed ∧
        Guarded acquires commits skips acquired committed (rung :: rest) = true
  | .releasing _ _ => ¬ Made run.calls commits
  | .deferring _ _ _ => ¬ Made run.calls commits
  | .givingUp _ _ => Fair acquires commits Settled run.world run.calls

/-- What the invariant says once a call has been answered. -/
def HoldsNext (acquires commits skips : κ → Bool) (Settled : σ → Prop) (w : σ)
    (calls : Calls κ τ ε) : At κ τ ε ⊕ Ending τ ε → Prop :=
  After (Holds acquires commits skips Settled) (Accounted acquires commits Settled) w calls

theorem Fair.accounted {w : σ} {calls : Calls κ τ ε} (h : Fair acquires commits Settled w calls)
    (label : τ) (e : ε) :
    Accounted acquires commits Settled ⟨w, calls, some (.failed label e)⟩ where
  settled := h.settled
  kept hdone := by
    rcases hdone with hmade | hsucceeded
    · exact h.kept hmade
    · cases hsucceeded

/-- A failure that is not cleaned up any more. -/
theorem Fair.fails {w : σ} {calls : Calls κ τ ε} (h : Fair acquires commits Settled w calls)
    (label : τ) (e : ε) :
    HoldsNext acquires commits skips Settled w calls
      (if gives then .inl (.givingUp label e) else .inr (.failed label e)) := by
  cases gives with
  | true => exact h
  | false => exact h.accounted label e

/-- The rest of a guarded ladder. -/
theorem holdsNext_climb {w : σ} {calls : Calls κ τ ε} {rest : List (Rung κ τ)}
    {acquired committed : Bool} (hreleased : ¬ Released calls)
    (hflags : Flags acquires commits calls acquired committed)
    (hguarded : Guarded acquires commits skips acquired committed rest = true) :
    HoldsNext acquires commits skips Settled w calls (climb rest) := by
  cases rest with
  | cons rung rest => exact ⟨hreleased, acquired, committed, hflags, hguarded⟩
  | nil =>
    refine ⟨fun _ hacquired hcommitted => ?_, fun _ => hreleased⟩
    -- at the top, what has been acquired has been committed
    have htop : committed = true := by
      simpa [Guarded, hflags.1.mpr hacquired] using hguarded
    exact absurd (hflags.2.mp htop) hcommitted

/-- Where nothing is held, a failure needs no release. -/
theorem fair_of_not_held {w : σ} {calls : Calls κ τ ε} {acquired committed : Bool}
    (hreleased : ¬ Released calls) (hflags : Flags acquires commits calls acquired committed)
    (hheld : (acquired && !committed) = false) : Fair acquires commits Settled w calls where
  settled _ hacquired hcommitted := by
    rw [hflags.1.mpr hacquired, Bool.true_and, Bool.not_eq_false'] at hheld
    exact absurd (hflags.2.mp hheld) hcommitted
  kept _ := hreleased

theorem neutral_iff {call : κ} :
    neutral acquires commits call = true ↔ acquires call = false ∧ commits call = false := by
  simp [neutral]

/-- What `Guarded` says of the lowest rung. -/
theorem guarded_cons {acquired committed : Bool} {rung : Rung κ τ} {rest : List (Rung κ τ)} :
    Guarded acquires commits skips acquired committed (rung :: rest) = true ↔
      (skips rung.call = false ∨ ((acquired && !committed) = false ∧
        neutral acquires commits rung.call = true)) ∧
      rung.onError.guards acquires commits skips (acquired && !committed) rung.call = true ∧
      Guarded acquires commits skips (acquired || acquires rung.call)
        (committed || commits rung.call) rest = true := by
  simp only [Guarded, Bool.and_eq_true, Bool.or_eq_true, Bool.not_eq_true']

theorem Flags.ok {calls : Calls κ τ ε} {acquired committed : Bool}
    (h : Flags acquires commits calls acquired committed) (rung : Rung κ τ)
    (rest : List (Rung κ τ)) (more : Bool) :
    Flags acquires commits ((.climbing rung rest, .ok more) :: calls)
      (acquired || acquires rung.call) (committed || commits rung.call) := by
  unfold Flags
  rw [made_cons_climbing, made_cons_climbing, Bool.or_eq_true, Bool.or_eq_true, h.1, h.2]
  exact ⟨or_comm, or_comm⟩

theorem Flags.error {calls : Calls κ τ ε} {acquired committed : Bool}
    (h : Flags acquires commits calls acquired committed) (pos : At κ τ ε) (e : ε) :
    Flags acquires commits ((pos, .error e) :: calls) acquired committed := by
  have hne : ∀ rung rest more, (pos, (Except.error e : Except ε Bool)) ≠
      (.climbing rung rest, .ok more) := by
    intro rung rest more heq
    cases (Prod.mk.inj heq).2
  unfold Flags
  rw [made_cons_of_ne hne, made_cons_of_ne hne]
  exact h

/-- A rung that fails keeps the invariant. -/
theorem holdsNext_error {run : Run σ κ τ ε} {rung : Rung κ τ} {rest : List (Rung κ τ)}
    (h : Holds acquires commits skips Settled run (.climbing rung rest)) (w : σ) (e : ε) :
    HoldsNext acquires commits skips Settled w ((.climbing rung rest, .error e) :: run.calls)
      ((At.climbing rung rest).next gives (.error e)) := by
  obtain ⟨hreleased, acquired, committed, hflags, hguarded⟩ := h
  obtain ⟨-, hguards, hrest⟩ := guarded_cons.mp hguarded
  have hreleased' : ¬ Released ((.climbing rung rest, .error e) :: run.calls) := by
    rw [released_cons_of_ne (by simp)]
    exact hreleased
  have hflags' := hflags.error (.climbing rung rest) e
  have hfair : (acquired && !committed) = false →
      Fair acquires commits Settled w ((.climbing rung rest, .error e) :: run.calls) :=
    fair_of_not_held hreleased' hflags'
  have hheld : (acquired && !committed) = true →
      ¬ Made ((.climbing rung rest, .error e) :: run.calls) commits := by
    intro hheld hcommitted
    rw [hflags'.2.mpr hcommitted, Bool.not_true, Bool.and_false] at hheld
    cases hheld
  cases honError : rung.onError with
  | answers label =>
    rw [honError] at hguards
    simp only [At.next, honError]
    exact (hfair (by simpa only [OnError.guards, Bool.not_eq_true'] using hguards)).accounted label
      e
  | givesUp label =>
    rw [honError] at hguards
    simp only [At.next, honError]
    exact (hfair (by simpa only [OnError.guards, Bool.not_eq_true'] using hguards)).fails label e
  | cleansUp label =>
    rw [honError] at hguards
    simp only [At.next, honError]
    exact hheld hguards
  | goesOn =>
    rw [honError] at hguards
    obtain ⟨hacquires, hcommits⟩ := neutral_iff.mp hguards
    rw [hacquires, hcommits, Bool.or_false, Bool.or_false] at hrest
    simp only [At.next, honError]
    exact holdsNext_climb hreleased' hflags' hrest
  | fallsBack other label =>
    rw [honError] at hguards
    simp only [OnError.guards, Bool.and_eq_true, Bool.not_eq_true'] at hguards
    obtain ⟨⟨hacquired, hcommitted⟩, hcall, hother, hskips⟩ := hguards
    obtain ⟨hacquires, hcommits⟩ := neutral_iff.mp hcall
    obtain ⟨hacquires', hcommits'⟩ := neutral_iff.mp hother
    rw [hacquires, hcommits, Bool.or_false, Bool.or_false] at hrest
    simp only [At.next, honError]
    refine ⟨hreleased', acquired, committed, hflags',
      guarded_cons.mpr ⟨Or.inl hskips, ?_, ?_⟩⟩
    · simp [OnError.guards, hacquired, hcommitted]
    · rw [hacquires', hcommits', Bool.or_false, Bool.or_false]
      exact hrest

/-- A rung keeps the invariant, whatever its call answers. -/
theorem holdsNext_climbing {run : Run σ κ τ ε} {rung : Rung κ τ} {rest : List (Rung κ τ)}
    (h : Holds acquires commits skips Settled run (.climbing rung rest)) (w : σ)
    {answer : Except ε Bool} (hskips : answer = .ok false → skips rung.call = true) :
    HoldsNext acquires commits skips Settled w ((.climbing rung rest, answer) :: run.calls)
      ((At.climbing rung rest).next gives answer) := by
  cases answer with
  | error e => exact holdsNext_error h w e
  | ok more =>
    obtain ⟨hreleased, acquired, committed, hflags, hguarded⟩ := h
    obtain ⟨hskip, -, hrest⟩ := guarded_cons.mp hguarded
    have hreleased' : ¬ Released ((.climbing rung rest, .ok more) :: run.calls) := by
      rw [released_cons_of_ne (by simp)]
      exact hreleased
    have hflags' := hflags.ok rung rest more
    cases more with
    | true => exact holdsNext_climb hreleased' hflags' hrest
    | false =>
      rcases hskip with hnot | ⟨hheld, hneutral⟩
      · rw [hskips rfl] at hnot
        cases hnot
      · obtain ⟨hacquires, hcommits⟩ := neutral_iff.mp hneutral
        rw [hacquires, hcommits, Bool.or_false, Bool.or_false] at hflags'
        have hfair : Fair acquires commits Settled w
            ((.climbing rung rest, .ok false) :: run.calls) :=
          fair_of_not_held hreleased' hflags' hheld
        exact ⟨hfair.settled, fun _ => hreleased'⟩

/-- Every call keeps the invariant. -/
theorem holdsNext_act (gives : Bool) (hsite : Settles site skips Settled) {run : Run σ κ τ ε}
    {pos : At κ τ ε} (h : Holds acquires commits skips Settled run pos) (input : ι) :
    HoldsNext acquires commits skips Settled (site.perform run.world pos input).1
      ((pos, (site.perform run.world pos input).2) :: run.calls)
      (pos.next gives (site.perform run.world pos input).2) := by
  cases pos with
  | climbing rung rest =>
    exact holdsNext_climbing h _ (hsite.skips run.world rung rest input)
  | releasing label e =>
    have hcommitted : ∀ answer, ¬ Made ((.releasing label e, answer) :: run.calls) commits := by
      intro answer
      rw [made_cons_of_ne (by simp)]
      exact h
    cases hanswer : (site.perform run.world (.releasing label e) input).2 with
    | error e' => exact hcommitted _
    | ok more =>
      have hsettled := hsite.released run.world label e input more hanswer
      exact Fair.fails ⟨fun _ _ _ => hsettled, fun hmade => absurd hmade (hcommitted _)⟩ label e
  | deferring label e e' =>
    have hcommitted :
        ∀ answer, ¬ Made ((.deferring label e e', answer) :: run.calls) commits := by
      intro answer
      rw [made_cons_of_ne (by simp)]
      exact h
    refine Fair.fails ⟨fun htaken _ _ => ?_, fun hmade => absurd hmade (hcommitted _)⟩ label e
    cases hanswer : (site.perform run.world (.deferring label e e') input).2 with
    | error error =>
      rw [hanswer] at htaken
      exact absurd List.mem_cons_self (htaken label e e' error)
    | ok more => exact hsite.deferred run.world label e e' input more hanswer
  | givingUp label e =>
    have hfair : Fair acquires commits Settled run.world run.calls := h
    refine Fair.accounted ⟨fun htaken hacquired hcommitted => ?_, fun hmade => ?_⟩ label e
    · rw [made_cons_of_ne (by simp)] at hacquired hcommitted
      exact hsite.givenUp run.world label e input
        (hfair.settled htaken.of_cons hacquired hcommitted)
    · rw [made_cons_of_ne (by simp)] at hmade
      rw [released_cons_of_ne (by simp)]
      exact hfair.kept hmade

/-- A guarded ladder **comes to its end, and what it has acquired is accounted for**, whatever its
calls answer. -/
theorem endsIn_accounted (hsite : Settles site skips Settled) {rung : Rung κ τ}
    {rest : List (Rung κ τ)}
    (h : Guarded acquires commits skips false false (rung :: rest) = true) (w : σ) :
    EndsIn (program site gives) (Run.start w) (.climbing rung rest)
      (Accounted acquires commits Settled) := by
  have hstart : Holds acquires commits skips Settled (Run.start w : Run σ κ τ ε)
      (.climbing rung rest) := by
    refine ⟨?_, false, false, ⟨?_, ?_⟩, h⟩
    · rintro ⟨label, e, answer, hmem⟩
      cases hmem
    · simp [Made, Run.start]
    · simp [Made, Run.start]
  exact endsIn_of_after (fun _ _ input hholds => holdsNext_act gives hsite hholds input) hstart

end

/-! ## A handler run to its end -/

section Finished

variable {site : Site σ κ τ ε ι} {gives : Bool}

theorem At.rank_pos (pos : At κ τ ε) : 0 < pos.rank := by
  rcases pos with ⟨⟨call, onError⟩, rest⟩ | _ | _ | _
  · rcases onError <;> simp only [rank] <;> omega
  · exact Nat.succ_pos _
  · exact Nat.succ_pos _
  · exact Nat.succ_pos _

/-- As many calls as the rank bring a handler to its end. -/
theorem drive_of_rank_le {n : ℕ} {pos : At κ τ ε} (h : pos.rank ≤ n) (run : Run σ κ τ ε)
    (inputs : ℕ → ι) : (drive (program site gives) n run pos inputs).2 = none := by
  induction n generalizing run pos inputs with
  | zero =>
    have hpos := pos.rank_pos
    omega
  | succ n ih =>
    simp only [drive, program]
    rcases hnext : pos.next gives (site.perform run.world pos (inputs 0)).2 with pos' | ending
    · have hlt := At.rank_next hnext
      exact ih (by omega) _ _
    · rfl

/-- A handler that has come to its end has an ending. -/
theorem ending_of_drive {n : ℕ} {run run' : Run σ κ τ ε} {pos : At κ τ ε}
    {inputs : ℕ → ι} (h : drive (program site gives) n run pos inputs = (run', none)) :
    ∃ ending, run'.ending = some ending := by
  induction n generalizing run pos inputs with
  | zero => cases h
  | succ n ih =>
    simp only [drive, program] at h
    rcases hnext : pos.next gives (site.perform run.world pos (inputs 0)).2 with pos' | ending
    · rw [hnext] at h
      exact ih h
    · rw [hnext] at h
      obtain ⟨rfl, -⟩ := Prod.mk.inj h
      exact ⟨ending, rfl⟩

/-- Only a rung with nothing to do ends a handler early. -/
theorem At.skipped_of_next {pos : At κ τ ε} {answer : Except ε Bool}
    (h : pos.next gives answer = .inr .skipped) :
    ∃ rung rest, pos = .climbing rung rest ∧ answer = .ok false := by
  have hfails : ∀ (label : τ) (e : ε),
      (if gives then (.inl (.givingUp label e) : At κ τ ε ⊕ Ending τ ε)
        else .inr (.failed label e)) ≠ .inr .skipped := by
    intro label e
    rcases gives <;> simp
  have hclimb : ∀ rest : List (Rung κ τ),
      (climb rest : At κ τ ε ⊕ Ending τ ε) ≠ .inr .skipped := by
    intro rest
    rcases rest <;> simp [climb]
  rcases pos with ⟨⟨call, onError⟩, rest⟩ | ⟨label, e⟩ |
      ⟨label, e, e'⟩ | ⟨label, e⟩
  · rcases answer with e | more
    · rcases onError with label | label | label | _ | ⟨other, label⟩
      · cases h
      · exact absurd h (hfails label e)
      · cases h
      · exact absurd h (hclimb rest)
      · cases h
    · rcases more with _ | _
      · exact ⟨_, rest, rfl, rfl⟩
      · exact absurd h (hclimb rest)
  · rcases answer with e' | more
    · cases h
    · exact absurd h (hfails label e)
  · exact absurd h (hfails label e)
  · cases h

/-- The failure of the rung does not end the climb. -/
def OnError.tolerates : OnError κ τ → Bool
  | goesOn => true
  | fallsBack _ _ => true
  | _ => false

/-- The rung was climbed: its own call was answered, and there was something to do. -/
def Climbed (calls : List (At κ τ ε × Except ε Bool)) (rung : Rung κ τ) : Prop :=
  ∃ rest, (At.climbing rung rest, .ok true) ∈ calls

/-- Each rung whose failure ends the climb is still ahead, or has been climbed. -/
def Ahead (ladder : List (Rung κ τ)) (run : Run σ κ τ ε) : At κ τ ε → Prop
  | .climbing rung rest => ∀ r ∈ ladder, r.onError.tolerates = false →
      r ∈ rung :: rest ∨ Climbed run.calls r
  | _ => True

/-- A run that is done has climbed each of these rungs. -/
def ClimbedAll (ladder : List (Rung κ τ)) (run : Run σ κ τ ε) : Prop :=
  run.ending = some .done → ∀ r ∈ ladder, r.onError.tolerates = false → Climbed run.calls r

theorem Climbed.cons {calls : List (At κ τ ε × Except ε Bool)} {rung : Rung κ τ}
    (h : Climbed calls rung) (call : At κ τ ε × Except ε Bool) :
    Climbed (call :: calls) rung := by
  obtain ⟨rest, hmem⟩ := h
  exact ⟨rest, List.mem_cons_of_mem call hmem⟩

/-- The climb goes on above a rung that is climbed or tolerated. -/
theorem after_climb {ladder : List (Rung κ τ)} {w : σ}
    {calls : List (At κ τ ε × Except ε Bool)} {rest : List (Rung κ τ)}
    (h : ∀ r ∈ ladder, r.onError.tolerates = false → r ∈ rest ∨ Climbed calls r) :
    After (Ahead ladder) (ClimbedAll ladder) w calls (climb rest) := by
  rcases rest with _ | ⟨rung, rest⟩
  · intro _ r hr hstrict
    rcases h r hr hstrict with hmem | hclimbed
    · exact absurd hmem List.not_mem_nil
    · exact hclimbed
  · exact h

theorem after_fails {ladder : List (Rung κ τ)} {w : σ}
    {calls : List (At κ τ ε × Except ε Bool)}
    {pos : At κ τ ε ⊕ Ending τ ε}
    (h : (∃ label e, pos = .inl (.givingUp label e)) ∨
      ∃ ending, pos = .inr ending ∧ ending ≠ .done) :
    After (Ahead ladder) (ClimbedAll ladder) w calls pos := by
  rcases h with ⟨label, e, rfl⟩ | ⟨ending, rfl, hending⟩
  · exact trivial
  · exact fun hdone => absurd (Option.some.inj hdone) hending

theorem ahead_next {ladder : List (Rung κ τ)} {run : Run σ κ τ ε} {pos : At κ τ ε}
    (h : Ahead ladder run pos) (w : σ) (answer : Except ε Bool) :
    After (Ahead ladder) (ClimbedAll ladder) w ((pos, answer) :: run.calls)
      (pos.next gives answer) := by
  have hfails : ∀ (label : τ) (e : ε) (calls : List (At κ τ ε × Except ε Bool)),
      After (Ahead ladder) (ClimbedAll ladder) w calls
        (if gives then .inl (.givingUp label e) else .inr (.failed label e)) := by
    intro label e calls
    rcases gives with _ | _
    · exact after_fails (Or.inr ⟨_, rfl, by simp⟩)
    · exact after_fails (Or.inl ⟨label, e, rfl⟩)
  rcases pos with ⟨⟨call, onError⟩, rest⟩ | ⟨label, e⟩ |
      ⟨label, e, e'⟩ | ⟨label, e⟩
  · -- a rung that is tolerated is none of those that have to be climbed
    have htolerated : onError.tolerates = true → ∀ r ∈ ladder, r.onError.tolerates = false →
        r ∈ rest ∨ Climbed ((At.climbing ⟨call, onError⟩ rest, answer) :: run.calls) r := by
      intro htol r hr hstrict
      rcases h r hr hstrict with hmem | hclimbed
      · rcases List.mem_cons.mp hmem with rfl | hmem
        · rw [htol] at hstrict
          cases hstrict
        · exact Or.inl hmem
      · exact Or.inr (hclimbed.cons _)
    rcases answer with e | more
    · rcases onError with label | label | label | _ | ⟨other, label⟩
      · exact after_fails (Or.inr ⟨_, rfl, by simp⟩)
      · exact hfails label e _
      · exact trivial
      · exact after_climb (htolerated rfl)
      · intro r hr hstrict
        rcases htolerated rfl r hr hstrict with hmem | hclimbed
        · exact Or.inl (List.mem_cons_of_mem _ hmem)
        · exact Or.inr hclimbed
    · rcases more with _ | _
      · exact after_fails (Or.inr ⟨_, rfl, by simp⟩)
      · refine after_climb fun r hr hstrict => ?_
        rcases h r hr hstrict with hmem | hclimbed
        · rcases List.mem_cons.mp hmem with rfl | hmem
          · exact Or.inr ⟨rest, List.mem_cons_self⟩
          · exact Or.inl hmem
        · exact Or.inr (hclimbed.cons _)
  · rcases answer with e' | more
    · exact trivial
    · exact hfails label e _
  · exact hfails label e _
  · exact after_fails (Or.inr ⟨_, rfl, by simp⟩)

/-- A handler that is done has climbed every rung whose failure would have ended it. -/
theorem climbed_of_done {n : ℕ} {run : Run σ κ τ ε} {w : σ} {rung : Rung κ τ}
    {rest : List (Rung κ τ)} {inputs : ℕ → ι}
    (h : drive (program site gives) n (Run.start w) (.climbing rung rest) inputs = (run, none))
    (hdone : run.ending = some .done) :
    ∀ r ∈ rung :: rest, r.onError.tolerates = false → Climbed run.calls r := by
  have hends : EndsIn (program site gives) (Run.start w) (.climbing rung rest)
      (ClimbedAll (rung :: rest)) :=
    endsIn_of_after (fun _ _ _ hahead => ahead_next hahead _ _) fun r hr _ => Or.inl hr
  obtain ⟨m, run', hm, hclimbed⟩ := hends inputs
  obtain rfl := drive_unique h hm
  exact hclimbed hdone

/-- The rung and what may be called in its place always have something to do. -/
def Rung.Busy (busy : κ → Prop) (rung : Rung κ τ) : Prop :=
  busy rung.call ∧ ∀ call label, rung.onError = .fallsBack call label → busy call

/-- The rungs ahead always have something to do. -/
def BusyAhead (busy : κ → Prop) : At κ τ ε → Prop
  | .climbing rung rest => ∀ r ∈ rung :: rest, r.Busy busy
  | _ => True

/-- A handler whose rungs always have something to do does not end early with nothing done. -/
theorem ending_ne_skipped (busy : κ → Prop)
    (hsite : ∀ w rung rest input, busy rung.call →
      (site.perform w (.climbing rung rest) input).2 ≠ .ok false)
    {n : ℕ} {run : Run σ κ τ ε} {w : σ} {pos : At κ τ ε} {inputs : ℕ → ι}
    (h : drive (program site gives) n (Run.start w) pos inputs = (run, none))
    (hbusy : BusyAhead busy pos) : run.ending ≠ some .skipped := by
  have hafter : ∀ (run : Run σ κ τ ε) (pos : At κ τ ε) (input : ι), BusyAhead busy pos →
      After (fun _ pos => BusyAhead busy pos) (fun run => run.ending ≠ some .skipped)
        (site.perform run.world pos input).1
        ((pos, (site.perform run.world pos input).2) :: run.calls)
        (pos.next gives (site.perform run.world pos input).2) := by
    intro run pos input hahead
    rcases hnext : pos.next gives (site.perform run.world pos input).2 with pos' | ending
    · rcases pos' with ⟨rung', rest'⟩ | _ | _ | _
      · obtain ⟨rung, rest, rfl, rfl | ⟨call, label, herror, rfl, rfl⟩⟩ :=
          At.climbing_of_next hnext
        · exact fun r hr => hahead r (List.mem_cons_of_mem rung hr)
        · intro r hr
          rcases List.mem_cons.mp hr with rfl | hr
          · refine ⟨(hahead rung List.mem_cons_self).2 call label herror, ?_⟩
            intro call' label' hother
            cases hother
          · exact hahead r (List.mem_cons_of_mem rung hr)
      · exact trivial
      · exact trivial
      · exact trivial
    · intro hskipped
      obtain rfl : ending = .skipped := Option.some.inj hskipped
      obtain ⟨rung, rest, rfl, hfalse⟩ := At.skipped_of_next hnext
      exact hsite run.world rung rest input (hahead rung List.mem_cons_self).1 hfalse
  have hends : EndsIn (program site gives) (Run.start w) pos
      fun run => run.ending ≠ some .skipped := endsIn_of_after hafter hbusy
  obtain ⟨m, run', hm, hne⟩ := hends inputs
  obtain rfl := drive_unique h hm
  exact hne

end Finished

end Compensation
