import PgAgent.Library.Decimal
import PgAgent.Timeline.Lsn

/-!
# Timeline history files

A history file has a line for each timeline in front of the one that it is about: where that
timeline ended. `parseHistory` reads the file, and `reachable` decides from it whether an instance
may follow the timeline, given what its own control file says.

* `parseHistory_append` --- the lines are read one by one;
* `parseHistoryLine_text` --- a line that has been rendered is read back;
* `reachable_eq_yes_iff` --- what the verdict `Yes` says about the history.

The last section states the test that PostgreSQL makes itself, `tliOfPointInHistory`, to compare
the verdict with it.
-/

namespace PgAgent
namespace Timeline

/-- `ControlPoint`: what `pg_control` says; `0` in a field is unknown. -/
structure ControlPoint where
  timelineId : ℤ
  checkpointLsn : ℕ
  deriving DecidableEq, Repr

def ControlPoint.isKnown (p : ControlPoint) : Bool :=
  decide (0 < p.timelineId) && decide (0 < p.checkpointLsn)

/-- `TimelineSwitch`: timeline `tli` ended at `switchpoint`. -/
structure TimelineSwitch where
  tli : ℤ
  switchpoint : ℕ
  deriving DecidableEq, Repr

inductive Reachable
  | yes
  | diverged (forkedAt : ℕ)
  | notADescendant
  | unknown
  deriving DecidableEq, Repr

/-- The body of the loop of `parse_history`; `none` is its `continue`. -/
def parseHistoryLine (line : List Char) : Option TimelineSwitch :=
  let line := Rust.trim line
  if line = [] ∨ line.head? = some '#' then none
  else
    match Rust.splitWhitespace line with
    | tli :: lsn :: _ =>
      match Rust.parseI32 (String.ofList tli), parseLsn (String.ofList lsn) with
      | some tli, some switchpoint => some ⟨tli, switchpoint⟩
      | _, _ => none
    | _ => none

/-- `parse_history`. -/
def parseHistory (text : String) : List TimelineSwitch :=
  (Rust.lines text.toList).filterMap parseHistoryLine

/-- `reachable`. -/
def reachable (loc : ControlPoint) (requested : ℤ) (history : List TimelineSwitch) : Reachable :=
  if !loc.isKnown then .unknown
  else if requested ≤ loc.timelineId then .yes
  else
    match history.find? fun e => e.tli == loc.timelineId with
    | none => .notADescendant
    | some e => if e.switchpoint < loc.checkpointLsn then .diverged e.switchpoint else .yes

/-! ## Reading line by line -/

/-- A line says the same with its line break. -/
theorem parseHistoryLine_chomp (part : List Char) :
    parseHistoryLine (Rust.chomp part) = parseHistoryLine part := by
  unfold parseHistoryLine
  rw [Rust.trim_chomp]

theorem parseHistory_eq (text : String) :
    parseHistory text = (Rust.splitInclusive text.toList).filterMap parseHistoryLine := by
  unfold parseHistory Rust.lines
  rw [List.filterMap_map]
  congr 1
  funext part
  exact parseHistoryLine_chomp part

/-- A text cut behind a line break is read as its two parts are. -/
theorem parseHistory_append {a b : String} (h : a.toList.getLast? = some '\n') :
    parseHistory (a ++ b) = parseHistory a ++ parseHistory b := by
  have hcut : a.toList.dropLast ++ ['\n'] = a.toList := List.dropLast_append_getLast? _ h
  have hjoin : (a ++ b).toList = a.toList.dropLast ++ '\n' :: b.toList := by
    rw [String.toList_append, ← List.singleton_append, ← List.append_assoc, hcut]
  rw [parseHistory_eq, parseHistory_eq, parseHistory_eq, hjoin, Rust.splitInclusive_append, hcut,
    List.filterMap_append]

/-- A text without a line break is one line. -/
theorem parseHistory_line {line : String} (h : '\n' ∉ line.toList) :
    parseHistory line = (parseHistoryLine line.toList).toList := by
  rw [parseHistory_eq]
  by_cases hnil : line.toList = []
  · rw [hnil]
    rfl
  · rw [Rust.splitInclusive_eq_singleton hnil h, List.filterMap_cons]
    cases parseHistoryLine line.toList with
    | none => rfl
    | some e => rfl

/-- A line is read as it is without its line break. -/
theorem parseHistory_newline {line : String} (h : '\n' ∉ line.toList) :
    parseHistory (line ++ "\n") = parseHistory line := by
  have htext : (line ++ "\n").toList = line.toList ++ ['\n'] := by
    rw [String.toList_append]
    rfl
  have hbreak : parseHistoryLine (line.toList ++ ['\n']) = parseHistoryLine line.toList := by
    have hspace : ∀ c ∈ ['\n'], Rust.isWhitespace c = true := by
      intro c hc
      rw [List.mem_singleton.mp hc]
      rfl
    unfold parseHistoryLine
    rw [Rust.trim_append_right line.toList hspace]
  rw [parseHistory_line h, parseHistory_eq, htext, Rust.splitInclusive_line h,
    List.filterMap_cons, hbreak]
  cases parseHistoryLine line.toList with
  | none => rfl
  | some e => rfl

/-- A line that does not parse removes only itself. -/
theorem parseHistory_skip {a line b : String} (ha : a = "" ∨ a.toList.getLast? = some '\n')
    (hline : '\n' ∉ line.toList) (hskip : parseHistory line = []) :
    parseHistory (a ++ (line ++ "\n") ++ b) = parseHistory (a ++ b) := by
  have hends : (line ++ "\n").toList.getLast? = some '\n' := by
    rw [String.toList_append]
    exact List.getLast?_concat
  have hrest : parseHistory (line ++ "\n" ++ b) = parseHistory b := by
    rw [parseHistory_append hends, parseHistory_newline hline, hskip, List.nil_append]
  rcases ha with rfl | ha
  · rw [String.empty_append, String.empty_append, hrest]
  · rw [String.append_assoc, parseHistory_append ha, hrest, parseHistory_append ha]

/-! ## Rendered files -/

/-- A text without a line break. -/
def SingleLine : Type := { s : String // '\n' ∉ s.toList }

/-- White space without a line break. -/
def Blank : Type := { s : String // ∀ c ∈ s.toList, Rust.isWhitespace c = true ∧ c ≠ '\n' }

/-- An entry whose fields are an `i32` and a `u64`. -/
structure HistoryEntry extends TimelineSwitch where
  tli_i32 : -2 ^ 31 ≤ tli ∧ tli < 2 ^ 31
  switchpoint_u64 : switchpoint < 2 ^ 64

/-- A line of a history file. -/
inductive HistoryLine
  | entry (e : HistoryEntry) (reason : SingleLine)
  | blank (space : Blank)
  | comment (indent : Blank) (text : SingleLine)

def HistoryLine.text : HistoryLine → String
  | .entry e reason => toString e.tli ++ "\t" ++ formatLsn e.switchpoint ++ "\t" ++ reason.1
  | .blank space => space.1
  | .comment indent text => indent.1 ++ "#" ++ text.1

def HistoryLine.entry? : HistoryLine → Option TimelineSwitch
  | .entry e _ => some e.toTimelineSwitch
  | .blank _ => none
  | .comment _ _ => none

/-- A file: every line but the last with its line break. -/
def renderHistory (lines : List HistoryLine) (last : HistoryLine) : String :=
  lines.foldr (fun line rest => line.text ++ "\n" ++ rest) last.text

theorem isWhitespace_of_mem_toString {a : ℤ} {c : Char} (h : c ∈ (toString a).toList) :
    Rust.isWhitespace c = false ∧ c ≠ '#' ∧ c ≠ '\n' := by
  have hspace : Rust.isWhitespace c = true → False := by
    intro hc
    refine Decimal.notMem_toString ?_ ?_ a h
    · simp only [Rust.isWhitespace, Bool.or_eq_true, Bool.and_eq_true, decide_eq_true_eq,
        beq_iff_eq] at hc
      have hval : c.toNat = c.val.toNat := rfl
      simp only [Char.isDigit, Bool.and_eq_false_iff, decide_eq_false_iff_not, ge_iff_le,
        UInt32.le_iff_toNat_le]
      show ¬ 48 ≤ c.val.toNat ∨ ¬ c.val.toNat ≤ 57
      omega
    · rintro rfl
      exact absurd hc (by decide)
  refine ⟨Bool.eq_false_iff.mpr hspace, ?_, ?_⟩
  · rintro rfl
    exact Decimal.notMem_toString (by decide) (by decide) a h
  · rintro rfl
    exact hspace rfl

theorem formatLsn_ne_nil (lsn : ℕ) : (formatLsn lsn).toList ≠ [] := by
  rw [formatLsn, String.toList_ofList]
  simp

/-- The fields of a line that begins with two words. -/
theorem parseHistoryLine_fields {a b rest : List Char} (hane : a ≠ []) (hbne : b ≠ [])
    (ha : ∀ c ∈ a, Rust.isWhitespace c = false ∧ c ≠ '#')
    (hb : ∀ c ∈ b, Rust.isWhitespace c = false) :
    parseHistoryLine (a ++ '\t' :: (b ++ '\t' :: rest)) =
      match Rust.parseI32 (String.ofList a), parseLsn (String.ofList b) with
      | some tli, some switchpoint => some ⟨tli, switchpoint⟩
      | _, _ => none := by
  have hfields : Rust.splitWhitespace (a ++ '\t' :: (b ++ '\t' :: rest)) =
      a :: b :: Rust.splitWhitespace rest := by
    rw [Rust.splitWhitespace_append_cons (by rfl), Rust.splitWhitespace_append_cons (by rfl),
      Rust.splitWhitespace_word hane fun c hc => (ha c hc).1, Rust.splitWhitespace_word hbne hb]
    rfl
  -- the first word stays in front, so the line is neither blank nor a comment
  have hstart : ¬ (Rust.trim (a ++ '\t' :: (b ++ '\t' :: rest)) = [] ∨
      (Rust.trim (a ++ '\t' :: (b ++ '\t' :: rest))).head? = some '#') := by
    cases a with
    | nil => exact absurd rfl hane
    | cons c cs =>
      obtain ⟨hspace, hhash⟩ := ha c List.mem_cons_self
      rw [List.cons_append, Rust.trim_cons hspace]
      rintro (h | h)
      · cases h
      · exact hhash (Option.some.inj h)
  unfold parseHistoryLine
  dsimp only
  rw [if_neg hstart, Rust.splitWhitespace_trim, hfields]

/-- A rendered line is read back. -/
theorem parseHistoryLine_text (line : HistoryLine) :
    parseHistoryLine line.text.toList = line.entry? := by
  cases line with
  | entry e reason =>
    have htext : (HistoryLine.entry e reason).text.toList =
        (toString e.tli).toList ++ '\t' :: ((formatLsn e.switchpoint).toList ++
          '\t' :: reason.1.toList) := by
      show (toString e.tli ++ "\t" ++ formatLsn e.switchpoint ++ "\t" ++ reason.1).toList = _
      have htab : "\t".toList = ['\t'] := rfl
      simp only [String.toList_append, htab, List.append_assoc, List.cons_append, List.nil_append]
    rw [htext, parseHistoryLine_fields (Decimal.toString_ne_nil _) (formatLsn_ne_nil _)
      (fun c hc => ⟨(isWhitespace_of_mem_toString hc).1, (isWhitespace_of_mem_toString hc).2.1⟩)
      fun c hc => isWhitespace_of_mem_formatLsn hc]
    rw [String.ofList_toList, String.ofList_toList, Rust.parseI32_toString e.tli_i32,
      parseLsn_formatLsn e.switchpoint_u64]
    rfl
  | blank space =>
    show parseHistoryLine space.1.toList = none
    unfold parseHistoryLine
    dsimp only
    rw [if_pos (Or.inl (Rust.trim_eq_nil fun c hc => (space.2 c hc).1))]
  | comment indent text =>
    have htext : (HistoryLine.comment indent text).text.toList =
        indent.1.toList ++ '#' :: text.1.toList := by
      show (indent.1 ++ "#" ++ text.1).toList = _
      have hhash : "#".toList = ['#'] := rfl
      simp only [String.toList_append, hhash, List.append_assoc, List.singleton_append]
    have htrim : (Rust.trim (indent.1.toList ++ '#' :: text.1.toList)).head? = some '#' := by
      rw [Rust.trim_append fun c hc => (indent.2 c hc).1, Rust.trim_cons rfl]
      rfl
    rw [htext]
    unfold parseHistoryLine
    dsimp only
    rw [if_pos (Or.inr htrim)]
    rfl

theorem HistoryLine.text_singleLine (line : HistoryLine) : '\n' ∉ line.text.toList := by
  cases line with
  | entry e reason =>
    show '\n' ∉ (toString e.tli ++ "\t" ++ formatLsn e.switchpoint ++ "\t" ++ reason.1).toList
    simp only [String.toList_append, List.mem_append, not_or]
    refine ⟨⟨⟨⟨?_, by decide⟩, ?_⟩, by decide⟩, reason.2⟩
    · exact fun hmem => (isWhitespace_of_mem_toString hmem).2.2 rfl
    · intro hmem
      have hspace := isWhitespace_of_mem_formatLsn hmem
      cases hspace
  | blank space => exact fun hmem => (space.2 _ hmem).2 rfl
  | comment indent text =>
    show '\n' ∉ (indent.1 ++ "#" ++ text.1).toList
    simp only [String.toList_append, List.mem_append, not_or]
    exact ⟨⟨fun hmem => (indent.2 _ hmem).2 rfl, by decide⟩, text.2⟩

theorem parseHistory_text (line : HistoryLine) : parseHistory line.text = line.entry?.toList := by
  rw [parseHistory_line line.text_singleLine, parseHistoryLine_text]

/-- A rendered file is read back. -/
theorem parseHistory_renderHistory (lines : List HistoryLine) (last : HistoryLine) :
    parseHistory (renderHistory lines last) = (lines ++ [last]).filterMap HistoryLine.entry? := by
  induction lines with
  | nil =>
    show parseHistory last.text = _
    rw [parseHistory_text, List.nil_append, List.filterMap_cons]
    cases last.entry? with
    | none => rfl
    | some e => rfl
  | cons line lines ih =>
    have hends : (line.text ++ "\n").toList.getLast? = some '\n' := by
      rw [String.toList_append]
      exact List.getLast?_concat
    show parseHistory (line.text ++ "\n" ++ renderHistory lines last) = _
    rw [parseHistory_append hends, parseHistory_newline line.text_singleLine, parseHistory_text, ih,
      List.cons_append, List.filterMap_cons]
    cases line.entry? with
    | none => rfl
    | some e => rfl

/-- History files are read line by line and as they are rendered. -/
theorem parseHistory_roundTrip :
    (∀ (lines : List HistoryLine) (last : HistoryLine),
      parseHistory (renderHistory lines last) = (lines ++ [last]).filterMap HistoryLine.entry?) ∧
      (∀ a b : String, a.toList.getLast? = some '\n' →
        parseHistory (a ++ b) = parseHistory a ++ parseHistory b) ∧
      (∀ a line b : String, a = "" ∨ a.toList.getLast? = some '\n' → '\n' ∉ line.toList →
        parseHistory line = [] →
          parseHistory (a ++ (line ++ "\n") ++ b) = parseHistory (a ++ b)) ∧
      ∀ lsn < 2 ^ 64, parseLsn (formatLsn lsn) = some lsn :=
  ⟨parseHistory_renderHistory, fun _ _ => parseHistory_append, fun _ _ _ => parseHistory_skip,
    fun _ => parseLsn_formatLsn⟩

/-! ## The verdict, and the test of PostgreSQL -/

section Verdict

variable {loc : ControlPoint} {requested : ℤ} {history : List TimelineSwitch}

/-- On a history with increasing timelines there is one entry for a timeline. -/
theorem entry_unique {e e' : TimelineSwitch} (h : history.Pairwise fun a b => a.tli < b.tli)
    (he : e ∈ history) (he' : e' ∈ history) (htli : e.tli = e'.tli) : e = e' := by
  induction history with
  | nil => exact absurd he List.not_mem_nil
  | cons d ds ih =>
    obtain ⟨hhead, htail⟩ := List.pairwise_cons.mp h
    rcases List.mem_cons.mp he with rfl | hmem
    · rcases List.mem_cons.mp he' with rfl | hmem'
      · rfl
      · have hlt := hhead e' hmem'
        omega
    · rcases List.mem_cons.mp he' with rfl | hmem'
      · have hlt := hhead e hmem
        omega
      · exact ih htail hmem hmem'

/-- What the verdict on a later timeline is. -/
theorem reachable_of_lt (history : List TimelineSwitch) (hknown : loc.isKnown = true)
    (hlater : loc.timelineId < requested) :
    (∃ e ∈ history, e.tli = loc.timelineId ∧ e.switchpoint < loc.checkpointLsn ∧
        reachable loc requested history = .diverged e.switchpoint) ∨
      (∃ e ∈ history, e.tli = loc.timelineId ∧ loc.checkpointLsn ≤ e.switchpoint ∧
        reachable loc requested history = .yes) ∨
      ((∀ e ∈ history, e.tli ≠ loc.timelineId) ∧
        reachable loc requested history = .notADescendant) := by
  unfold reachable
  rw [hknown, if_neg (by decide), if_neg (by omega)]
  cases hfind : history.find? fun e => e.tli == loc.timelineId with
  | none =>
    refine Or.inr (Or.inr ⟨fun e he htli => ?_, rfl⟩)
    exact absurd (beq_iff_eq.mpr htli) (List.find?_eq_none.mp hfind e he)
  | some e =>
    have hmem : e ∈ history := List.mem_of_find?_eq_some hfind
    have htli : e.tli = loc.timelineId := by
      have hp := List.find?_some hfind
      exact beq_iff_eq.mp hp
    dsimp only
    by_cases hlt : e.switchpoint < loc.checkpointLsn
    · rw [if_pos hlt]
      exact Or.inl ⟨e, hmem, htli, hlt, rfl⟩
    · rw [if_neg hlt]
      exact Or.inr (Or.inl ⟨e, hmem, htli, by omega, rfl⟩)

/-- An entry of a history as PostgreSQL holds it: the timeline covers the positions from `start` up
to, but without, `stop`. The timeline that the history is about has no end. -/
structure TimelineSpan where
  tli : ℤ
  start : ℕ
  stop : Option ℕ
  deriving DecidableEq, Repr

def TimelineSpan.covers (span : TimelineSpan) (ptr : ℕ) : Bool :=
  decide (span.start ≤ ptr) && span.stop.all fun stop => decide (ptr < stop)

/-- The entries of PostgreSQL for a history file, the first from `start` on: each timeline begins
where the one before it ended. -/
def timelineSpans (requested : ℤ) (start : ℕ) : List TimelineSwitch → List TimelineSpan
  | [] => [⟨requested, start, none⟩]
  | e :: es => ⟨e.tli, start, some e.switchpoint⟩ :: timelineSpans requested e.switchpoint es

/-- PostgreSQL's `tliOfPointInHistory`: the newest entry that covers the position. -/
def tliOfPointInHistory (ptr : ℕ) (spans : List TimelineSpan) : Option ℤ :=
  (spans.reverse.find? fun span => span.covers ptr).map (·.tli)

/-- A history as PostgreSQL writes it, for an instance whose checkpoint is not before the start of
its own timeline. -/
structure WrittenHistory (loc : ControlPoint) (requested : ℤ) (history : List TimelineSwitch) :
    Prop where
  increasing : history.Pairwise fun a b => a.tli < b.tli
  nondecreasing : history.Pairwise fun a b => a.switchpoint ≤ b.switchpoint
  started : ∀ span ∈ timelineSpans requested 0 history, span.tli = loc.timelineId →
    span.start ≤ loc.checkpointLsn

theorem TimelineSpan.covers_iff {span : TimelineSpan} {ptr : ℕ} :
    span.covers ptr = true ↔
      span.start ≤ ptr ∧ ∀ stop, span.stop = some stop → ptr < stop := by
  unfold TimelineSpan.covers
  rw [Bool.and_eq_true, decide_eq_true_iff, Option.all_eq_true]
  simp only [decide_eq_true_eq]

/-- The entries begin where the history starts or later. -/
theorem le_start_of_mem {start : ℕ} (hstart : ∀ e ∈ history, start ≤ e.switchpoint)
    (hsorted : history.Pairwise fun a b => a.switchpoint ≤ b.switchpoint) {span : TimelineSpan}
    (hspan : span ∈ timelineSpans requested start history) : start ≤ span.start := by
  induction history generalizing start with
  | nil =>
    rw [List.mem_singleton.mp hspan]
  | cons e es ih =>
    obtain ⟨hhead, htail⟩ := List.pairwise_cons.mp hsorted
    rcases List.mem_cons.mp hspan with rfl | hmem
    · exact Nat.le_refl _
    · exact le_trans (hstart e List.mem_cons_self) (ih hhead htail hmem)

/-- No position is covered twice. -/
theorem span_unique {start ptr : ℕ}
    (hsorted : history.Pairwise fun a b => a.switchpoint ≤ b.switchpoint) {s s' : TimelineSpan}
    (hs : s ∈ timelineSpans requested start history)
    (hs' : s' ∈ timelineSpans requested start history) (hcovers : s.covers ptr = true)
    (hcovers' : s'.covers ptr = true) : s = s' := by
  induction history generalizing start with
  | nil => rw [List.mem_singleton.mp hs, List.mem_singleton.mp hs']
  | cons e es ih =>
    obtain ⟨hhead, htail⟩ := List.pairwise_cons.mp hsorted
    -- the first entry ends where the others begin
    have hfirst : ∀ t ∈ timelineSpans requested e.switchpoint es, t.covers ptr = true →
        (⟨e.tli, start, some e.switchpoint⟩ : TimelineSpan).covers ptr ≠ true := by
      intro t ht htcovers hecovers
      have hle := le_start_of_mem hhead htail ht
      have hstart := (TimelineSpan.covers_iff.mp htcovers).1
      have hend := (TimelineSpan.covers_iff.mp hecovers).2 e.switchpoint rfl
      omega
    rcases List.mem_cons.mp hs with rfl | hmem
    · rcases List.mem_cons.mp hs' with rfl | hmem'
      · rfl
      · exact absurd hcovers (hfirst s' hmem' hcovers')
    · rcases List.mem_cons.mp hs' with rfl | hmem'
      · exact absurd hcovers' (hfirst s hmem hcovers)
      · exact ih htail hmem hmem'

/-- PostgreSQL finds the timeline `t` exactly if an entry of `t` covers the position. -/
theorem tliOfPointInHistory_eq_some_iff {start ptr : ℕ} {t : ℤ}
    (hsorted : history.Pairwise fun a b => a.switchpoint ≤ b.switchpoint) :
    tliOfPointInHistory ptr (timelineSpans requested start history) = some t ↔
      ∃ span ∈ timelineSpans requested start history, span.covers ptr = true ∧
        span.tli = t := by
  unfold tliOfPointInHistory
  constructor
  · intro h
    obtain ⟨span, hfind, htli⟩ := Option.map_eq_some_iff.mp h
    have hcovers := List.find?_some hfind
    exact ⟨span, List.mem_reverse.mp (List.mem_of_find?_eq_some hfind), hcovers, htli⟩
  · rintro ⟨span, hmem, hcovers, rfl⟩
    cases hfind : (timelineSpans requested start history).reverse.find? fun s => s.covers ptr with
    | none => exact absurd hcovers (List.find?_eq_none.mp hfind span (List.mem_reverse.mpr hmem))
    | some found =>
      have hfound := List.mem_reverse.mp (List.mem_of_find?_eq_some hfind)
      have hcovers' := List.find?_some hfind
      rw [span_unique hsorted hmem hfound hcovers hcovers']
      rfl

/-- The entries with an end are the lines of the history. -/
theorem exists_span_of_mem (requested : ℤ) (start : ℕ) {e : TimelineSwitch}
    (he : e ∈ history) :
    ∃ span ∈ timelineSpans requested start history,
      span.tli = e.tli ∧ span.stop = some e.switchpoint := by
  induction history generalizing start with
  | nil => exact absurd he List.not_mem_nil
  | cons d ds ih =>
    rcases List.mem_cons.mp he with rfl | hmem
    · exact ⟨_, List.mem_cons_self, rfl, rfl⟩
    · obtain ⟨span, hspan, hrest⟩ := ih d.switchpoint hmem
      exact ⟨span, List.mem_cons_of_mem _ hspan, hrest⟩

theorem exists_mem_of_span {start : ℕ} {span : TimelineSpan}
    (hspan : span ∈ timelineSpans requested start history) (htli : span.tli ≠ requested) :
    ∃ e ∈ history, e.tli = span.tli ∧ span.stop = some e.switchpoint := by
  induction history generalizing start with
  | nil =>
    rw [List.mem_singleton.mp hspan] at htli
    exact absurd rfl htli
  | cons d ds ih =>
    rcases List.mem_cons.mp hspan with rfl | hmem
    · exact ⟨d, List.mem_cons_self, rfl, rfl⟩
    · obtain ⟨e, he, hrest⟩ := ih hmem
      exact ⟨e, List.mem_cons_of_mem d he, hrest⟩

/-- PostgreSQL accepts a later timeline exactly if the checkpoint is before the end of the
instance's own timeline in its history. -/
theorem accepts_iff (hlater : loc.timelineId < requested)
    (hwritten : WrittenHistory loc requested history) :
    tliOfPointInHistory loc.checkpointLsn (timelineSpans requested 0 history) =
        some loc.timelineId ↔
      ∃ e ∈ history, e.tli = loc.timelineId ∧ loc.checkpointLsn < e.switchpoint := by
  rw [tliOfPointInHistory_eq_some_iff hwritten.nondecreasing]
  constructor
  · rintro ⟨span, hspan, hcovers, htli⟩
    obtain ⟨e, he, hetli, hstop⟩ := exists_mem_of_span hspan (by omega)
    exact ⟨e, he, hetli.trans htli, (TimelineSpan.covers_iff.mp hcovers).2 _ hstop⟩
  · rintro ⟨e, he, hetli, hlt⟩
    obtain ⟨span, hspan, htli, hstop⟩ := exists_span_of_mem requested 0 he
    refine ⟨span, hspan, TimelineSpan.covers_iff.mpr ⟨?_, ?_⟩, htli.trans hetli⟩
    · exact hwritten.started span hspan (htli.trans hetli)
    · intro stop hstop'
      rw [hstop] at hstop'
      rw [← Option.some.inj hstop']
      exact hlt

/-- The verdict is the one of PostgreSQL: `Yes` exactly if it finds the instance's own timeline at
the checkpoint, and `Diverged` or `NotADescendant` otherwise. -/
def MirrorsPostgres (loc : ControlPoint) (requested : ℤ) (history : List TimelineSwitch) : Prop :=
  (reachable loc requested history = .yes ↔
    tliOfPointInHistory loc.checkpointLsn (timelineSpans requested 0 history) =
      some loc.timelineId) ∧
  (reachable loc requested history = .yes ∨ reachable loc requested history = .notADescendant ∨
    ∃ forkedAt, reachable loc requested history = .diverged forkedAt)

/-- The verdict is the one of PostgreSQL unless the checkpoint is exactly where the instance's own
timeline ended. -/
theorem mirrorsPostgres_iff (hknown : loc.isKnown = true) (hlater : loc.timelineId < requested)
    (hwritten : WrittenHistory loc requested history) :
    MirrorsPostgres loc requested history ↔
      ∀ e ∈ history, e.tli = loc.timelineId → e.switchpoint ≠ loc.checkpointLsn := by
  unfold MirrorsPostgres
  rw [accepts_iff hlater hwritten]
  obtain ⟨e, he, htli, hlt, hverdict⟩ | ⟨e, he, htli, hle, hverdict⟩ |
      ⟨hnone, hverdict⟩ :=
    reachable_of_lt history hknown hlater
  · have hunique : ∀ d ∈ history, d.tli = loc.timelineId → d = e := fun d hd hdtli =>
      entry_unique hwritten.increasing hd he (hdtli.trans htli.symm)
    rw [hverdict]
    constructor
    · intro _ d hd hdtli
      rw [hunique d hd hdtli]
      omega
    · intro _
      refine ⟨⟨fun h => (nomatch h), ?_⟩, Or.inr (Or.inr ⟨_, rfl⟩)⟩
      rintro ⟨d, hd, hdtli, hlt'⟩
      rw [hunique d hd hdtli] at hlt'
      omega
  · have hunique : ∀ d ∈ history, d.tli = loc.timelineId → d = e := fun d hd hdtli =>
      entry_unique hwritten.increasing hd he (hdtli.trans htli.symm)
    rw [hverdict]
    constructor
    · rintro ⟨hyes, -⟩ d hd hdtli
      obtain ⟨d', hd', hdtli', hlt⟩ := hyes.mp rfl
      rw [hunique d' hd' hdtli'] at hlt
      rw [hunique d hd hdtli]
      omega
    · intro hne
      have hne := hne e he htli
      exact ⟨⟨fun _ => ⟨e, he, htli, by omega⟩, fun _ => rfl⟩, Or.inl rfl⟩
  · rw [hverdict]
    constructor
    · intro _ d hd hdtli
      exact absurd hdtli (hnone d hd)
    · intro _
      refine ⟨⟨fun h => (nomatch h), ?_⟩, Or.inr (Or.inl rfl)⟩
      rintro ⟨d, hd, hdtli, -⟩
      exact absurd hdtli (hnone d hd)

/-- The history of the timeline 5 that forked from an instance on timeline 4. -/
def forkedHistory : List TimelineSwitch :=
  [⟨1, 0xA0000A0⟩, ⟨2, 0x100000A0⟩, ⟨3, 0x14000238⟩, ⟨4, 0x1B0001E0⟩]

theorem forkedHistory_written {ptr : ℕ} (h : 0x14000238 ≤ ptr) :
    WrittenHistory ⟨4, ptr⟩ 5 forkedHistory := by
  refine ⟨by decide, by decide, ?_⟩
  have hspans : timelineSpans 5 0 forkedHistory =
      [⟨1, 0, some 0xA0000A0⟩, ⟨2, 0xA0000A0, some 0x100000A0⟩,
        ⟨3, 0x100000A0, some 0x14000238⟩, ⟨4, 0x14000238, some 0x1B0001E0⟩,
        ⟨5, 0x1B0001E0, none⟩] := rfl
  rw [hspans]
  simpa using h

theorem mirrorsPostgres_behindFork :
    MirrorsPostgres ⟨4, 0x1A000000⟩ 5 forkedHistory ∧
      reachable ⟨4, 0x1A000000⟩ 5 forkedHistory = .yes :=
  ⟨(mirrorsPostgres_iff (by decide) (by decide) (forkedHistory_written (by decide))).mpr
    (by decide),
    by decide⟩

/-- At the switchpoint itself the verdict is `Yes`, and PostgreSQL refuses the timeline. -/
theorem mirrorsPostgres_atFork :
    WrittenHistory ⟨4, 0x1B0001E0⟩ 5 forkedHistory ∧
      reachable ⟨4, 0x1B0001E0⟩ 5 forkedHistory = .yes ∧
      tliOfPointInHistory 0x1B0001E0 (timelineSpans 5 0 forkedHistory) = some 5 ∧
      ¬ MirrorsPostgres ⟨4, 0x1B0001E0⟩ 5 forkedHistory := by
  have hyes : reachable ⟨4, 0x1B0001E0⟩ 5 forkedHistory = .yes := by decide
  have hpostgres : tliOfPointInHistory 0x1B0001E0 (timelineSpans 5 0 forkedHistory) = some 5 := by
    decide
  refine ⟨forkedHistory_written (by decide), hyes, hpostgres, fun hmirrors => ?_⟩
  have haccepts := hmirrors.1.mp hyes
  rw [hpostgres] at haccepts
  exact absurd haccepts (by decide)

end Verdict

end Timeline
end PgAgent
