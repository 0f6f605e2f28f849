import PgAgent.Config.Pool
import PgAgent.Library.Decimal
import PgAgent.Library.Text

/-!
# What pgpool reports of its backends

`pcp_node_info -a` prints one line for each backend, in the order of their ids, and
`parse_node_info_all` of `pcp.rs` reads the output back.  A line carries no id: the reader counts
the rows it has read, and a line it cannot read fails the whole report, since a row left out would
move every id behind it.

* `parseNodeInfoAll_eq_ok_iff`, `parseNodeInfoAll_eq_error_iff` --- a report is read if each of its
  rows is, and otherwise the error names the first row that is not;
* `parseNodeInfoAll_report` --- what pgpool prints of a map of backends is read as that map.

The weight of a backend is an `f64`, of which the reader only asks that it parse: the type of the
weights and their parser are parameters.
-/

namespace PgAgent

open Rust

/-! ## The reader -/

/-- `NodeInfo` of `pcp.rs`; `F` is the type of the weights. -/
structure NodeInfo (F : Type) where
  id : NodeId
  hostname : List Char
  port : ℕ
  statusCode : ℕ
  lbWeight : F
  statusName : List Char
  actualStatus : List Char
  role : List Char
  actualRole : List Char
  replicationDelay : List Char
  replicationState : List Char
  syncState : List Char
  deriving DecidableEq, Repr

/-- pgpool considers the backend routable. -/
def NodeInfo.isUp {F : Type} (n : NodeInfo F) : Bool :=
  decide (0 < n.statusCode) && decide (n.statusCode < 3)

/-- Why a row is refused. -/
inductive RowError where
  | tooFew (tokens : ℕ)
  | port (token : List Char) (e : IntErrorKind)
  | statusCode (token : List Char) (e : IntErrorKind)
  | lbWeight (token : List Char)
  deriving DecidableEq, Repr

/-- The error of a report: the number of the line, the line, and what is wrong with it. -/
structure ReportError where
  lineNumber : ℕ
  line : List Char
  cause : RowError
  deriving DecidableEq, Repr

/-- The text of a row's error; `debug` is the `{:?}` of a text. -/
def RowError.text (debug : List Char → String) : RowError → String
  | tooFew tokens => "expected ≥11 tokens, got " ++ toString tokens
  | port token e => "port " ++ debug token ++ ": " ++ e.text
  | statusCode token e => "status_code " ++ debug token ++ ": " ++ e.text
  | lbWeight token => "lb_weight " ++ debug token ++ ": invalid float literal"

def ReportError.text (debug : List Char → String) (e : ReportError) : String :=
  "pcp_node_info -a: line " ++ toString e.lineNumber ++ " " ++ debug e.line ++ ": " ++
    e.cause.text debug

/-- `out.len() as i32`: the id of the row behind `n` others. -/
def rowId (n : ℕ) : NodeId := (n : ℤ).bmod (2 ^ 32)

section Reader

variable {F : Type} (parseF64 : List Char → Option F)

def parseNodeInfoLine (id : NodeId) (line : List Char) : Except RowError (NodeInfo F) :=
  match splitWhitespace line with
  | hostname :: port :: statusCode :: lbWeight :: statusName :: actualStatus :: role ::
      actualRole :: replicationDelay :: replicationState :: syncState :: _ => do
    let portValue ← (parseUnsigned (2 ^ 16) port).mapError (RowError.port port)
    let code ← (parseUnsigned (2 ^ 8) statusCode).mapError (RowError.statusCode statusCode)
    match parseF64 lbWeight with
    | none => .error (.lbWeight lbWeight)
    | some weight =>
        .ok ⟨id, hostname, portValue, code, weight, statusName, actualStatus, role, actualRole,
          replicationDelay, replicationState, syncState⟩
  | tokens => .error (.tooFew tokens.length)

/-- The loop of `parse_node_info_all`, behind `i` lines and with the rows `out` read. -/
def readRows (i : ℕ) (out : List (NodeInfo F)) :
    List (List Char) → Except ReportError (List (NodeInfo F))
  | [] => .ok out
  | line :: rest =>
      if trim line = [] then readRows (i + 1) out rest
      else
        match parseNodeInfoLine parseF64 (rowId out.length) (trim line) with
        | .error e => .error ⟨i + 1, trim line, e⟩
        | .ok info => readRows (i + 1) (out ++ [info]) rest

def parseNodeInfoAll (raw : List Char) : Except ReportError (List (NodeInfo F)) :=
  readRows parseF64 0 [] (lines raw)

/-! ## Which reports are read -/

/-- The rows of a report: its lines without the space around them, the blank ones left out. -/
def reportRows (ls : List (List Char)) : List (List Char) :=
  (ls.map trim).filter fun row => !row.isEmpty

@[simp] theorem reportRows_nil : reportRows [] = [] := rfl

theorem reportRows_blank {line : List Char} (h : trim line = []) (ls : List (List Char)) :
    reportRows (line :: ls) = reportRows ls := by
  simp [reportRows, h]

theorem reportRows_row {line : List Char} (h : trim line ≠ []) (ls : List (List Char)) :
    reportRows (line :: ls) = trim line :: reportRows ls := by
  simp [reportRows, h]

/-- The rows, from the one with number `n` on, are read as these. -/
def RowsRead : ℕ → List (List Char) → List (NodeInfo F) → Prop
  | _, [], infos => infos = []
  | n, row :: rows, infos =>
      ∃ info rest, infos = info :: rest ∧
        parseNodeInfoLine parseF64 (rowId n) row = .ok info ∧
        RowsRead (n + 1) rows rest

variable {parseF64}

theorem RowsRead.length_eq {n : ℕ} {rows : List (List Char)} {infos : List (NodeInfo F)}
    (h : RowsRead parseF64 n rows infos) : infos.length = rows.length := by
  induction rows generalizing n infos with
  | nil => simp [show infos = [] from h]
  | cons row rows ih =>
    obtain ⟨info, rest, rfl, -, hrest⟩ := h
    simp [ih hrest]

/-- The row with number `i` is read from the `i`-th row of the report, under its own id. -/
theorem RowsRead.get {n : ℕ} {rows : List (List Char)} {infos : List (NodeInfo F)}
    (h : RowsRead parseF64 n rows infos) {i : ℕ} {row : List Char} (hrow : rows[i]? = some row) :
    ∃ info, infos[i]? = some info ∧
      parseNodeInfoLine parseF64 (rowId (n + i)) row = .ok info := by
  induction rows generalizing n infos i with
  | nil => simp at hrow
  | cons first rows ih =>
    obtain ⟨info, rest, rfl, hfirst, hrest⟩ := h
    rcases i with _ | i
    · obtain rfl : first = row := by simpa using hrow
      exact ⟨info, rfl, hfirst⟩
    · obtain ⟨info', hget, hparse⟩ := ih hrest (i := i) (by simpa using hrow)
      refine ⟨info', by simpa using hget, ?_⟩
      rw [show n + (i + 1) = n + 1 + i by omega]
      exact hparse

theorem readRows_eq_ok_iff {i : ℕ} {out infos : List (NodeInfo F)} {ls : List (List Char)} :
    readRows parseF64 i out ls = .ok infos ↔
      ∃ new, infos = out ++ new ∧ RowsRead parseF64 out.length (reportRows ls) new := by
  induction ls generalizing i out with
  | nil => simp [readRows, RowsRead, eq_comm]
  | cons line rest ih =>
    by_cases hblank : trim line = []
    · rw [readRows, if_pos hblank, ih, reportRows_blank hblank]
    · rw [readRows, if_neg hblank, reportRows_row hblank]
      rcases hparse : parseNodeInfoLine parseF64 (rowId out.length) (trim line) with e | info
      · simp [RowsRead, hparse]
      · dsimp only
        rw [ih]
        simp only [RowsRead, hparse, List.length_append, List.length_singleton, List.append_assoc,
          List.singleton_append]
        constructor
        · rintro ⟨new, hinfos, hnew⟩
          exact ⟨info :: new, hinfos, info, new, rfl, rfl, hnew⟩
        · rintro ⟨_, hinfos, info', new, rfl, hinfo, hnew⟩
          obtain rfl : info = info' := Except.ok.inj hinfo
          exact ⟨new, hinfos, hnew⟩

/-- A row that is refused ends the report, whatever stands behind it. -/
theorem readRows_eq_error_iff {i : ℕ} {out : List (NodeInfo F)} {ls : List (List Char)}
    {e : ReportError} :
    readRows parseF64 i out ls = .error e ↔
      ∃ front line back infos, ls = front ++ line :: back ∧ trim line ≠ [] ∧
        RowsRead parseF64 out.length (reportRows front) infos ∧
        parseNodeInfoLine parseF64 (rowId (out.length + (reportRows front).length)) (trim line) =
          .error e.cause ∧
        e.lineNumber = i + front.length + 1 ∧ e.line = trim line := by
  constructor
  · intro h
    induction ls generalizing i out with
    | nil => simp [readRows] at h
    | cons first rest ih =>
      by_cases hblank : trim first = []
      · rw [readRows, if_pos hblank] at h
        obtain ⟨front, line, back, infos, rfl, hline, hread, hparse, hnumber, htext⟩ := ih h
        rw [← reportRows_blank hblank] at hread hparse
        refine ⟨first :: front, line, back, infos, rfl, hline, hread, hparse, ?_, htext⟩
        rw [hnumber, List.length_cons]
        omega
      · rw [readRows, if_neg hblank] at h
        rcases hfirst : parseNodeInfoLine parseF64 (rowId out.length) (trim first) with cause | info
        · rw [hfirst] at h
          obtain rfl := Except.error.inj h
          exact ⟨[], first, rest, [], rfl, hblank, rfl, hfirst, rfl, rfl⟩
        · rw [hfirst] at h
          obtain ⟨front, line, back, infos, rfl, hline, hread, hparse, hnumber, htext⟩ := ih h
          rw [List.length_append, List.length_singleton] at hread hparse
          refine ⟨first :: front, line, back, info :: infos, rfl, hline, ?_, ?_, ?_, htext⟩
          · rw [reportRows_row hblank]
            exact ⟨info, infos, rfl, hfirst, hread⟩
          · rw [reportRows_row hblank, List.length_cons]
            rw [show out.length + ((reportRows front).length + 1) =
              out.length + 1 + (reportRows front).length by omega]
            exact hparse
          · rw [hnumber, List.length_cons]
            omega
  · rintro ⟨front, line, back, infos, rfl, hline, hread, hparse, hnumber, htext⟩
    induction front generalizing i out infos with
    | nil =>
      rw [List.nil_append, readRows, if_neg hline]
      rw [reportRows_nil, List.length_nil, Nat.add_zero] at hparse
      rw [hparse]
      obtain ⟨number, text, cause⟩ := e
      obtain rfl : number = i + 1 := hnumber
      obtain rfl : text = trim line := htext
      rfl
    | cons first front ih =>
      by_cases hblank : trim first = []
      · rw [reportRows_blank hblank] at hread hparse
        rw [List.cons_append, readRows, if_pos hblank]
        refine ih infos hread hparse ?_
        rw [hnumber, List.length_cons]
        omega
      · rw [reportRows_row hblank] at hread hparse
        obtain ⟨info, rest, rfl, hfirst, hrest⟩ := hread
        rw [List.cons_append, readRows, if_neg hblank, hfirst]
        refine ih rest ?_ ?_ ?_
        · rw [List.length_append, List.length_singleton]
          exact hrest
        · rw [List.length_append, List.length_singleton]
          rw [List.length_cons] at hparse
          rw [show out.length + 1 + (reportRows front).length =
            out.length + ((reportRows front).length + 1) by omega]
          exact hparse
        · rw [hnumber, List.length_cons]
          omega

theorem parseNodeInfoAll_eq_ok_iff {raw : List Char} {infos : List (NodeInfo F)} :
    parseNodeInfoAll parseF64 raw = .ok infos ↔
      RowsRead parseF64 0 (reportRows (lines raw)) infos := by
  unfold parseNodeInfoAll
  rw [readRows_eq_ok_iff]
  constructor
  · rintro ⟨new, rfl, hnew⟩
    exact hnew
  · exact fun h => ⟨infos, rfl, h⟩

theorem parseNodeInfoAll_eq_error_iff {raw : List Char} {e : ReportError} :
    parseNodeInfoAll parseF64 raw = .error e ↔
      ∃ front line back infos, lines raw = front ++ line :: back ∧ trim line ≠ [] ∧
        RowsRead parseF64 0 (reportRows front) infos ∧
        parseNodeInfoLine parseF64 (rowId (reportRows front).length) (trim line) =
          .error e.cause ∧
        e.lineNumber = front.length + 1 ∧ e.line = trim line := by
  unfold parseNodeInfoAll
  rw [readRows_eq_error_iff]
  simp only [List.length_nil, Nat.zero_add]

end Reader

/-! ## What pgpool prints -/

/-- A text without white space, as the fields of a row are. -/
structure ReportWord where
  text : List Char
  ne_nil : text ≠ []
  no_space : ∀ c ∈ text, isWhitespace c = false

/-- White space within one line. -/
structure ReportBlank where
  text : List Char
  space : ∀ c ∈ text, isWhitespace c = true ∧ c ≠ '\n'

/-- A backend of pgpool's map, with the text of its weight and the time of its last change of
status, which the reader passes over. -/
structure Backend (F : Type) (parseF64 : List Char → Option F) where
  hostname : ReportWord
  port : ℕ
  port_u16 : port < 2 ^ 16
  statusCode : ℕ
  statusCode_u8 : statusCode < 2 ^ 8
  lbWeight : F
  weightText : ReportWord
  weightText_eq : parseF64 weightText.text = some lbWeight
  statusName : ReportWord
  actualStatus : ReportWord
  role : ReportWord
  actualRole : ReportWord
  replicationDelay : ReportWord
  replicationState : ReportWord
  syncState : ReportWord
  lastStatusChange : List Char
  change_line : '\n' ∉ lastStatusChange

/-- A line of a report. -/
inductive ReportLine (F : Type) (parseF64 : List Char → Option F)
  | backend (b : Backend F parseF64)
  | blank (space : ReportBlank)

theorem isWhitespace_of_mem_repr {n : ℕ} {c : Char} (h : c ∈ (Nat.repr n).toList) :
    isWhitespace c = false :=
  (isWhitespace_of_isDigit (Decimal.isDigit_of_mem_repr h)).1

/-- A number as a word of a report. -/
def ReportWord.ofNat (n : ℕ) : ReportWord :=
  ⟨(Nat.repr n).toList, by
    rw [Nat.toList_repr]
    exact Nat.toDigits_ne_nil, fun _ hc => isWhitespace_of_mem_repr hc⟩

/-- Words, each with a blank behind it. -/
def wordsText (words : List ReportWord) : List Char := words.flatMap fun w => w.text ++ [' ']

section Report

variable {F : Type} {parseF64 : List Char → Option F}

namespace Backend

variable (b : Backend F parseF64)

/-- The eleven fields of the row. -/
def words : List ReportWord :=
  [b.hostname, ReportWord.ofNat b.port, ReportWord.ofNat b.statusCode, b.weightText, b.statusName,
    b.actualStatus, b.role, b.actualRole, b.replicationDelay, b.replicationState, b.syncState]

def text : List Char := wordsText b.words ++ b.lastStatusChange

/-- The backend as the agent knows it. -/
def info (id : NodeId) : NodeInfo F :=
  ⟨id, b.hostname.text, b.port, b.statusCode, b.lbWeight, b.statusName.text, b.actualStatus.text,
    b.role.text, b.actualRole.text, b.replicationDelay.text, b.replicationState.text,
    b.syncState.text⟩

end Backend

def ReportLine.text : ReportLine F parseF64 → List Char
  | .backend b => b.text
  | .blank space => space.text

def ReportLine.backend? : ReportLine F parseF64 → Option (Backend F parseF64)
  | .backend b => some b
  | .blank _ => none

/-- The output of `pcp_node_info -a`. -/
def report (ls : List (ReportLine F parseF64)) : List Char := unlines (ls.map ReportLine.text)

/-- The backends in their order, each with the id of its place. -/
def backendInfos (n : ℕ) : List (Backend F parseF64) → List (NodeInfo F)
  | [] => []
  | b :: bs => b.info (rowId n) :: backendInfos (n + 1) bs

theorem splitWhitespace_wordsText (words : List ReportWord) (rest : List Char) :
    splitWhitespace (wordsText words ++ rest) = words.map ReportWord.text ++
      splitWhitespace rest := by
  induction words with
  | nil => rfl
  | cons w words ih =>
    have htext : wordsText (w :: words) ++ rest = w.text ++ ' ' :: (wordsText words ++ rest) := by
      simp [wordsText]
    rw [htext, splitWhitespace_append_cons (by rfl), splitWhitespace_word w.ne_nil w.no_space, ih]
    rfl

theorem newline_notMem_wordsText (words : List ReportWord) : '\n' ∉ wordsText words := by
  intro hmem
  obtain ⟨w, -, hc⟩ := List.mem_flatMap.mp hmem
  rcases List.mem_append.mp hc with hc | hc
  · exact absurd (w.no_space _ hc) (by decide)
  · simp at hc

theorem Backend.parseNodeInfoLine_text (b : Backend F parseF64) (id : NodeId) :
    parseNodeInfoLine parseF64 id (trim b.text) = .ok (b.info id) := by
  unfold parseNodeInfoLine Backend.text
  rw [splitWhitespace_trim, splitWhitespace_wordsText]
  have hport : parseUnsigned (2 ^ 16) (ReportWord.ofNat b.port).text = .ok b.port :=
    parseUnsigned_repr b.port_u16
  have hcode : parseUnsigned (2 ^ 8) (ReportWord.ofNat b.statusCode).text = .ok b.statusCode :=
    parseUnsigned_repr b.statusCode_u8
  simp only [Backend.words, List.map_cons, List.map_nil, List.cons_append, hport, hcode,
    b.weightText_eq]
  rfl

theorem Backend.trim_text_ne (b : Backend F parseF64) : trim b.text ≠ [] := by
  intro h
  have hfields := splitWhitespace_trim b.text
  rw [h] at hfields
  unfold Backend.text at hfields
  rw [splitWhitespace_wordsText] at hfields
  simp [Backend.words] at hfields

theorem ReportLine.newline_notMem_text (l : ReportLine F parseF64) : '\n' ∉ l.text := by
  rcases l with b | space
  · intro hmem
    rcases List.mem_append.mp hmem with hmem | hmem
    · exact newline_notMem_wordsText b.words hmem
    · exact b.change_line hmem
  · exact fun hmem => (space.space _ hmem).2 rfl

theorem rowsRead_backends (n : ℕ) (ls : List (ReportLine F parseF64)) :
    RowsRead parseF64 n (reportRows (ls.map ReportLine.text))
      (backendInfos n (ls.filterMap ReportLine.backend?)) := by
  induction ls generalizing n with
  | nil => rfl
  | cons l ls ih =>
    rcases l with b | space
    · have hrow : trim (ReportLine.backend b).text ≠ [] := b.trim_text_ne
      rw [List.map_cons, reportRows_row hrow]
      exact ⟨b.info (rowId n), _, rfl, b.parseNodeInfoLine_text (rowId n), ih (n + 1)⟩
    · have hblank : trim (ReportLine.blank space : ReportLine F parseF64).text = [] :=
        trim_eq_nil fun c hc => (space.space c hc).1
      rw [List.map_cons, reportRows_blank hblank]
      exact ih n

/-- What pgpool prints of its backends is read back, each under the id of its place. -/
theorem parseNodeInfoAll_report (ls : List (ReportLine F parseF64)) :
    parseNodeInfoAll parseF64 (report ls) =
      .ok (backendInfos 0 (ls.filterMap ReportLine.backend?)) := by
  rw [parseNodeInfoAll_eq_ok_iff]
  have hrows : reportRows (lines (report ls)) = reportRows (ls.map ReportLine.text) := by
    unfold reportRows report
    rw [map_trim_lines_unlines]
    intro line hline
    obtain ⟨l, -, rfl⟩ := List.mem_map.mp hline
    exact l.newline_notMem_text
  rw [hrows]
  exact rowsRead_backends 0 ls

end Report

theorem id_of_parseNodeInfoLine {F : Type} {parseF64 : List Char → Option F} {id : NodeId}
    {line : List Char} {info : NodeInfo F} (h : parseNodeInfoLine parseF64 id line = .ok info) :
    info.id = id := by
  unfold parseNodeInfoLine at h
  split at h
  · rename_i hostname port statusCode lbWeight _ _ _ _ _ _ _ _ _
    rcases hport : parseUnsigned (2 ^ 16) port with e | portValue
    · rw [hport] at h
      cases h
    · rcases hcode : parseUnsigned (2 ^ 8) statusCode with e | code
      · rw [hport, hcode] at h
        cases h
      · rcases hweight : parseF64 lbWeight with _ | weight
        · simp only [hport, hcode, hweight] at h
          cases h
        · simp only [hport, hcode, hweight] at h
          obtain rfl := Except.ok.inj h
          rfl
  · cases h

/-- pgpool's report is read **as the map it was printed from**; what is read has one entry for each
row of the text, under the id of its place; and where a row cannot be read the whole report is
refused, with the number of the first such line. -/
theorem nodeInfoAll_exact {F : Type} (parseF64 : List Char → Option F) :
    (∀ ls : List (ReportLine F parseF64), parseNodeInfoAll parseF64 (report ls) =
      .ok (backendInfos 0 (ls.filterMap ReportLine.backend?))) ∧
    (∀ raw infos, parseNodeInfoAll parseF64 raw = .ok infos →
      infos.length = (reportRows (lines raw)).length ∧
      ∀ i row, (reportRows (lines raw))[i]? = some row → ∃ info, infos[i]? = some info ∧
        info.id = rowId i ∧ parseNodeInfoLine parseF64 (rowId i) row = .ok info) ∧
    ∀ raw e, parseNodeInfoAll parseF64 raw = .error e ↔
      ∃ front line back infos, lines raw = front ++ line :: back ∧ trim line ≠ [] ∧
        RowsRead parseF64 0 (reportRows front) infos ∧
        parseNodeInfoLine parseF64 (rowId (reportRows front).length) (trim line) =
          .error e.cause ∧
        e.lineNumber = front.length + 1 ∧ e.line = trim line := by
  refine ⟨parseNodeInfoAll_report, ?_, fun raw e => parseNodeInfoAll_eq_error_iff⟩
  intro raw infos h
  have hread := parseNodeInfoAll_eq_ok_iff.mp h
  refine ⟨hread.length_eq, fun i row hrow => ?_⟩
  obtain ⟨info, hget, hparse⟩ := hread.get hrow
  rw [Nat.zero_add] at hparse
  exact ⟨info, hget, id_of_parseNodeInfoLine hparse, hparse⟩

end PgAgent
