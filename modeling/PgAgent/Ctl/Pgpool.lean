import PgAgent.Config.Pool
import PgAgent.Library.Decimal
import PgAgent.Library.Text

/-!
# The fragment of `pgpool.conf`

`pg_agentctl gen-pgpool` writes the part of `pgpool.conf` that the agent owns: a block for each
backend, the hooks, and the settings of the contract. `pg_agentctl check-hooks` reads such a file
again. The writer puts hostnames and data directories between quotes as they are, and the reader
cuts a line at its first `#`, inside quotes or not.

* `parsePgpoolLine_assign` --- one line that has been written;
* `parsePgpoolConf_value` --- no value that is read has a `#` or a line break in it;
* `pgpoolRoundTrips_iff` --- the backends whose block is read back.
-/

namespace PgAgent

open Rust

/-! ## The canonical hooks and settings -/

/-- `PgpoolHookEntry`. -/
structure PgpoolHookEntry where
  key : String
  value : String
  deriving DecidableEq, Repr

def hookFailover : String := "failover"

def hookRecovery1stStage : String := "recovery_1st_stage"

/-- The tokens of `SCHEMA_FAILOVER`. -/
def schemaFailover : List String :=
  ["%d", "%h", "%p", "%D", "%m", "%H", "%M", "%P", "%r", "%R", "%N", "%S"]

/-- `pgpool_cmd`, of the tokens of a schema. -/
def pgpoolCmd (subcommand : String) (tokens : List String) : String :=
  if tokens = [] then "pg_agentc " ++ subcommand
  else "pg_agentc " ++ subcommand ++ " " ++ " ".intercalate tokens

def pgpoolHooks : List PgpoolHookEntry :=
  [⟨"failover_command", pgpoolCmd hookFailover schemaFailover⟩,
    ⟨"follow_primary_command", ""⟩,
    ⟨"recovery_1st_stage_command", hookRecovery1stStage⟩]

def pgpoolSettings : List PgpoolHookEntry :=
  [⟨"use_watchdog", "off"⟩, ⟨"detach_false_primary", "on"⟩, ⟨"auto_failback", "off"⟩,
    ⟨"failover_on_backend_error", "on"⟩]

/-! ## The writer -/

/-- `BackendRow`. -/
structure BackendRow where
  id : NodeId
  hostname : String
  port : ℤ
  dataDir : String
  deriving DecidableEq, Repr

/-- The keys of the block of a backend. -/
inductive BackendKey
  | hostname
  | port
  | dataDirectory
  | flag
  deriving DecidableEq, Repr

def BackendKey.text : BackendKey → List Char
  | hostname => "backend_hostname".toList
  | port => "backend_port".toList
  | dataDirectory => "backend_data_directory".toList
  | flag => "backend_flag".toList

/-- The key of backend `i`. -/
def BackendKey.of (k : BackendKey) (i : NodeId) : List Char := k.text ++ (toString i).toList

def quoted (value : List Char) : List Char := '\'' :: (value ++ ['\''])

/-- `{key} = {value}`. -/
def assign (key value : List Char) : List Char := key ++ (" = ".toList ++ value)

/-- The format `{:<width$}`. -/
def padRight (width : ℕ) (s : List Char) : List Char := s ++ List.replicate (width - s.length) ' '

def keyWidth : ℕ := 26

def backendLines (r : BackendRow) : List (List Char) :=
  [assign (BackendKey.hostname.of r.id) (quoted r.hostname.toList),
    assign (BackendKey.port.of r.id) (toString r.port).toList,
    assign (BackendKey.dataDirectory.of r.id) (quoted r.dataDir.toList),
    assign (BackendKey.flag.of r.id) (quoted "ALLOW_TO_FAILOVER".toList),
    []]

def headerLines : List (List Char) :=
  ["# Generated by `pg_agentctl gen-pgpool`. Do not edit by hand.".toList,
    "# Pool size and per-backend addressing are owned by this file;".toList,
    "# the hook block below is the canonical pg_agent wiring.".toList,
    []]

def hookHeaderLines : List (List Char) :=
  ["# --- canonical hook block (agent-led failover) ---".toList,
    "# failover_command is a notify-only poke: the HA loop decides.".toList,
    "# follow_primary_command MUST stay empty (hook-contract §2).".toList]

def settingHeaderLines : List (List Char) :=
  [[], "# --- contract settings (decision-critical, not tuning) ---".toList]

def hookLine (h : PgpoolHookEntry) : List Char :=
  assign (padRight keyWidth h.key.toList) (quoted h.value.toList)

def settingValueLine (h : PgpoolHookEntry) : List Char :=
  assign (padRight keyWidth h.key.toList) h.value.toList

def fragmentLines (rows : List BackendRow) : List (List Char) :=
  headerLines ++ rows.flatMap backendLines ++ hookHeaderLines ++ pgpoolHooks.map hookLine ++
    settingHeaderLines ++ pgpoolSettings.map settingValueLine

/-- `render_pgpool_fragment`. -/
def renderPgpoolFragment (rows : List BackendRow) : String :=
  String.ofList (unlines (fragmentLines rows))

/-! ## The reader -/

/-- What is parsed: a value for each key, the last one that was given. -/
abbrev ConfMap := List Char → Option (List Char)

/-- One leading and one trailing quote are stripped. -/
def unquote (value : List Char) : List Char :=
  if value.head? = some '\'' ∧ value.getLast? = some '\'' ∧ 2 ≤ len value then
    (value.drop 1).dropLast
  else value

/-- The body of the loop of `parse_pgpool_conf`; `none` is its `continue`. -/
def parsePgpoolLine (raw : List Char) : Option (List Char × List Char) :=
  let line := trimStart raw
  if line = [] ∨ line.head? = some '#' then none
  else
    let line := line.takeWhile fun c => c != '#'
    (splitOnce '=' line).map fun p => (trim p.1, unquote (trim p.2))

/-- The pairs of a text, entered one after the other. -/
def ConfMap.ofPairs (pairs : List (List Char × List Char)) : ConfMap :=
  pairs.foldl (fun m p => Function.update m p.1 (some p.2)) fun _ => none

/-- `parse_pgpool_conf`. -/
def parsePgpoolConf (text : String) : ConfMap :=
  ConfMap.ofPairs ((lines text.toList).filterMap parsePgpoolLine)

/-- `check_hooks`, on the text of the file: whether all directives match. -/
def checkHooks (text : String) : Bool :=
  (pgpoolHooks ++ pgpoolSettings).all fun h =>
    parsePgpoolConf text h.key.toList == some h.value.toList

/-! ## The map -/

section Map

variable {pairs : List (List Char × List Char)} {key value : List Char}

theorem ConfMap.ofPairs_concat (pairs : List (List Char × List Char))
    (p : List Char × List Char) :
    ConfMap.ofPairs (pairs ++ [p]) = Function.update (ConfMap.ofPairs pairs) p.1 (some p.2) := by
  unfold ConfMap.ofPairs
  rw [List.foldl_append]
  rfl

/-- What is found has been entered. -/
theorem ConfMap.mem_of_ofPairs (h : ConfMap.ofPairs pairs key = some value) :
    (key, value) ∈ pairs := by
  induction pairs using List.reverseRecOn with
  | nil => cases h
  | append_singleton pairs p ih =>
    rw [ofPairs_concat] at h
    by_cases hkey : key = p.1
    · subst hkey
      rw [Function.update_self] at h
      obtain rfl := Option.some.inj h
      exact List.mem_append_right _ List.mem_cons_self
    · rw [Function.update_of_ne hkey] at h
      exact List.mem_append_left _ (ih h)

/-- What has been entered once is found. -/
theorem ConfMap.ofPairs_of_mem (hnodup : (pairs.map Prod.fst).Nodup) (h : (key, value) ∈ pairs) :
    ConfMap.ofPairs pairs key = some value := by
  induction pairs using List.reverseRecOn with
  | nil => cases h
  | append_singleton pairs p ih =>
    rw [List.map_append, List.nodup_append] at hnodup
    rw [ofPairs_concat]
    rcases List.mem_append.mp h with hmem | hmem
    · have hne : key ≠ p.1 :=
        hnodup.2.2 key (List.mem_map_of_mem hmem) p.1 List.mem_cons_self
      rw [Function.update_of_ne hne]
      exact ih hnodup.1 hmem
    · obtain rfl := List.mem_singleton.mp hmem
      rw [Function.update_self]

end Map

/-! ## One line -/

section Line

variable {key value : List Char}

/-- A key that the reader leaves as it is. -/
structure PlainKey (key : List Char) : Prop where
  ne_nil : key ≠ []
  chars : ∀ c ∈ key, isWhitespace c = false ∧ c ≠ '#' ∧ c ≠ '='

/-- A line that has been written, with blanks behind its key. -/
theorem parsePgpoolLine_assign (hkey : PlainKey key) (n : ℕ) (hvalue : '#' ∉ value) :
    parsePgpoolLine (assign (key ++ List.replicate n ' ') value) =
      some (key, unquote (trim value)) := by
  have hblank : ∀ c ∈ List.replicate n ' ' ++ [' '], c = ' ' := by
    intro c hc
    rcases List.mem_append.mp hc with hc | hc
    · exact List.eq_of_mem_replicate hc
    · exact List.mem_singleton.mp hc
  have htext : assign (key ++ List.replicate n ' ') value =
      (key ++ (List.replicate n ' ' ++ [' '])) ++ '=' :: ' ' :: value := by
    have hsign : " = ".toList = [' ', '=', ' '] := by decide
    unfold assign
    rw [hsign]
    simp only [List.append_assoc, List.cons_append, List.nil_append]
  -- neither the key nor the blanks have a `#` or an equals sign in them
  have hfront : ∀ c ∈ key ++ (List.replicate n ' ' ++ [' ']), c ≠ '#' ∧ c ≠ '=' := by
    intro c hc
    rcases List.mem_append.mp hc with hc | hc
    · exact (hkey.chars c hc).2
    · rw [hblank c hc]
      decide
  have hcut : (key ++ (List.replicate n ' ' ++ [' ']) ++ '=' :: ' ' :: value).takeWhile
      (fun c => c != '#') = key ++ (List.replicate n ' ' ++ [' ']) ++ '=' :: ' ' :: value := by
    rw [List.takeWhile_eq_self_iff]
    intro c hc
    rw [bne_iff_ne]
    rcases List.mem_append.mp hc with hc | hc
    · exact (hfront c hc).1
    · rintro rfl
      rcases List.mem_cons.mp hc with hc | hc
      · exact absurd hc (by decide)
      · rcases List.mem_cons.mp hc with hc | hc
        · exact absurd hc (by decide)
        · exact hvalue hc
  have hstart : ∃ c rest, key ++ (List.replicate n ' ' ++ [' ']) ++
      '=' :: ' ' :: value = c :: rest ∧
      isWhitespace c = false ∧ c ≠ '#' := by
    cases key with
    | nil => exact absurd rfl hkey.ne_nil
    | cons c cs =>
      have hc := hkey.chars c List.mem_cons_self
      exact ⟨c, _, rfl, hc.1, hc.2.1⟩
  have htrim : trimStart (key ++ (List.replicate n ' ' ++ [' ']) ++ '=' :: ' ' :: value) =
      key ++ (List.replicate n ' ' ++ [' ']) ++ '=' :: ' ' :: value := by
    obtain ⟨c, rest, hrest, hspace, -⟩ := hstart
    rw [hrest]
    exact List.dropWhile_cons_of_neg (by simp [hspace])
  have hcontinue : ¬ (key ++ (List.replicate n ' ' ++ [' ']) ++ '=' :: ' ' :: value = [] ∨
      (key ++ (List.replicate n ' ' ++ [' ']) ++ '=' :: ' ' :: value).head? = some '#') := by
    obtain ⟨c, rest, hrest, -, hhash⟩ := hstart
    rw [hrest]
    rintro (h | h)
    · cases h
    · exact hhash (Option.some.inj h)
  have hsplit : splitOnce '=' (key ++ (List.replicate n ' ' ++ [' ']) ++ '=' :: ' ' :: value) =
      some (key ++ (List.replicate n ' ' ++ [' ']), ' ' :: value) :=
    splitOnce_eq_some_iff.mpr ⟨rfl, fun hc => (hfront _ hc).2 rfl⟩
  have hkeytrim : trim (key ++ (List.replicate n ' ' ++ [' '])) = key := by
    rw [trim_append_right key fun c hc => by rw [hblank c hc]; rfl]
    exact trim_of_forall fun c hc => (hkey.chars c hc).1
  have hvaluetrim : trim (' ' :: value) = trim value := by
    have hspace : ∀ c ∈ [' '], isWhitespace c = true := by
      intro c hc
      rw [List.mem_singleton.mp hc]
      rfl
    exact trim_append hspace value
  unfold parsePgpoolLine
  dsimp only
  rw [htext, htrim, if_neg hcontinue, hcut, hsplit, Option.map_some, hkeytrim, hvaluetrim]

theorem unquote_trim_quoted (value : List Char) : unquote (trim (quoted value)) = value := by
  have hlast : (quoted value).getLast? = some '\'' := by
    show ('\'' :: value ++ ['\'']).getLast? = _
    exact List.getLast?_concat
  have htrim : trim (quoted value) = quoted value := by
    refine trim_eq_self (fun c hc => ?_) fun c hc => ?_
    · rw [← Option.some.inj hc]
      rfl
    · rw [hlast] at hc
      rw [← Option.some.inj hc]
      rfl
  have hlen : 2 ≤ len (quoted value) := by
    have hone : Char.utf8Size '\'' = 1 := by decide
    simp only [len, quoted, List.map_cons, List.map_append, List.map_nil, List.sum_cons,
      List.sum_append, List.sum_nil, hone]
    omega
  unfold unquote
  rw [htrim, if_pos ⟨rfl, hlast, hlen⟩]
  show (value ++ ['\'']).dropLast = value
  exact List.dropLast_concat

/-- A value without quotes and white space stays as it is. -/
theorem unquote_trim_plain (hspace : ∀ c ∈ value, isWhitespace c = false)
    (hquote : '\'' ∉ value) : unquote (trim value) = value := by
  unfold unquote
  rw [trim_of_forall hspace, if_neg]
  rintro ⟨hhead, -⟩
  exact hquote (List.mem_of_head? hhead)

/-- No value that is read has a `#` or a line break in it. -/
theorem notMem_of_parsePgpoolLine {raw : List Char} (hraw : '\n' ∉ raw)
    (h : parsePgpoolLine raw = some (key, value)) : '#' ∉ value ∧ '\n' ∉ value := by
  have hunquote : ∀ {v : List Char} {c : Char}, c ∈ unquote v → c ∈ v := by
    intro v c hc
    unfold unquote at hc
    split at hc
    · exact List.mem_of_mem_drop (List.mem_of_mem_dropLast hc)
    · exact hc
  have htrim : ∀ {v : List Char} {c : Char}, c ∈ trim v → c ∈ v := by
    intro v c hc
    obtain ⟨front, back, hv, -, -⟩ := exists_eq_trim v
    rw [hv]
    exact List.mem_append_left _ (List.mem_append_right _ hc)
  unfold parsePgpoolLine at h
  dsimp only at h
  split at h
  · cases h
  obtain ⟨⟨k, v⟩, hsplit, hpair⟩ := Option.map_eq_some_iff.mp h
  obtain ⟨-, rfl⟩ := Prod.mk.inj hpair
  obtain ⟨hline, -⟩ := splitOnce_eq_some_iff.mp hsplit
  -- every character of the value is one of the line in front of its first `#`
  have hmem : ∀ {c : Char}, c ∈ unquote (trim v) →
      c ∈ (trimStart raw).takeWhile fun c => c != '#' := by
    intro c hc
    rw [hline]
    exact List.mem_append_right _ (List.mem_cons_of_mem _ (htrim (hunquote hc)))
  constructor
  · intro hc
    have hhash := List.mem_takeWhile_imp (hmem hc)
    exact absurd hhash (by decide)
  · intro hc
    have hdrop := (List.takeWhile_prefix _).subset (hmem hc)
    exact hraw ((List.dropWhile_suffix _).subset hdrop)

theorem parsePgpoolConf_value {text : String} (h : parsePgpoolConf text key = some value) :
    '#' ∉ value ∧ '\n' ∉ value := by
  obtain ⟨raw, hraw, hparse⟩ := List.mem_filterMap.mp (ConfMap.mem_of_ofPairs h)
  exact notMem_of_parsePgpoolLine (notMem_of_mem_lines hraw) hparse

end Line

/-! ## The keys -/

/-- The characters of a numeral. -/
theorem mem_toString {a : ℤ} {c : Char} (hc : c ∈ (toString a).toList) :
    c.isDigit = true ∨ c = '-' := by
  by_contra hnot
  rw [not_or] at hnot
  exact Decimal.notMem_toString (Bool.eq_false_iff.mpr hnot.1) hnot.2 a hc

theorem numeral_chars {a : ℤ} {c : Char} (hc : c ∈ (toString a).toList) :
    isWhitespace c = false ∧ c ≠ '#' ∧ c ≠ '=' ∧ c ≠ '\'' := by
  rcases mem_toString hc with hdigit | rfl
  · exact isWhitespace_of_isDigit hdigit
  · decide

namespace BackendKey

theorem plainKey_of (k : BackendKey) (i : NodeId) : PlainKey (k.of i) := by
  have hall : k.text ≠ [] ∧
      (k.text.all fun c => !isWhitespace c && c != '#' && c != '=') = true := by
    cases k <;> decide +kernel
  have htext : k.text ≠ [] ∧ ∀ c ∈ k.text, isWhitespace c = false ∧
      c ≠ '#' ∧ c ≠ '=' := by
    refine ⟨hall.1, fun c hc => ?_⟩
    have hplain := List.all_eq_true.mp hall.2 c hc
    simp only [Bool.and_eq_true, Bool.not_eq_true', bne_iff_ne] at hplain
    exact ⟨hplain.1.1, hplain.1.2, hplain.2⟩
  refine ⟨fun h => htext.1 (List.append_eq_nil_iff.mp h).1, fun c hc => ?_⟩
  rcases List.mem_append.mp hc with hc | hc
  · exact htext.2 c hc
  · obtain ⟨hspace, hhash, hsign, -⟩ := numeral_chars hc
    exact ⟨hspace, hhash, hsign⟩

/-- The letter behind `backend_`. -/
def initial : BackendKey → Char
  | hostname => 'h'
  | port => 'p'
  | dataDirectory => 'd'
  | flag => 'f'

theorem getElem?_of (k : BackendKey) (i : NodeId) : (k.of i)[8]? = some k.initial := by
  have hlength : 8 < k.text.length := by
    cases k <;> decide +kernel
  rw [of, List.getElem?_append_left hlength]
  cases k <;> decide +kernel

theorem of_inj {k k' : BackendKey} {i i' : NodeId} : k.of i = k'.of i' ↔ k = k' ∧ i = i' := by
  constructor
  · intro h
    have hinitial : k.initial = k'.initial := by
      rw [← Option.some_inj, ← getElem?_of k i, h, getElem?_of]
    have hk : k = k' := by
      cases k <;> cases k' <;> first | rfl | exact absurd hinitial (by decide)
    subst hk
    exact ⟨rfl, Decimal.toString_inj.mp (String.toList_inj.mp (List.append_cancel_left h))⟩
  · rintro ⟨rfl, rfl⟩
    rfl

end BackendKey

/-! ## The whole fragment -/

/-- The hostname and the data directory have neither a `#` nor a line break in them. -/
def BackendRow.Clean (r : BackendRow) : Prop :=
  ('#' ∉ r.hostname.toList ∧ '\n' ∉ r.hostname.toList) ∧
    '#' ∉ r.dataDir.toList ∧ '\n' ∉ r.dataDir.toList

/-- What has been put into the block of a backend. -/
def backendEntries (r : BackendRow) : List (List Char × List Char) :=
  [(BackendKey.hostname.of r.id, r.hostname.toList),
    (BackendKey.port.of r.id, (toString r.port).toList),
    (BackendKey.dataDirectory.of r.id, r.dataDir.toList),
    (BackendKey.flag.of r.id, "ALLOW_TO_FAILOVER".toList)]

def PgpoolHookEntry.entry (h : PgpoolHookEntry) : List Char × List Char :=
  (h.key.toList, h.value.toList)

/-- What has been put into the fragment. -/
def fragmentEntries (rows : List BackendRow) : List (List Char × List Char) :=
  rows.flatMap backendEntries ++ (pgpoolHooks ++ pgpoolSettings).map PgpoolHookEntry.entry

/-- The reader finds in a fragment every backend's hostname, port and data directory, every hook and
every setting of the contract, and no key but theirs and the flags of the backends. -/
structure PgpoolRoundTrips (rows : List BackendRow) : Prop where
  backends : ∀ r ∈ rows,
    parsePgpoolConf (renderPgpoolFragment rows) (BackendKey.hostname.of r.id) =
        some r.hostname.toList ∧
      parsePgpoolConf (renderPgpoolFragment rows) (BackendKey.port.of r.id) =
        some (toString r.port).toList ∧
      parsePgpoolConf (renderPgpoolFragment rows) (BackendKey.dataDirectory.of r.id) =
        some r.dataDir.toList
  contract : ∀ h ∈ pgpoolHooks ++ pgpoolSettings,
    parsePgpoolConf (renderPgpoolFragment rows) h.key.toList = some h.value.toList
  passes : checkHooks (renderPgpoolFragment rows) = true
  keys : ∀ key, parsePgpoolConf (renderPgpoolFragment rows) key ≠ none →
    (∃ r ∈ rows, ∃ k : BackendKey, key = k.of r.id) ∨
      ∃ h ∈ pgpoolHooks ++ pgpoolSettings, key = h.key.toList

section Fragment

variable {rows : List BackendRow} {r : BackendRow}

theorem parsePgpoolLine_backend (k : BackendKey) (i : NodeId) {value : List Char}
    (hvalue : '#' ∉ value) :
    parsePgpoolLine (assign (k.of i) value) = some (k.of i, unquote (trim value)) := by
  have hline := parsePgpoolLine_assign (k.plainKey_of i) 0 hvalue
  rwa [List.replicate_zero, List.append_nil] at hline

theorem notMem_quoted {value : List Char} {c : Char} (hc : c ≠ '\'') (h : c ∉ value) :
    c ∉ quoted value := by
  simp only [quoted, List.mem_cons, List.mem_append, List.not_mem_nil, or_false, not_or]
  exact ⟨hc, h, hc⟩

/-- The block of a backend is read back. -/
theorem filterMap_backendLines (hclean : r.Clean) :
    (backendLines r).filterMap parsePgpoolLine = backendEntries r := by
  obtain ⟨⟨hhost, -⟩, hdir, -⟩ := hclean
  have hport : ∀ c ∈ (toString r.port).toList, isWhitespace c = false :=
    fun c hc => (numeral_chars hc).1
  have hhostline := parsePgpoolLine_backend .hostname r.id (notMem_quoted (by decide) hhost)
  have hporthash : '#' ∉ (toString r.port).toList := fun hc => (numeral_chars hc).2.1 rfl
  have hportline := parsePgpoolLine_backend .port r.id hporthash
  have hdirline := parsePgpoolLine_backend .dataDirectory r.id (notMem_quoted (by decide) hdir)
  have hflag : '#' ∉ "ALLOW_TO_FAILOVER".toList := by decide
  have hflagline := parsePgpoolLine_backend .flag r.id (notMem_quoted (by decide) hflag)
  have hblank : parsePgpoolLine [] = none := rfl
  rw [unquote_trim_quoted] at hhostline hdirline hflagline
  rw [unquote_trim_plain hport fun hc => (numeral_chars hc).2.2.2 rfl] at hportline
  unfold backendLines
  rw [List.filterMap_cons, hhostline, List.filterMap_cons, hportline, List.filterMap_cons, hdirline,
    List.filterMap_cons, hflagline, List.filterMap_cons, hblank]
  rfl

/-- The other lines are read back. -/
theorem filterMap_fixedLines :
    headerLines.filterMap parsePgpoolLine = [] ∧
    hookHeaderLines.filterMap parsePgpoolLine = [] ∧
      settingHeaderLines.filterMap parsePgpoolLine = [] ∧
      (pgpoolHooks.map hookLine).filterMap parsePgpoolLine =
        pgpoolHooks.map PgpoolHookEntry.entry ∧
      (pgpoolSettings.map settingValueLine).filterMap parsePgpoolLine =
        pgpoolSettings.map PgpoolHookEntry.entry := by
  decide +kernel

theorem filterMap_fragmentLines (hclean : ∀ r ∈ rows, r.Clean) :
    (fragmentLines rows).filterMap parsePgpoolLine = fragmentEntries rows := by
  obtain ⟨hheader, hhookheader, hsettingheader, hhooks, hsettings⟩ := filterMap_fixedLines
  have hrows : (rows.flatMap backendLines).filterMap parsePgpoolLine =
      rows.flatMap backendEntries := by
    rw [List.filterMap_flatMap]
    exact List.flatMap_congr fun r hr => filterMap_backendLines (hclean r hr)
  unfold fragmentLines fragmentEntries
  rw [List.filterMap_append, List.filterMap_append, List.filterMap_append, List.filterMap_append,
    List.filterMap_append, hheader, hrows, hhookheader, hhooks, hsettingheader, hsettings,
    List.nil_append, List.append_nil, List.append_nil, List.append_assoc, ← List.map_append]

/-- No line of the fragment has a line break in it or ends in a carriage return. -/
theorem fragmentLines_proper (hclean : ∀ r ∈ rows, r.Clean) :
    ∀ line ∈ fragmentLines rows, '\n' ∉ line ∧ line.getLast? ≠ some '\r' := by
  have hfixed : ∀ line ∈ headerLines ++ hookHeaderLines ++ pgpoolHooks.map hookLine ++
      settingHeaderLines ++ pgpoolSettings.map settingValueLine,
      '\n' ∉ line ∧ line.getLast? ≠ some '\r' := by decide +kernel
  -- a line is proper if its value is
  have hassign : ∀ (k : BackendKey) (i : NodeId) (value : List Char) (c : Char),
      '\n' ∉ value →
      value.getLast? = some c → c ≠ '\r' →
        '\n' ∉ assign (k.of i) value ∧ (assign (k.of i) value).getLast? ≠ some '\r' := by
    intro k i value c hbreak hlast hc
    constructor
    · simp only [assign, List.mem_append, not_or]
      refine ⟨fun hmem => ?_, by decide, hbreak⟩
      have hspace := ((k.plainKey_of i).chars _ hmem).1
      cases hspace
    · unfold assign
      rw [List.getLast?_append, List.getLast?_append, hlast]
      exact fun h => hc (Option.some.inj h)
  have hquoted : ∀ value : List Char, (quoted value).getLast? = some '\'' := by
    intro value
    show ('\'' :: value ++ ['\'']).getLast? = _
    exact List.getLast?_concat
  intro line hline
  simp only [fragmentLines, List.mem_append] at hline
  simp only [List.mem_append] at hfixed
  rcases hline with ((((hline | hline) | hline) | hline) | hline) | hline
  · exact hfixed line (Or.inl (Or.inl (Or.inl (Or.inl hline))))
  · obtain ⟨r, hr, hline⟩ := List.mem_flatMap.mp hline
    obtain ⟨⟨-, hhost⟩, -, hdir⟩ := hclean r hr
    simp only [backendLines, List.mem_cons, List.not_mem_nil, or_false] at hline
    rcases hline with rfl | rfl | rfl | rfl | rfl
    · exact hassign _ _ _ _ (notMem_quoted (by decide) hhost) (hquoted _) (by decide)
    · obtain ⟨c, hlast⟩ := Option.ne_none_iff_exists'.mp
        (mt List.getLast?_eq_none_iff.mp (Decimal.toString_ne_nil r.port))
      refine hassign _ _ _ c (fun hmem => ?_) hlast ?_
      · have hspace := (numeral_chars hmem).1
        cases hspace
      · rintro rfl
        have hspace := (numeral_chars (List.mem_of_getLast? hlast)).1
        cases hspace
    · exact hassign _ _ _ _ (notMem_quoted (by decide) hdir) (hquoted _) (by decide)
    · exact hassign _ _ _ _ (notMem_quoted (by decide) (by decide)) (hquoted _) (by decide)
    · exact ⟨by simp, by simp⟩
  · exact hfixed line (Or.inl (Or.inl (Or.inl (Or.inr hline))))
  · exact hfixed line (Or.inl (Or.inl (Or.inr hline)))
  · exact hfixed line (Or.inl (Or.inr hline))
  · exact hfixed line (Or.inr hline)

/-- What has been put into a clean fragment is what is read. -/
theorem parsePgpoolConf_render (hclean : ∀ r ∈ rows, r.Clean) :
    parsePgpoolConf (renderPgpoolFragment rows) = ConfMap.ofPairs (fragmentEntries rows) := by
  unfold parsePgpoolConf renderPgpoolFragment
  rw [String.toList_ofList, lines_unlines (fragmentLines_proper hclean),
    filterMap_fragmentLines hclean]

theorem exists_backendKey {key : List Char} (h : key ∈ (backendEntries r).map Prod.fst) :
    ∃ k : BackendKey, key = k.of r.id := by
  simp only [backendEntries, List.map_cons, List.map_nil, List.mem_cons, List.not_mem_nil,
    or_false] at h
  rcases h with h | h | h | h <;> exact ⟨_, h⟩

/-- Every key of the fragment is given once. -/
theorem nodup_fragmentEntries (hids : (rows.map BackendRow.id).Nodup) :
    ((fragmentEntries rows).map Prod.fst).Nodup := by
  have hfixed : ((pgpoolHooks ++ pgpoolSettings).map fun h => h.key.toList).Nodup := by
    decide +kernel
  -- no key of the contract starts as those of the backends do
  have hnone : ∀ h ∈ pgpoolHooks ++ pgpoolSettings, h.key.toList.head? ≠ some 'b' := by
    decide +kernel
  have hhead : ∀ (k : BackendKey) (i : NodeId), (k.of i).head? = some 'b' := by
    intro k i
    have htext : k.text.head? = some 'b' := by
      cases k <;> decide +kernel
    rw [BackendKey.of, List.head?_append, htext]
    rfl
  unfold fragmentEntries
  rw [List.map_append, List.map_flatMap, List.map_map, List.nodup_append]
  refine ⟨?_, hfixed, ?_⟩
  · rw [List.nodup_flatMap]
    constructor
    · intro r _
      simp [backendEntries, BackendKey.of_inj]
    · refine (List.pairwise_map.mp hids).imp fun {r r'} hne => ?_
      rw [Function.onFun, List.disjoint_left]
      intro key hkey hkey'
      obtain ⟨k, rfl⟩ := exists_backendKey hkey
      obtain ⟨k', heq⟩ := exists_backendKey hkey'
      exact hne (BackendKey.of_inj.mp heq).2
  · intro key hkey key' hkey' heq
    obtain ⟨r, -, hkey⟩ := List.mem_flatMap.mp hkey
    obtain ⟨h, hh, rfl⟩ := List.mem_map.mp hkey'
    obtain ⟨k, rfl⟩ := exists_backendKey hkey
    refine hnone h hh ?_
    rw [← hhead k r.id, heq]
    rfl

/-- Among backends with ids of their own, those that are read back are the clean ones: the reader
cuts a line at a `#` inside the quotes, and the writer lets a value go on in the next line. -/
theorem pgpoolRoundTrips_iff (rows : List BackendRow) (hids : (rows.map BackendRow.id).Nodup) :
    PgpoolRoundTrips rows ↔ ∀ r ∈ rows, r.Clean := by
  constructor
  · intro h r hr
    obtain ⟨hhost, -, hdir⟩ := h.backends r hr
    exact ⟨parsePgpoolConf_value hhost, parsePgpoolConf_value hdir⟩
  · intro hclean
    have hread := parsePgpoolConf_render hclean
    have hfind : ∀ {key value : List Char}, (key, value) ∈ fragmentEntries rows →
        parsePgpoolConf (renderPgpoolFragment rows) key = some value := by
      intro key value hmem
      rw [hread]
      exact ConfMap.ofPairs_of_mem (nodup_fragmentEntries hids) hmem
    have hcontract : ∀ h ∈ pgpoolHooks ++ pgpoolSettings,
        parsePgpoolConf (renderPgpoolFragment rows) h.key.toList = some h.value.toList :=
      fun h hh => hfind (List.mem_append_right _ (List.mem_map_of_mem hh))
    have hbackend : ∀ r ∈ rows, ∀ p ∈ backendEntries r, p ∈ fragmentEntries rows :=
      fun r hr p hp => List.mem_append_left _ (List.mem_flatMap.mpr ⟨r, hr, hp⟩)
    refine ⟨fun r hr => ⟨?_, ?_, ?_⟩, hcontract, ?_, fun key hkey => ?_⟩
    · exact hfind (hbackend r hr _ (by simp [backendEntries]))
    · exact hfind (hbackend r hr _ (by simp [backendEntries]))
    · exact hfind (hbackend r hr _ (by simp [backendEntries]))
    · refine List.all_eq_true.mpr fun h hh => ?_
      rw [hcontract h hh]
      exact beq_self_eq_true _
    · obtain ⟨value, hvalue⟩ := Option.ne_none_iff_exists'.mp hkey
      rw [hread] at hvalue
      rcases List.mem_append.mp (ConfMap.mem_of_ofPairs hvalue) with hmem | hmem
      · obtain ⟨r, hr, hmem⟩ := List.mem_flatMap.mp hmem
        obtain ⟨k, hk⟩ := exists_backendKey (List.mem_map_of_mem hmem)
        exact Or.inl ⟨r, hr, k, hk⟩
      · obtain ⟨h, hh, hentry⟩ := List.mem_map.mp hmem
        exact Or.inr ⟨h, hh, (congrArg Prod.fst hentry).symm⟩

theorem pgpoolRoundTrips_pair :
    PgpoolRoundTrips [⟨0, "db0", 5432, "/data"⟩, ⟨2, "db2", 5433, "/srv/pg 2"⟩] := by
  refine (pgpoolRoundTrips_iff _ (by decide)).mpr fun r hr => ?_
  rw [List.mem_cons, List.mem_singleton] at hr
  rcases hr with rfl | rfl <;> exact ⟨by decide, by decide⟩

/-- The data directory `/data#1` is not read back. -/
theorem pgpool_hash :
    ¬ ∀ rows : List BackendRow, (rows.map BackendRow.id).Nodup → PgpoolRoundTrips rows := by
  intro h
  have hbackend := (h [⟨0, "db0", 5432, "/data#1"⟩] (by decide)).backends _ List.mem_cons_self
  have hhash : '#' ∈ "/data#1".toList := by decide
  exact (parsePgpoolConf_value hbackend.2.2).1 hhash

end Fragment

end PgAgent
