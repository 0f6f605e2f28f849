import PgAgent.Library.ConfFile
import PgAgent.Standby.Conninfo

/-!
# `myrecovery.conf`

`render_recovery_conf` writes the file that a standby takes its upstream from. The values stand
between quotes, and what could end the quotes is refused: a quote, a carriage return and a line
feed. PostgreSQL has one more character of its own in a quoted string, the backslash, which is let
through.

* `renderRecoveryConf_eq_ok_iff` --- what is rendered, and from what;
* `recoveryConf_readBack_iff` --- when PostgreSQL reads what was put in.
-/

namespace PgAgent

open Postgres

/-- The text could end the quotes around it, in the eyes of `render_recovery_conf`. -/
def hasForbiddenChars (s : String) : Bool :=
  s.toList.contains '\'' || s.toList.contains '\r' || s.toList.contains '\n'

/-- A line with a quoted value. -/
def settingLine (name value : String) : String := name ++ " = '" ++ value ++ "'\n"

/-- The lines that are always there. -/
def recoveryConfHead (conninfo slotName : String) : String :=
  "# managed by pgman\n" ++
  settingLine "primary_conninfo" (withApplicationName conninfo slotName) ++
  settingLine "primary_slot_name" slotName

/-- `render_recovery_conf`. -/
def renderRecoveryConf (conninfo slotName : String) (restoreCommand : Option String) :
    Except String String :=
  if conninfo = "" then .error "conninfo is required"
  else if hasForbiddenChars conninfo then .error "conninfo contains forbidden characters"
  else if slotName = "" then .error "slot_name is required"
  else if !allowedSlotName slotName then .error "slot_name contains invalid characters"
  else
    let out := recoveryConfHead conninfo slotName
    match restoreCommand with
    | none => .ok out
    | some cmd =>
      if hasForbiddenChars cmd then .error "restore_command contains forbidden characters"
      else .ok (out ++ settingLine "restore_command" cmd)

/-- What was put in: the settings and their values. -/
def recoverySettings (conninfo slotName : String) (restoreCommand : Option String) :
    List (List Char × List Char) :=
  [("primary_conninfo".toList, (withApplicationName conninfo slotName).toList),
    ("primary_slot_name".toList, slotName.toList)] ++
  (restoreCommand.map fun cmd => ("restore_command".toList, cmd.toList)).toList

/-! ## What is rendered -/

section Render

variable {conninfo slotName out : String} {restoreCommand : Option String}

/-- The last line, if there is one. -/
def restoreLine : Option String → String
  | none => ""
  | some cmd => settingLine "restore_command" cmd

theorem renderRecoveryConf_eq_ok_iff :
    renderRecoveryConf conninfo slotName restoreCommand = .ok out ↔
      conninfo ≠ "" ∧ hasForbiddenChars conninfo = false ∧ allowedSlotName slotName = true ∧
        (∀ cmd, restoreCommand = some cmd → hasForbiddenChars cmd = false) ∧
        out = recoveryConfHead conninfo slotName ++ restoreLine restoreCommand := by
  have hslot : slotName = "" → allowedSlotName slotName = false := by
    rintro rfl
    rfl
  unfold renderRecoveryConf
  split_ifs with hnone hforbidden hempty hallowed
  · simp [hnone]
  · simp [hforbidden]
  · simp [hslot hempty]
  · simp_all
  · have hfine : conninfo ≠ "" ∧ hasForbiddenChars conninfo = false ∧
        allowedSlotName slotName = true := by simp_all
    cases restoreCommand with
    | none =>
      dsimp only [restoreLine]
      rw [String.append_empty, Except.ok.injEq]
      constructor
      · rintro rfl
        exact ⟨hfine.1, hfine.2.1, hfine.2.2, (fun _ h => nomatch h), rfl⟩
      · rintro ⟨-, -, -, -, rfl⟩
        rfl
    | some cmd =>
      dsimp only [restoreLine]
      split_ifs with hcmd
      · refine iff_of_false (by rintro ⟨⟩) fun h => ?_
        have hgood := h.2.2.2.1 cmd rfl
        rw [hcmd] at hgood
        cases hgood
      · rw [Except.ok.injEq]
        constructor
        · rintro rfl
          refine ⟨hfine.1, hfine.2.1, hfine.2.2, fun c h => ?_, rfl⟩
          obtain rfl := Option.some.inj h
          exact Bool.eq_false_iff.mpr hcmd
        · rintro ⟨-, -, -, -, rfl⟩
          rfl

end Render

/-! ## What is read -/

theorem notMem_of_hasForbiddenChars {s : String} (h : hasForbiddenChars s = false) :
    '\'' ∉ s.toList ∧ '\n' ∉ s.toList := by
  simp only [hasForbiddenChars, Bool.or_eq_false_iff, List.contains_eq_mem,
    decide_eq_false_iff_not] at h
  exact ⟨h.1.1, h.2⟩

/-- A slot's name has none of the characters that PostgreSQL treats specially. -/
theorem notMem_of_allowedSlotName {s : String} (h : allowedSlotName s = true) :
    '\'' ∉ s.toList ∧ '\n' ∉ s.toList ∧ '\\' ∉ s.toList := by
  obtain ⟨-, hplain⟩ := word_of_allowedSlotName h
  refine ⟨fun hc => (hplain _ hc).2.2.1 rfl, fun hc => ?_, fun hc => (hplain _ hc).2.2.2 rfl⟩
  exact absurd (hplain _ hc).1 (by decide)

theorem mem_withApplicationName {conninfo slotName : String} {c : Char}
    (hc : c ∉ " application_name=".toList) (hslot : c ∉ slotName.toList) :
    c ∈ (withApplicationName conninfo slotName).toList ↔ c ∈ conninfo.toList := by
  unfold withApplicationName
  rw [String.toList_append, String.toList_append]
  simp only [List.mem_append, hc, hslot, or_false]

section ReadBack

variable {conninfo slotName out : String} {restoreCommand : Option String}

/-- A line as PostgreSQL sees it. -/
theorem toList_settingLine (name value : String) :
    (settingLine name value).toList =
      name.toList ++ " = '".toList ++ (value.toList ++ ['\'']) ++ ['\n'] := by
  have hend : "'\n".toList = ['\''] ++ ['\n'] := by decide
  rw [settingLine, String.toList_append, String.toList_append, String.toList_append, hend,
    List.append_assoc, List.append_assoc, List.append_assoc, List.append_assoc, List.append_assoc]

/-- The file as PostgreSQL sees it: a comment, and a line for each setting. -/
theorem toList_recoveryConf :
    (recoveryConfHead conninfo slotName ++ restoreLine restoreCommand).toList =
      "# managed by pgman".toList ++ '\n' ::
        ("primary_conninfo".toList ++ " = '".toList ++
          ((withApplicationName conninfo slotName).toList ++ ['\'']) ++ '\n' ::
            ("primary_slot_name".toList ++ " = '".toList ++ (slotName.toList ++ ['\'']) ++ '\n' ::
              (restoreLine restoreCommand).toList)) := by
  have hcomment : "# managed by pgman\n".toList = "# managed by pgman".toList ++ ['\n'] := by
    decide +kernel
  have hjoin : ∀ comment first second last : String, (comment ++ first ++ second ++ last).toList =
      comment.toList ++ (first.toList ++ (second.toList ++ last.toList)) := by
    intro comment first second last
    rw [String.toList_append, String.toList_append, String.toList_append, List.append_assoc,
      List.append_assoc]
  unfold recoveryConfHead
  rewrite [hjoin, toList_settingLine, toList_settingLine, hcomment]
  simp only [List.append_assoc, List.cons_append, List.nil_append]

/-- The last line says what was put in exactly if that has no backslash. -/
theorem readConf_restoreLine_iff
    (hcmd : ∀ cmd, restoreCommand = some cmd → hasForbiddenChars cmd = false) :
    readConf (restoreLine restoreCommand).toList =
        some (restoreCommand.map fun cmd => ("restore_command".toList, cmd.toList)).toList ↔
      ∀ cmd, restoreCommand = some cmd → '\\' ∉ cmd.toList := by
  cases restoreCommand with
  | none => exact iff_of_true rfl fun _ h => nomatch h
  | some cmd =>
    obtain ⟨hquote, hbreak⟩ := notMem_of_hasForbiddenChars (hcmd cmd rfl)
    have htext : (restoreLine (some cmd)).toList =
        "restore_command".toList ++ " = '".toList ++ (cmd.toList ++ ['\'']) ++ '\n' :: [] := by
      rw [restoreLine, toList_settingLine]
    rw [htext]
    simp only [Option.map_some, Option.toList_some]
    rw [readConf_quoted_iff (by decide) (by decide) hbreak hquote]
    constructor
    · rintro ⟨hback, -⟩ c hc
      obtain rfl := Option.some.inj hc
      exact hback
    · intro h
      exact ⟨h cmd rfl, rfl⟩

/-- The whole text is read back exactly if nothing in it has a backslash. -/
theorem readConf_recoveryConf_iff (hconninfo : hasForbiddenChars conninfo = false)
    (hslot : allowedSlotName slotName = true)
    (hcmd : ∀ cmd, restoreCommand = some cmd → hasForbiddenChars cmd = false) :
    readConf (recoveryConfHead conninfo slotName ++ restoreLine restoreCommand).toList =
        some (recoverySettings conninfo slotName restoreCommand) ↔
      '\\' ∉ conninfo.toList ∧ ∀ cmd, restoreCommand = some cmd → '\\' ∉ cmd.toList := by
  obtain ⟨hquote, hbreak⟩ := notMem_of_hasForbiddenChars hconninfo
  obtain ⟨hsquote, hsbreak, hsback⟩ := notMem_of_allowedSlotName hslot
  have hcomment : readLine "# managed by pgman".toList = .blank := by decide
  rw [toList_recoveryConf, readConf_cons (by decide), hcomment]
  dsimp only [recoverySettings, List.cons_append, List.nil_append]
  rw [readConf_quoted_iff (by decide) (by decide)
      (by rwa [mem_withApplicationName (by decide) hsbreak])
      (by rwa [mem_withApplicationName (by decide) hsquote]),
    readConf_quoted_iff (by decide) (by decide) hsbreak hsquote,
    mem_withApplicationName (by decide) hsback, readConf_restoreLine_iff hcmd]
  exact and_congr_right fun _ => and_iff_right hsback

/-- **PostgreSQL reads what was put into the file exactly when there is no backslash** in the
connection string and in the restore command: the settings are the two or three that are meant, each
once and with its value. -/
theorem recoveryConf_readBack_iff
    (hrender : renderRecoveryConf conninfo slotName restoreCommand = .ok out) :
    readConf out.toList = some (recoverySettings conninfo slotName restoreCommand) ↔
      '\\' ∉ conninfo.toList ∧ ∀ cmd, restoreCommand = some cmd → '\\' ∉ cmd.toList := by
  obtain ⟨-, hconninfo, hslot, hcmd, rfl⟩ := renderRecoveryConf_eq_ok_iff.mp hrender
  exact readConf_recoveryConf_iff hconninfo hslot hcmd

end ReadBack

/-- A connection string and the restore command of the agent are read back. -/
theorem recoveryConf_readBack_node1 :
    ∃ out, renderRecoveryConf "host=db0 port=5432 user=repl sslmode=verify-full" "node1"
          (some "pg_agentc restore-wal %f %p") = .ok out ∧
      readConf out.toList =
        some (recoverySettings "host=db0 port=5432 user=repl sslmode=verify-full" "node1"
          (some "pg_agentc restore-wal %f %p")) := by
  have hrender : renderRecoveryConf "host=db0 port=5432 user=repl sslmode=verify-full" "node1"
      (some "pg_agentc restore-wal %f %p") = .ok _ :=
    renderRecoveryConf_eq_ok_iff.mpr ⟨by decide, by decide, by decide, fun cmd h => by
      obtain rfl := Option.some.inj h
      decide, rfl⟩
  refine ⟨_, hrender, (recoveryConf_readBack_iff hrender).mpr ⟨by decide, fun cmd h => ?_⟩⟩
  obtain rfl := Option.some.inj h
  decide

/-- A restore command that ends in a backslash makes the file one that PostgreSQL rejects, and in
one with a backslash in it the backslash is lost. -/
theorem recoveryConf_backslash :
    (∃ out, renderRecoveryConf "host=db0" "node1" (some "fetch %f %p \\") = .ok out ∧
      readConf out.toList = none) ∧
    ∃ out, renderRecoveryConf "host=db0" "node1" (some "fetch \\%f %p") = .ok out ∧
      readConf out.toList = some (recoverySettings "host=db0" "node1" (some "fetch %f %p")) ∧
      readConf out.toList ≠
        some (recoverySettings "host=db0" "node1" (some "fetch \\%f %p")) := by
  refine ⟨⟨_, renderRecoveryConf_eq_ok_iff.mpr ⟨by decide, by decide, by decide,
    fun cmd h => ?_,
    rfl⟩, by decide +kernel⟩,
      ⟨_, renderRecoveryConf_eq_ok_iff.mpr ⟨by decide, by decide, by decide,
    fun cmd h => ?_, rfl⟩, by decide +kernel, by decide +kernel⟩⟩
  · obtain rfl := Option.some.inj h
    decide
  · obtain rfl := Option.some.inj h
    decide

end PgAgent
