import PgAgent.Hook.Dispatch
import PgAgent.Standby.RecoveryConf
import PgAgent.Wal.RestoreWal

/-!
# The restore command, from end to end

A standby that lacks a WAL file runs the `restore_command` of its configuration.  The agent has
written that configuration itself, and the command is its own client, which asks the agent for the
file.  The text goes through four readers on its way: PostgreSQL's reader of configuration files,
PostgreSQL's replacement of the directives, the shell, and the client.  The second and the third are
any that do what is documented of them.

* `recoveryConfText_reads` --- what PostgreSQL finds in the file that the agent writes;
* `restoreCommand_dispatches` --- what the client asks the agent for;
* `restore_command_restores` --- what the code tells PostgreSQL that the client ends with.

The values of `%f` and `%p` are a name and a relative path, not empty and without a character that
the shell would treat specially, as PostgreSQL's own are.
-/

namespace PgAgent

open Libpq CommandLine

/-- `restore_command`, which `pg_agentd` hands to `StandbyExec`. -/
def restoreCommand : String := pgpoolCmd hookRestoreWal restoreWalSchema.tokens

example : restoreCommand = "pg_agentc restore-wal %f %p" := by decide

/-- What `write_recovery_conf` puts into `myrecovery.conf`. -/
def recoveryConfText (cfg : PgReplicationConfig) (restoreCommand : Option String)
    (opts : WriteRecoveryConfOpts) : Except String String :=
  match opts.validate with
  | .error e => .error ("write_recovery_conf: validate: " ++ e)
  | .ok () =>
    renderRecoveryConf (cfg.conninfo opts.primaryHost opts.primaryPort opts.replUser "")
      opts.slotName restoreCommand

/-! ## The file -/

section File

variable {cfg : PgReplicationConfig} {opts : WriteRecoveryConfOpts}

theorem WriteRecoveryConfOpts.validate_eq_ok_iff :
    opts.validate = .ok () ↔
      validateConnection opts.primaryHost opts.primaryPort opts.replUser = .ok () ∧
        allowedSlotName opts.slotName = true :=
  @BasebackupOpts.validate_eq_ok_iff
    ⟨opts.primaryHost, opts.primaryPort, opts.replUser, opts.slotName⟩

/-- The characters that a value between quotes may have. -/
def IsTame (c : Char) : Prop := c ≠ '\'' ∧ c ≠ '\r' ∧ c ≠ '\n' ∧ c ≠ '\\'

theorem isTame_of_plain {c : Char} (h : Plain c) : IsTame c := by
  refine ⟨h.2.2.1, ?_, ?_, h.2.2.2⟩
  · rintro rfl
    exact absurd h.1 (by decide)
  · rintro rfl
    exact absurd h.1 (by decide)

theorem isTame_of_mem_render {pairs : Pairs}
    (hwords : ∀ p ∈ pairs, Word p.1 ∧ Word p.2) {c : Char}
    (hc : c ∈ render pairs) : IsTame c := by
  have hsign : IsTame '=' := ⟨by decide, by decide, by decide, by decide⟩
  have hblank : IsTame ' ' := ⟨by decide, by decide, by decide, by decide⟩
  induction pairs with
  | nil => exact absurd hc List.not_mem_nil
  | cons p pairs ih =>
    obtain ⟨key, value⟩ := p
    obtain ⟨hkey, hvalue⟩ := hwords (key, value) List.mem_cons_self
    have ih := ih fun q hq => hwords q (List.mem_cons_of_mem _ hq)
    cases pairs with
    | nil =>
      rw [render, List.mem_append, List.mem_cons] at hc
      rcases hc with hc | rfl | hc
      · exact isTame_of_plain (hkey.2 c hc)
      · exact hsign
      · exact isTame_of_plain (hvalue.2 c hc)
    | cons q pairs =>
      rw [render, List.mem_append, List.mem_cons, List.mem_append, List.mem_cons] at hc
      rcases hc with hc | rfl | hc | rfl | hc
      · exact isTame_of_plain (hkey.2 c hc)
      · exact hsign
      · exact isTame_of_plain (hvalue.2 c hc)
      · exact hblank
      · exact ih hc

theorem hasForbiddenChars_of_tame {s : String} (h : ∀ c ∈ s.toList, IsTame c) :
    hasForbiddenChars s = false := by
  simp only [hasForbiddenChars, Bool.or_eq_false_iff, List.contains_eq_mem,
    decide_eq_false_iff_not]
  exact ⟨⟨fun hc => (h _ hc).1 rfl, fun hc => (h _ hc).2.1 rfl⟩,
    fun hc => (h _ hc).2.2.1 rfl⟩

/-- **What PostgreSQL finds in the file.**  For options that pass their checks the file is written,
and its `restore_command` is the one that it was given. -/
theorem recoveryConfText_reads (hcfg : cfg.validate = .ok ()) (hopts : opts.validate = .ok ())
    {cmd : String} (hcmd : ∀ c ∈ cmd.toList, IsTame c) :
    ∃ out settings, recoveryConfText cfg (some cmd) opts = .ok out ∧
      Postgres.readConf out.toList = some settings ∧
      settings.lookup "restore_command".toList = some cmd.toList := by
  obtain ⟨hconn, hslot⟩ := WriteRecoveryConfOpts.validate_eq_ok_iff.mp hopts
  have htame : ∀ c ∈ (cfg.conninfo opts.primaryHost opts.primaryPort opts.replUser "").toList,
      IsTame c := by
    intro c hc
    rw [toList_conninfo] at hc
    exact isTame_of_mem_render (word_of_mem_conninfoPairs hcfg hconn (Or.inl rfl)) hc
  have hne : cfg.conninfo opts.primaryHost opts.primaryPort opts.replUser "" ≠ "" := by
    intro hempty
    have htext := congrArg String.toList hempty
    rw [toList_conninfo] at htext
    cases htext
  have hforbidden : ∀ cmd', some cmd = some cmd' → hasForbiddenChars cmd' = false := by
    intro cmd' h
    obtain rfl := Option.some.inj h
    exact hasForbiddenChars_of_tame hcmd
  refine ⟨_, _, ?_, (readConf_recoveryConf_iff (hasForbiddenChars_of_tame htame) hslot
    hforbidden).mpr ⟨fun hc => (htame _ hc).2.2.2 rfl, fun cmd' h => ?_⟩, ?_⟩
  · unfold recoveryConfText
    rw [hopts]
    exact renderRecoveryConf_eq_ok_iff.mpr
      ⟨hne, hasForbiddenChars_of_tame htame, hslot, hforbidden, rfl⟩
  · obtain rfl := Option.some.inj h
    exact fun hc => (hcmd _ hc).2.2.2 rfl
  · unfold recoverySettings
    rw [List.cons_append, List.cons_append, List.nil_append,
      List.lookup_cons, List.lookup_cons]
    rfl

end File

/-! ## The request -/

theorem directives_restoreWalSchema : restoreWalSchema.Directives :=
  HookSchema.directives_of_last (by decide +kernel) (by decide +kernel)

theorem handleRestoreWal_values (v : PostgresToken → String) :
    handleRestoreWal (restoreWalSchema.params.map fun p => v p.key) =
      .ok (.restoreWal (v .walFile) (v .walDest)) := by
  obtain ⟨map, hparse, hmap⟩ := parseArgs_values restoreWalSchema v [] hookRestoreWal
  have hfile : getArg map .walFile = v .walFile := hmap ⟨.walFile, "%f"⟩ (by decide)
  have hdest : getArg map .walDest = v .walDest := hmap ⟨.walDest, "%p"⟩ (by decide)
  rw [List.append_nil] at hparse
  unfold handleRestoreWal
  rw [hparse, ← hfile, ← hdest]
  rfl

/-- **What the client asks for**: the file and the destination that PostgreSQL has put in. -/
theorem restoreCommand_dispatches {postgres : Filler} (hpostgres : postgres.Fills) {shell : Shell}
    (hshell : shell.Splits) {w : ClientWorld} (hready : w.Ready) {v : PostgresToken → String}
    (hv : ∀ k, ∀ c ∈ (v k).toList, isPlain c = true) :
    ∃ words, shell (postgres (restoreWalSchema.puts v) restoreCommand.toList) = some words ∧
      dispatch w (words.map String.ofList) =
        some (w.ends (some (.restoreWal (v .walFile) (v .walDest)))) := by
  have hextra : ∀ word ∈ ([] : List String), word ≠ "" ∧
      ∀ c ∈ word.toList, isPlain c = true :=
    fun _ h => absurd h List.not_mem_nil
  obtain ⟨words, hwords, hdispatch⟩ :=
    HookSchema.command_dispatches directives_restoreWalSchema hpostgres hshell hready
      (by decide : hookRestoreWal ∈ hookNames) hv hextra
  refine ⟨words, hwords, hdispatch.trans ?_⟩
  have hrequest : hookRequest hookRestoreWal
      (restoreWalSchema.params.map (fun p => v p.key) ++ []) =
        .ok (.restoreWal (v .walFile) (v .walDest)) := by
    rw [List.append_nil, ← handleRestoreWal_values v]
    rfl
  rw [hrequest]
  rfl

/-! ## The answer -/

/-- The agent's answer to a request for a WAL file, as the client gets it. -/
def restoreAnswer : Except Peer.Status String → CallEnd
  | .ok message => .reply true message
  | .error _ => .status

theorem finish_restoreAnswer_eq_zero_iff {walFile destPath : String}
    {reply : Except Peer.Status String} :
    finish (.restoreWal walFile destPath) (restoreAnswer reply) = 0 ↔
      ∃ message, reply = .ok message := by
  cases reply with
  | ok message => exact iff_of_true rfl ⟨message, rfl⟩
  | error e =>
    refine iff_of_false Nat.one_ne_zero ?_
    rintro ⟨message, ⟨⟩⟩

/-- **The restore command restores.**  The node's recovery configuration passes its checks, the
client reaches the agent of this node, and the agent answers with what `restore_wal` comes to for
the file and the destination that it is asked for.  Then PostgreSQL runs, from the file that the
agent has written, a command that asks for the file that PostgreSQL lacks; it ends with 0 exactly if
the file was fetched, and the destination then holds all that the named member served; and it never
ends with a code that PostgreSQL would give up recovery for. -/
theorem restore_command_restores {postgres : Filler} (hpostgres : postgres.Fills) {shell : Shell}
    (hshell : shell.Splits) {cfg : PgReplicationConfig} (hcfg : cfg.validate = .ok ())
    {opts : WriteRecoveryConfOpts} (hopts : opts.validate = .ok ()) {v : PostgresToken → String}
    (hv : ∀ k, v k ≠ "" ∧ ∀ c ∈ (v k).toList, isPlain c = true) {w : ClientWorld}
    (hready : w.Ready) {store : WalStore.FileWalStore} {cwd : Unix.RealPath} {pool : NodePool}
    {attempts : NodeConfig → RestoreWal.Attempt} {s : RestoreWal.RestoreState}
    (hanswer : w.answer (.restoreWal (v .walFile) (v .walDest)) = restoreAnswer
      (RestoreWal.restoreWal store cwd (v .walFile) pool (v .walDest) attempts s).1) :
    ∃ out settings words run,
      recoveryConfText cfg (some restoreCommand) opts = .ok out ∧
      Postgres.readConf out.toList = some settings ∧
      settings.lookup "restore_command".toList = some restoreCommand.toList ∧
      shell (postgres (restoreWalSchema.puts v) restoreCommand.toList) = some words ∧
      dispatch w (words.map String.ofList) = some run ∧
      run.sent = some (.restoreWal (v .walFile) (v .walDest)) ∧ run.code ≤ 1 ∧
      (run.code = 0 ↔ ∃ message,
        (RestoreWal.restoreWal store cwd (v .walFile) pool (v .walDest) attempts s).1 =
          .ok message) ∧
      (run.code = 0 → ∃ node, RestoreWal.Restored store cwd (v .walFile)
        (Unix.Path.ofText (v .walDest).toList) pool.localNodeId attempts pool.members s.fs
        (RestoreWal.restoreWal store cwd (v .walFile) pool (v .walDest) attempts s).2.fs node) := by
  have htame : ∀ c ∈ restoreCommand.toList, IsTame c := by
    intro c hc
    have hall : restoreCommand.toList.all
        (fun c => c != '\'' && c != '\r' && c != '\n' && c != '\\') = true := by decide +kernel
    simpa [IsTame, and_assoc] using List.all_eq_true.mp hall c hc
  obtain ⟨out, settings, htext, hread, hlookup⟩ := recoveryConfText_reads hcfg hopts htame
  obtain ⟨words, hwords, hdispatch⟩ :=
    restoreCommand_dispatches hpostgres hshell hready fun k => (hv k).2
  have hcode : finish (.restoreWal (v .walFile) (v .walDest))
      (w.answer (.restoreWal (v .walFile) (v .walDest))) = 0 ↔ ∃ message,
        (RestoreWal.restoreWal store cwd (v .walFile) pool (v .walDest) attempts s).1 =
          .ok message := by
    rw [hanswer]
    exact finish_restoreAnswer_eq_zero_iff
  refine ⟨out, settings, words, _, htext, hread, hlookup, hwords, hdispatch, rfl, ?_, hcode,
    fun hzero => ?_⟩
  · exact finish_le_one _ _
  · obtain ⟨message, hok⟩ := hcode.mp hzero
    obtain ⟨node, -, hrestored⟩ := RestoreWal.restored_of_ok hok
    exact ⟨node, hrestored⟩

/-- A segment that is to be read from. -/
def missingSegment : PostgresToken → String
  | .walFile => "000000010000000000000001"
  | .walDest => "pg_wal/RECOVERYXLOG"

/-- A client whose agent has fetched the file. -/
def restoredWorld : ClientWorld :=
  ⟨.release, none, true, fun _ => .reply true "restored 000000010000000000000001 from db1"⟩

theorem restore_command_restores_segment :
    ∃ out settings words run,
      recoveryConfText ⟨none⟩ (some restoreCommand) ⟨"db0", 5432, "repl", "node1"⟩ =
        .ok out ∧
      Postgres.readConf out.toList = some settings ∧
      settings.lookup "restore_command".toList = some restoreCommand.toList ∧
      shellWords (expand (restoreWalSchema.puts missingSegment) restoreCommand.toList) =
        some words ∧
      dispatch restoredWorld (words.map String.ofList) = some run ∧ run.code = 0 ∧
      run.sent = some (.restoreWal "000000010000000000000001" "pg_wal/RECOVERYXLOG") ∧
      ∃ node, RestoreWal.Restored ⟨⟨true, [.normal "data"]⟩⟩ [] "000000010000000000000001"
        (Unix.Path.ofText "pg_wal/RECOVERYXLOG".toList) 0 (fun _ => RestoreWal.segmentAttempt)
        RestoreWal.twoPool.members WalStore.dataTree
        (RestoreWal.restoreWal ⟨⟨true, [.normal "data"]⟩⟩ [] "000000010000000000000001"
          RestoreWal.twoPool "pg_wal/RECOVERYXLOG" (fun _ => RestoreWal.segmentAttempt)
          ⟨WalStore.dataTree, fun _ => none⟩).2.fs node := by
  have hok : (RestoreWal.restoreWal ⟨⟨true, [.normal "data"]⟩⟩ [] "000000010000000000000001"
      RestoreWal.twoPool "pg_wal/RECOVERYXLOG" (fun _ => RestoreWal.segmentAttempt)
      ⟨WalStore.dataTree, fun _ => none⟩).1 =
        .ok "restored 000000010000000000000001 from db1" := by decide +kernel
  have hv : ∀ k, missingSegment k ≠ "" ∧
      ∀ c ∈ (missingSegment k).toList, isPlain c = true := by
    intro k
    cases k <;> exact ⟨by decide, List.all_eq_true.mp (by decide +kernel)⟩
  have hopts : (⟨"db0", 5432, "repl", "node1"⟩ : WriteRecoveryConfOpts).validate = .ok () := by
    decide +kernel
  obtain ⟨out, settings, words, run, htext, hread, hlookup, hwords, hdispatch, hsent, -, hcode,
      hrestored⟩ :=
    restore_command_restores expand_fills shellWords_splits
      (rfl : (⟨none⟩ : PgReplicationConfig).validate = .ok ()) hopts hv
      (⟨⟨defaultHookTimeout, rfl⟩, rfl⟩ : restoredWorld.Ready)
      (congrArg restoreAnswer hok).symm
  have hzero : run.code = 0 := hcode.mpr ⟨_, hok⟩
  exact ⟨out, settings, words, run, htext, hread, hlookup, hwords, hdispatch, hzero, hsent,
    hrestored hzero⟩

end PgAgent
