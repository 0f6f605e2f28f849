import PgAgent.Ctl.Pgpool
import PgAgent.Library.CommandLine

/-!
# Layouts of the hooks

`pg-agent-hookspec`: which argument of a hook stands where, and which directive of pgpool or
PostgreSQL is put in for it.  The command lines are rendered from the same layouts that the client
reads its arguments by.

* `HookSchema.parse_values` --- the arguments come back under their keys, whatever follows them;
* `HookSchema.commandLine_words` --- from a layout's command line to the words of the client.
-/

namespace PgAgent

/-! ## Layouts -/

/-- `Token`: what pgpool puts in for a directive. -/
inductive Token where
  | detachedId
  | detachedHost
  | detachedPort
  | detachedData
  | newMainId
  | newMainHost
  | oldMainId
  | oldPrimaryId
  | newMainPort
  | newMainData
  | oldPrimaryHost
  | oldPrimaryPort
  deriving DecidableEq, Repr

/-- `PostgresToken`. -/
inductive PostgresToken where
  | walFile
  | walDest
  deriving DecidableEq, Repr

/-- `FixedArg`: the arguments that the `pgpool_recovery` extension passes. -/
inductive FixedArg where
  | primaryData
  | standbyHost
  | standbyData
  | primaryPort
  | standbyId
  | standbyPort
  | primaryHost
  | remoteHost
  | remoteData
  deriving DecidableEq, Repr

structure Param (κ : Type) where
  key : κ
  token : String
  deriving DecidableEq, Repr

structure HookSchema (κ : Type) where
  params : List (Param κ)

structure ArgCountError where
  hook : String
  expected : ℕ
  got : ℕ
  deriving DecidableEq, Repr

namespace HookSchema

variable {κ : Type}

/-- `parse`: the map, with the last value of a key in front. -/
def parse (schema : HookSchema κ) (args : List String) (hook : String) :
    Except ArgCountError (List (κ × String)) :=
  if args.length < schema.params.length then
    .error ⟨hook, schema.params.length, args.length⟩
  else
    .ok ((schema.params.zip args).foldl
      (fun map (p : Param κ × String) => (p.1.key, p.2) :: map) [])

def tokens (schema : HookSchema κ) : List String := schema.params.map Param.token

end HookSchema

/-- `get`: the value of a key, and `""` without one. -/
def getArg {κ : Type} [DecidableEq κ] (map : List (κ × String)) (k : κ) : String :=
  (map.lookup k).getD ""

def hookFollowPrimary : String := "follow_primary"

def hookPgpoolRemoteStart : String := "pgpool_remote_start"

def hookEscalation : String := "escalation"

def hookDeEscalation : String := "de_escalation"

def hookRestoreWal : String := "restore-wal"

/-- `PGDATA_SYMLINK_HOOKS`. -/
def pgdataSymlinkHooks : List String := [hookRecovery1stStage, hookPgpoolRemoteStart]

/-- `HOOK_NAMES`. -/
def hookNames : List String :=
  [hookFailover, hookFollowPrimary, hookRecovery1stStage, hookPgpoolRemoteStart, hookEscalation,
    hookDeEscalation, hookRestoreWal]

/-- `SCHEMA_FAILOVER`. -/
def failoverSchema : HookSchema Token where
  params :=
    [⟨.detachedId, "%d"⟩, ⟨.detachedHost, "%h"⟩, ⟨.detachedPort, "%p"⟩,
      ⟨.detachedData, "%D"⟩, ⟨.newMainId, "%m"⟩, ⟨.newMainHost, "%H"⟩,
      ⟨.oldMainId, "%M"⟩, ⟨.oldPrimaryId, "%P"⟩, ⟨.newMainPort, "%r"⟩,
      ⟨.newMainData, "%R"⟩, ⟨.oldPrimaryHost, "%N"⟩, ⟨.oldPrimaryPort, "%S"⟩]

/-- `SCHEMA_FOLLOW_PRIMARY`. -/
def followPrimarySchema : HookSchema Token := failoverSchema

/-- `SCHEMA_RESTORE_WAL`. -/
def restoreWalSchema : HookSchema PostgresToken where
  params := [⟨.walFile, "%f"⟩, ⟨.walDest, "%p"⟩]

/-- `SCHEMA_RECOVERY`. -/
def recoverySchema : HookSchema FixedArg where
  params :=
    [⟨.primaryData, "$1"⟩, ⟨.standbyHost, "$2"⟩, ⟨.standbyData, "$3"⟩,
      ⟨.primaryPort, "$4"⟩, ⟨.standbyId, "$5"⟩, ⟨.standbyPort, "$6"⟩,
      ⟨.primaryHost, "$7"⟩]

/-- `SCHEMA_REMOTE_START`. -/
def remoteStartSchema : HookSchema FixedArg where
  params := [⟨.remoteHost, "$1"⟩, ⟨.remoteData, "$2"⟩]

/-- The tokens of the layout are those of the canonical `failover_command`. -/
theorem tokens_failoverSchema : failoverSchema.tokens = schemaFailover := rfl

/-! ## Arguments under their keys -/

section Parse

variable {κ : Type}

/-- In a map whose entries all have the value of their key, a key has its value. -/
theorem getArg_of_forall [DecidableEq κ] {map : List (κ × String)} {v : κ → String} {k : κ}
    (h : ∀ e ∈ map, e.2 = v e.1) (hk : k ∈ map.map Prod.fst) : getArg map k = v k := by
  unfold getArg
  induction map with
  | nil => exact absurd hk List.not_mem_nil
  | cons e map ih =>
    rw [List.lookup_cons]
    by_cases hek : k = e.1
    · subst hek
      rw [beq_self_eq_true]
      exact h e List.mem_cons_self
    · rw [beq_eq_false_iff_ne.mpr hek]
      refine ih (fun e' he' => h e' (List.mem_cons_of_mem e he')) ?_
      exact (List.mem_cons.mp hk).resolve_left hek

theorem foldl_cons_eq {α β : Type} (f : α → β) (l : List α) (acc : List β) :
    l.foldl (fun acc a => f a :: acc) acc = (l.map f).reverse ++ acc := by
  induction l generalizing acc with
  | nil => rfl
  | cons a l ih => rw [List.foldl_cons, ih, List.map_cons, List.reverse_cons, List.append_assoc,
      List.singleton_append]

theorem zip_map_append {α β : Type} (f : α → β) (l : List α) (extra : List β) :
    l.zip (l.map f ++ extra) = l.map fun a => (a, f a) := by
  induction l with
  | nil => rfl
  | cons a l ih => rw [List.map_cons, List.cons_append, List.zip_cons_cons, ih, List.map_cons]

/-- **The arguments come back under their keys**, whatever follows them. -/
theorem HookSchema.parse_values [DecidableEq κ] (schema : HookSchema κ) (v : κ → String)
    (extra : List String) (hook : String) :
    ∃ map, schema.parse (schema.params.map (fun p => v p.key) ++ extra) hook = .ok map ∧
      ∀ p ∈ schema.params, getArg map p.key = v p.key := by
  have hlen : ¬ (schema.params.map (fun p => v p.key) ++ extra).length < schema.params.length := by
    rw [List.length_append, List.length_map]
    omega
  refine ⟨(schema.params.map fun p => (p.key, v p.key)).reverse, ?_, fun p hp => ?_⟩
  · unfold HookSchema.parse
    rw [if_neg hlen, foldl_cons_eq (fun p : Param κ × String => (p.1.key, p.2)), zip_map_append,
      List.map_map, List.append_nil]
    rfl
  · refine getArg_of_forall (fun e he => ?_) ?_
    · obtain ⟨q, -, rfl⟩ := List.mem_map.mp (List.mem_reverse.mp he)
      rfl
    · rw [List.map_reverse, List.mem_reverse, List.map_map]
      exact List.mem_map_of_mem (f := Prod.fst ∘ fun p : Param κ => (p.key, v p.key)) hp

end Parse

/-! ## From a command line to the words -/

section CommandWords

open CommandLine

variable {κ : Type}

/-- The key that a letter stands for in a layout. -/
def HookSchema.keyOf (schema : HookSchema κ) (letter : Char) : Option κ :=
  (schema.params.find? fun p => p.token.toList == ['%', letter]).map Param.key

/-- The tokens are directives, each with a letter of its own. -/
structure HookSchema.Directives (schema : HookSchema κ) : Prop where
  letter : ∀ p ∈ schema.params, ∃ c, c ≠ '%' ∧ p.token.toList = ['%', c]
  nodup : (schema.params.map Param.token).Nodup

/-- What is put in for the letters of a layout. -/
def HookSchema.puts (schema : HookSchema κ) (v : κ → String) : Char → Option (List Char) :=
  putIn (fun c => (schema.keyOf c).isSome) fun c =>
    ((schema.keyOf c).map fun k => (v k).toList).getD []

/-- The command line of a hook, with words behind it that the operator has added. -/
def commandLine (subcommand : String) (tokens extra : List String) : String :=
  " ".intercalate (pgpoolCmd subcommand tokens :: extra)

/-- A token of two characters is a directive, and the last one is its letter. -/
theorem HookSchema.directives_of_last {schema : HookSchema κ}
    (hlast : ∀ p ∈ schema.params, p.token.toList.getLastD ' ' ≠ '%' ∧
      p.token.toList = ['%', p.token.toList.getLastD ' '])
    (hnodup : (schema.params.map Param.token).Nodup) : schema.Directives where
  letter p hp := ⟨p.token.toList.getLastD ' ', hlast p hp⟩
  nodup := hnodup

theorem HookSchema.keyOf_token {schema : HookSchema κ} (h : schema.Directives) {p : Param κ}
    {c : Char} (hp : p ∈ schema.params) (hc : p.token.toList = ['%', c]) :
    schema.keyOf c = some p.key := by
  unfold HookSchema.keyOf
  cases hfind : schema.params.find? fun p => p.token.toList == ['%', c] with
  | none => exact absurd (beq_iff_eq.mpr hc) (List.find?_eq_none.mp hfind p hp)
  | some q =>
    have hq := List.find?_some hfind
    have htoken : q.token = p.token := String.toList_injective ((beq_iff_eq.mp hq).trans hc.symm)
    rw [List.inj_on_of_nodup_map h.nodup (List.mem_of_find?_eq_some hfind) hp htoken]
    rfl

/-- A command line is its words. -/
theorem commandLine_eq (subcommand : String) (tokens extra : List String) :
    commandLine subcommand tokens extra =
      " ".intercalate ("pg_agentc" :: subcommand :: (tokens ++ extra)) := by
  have hcmd : pgpoolCmd subcommand tokens =
      " ".intercalate ("pg_agentc" :: subcommand :: tokens) := by
    have hname : "pg_agentc " = "pg_agentc" ++ " " := by decide
    unfold pgpoolCmd
    cases tokens with
    | nil =>
      rw [if_pos rfl, String.intercalate_cons_cons, String.intercalate_singleton, hname]
    | cons token tokens =>
      rw [if_neg (List.cons_ne_nil token tokens), String.intercalate_cons_cons,
        String.intercalate_cons_cons, hname]
      simp only [String.append_assoc]
  unfold commandLine
  rw [hcmd]
  cases extra with
  | nil => rw [List.append_nil, String.intercalate_singleton]
  | cons w extra =>
    rw [String.intercalate_cons_cons, ← List.cons_append, ← List.cons_append,
      String.intercalate_append_of_ne_nil (List.cons_ne_nil _ _) (List.cons_ne_nil _ _)]

/-- **From a layout's command line to its words**: what is put in for the tokens comes out as the
words behind the command, in the order of the layout. -/
theorem HookSchema.commandLine_words {fill : Filler} (hfill : fill.Fills) {shell : Shell}
    (hshell : shell.Splits) {schema : HookSchema κ} (h : schema.Directives) {subcommand : String}
    {extra : List String} {v : κ → String}
    (hsub : subcommand ≠ "" ∧ ∀ c ∈ subcommand.toList, isPlain c = true)
    (hextra : ∀ w ∈ extra, w ≠ "" ∧ ∀ c ∈ w.toList, isPlain c = true)
    (hv : ∀ k, ∀ c ∈ (v k).toList, isPlain c = true) :
    shell (fill (schema.puts v) (commandLine subcommand schema.tokens extra).toList) =
      some (("pg_agentc" :: subcommand ::
        (schema.params.map (fun p => v p.key) ++ extra)).map String.toList) := by
  have hne : ∀ {w : String}, w ≠ "" → w.toList ≠ [] :=
    fun hw hnil => hw (String.toList_eq_nil_iff.mp hnil)
  -- the words of the line as parts of a template
  let letters : List Char := schema.params.map fun p => p.token.toList.getLastD ' '
  let parts : List Part := .text "pg_agentc".toList :: .text subcommand.toList ::
    (letters.map Part.directive ++ extra.map fun w => .text w.toList)
  have htokens : ∀ p ∈ schema.params, p.token.toList.getLastD ' ' ≠ '%' ∧
      p.token.toList = ['%', p.token.toList.getLastD ' '] := by
    intro p hp
    obtain ⟨c, hpercent, hc⟩ := h.letter p hp
    rw [hc]
    exact ⟨hpercent, rfl⟩
  have hline : (commandLine subcommand schema.tokens extra).toList =
      [' '].intercalate (parts.map Part.spelled) := by
    rw [commandLine_eq, String.toList_intercalate]
    refine congrArg _ ?_
    have hspelled : schema.tokens.map String.toList =
        (letters.map Part.directive).map Part.spelled := by
      simp only [HookSchema.tokens, letters, List.map_map]
      exact List.map_congr_left fun p hp => (htokens p hp).2
    have hother : extra.map String.toList =
        (extra.map fun w => Part.text w.toList).map Part.spelled := by
      rw [List.map_map]
      rfl
    simp only [parts, List.map_cons, List.map_append, hspelled, hother]
    rfl
  have hkey : ∀ p ∈ schema.params, schema.keyOf (p.token.toList.getLastD ' ') = some p.key :=
    fun p hp => schema.keyOf_token h hp (htokens p hp).2
  have hname : ∀ c ∈ "pg_agentc".toList, isPlain c = true :=
    List.all_eq_true.mp (by decide +kernel)
  have hgiven : ∀ p ∈ parts, Given (fun c => (schema.keyOf c).isSome) p := by
    intro p hp
    rcases List.mem_cons.mp hp with rfl | hp
    · exact ⟨by decide, hname⟩
    rcases List.mem_cons.mp hp with rfl | hp
    · exact ⟨hne hsub.1, hsub.2⟩
    rcases List.mem_append.mp hp with hp | hp
    · obtain ⟨c, hc, rfl⟩ := List.mem_map.mp hp
      obtain ⟨q, hq, rfl⟩ := List.mem_map.mp hc
      exact ⟨(htokens q hq).1, Option.isSome_iff_exists.mpr ⟨q.key, hkey q hq⟩⟩
    · obtain ⟨w, hw, rfl⟩ := List.mem_map.mp hp
      exact ⟨hne (hextra w hw).1, (hextra w hw).2⟩
  have hplain : ∀ c, (schema.keyOf c).isSome = true →
      ∀ d ∈ ((schema.keyOf c).map fun k => (v k).toList).getD [], isPlain d = true := by
    intro c hc
    obtain ⟨k, hk⟩ := Option.isSome_iff_exists.mp hc
    rw [hk]
    exact hv k
  rw [hline]
  refine (hshell.words_fill hfill hgiven hplain).trans (congrArg some ?_)
  have hvalues : (letters.map Part.directive).map
      (Part.word fun c => ((schema.keyOf c).map fun k => (v k).toList).getD []) =
        (schema.params.map fun p => v p.key).map String.toList := by
    simp only [letters, List.map_map]
    refine List.map_congr_left fun p hp => ?_
    show ((schema.keyOf (p.token.toList.getLastD ' ')).map fun k => (v k).toList).getD [] = _
    rw [hkey p hp]
    rfl
  have hothers : (extra.map fun w => Part.text w.toList).map
      (Part.word fun c => ((schema.keyOf c).map fun k => (v k).toList).getD []) =
        extra.map String.toList := by
    rw [List.map_map]
    rfl
  simp only [parts, List.map_cons, List.map_append, hvalues, hothers]
  rfl

end CommandWords

end PgAgent
