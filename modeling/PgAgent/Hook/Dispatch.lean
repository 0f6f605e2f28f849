import PgAgent.Config.Pool
import PgAgent.Hook.HumanTime
import PgAgent.Hook.Schema
import PgAgent.Library.FileTree

/-!
# The hook client

`pg_agentc`.  pgpool and PostgreSQL run it with the words of a command line that a layout renders,
and the `pgpool_recovery` extension runs it by the name of a symbolic link in the data directory.
It makes one request of the arguments, sends it to the agent on this node and ends with a code that
says how that went.

* `HookSchema.command_dispatches` --- from a hook's command line to its request;
* `failover_command_sends` --- what pgpool's values of a failure say to the agent;
* `dispatch_spec` --- what the code the client ends with says.

The node ids and the ports are read as `i32` and nothing else is looked into; the texts of the
errors go to the standard error only and are kept as their causes.
-/

namespace PgAgent

/-! ## Requests -/

/-- A node as a hook names it, `pb::NodeRef`. -/
structure HookNode where
  id : NodeId
  hostname : String
  pgPort : ℤ
  pgData : String
  deriving DecidableEq, Repr

/-- What the agent resolves a node by. -/
def HookNode.ref (n : HookNode) : NodeRef := ⟨n.id, n.hostname⟩

/-- The requests that the client makes. -/
inductive HookRequest where
  | failover (detached newMain oldMain oldPrimary : HookNode)
  | followPrimary (detached newPrimary oldMain oldPrimary : HookNode)
  | recoveryFirstStage (primary standby : HookNode) (bypassReplayMarker : Bool)
  | remoteStart (target : HookNode)
  | escalation
  | restoreWal (walFile destPath : String)
  | getStatus
  deriving DecidableEq, Repr

/-- Why no request is made. -/
inductive HookError where
  | argCount (e : ArgCountError)
  | nonNumericId (id : String)
  deriving DecidableEq, Repr

def nodeRef (id host port pgdata : String) : Except HookError HookNode :=
  let pgPort : ℤ := if port = "" then 0 else (Rust.parseI32 port).getD 0
  if id = "" then .ok ⟨-1, host, pgPort, pgdata⟩
  else
    match Rust.parseI32 id with
    | some v => .ok ⟨v, host, pgPort, pgdata⟩
    | none => .error (.nonNumericId id)

/-- `parse_args`. -/
def parseArgs {κ : Type} (schema : HookSchema κ) (args : List String)
    (hook : String) : Except HookError (List (κ × String)) :=
  (schema.parse args hook).mapError HookError.argCount

def handleFailover (args : List String) : Except HookError HookRequest := do
  let p ← parseArgs failoverSchema args hookFailover
  let detached ← nodeRef (getArg p .detachedId) (getArg p .detachedHost) (getArg p .detachedPort)
    (getArg p .detachedData)
  let newMain ← nodeRef (getArg p .newMainId) (getArg p .newMainHost) (getArg p .newMainPort)
    (getArg p .newMainData)
  let oldMain ← nodeRef (getArg p .oldMainId) "" "" ""
  let oldPrimary ← nodeRef (getArg p .oldPrimaryId) (getArg p .oldPrimaryHost)
    (getArg p .oldPrimaryPort) ""
  return .failover detached newMain oldMain oldPrimary

def handleFollowPrimary (args : List String) : Except HookError HookRequest := do
  let p ← parseArgs followPrimarySchema args hookFollowPrimary
  let detached ← nodeRef (getArg p .detachedId) (getArg p .detachedHost) (getArg p .detachedPort)
    (getArg p .detachedData)
  let newPrimary ← nodeRef (getArg p .newMainId) (getArg p .newMainHost) (getArg p .newMainPort)
    (getArg p .newMainData)
  let oldMain ← nodeRef (getArg p .oldMainId) "" "" ""
  let oldPrimary ← nodeRef (getArg p .oldPrimaryId) (getArg p .oldPrimaryHost)
    (getArg p .oldPrimaryPort) ""
  return .followPrimary detached newPrimary oldMain oldPrimary

def handleRecovery1stStage (args : List String) : Except HookError HookRequest := do
  let p ← parseArgs recoverySchema args hookRecovery1stStage
  let primary ← nodeRef "" (getArg p .primaryHost) (getArg p .primaryPort) (getArg p .primaryData)
  let standby ← nodeRef (getArg p .standbyId) (getArg p .standbyHost) (getArg p .standbyPort)
    (getArg p .standbyData)
  return .recoveryFirstStage primary standby false

def handleRemoteStart (args : List String) : Except HookError HookRequest := do
  let p ← parseArgs remoteStartSchema args hookPgpoolRemoteStart
  let target ← nodeRef "" (getArg p .remoteHost) "" (getArg p .remoteData)
  return .remoteStart target

def handleRestoreWal (args : List String) : Except HookError HookRequest := do
  let p ← parseArgs restoreWalSchema args hookRestoreWal
  return .restoreWal (getArg p .walFile) (getArg p .walDest)

/-! ## The client -/

/-- What comes of a request: the agent's answer, its refusal on the wire, or nothing in time. -/
inductive CallEnd where
  | reply (ok : Bool) (message : String)
  | status
  | timeout
  deriving DecidableEq, Repr

structure Invocation where
  hook : String
  args : List String
  deriving DecidableEq, Repr

def parseInvocation (argv : List String) : Option Invocation :=
  let argv0Basename := ((argv.head?).bind fun s => (Unix.Path.ofText s.toList).fileName).getD ""
  if pgdataSymlinkHooks.contains argv0Basename then some ⟨argv0Basename, argv.tail⟩
  else
    match argv with
    | _ :: hook :: args => some ⟨hook, args⟩
    | _ => none

def statusSubcommand : String := "status"

def isKnownCommand (name : String) : Bool := name == statusSubcommand || hookNames.contains name

/-- `DEFAULT_TIMEOUT`, 30 minutes. -/
def defaultHookTimeout : Rust.Duration := Rust.Duration.fromSecs 1800

/-- `rpc_timeout`; the outer `none` where the parser panics. -/
def rpcTimeout (profile : Rust.Profile) (env : Option String) :
    Option (Except String Rust.Duration) :=
  match env with
  | none => some (.ok defaultHookTimeout)
  | some v =>
    (HumanTime.parse profile v).map fun parsed =>
      match parsed with
      | .error e => .error e
      | .ok d => if d = 0 then .error "must be greater than zero" else .ok d

/-- The request that a known command makes of its arguments. -/
def hookRequest (hook : String) (args : List String) : Except HookError HookRequest :=
  if hook = hookFailover then handleFailover args
  else if hook = hookFollowPrimary then handleFollowPrimary args
  else if hook = hookRecovery1stStage then handleRecovery1stStage args
  else if hook = hookPgpoolRemoteStart then handleRemoteStart args
  else if hook = hookEscalation ∨ hook = hookDeEscalation then .ok .escalation
  else if hook = hookRestoreWal then handleRestoreWal args
  else .ok .getStatus

/-- `finish`, and the end of `handle_status`: the code for what came of a request. -/
def finish (req : HookRequest) (answer : CallEnd) : ℕ :=
  match answer with
  | .reply ok _ => if ok ∨ req = .getStatus then 0 else 1
  | .status => 1
  | .timeout => 1

/-- What the client meets: the variable of the timeout, whether the socket answers, and what comes
of a request. -/
structure ClientWorld where
  profile : Rust.Profile
  timeoutEnv : Option String
  dials : Bool
  answer : HookRequest → CallEnd

/-- How the client has ended: its code, whether it has dialed, and what it has sent. -/
structure ClientRun where
  code : ℕ
  dialed : Bool
  sent : Option HookRequest
  deriving DecidableEq, Repr

/-- `main`, around `dispatch`; `none` where the parser of the timeout panics. -/
def dispatch (w : ClientWorld) (argv : List String) : Option ClientRun :=
  match parseInvocation argv with
  | none => some ⟨2, false, none⟩
  | some ⟨hook, args⟩ =>
    if hook ∈ ["help", "-h", "--help", "version", "-v", "--version"] then
      some ⟨0, false, none⟩
    else if hook = "config" then some ⟨1, false, none⟩
    else if !isKnownCommand hook then some ⟨2, false, none⟩
    else
      (rpcTimeout w.profile w.timeoutEnv).map fun timeout =>
        match timeout with
        | .error _ => ⟨1, false, none⟩
        | .ok _ =>
          if w.dials then
            match hookRequest hook args with
            | .error _ => ⟨1, true, none⟩
            | .ok req => ⟨finish req (w.answer req), true, some req⟩
          else ⟨1, true, none⟩

/-! ## Nodes -/

/-- How an id is read: an absent one is `-1`. -/
def hookId (id : String) : Option NodeId := if id = "" then some (-1) else Rust.parseI32 id

/-- How a port is read: an absent or unreadable one is `0`. -/
def hookPort (port : String) : ℤ := if port = "" then 0 else (Rust.parseI32 port).getD 0

/-- The node that four values name. -/
def namedNode (id host port pgdata : String) : Option HookNode :=
  (hookId id).map fun v => ⟨v, host, hookPort port, pgdata⟩

/-- A node is refused for its id alone. -/
theorem toOption_nodeRef (id host port pgdata : String) :
    (nodeRef id host port pgdata).toOption = namedNode id host port pgdata := by
  unfold nodeRef namedNode hookId hookPort
  by_cases h : id = ""
  · rw [if_pos h, if_pos h]
    rfl
  · rw [if_neg h, if_neg h]
    cases Rust.parseI32 id with
    | none => rfl
    | some v => rfl

/-- What pgpool's values say in a `failover_command`. -/
def failoverOf (v : Token → String) : Option HookRequest := do
  let detached ← namedNode (v .detachedId) (v .detachedHost) (v .detachedPort) (v .detachedData)
  let newMain ← namedNode (v .newMainId) (v .newMainHost) (v .newMainPort) (v .newMainData)
  let oldMain ← namedNode (v .oldMainId) "" "" ""
  let oldPrimary ← namedNode (v .oldPrimaryId) (v .oldPrimaryHost) (v .oldPrimaryPort) ""
  return .failover detached newMain oldMain oldPrimary

/-- What pgpool's values say in a `follow_primary_command`. -/
def followPrimaryOf (v : Token → String) : Option HookRequest := do
  let detached ← namedNode (v .detachedId) (v .detachedHost) (v .detachedPort) (v .detachedData)
  let newPrimary ← namedNode (v .newMainId) (v .newMainHost) (v .newMainPort) (v .newMainData)
  let oldMain ← namedNode (v .oldMainId) "" "" ""
  let oldPrimary ← namedNode (v .oldPrimaryId) (v .oldPrimaryHost) (v .oldPrimaryPort) ""
  return .followPrimary detached newPrimary oldMain oldPrimary

/-- What the extension's values say about a recovery: the primary has no id there. -/
def recoveryOf (v : FixedArg → String) : Option HookRequest := do
  let standby ← namedNode (v .standbyId) (v .standbyHost) (v .standbyPort) (v .standbyData)
  return .recoveryFirstStage
    ⟨-1, v .primaryHost, hookPort (v .primaryPort), v .primaryData⟩ standby
    false

theorem toOption_bind {ε α β : Type} (x : Except ε α) (f : α → Except ε β) :
    (x >>= f).toOption = x.toOption >>= fun a => (f a).toOption := by
  cases x with
  | error e => rfl
  | ok a => rfl

theorem toOption_ok_bind {ε α β : Type} (a : α) (f : α → Except ε β) :
    ((Except.ok a : Except ε α) >>= f).toOption = (f a).toOption := rfl

theorem parseArgs_values {κ : Type} [DecidableEq κ] (schema : HookSchema κ) (v : κ → String)
    (extra : List String) (hook : String) :
    ∃ map, parseArgs schema (schema.params.map (fun p => v p.key) ++ extra) hook = .ok map ∧
      ∀ p ∈ schema.params, getArg map p.key = v p.key := by
  obtain ⟨map, hparse, hmap⟩ := schema.parse_values v extra hook
  refine ⟨map, ?_, hmap⟩
  unfold parseArgs
  rw [hparse]
  rfl

theorem handleFailover_values (v : Token → String) (extra : List String) :
    (handleFailover (failoverSchema.params.map (fun p => v p.key) ++ extra)).toOption =
      failoverOf v := by
  obtain ⟨map, hparse, hmap⟩ := parseArgs_values failoverSchema v extra hookFailover
  have hget : ∀ k : Token, getArg map k = v k := by
    intro k
    have hk : ∃ p ∈ failoverSchema.params, p.key = k := by cases k <;> decide
    obtain ⟨p, hp, rfl⟩ := hk
    exact hmap p hp
  unfold handleFailover failoverOf
  rw [hparse, toOption_ok_bind]
  simp only [hget, toOption_bind, toOption_nodeRef]
  rfl

theorem handleFollowPrimary_values (v : Token → String) (extra : List String) :
    (handleFollowPrimary (followPrimarySchema.params.map (fun p => v p.key) ++ extra)).toOption =
      followPrimaryOf v := by
  obtain ⟨map, hparse, hmap⟩ := parseArgs_values followPrimarySchema v extra hookFollowPrimary
  have hget : ∀ k : Token, getArg map k = v k := by
    intro k
    have hk : ∃ p ∈ followPrimarySchema.params, p.key = k := by cases k <;> decide
    obtain ⟨p, hp, rfl⟩ := hk
    exact hmap p hp
  unfold handleFollowPrimary followPrimaryOf
  rw [hparse, toOption_ok_bind]
  simp only [hget, toOption_bind, toOption_nodeRef]
  rfl

theorem handleRecovery1stStage_values (v : FixedArg → String) (extra : List String) :
    (handleRecovery1stStage (recoverySchema.params.map (fun p => v p.key) ++ extra)).toOption =
      recoveryOf v := by
  obtain ⟨map, hparse, hmap⟩ := parseArgs_values recoverySchema v extra hookRecovery1stStage
  have hget : ∀ k ∈ recoverySchema.params.map Param.key, getArg map k = v k := by
    intro k hk
    obtain ⟨p, hp, rfl⟩ := List.mem_map.mp hk
    exact hmap p hp
  unfold handleRecovery1stStage recoveryOf
  rw [hparse, toOption_ok_bind]
  simp only [toOption_bind, toOption_nodeRef]
  rw [hget .primaryHost (by decide), hget .primaryPort (by decide), hget .primaryData (by decide),
    hget .standbyId (by decide), hget .standbyHost (by decide), hget .standbyPort (by decide),
    hget .standbyData (by decide)]
  rfl

/-! ## Ends -/

/-- The end of a client that has dialed, by the request of its arguments. -/
def ClientWorld.ends (w : ClientWorld) : Option HookRequest → ClientRun
  | some req => ⟨finish req (w.answer req), true, some req⟩
  | none => ⟨1, true, none⟩

/-- The agent can be reached and the time limit can be read. -/
structure ClientWorld.Ready (w : ClientWorld) : Prop where
  timeout : ∃ d, rpcTimeout w.profile w.timeoutEnv = some (.ok d)
  dials : w.dials = true

/-- A hook that is found ends by the request of its arguments. -/
theorem dispatch_of_ready {w : ClientWorld} (h : w.Ready) {argv args : List String} {hook : String}
    (hparse : parseInvocation argv = some ⟨hook, args⟩) (hhook : hook ∈ hookNames) :
    dispatch w argv = some (w.ends (hookRequest hook args).toOption) := by
  obtain ⟨d, htimeout⟩ := h.timeout
  have hspecial : ∀ name ∈ hookNames,
      name ∉ ["help", "-h", "--help", "version", "-v", "--version"] ∧ name ≠ "config" ∧
        (!isKnownCommand name) = false := by
    decide +kernel
  obtain ⟨hhelp, hconfig, hknown⟩ := hspecial hook hhook
  unfold dispatch
  rw [hparse]
  dsimp only
  rw [if_neg hhelp, if_neg hconfig, hknown, if_neg Bool.false_ne_true, htimeout, Option.map_some]
  dsimp only
  rw [if_pos h.dials]
  cases hookRequest hook args with
  | error e => rfl
  | ok req => rfl

/-- The client by its own name takes the hook from its first argument. -/
theorem parseInvocation_name (hook : String) (args : List String) :
    parseInvocation ("pg_agentc" :: hook :: args) = some ⟨hook, args⟩ := by
  have hbase : (Unix.Path.ofText "pg_agentc".toList).fileName = some "pg_agentc" := by
    decide +kernel
  unfold parseInvocation
  rw [List.head?_cons, Option.bind_some, hbase, Option.getD_some, if_neg (by decide)]

theorem directives_failoverSchema : failoverSchema.Directives :=
  HookSchema.directives_of_last (by decide +kernel) (by decide +kernel)

/-- A hook's command line is the request of what is put in for its tokens. -/
theorem HookSchema.command_dispatches {κ : Type} {schema : HookSchema κ} (h : schema.Directives)
    {fill : CommandLine.Filler} (hfill : fill.Fills) {shell : CommandLine.Shell}
    (hshell : shell.Splits) {w : ClientWorld} (hready : w.Ready) {hook : String}
    (hhook : hook ∈ hookNames) {v : κ → String}
    (hv : ∀ k, ∀ c ∈ (v k).toList, CommandLine.isPlain c = true) {extra : List String}
    (hextra : ∀ word ∈ extra, word ≠ "" ∧
      ∀ c ∈ word.toList, CommandLine.isPlain c = true) :
    ∃ words, shell (fill (schema.puts v) (commandLine hook schema.tokens extra).toList) =
        some words ∧
      dispatch w (words.map String.ofList) = some (w.ends
        (hookRequest hook (schema.params.map (fun p => v p.key) ++ extra)).toOption) := by
  have hplain : ∀ name ∈ hookNames,
      name ≠ "" ∧ name.toList.all CommandLine.isPlain = true := by
    decide +kernel
  obtain ⟨hne, hall⟩ := hplain hook hhook
  refine ⟨_, HookSchema.commandLine_words hfill hshell h ⟨hne, List.all_eq_true.mp hall⟩
    hextra
    hv, ?_⟩
  have hwords : ∀ l : List String, (l.map String.toList).map String.ofList = l := by
    intro l
    rw [List.map_map]
    exact (List.map_congr_left fun s _ => String.ofList_toList).trans (List.map_id l)
  rw [hwords, dispatch_of_ready hready (parseInvocation_name _ _) hhook]

/-- **What pgpool runs for a failure reaches the agent.**  The canonical command line, with
whatever the operator has added behind it, is filled in by pgpool, split by the shell and read by
the client: the agent is told exactly what the values say, or nothing if one of the four ids is not
a number, and then the client fails. -/
theorem failover_command_sends {pgpool : CommandLine.Filler} (hpgpool : pgpool.Fills)
    {shell : CommandLine.Shell} (hshell : shell.Splits) (w : ClientWorld) (hready : w.Ready)
    (v : Token → String)
    (hv : ∀ k, ∀ c ∈ (v k).toList, CommandLine.isPlain c = true) (extra : List String)
    (hextra : ∀ word ∈ extra, word ≠ "" ∧
      ∀ c ∈ word.toList, CommandLine.isPlain c = true) :
    ∃ words, shell (pgpool (failoverSchema.puts v)
        (commandLine hookFailover schemaFailover extra).toList) = some words ∧
      dispatch w (words.map String.ofList) = some (w.ends (failoverOf v)) := by
  obtain ⟨words, hwords, hdispatch⟩ :=
    HookSchema.command_dispatches directives_failoverSchema hpgpool hshell hready
      (by decide : hookFailover ∈ hookNames) hv hextra
  refine ⟨words, hwords, hdispatch.trans ?_⟩
  exact congrArg (fun req => some (w.ends req)) (handleFailover_values v extra)

/-- An agent that says yes, asked with the default time limit. -/
def willingWorld : ClientWorld := ⟨.release, none, true, fun _ => .reply true "ok"⟩

theorem willingWorld_ready : willingWorld.Ready := ⟨⟨defaultHookTimeout, rfl⟩, rfl⟩

/-- The values of pgpool for a primary that has gone, with one standby left. -/
def lostPrimary : Token → String
  | .detachedId => "0"
  | .detachedHost => "db0"
  | .detachedPort => "5432"
  | .detachedData => "/var/lib/pgsql/data"
  | .newMainId => "1"
  | .newMainHost => "db1"
  | .oldMainId => "0"
  | .oldPrimaryId => "0"
  | .newMainPort => "5432"
  | .newMainData => ""
  | .oldPrimaryHost => "db0"
  | .oldPrimaryPort => "5432"

theorem failover_command_sends_lostPrimary :
    ∃ words, CommandLine.shellWords (CommandLine.expand (failoverSchema.puts lostPrimary)
        (commandLine hookFailover schemaFailover ["--verbose"]).toList) = some words ∧
      dispatch willingWorld (words.map String.ofList) =
        some ⟨0, true,
          some (.failover ⟨0, "db0", 5432, "/var/lib/pgsql/data"⟩ ⟨1, "db1", 5432, ""⟩
          ⟨0, "", 0, ""⟩ ⟨0, "db0", 5432, ""⟩)⟩ := by
  have hplain : ∀ k, ∀ c ∈ (lostPrimary k).toList, CommandLine.isPlain c = true := by
    intro k
    cases k <;> exact List.all_eq_true.mp (by decide +kernel)
  have hextra : ∀ word ∈ ["--verbose"],
      word ≠ "" ∧ ∀ c ∈ word.toList, CommandLine.isPlain c = true := by
    intro word hword
    obtain rfl := List.mem_singleton.mp hword
    exact ⟨by decide, List.all_eq_true.mp (by decide +kernel)⟩
  have hends : willingWorld.ends (failoverOf lostPrimary) =
      ⟨0, true, some
        (.failover ⟨0, "db0", 5432, "/var/lib/pgsql/data"⟩ ⟨1, "db1", 5432, ""⟩
        ⟨0, "", 0, ""⟩ ⟨0, "db0", 5432, ""⟩)⟩ := by
    decide +kernel
  rw [← hends]
  exact failover_command_sends CommandLine.expand_fills CommandLine.shellWords_splits willingWorld
    willingWorld_ready lostPrimary hplain ["--verbose"] hextra

/-- And for a standby that is to follow the new primary. -/
theorem follow_primary_command_sends {pgpool : CommandLine.Filler} (hpgpool : pgpool.Fills)
    {shell : CommandLine.Shell} (hshell : shell.Splits) (w : ClientWorld) (hready : w.Ready)
    (v : Token → String)
    (hv : ∀ k, ∀ c ∈ (v k).toList, CommandLine.isPlain c = true) (extra : List String)
    (hextra : ∀ word ∈ extra, word ≠ "" ∧
      ∀ c ∈ word.toList, CommandLine.isPlain c = true) :
    ∃ words, shell (pgpool (followPrimarySchema.puts v)
        (commandLine hookFollowPrimary followPrimarySchema.tokens extra).toList) = some words ∧
      dispatch w (words.map String.ofList) = some (w.ends (followPrimaryOf v)) := by
  obtain ⟨words, hwords, hdispatch⟩ :=
    HookSchema.command_dispatches directives_failoverSchema hpgpool hshell hready
      (by decide : hookFollowPrimary ∈ hookNames) hv hextra
  refine ⟨words, hwords, hdispatch.trans ?_⟩
  exact congrArg (fun req => some (w.ends req)) (handleFollowPrimary_values v extra)

/-- The client by the name of a link in the data directory takes all its arguments as they are. -/
theorem parseInvocation_link {hook : String} (hhook : hook ∈ pgdataSymlinkHooks) (dir : List Char)
    (args : List String) :
    parseInvocation (String.ofList (dir ++ '/' :: hook.toList) :: args) =
      some ⟨hook, args⟩ := by
  have hfacts : ∀ hook ∈ pgdataSymlinkHooks, hook.toList ≠ [] ∧ hook.toList ≠ ['.'] ∧
      hook.toList ≠ ['.', '.'] ∧ '/' ∉ hook.toList := by
    decide +kernel
  obtain ⟨hne, hdot, hdots, hslash⟩ := hfacts hook hhook
  unfold parseInvocation
  rw [List.head?_cons, Option.bind_some, String.toList_ofList,
    Unix.Path.fileName_ofText_append hne hdot hdots hslash, Option.getD_some, String.ofList_toList,
    if_pos (List.contains_iff_mem.mpr hhook), List.tail_cons]

/-! ## Codes -/

/-- The arguments name no hook, or one that the client does not know. -/
def UsageError (argv : List String) : Prop :=
  ∀ hook args, parseInvocation argv = some ⟨hook, args⟩ →
    hook ∉ ["help", "-h", "--help", "version", "-v", "--version"] ∧ hook ≠ "config" ∧
      isKnownCommand hook = false

/-- The client has been asked for nothing but its own texts. -/
def AsksForText (argv : List String) : Prop :=
  ∃ hook args, parseInvocation argv = some ⟨hook, args⟩ ∧
    hook ∈ ["help", "-h", "--help", "version", "-v", "--version"]

/-- The agent has said yes, or has told its status. -/
def Answered (w : ClientWorld) (req : HookRequest) : Prop :=
  ∃ ok message, w.answer req = .reply ok message ∧ (ok = true ∨ req = .getStatus)

theorem finish_eq_zero_iff {w : ClientWorld} {req : HookRequest} :
    finish req (w.answer req) = 0 ↔ Answered w req := by
  unfold finish Answered
  cases w.answer req with
  | reply ok message =>
    by_cases h : ok = true ∨ req = .getStatus
    · exact iff_of_true (if_pos h) ⟨ok, message, rfl, h⟩
    · refine iff_of_false ?_ ?_
      · dsimp only
        rw [if_neg h]
        exact Nat.one_ne_zero
      · rintro ⟨_, _, ⟨⟩, h'⟩
        exact h h'
  | status =>
    refine iff_of_false Nat.one_ne_zero ?_
    rintro ⟨_, _, ⟨⟩, -⟩
  | timeout =>
    refine iff_of_false Nat.one_ne_zero ?_
    rintro ⟨_, _, ⟨⟩, -⟩

theorem finish_le_one (req : HookRequest) (answer : CallEnd) : finish req answer ≤ 1 := by
  unfold finish
  split
  · split <;> decide
  · decide
  · decide

theorem finish_ne_two (req : HookRequest) (answer : CallEnd) : finish req answer ≠ 2 :=
  ne_of_lt (Nat.lt_succ_of_le (finish_le_one req answer))

/-- **What the client's code says.**  It ends with 2 exactly for a command line that names no known
hook, and has not looked for the agent then; it ends with 0 exactly if it was asked for its own
texts or the agent has said yes to its request; and what it has sent is what its arguments say. -/
theorem dispatch_spec (w : ClientWorld) (argv : List String) {run : ClientRun}
    (h : dispatch w argv = some run) :
    (run.code = 2 ↔ UsageError argv) ∧ (run.code = 2 → run.dialed = false) ∧
    (run.code = 0 ↔ AsksForText argv ∨ ∃ req, run.sent = some req ∧ Answered w req) ∧
    ∀ req, run.sent = some req → w.dials = true ∧ ∃ hook args,
      parseInvocation argv = some ⟨hook, args⟩ ∧ isKnownCommand hook = true ∧
        hookRequest hook args = .ok req := by
  unfold dispatch at h
  cases hparse : parseInvocation argv with
  | none =>
    rw [hparse] at h
    obtain rfl := Option.some.inj h
    have husage : UsageError argv := fun hook args h => by cases hparse.symm.trans h
    refine ⟨iff_of_true rfl husage, fun _ => rfl, iff_of_false (by decide) ?_,
      fun req h => by cases h⟩
    rintro (⟨hook, args, hsome, -⟩ | ⟨req, hsent, -⟩)
    · cases hparse.symm.trans hsome
    · cases hsent
  | some inv =>
    obtain ⟨hook, args⟩ := inv
    rw [hparse] at h
    dsimp only at h
    by_cases hhelp : hook ∈ ["help", "-h", "--help", "version", "-v", "--version"]
    · rw [if_pos hhelp] at h
      obtain rfl := Option.some.inj h
      exact ⟨iff_of_false (by decide) fun h => (h hook args hparse).1 hhelp, fun _ => rfl,
        iff_of_true rfl (Or.inl ⟨hook, args, hparse, hhelp⟩), fun req h => by cases h⟩
    rw [if_neg hhelp] at h
    have hnotext : ¬ AsksForText argv := by
      rintro ⟨hook', args', hparse', hhelp'⟩
      cases hparse.symm.trans hparse'
      exact hhelp hhelp'
    have hnone : ∀ run : ClientRun, run.sent = none →
        ¬ (AsksForText argv ∨ ∃ req, run.sent = some req ∧ Answered w req) := by
      rintro run hsent (h | ⟨req, hreq, -⟩)
      · exact hnotext h
      · cases hsent.symm.trans hreq
    by_cases hconfig : hook = "config"
    · rw [if_pos hconfig] at h
      obtain rfl := Option.some.inj h
      exact ⟨iff_of_false (by decide) fun h => (h hook args hparse).2.1 hconfig, fun _ => rfl,
        iff_of_false (by decide) (hnone _ rfl), fun req h => by cases h⟩
    rw [if_neg hconfig] at h
    cases hknown : isKnownCommand hook with
    | false =>
      rw [hknown, Bool.not_false, if_pos rfl] at h
      obtain rfl := Option.some.inj h
      refine ⟨iff_of_true rfl fun hook' args' hparse' => ?_, fun _ => rfl,
        iff_of_false (by decide) (hnone _ rfl), fun req h => by cases h⟩
      cases hparse.symm.trans hparse'
      exact ⟨hhelp, hconfig, hknown⟩
    | true =>
      rw [hknown, Bool.not_true, if_neg Bool.false_ne_true] at h
      have husage : ¬ UsageError argv := fun h => by
        cases hknown.symm.trans (h hook args hparse).2.2
      have hfails : (1 : ℕ) ≠ 2 := by decide
      obtain ⟨timeout, -, rfl⟩ := Option.map_eq_some_iff.mp h
      cases timeout with
      | error e =>
        exact ⟨iff_of_false hfails husage, fun _ => rfl,
          iff_of_false Nat.one_ne_zero (hnone _ rfl), fun req h => by cases h⟩
      | ok d =>
        dsimp only
        cases hdials : w.dials with
        | false =>
          exact ⟨iff_of_false hfails husage, fun h => absurd h hfails,
            iff_of_false Nat.one_ne_zero (hnone _ rfl), fun req h => by cases h⟩
        | true =>
          rw [if_pos rfl]
          cases hreq : hookRequest hook args with
          | error e =>
            exact ⟨iff_of_false hfails husage, fun h => absurd h hfails,
              iff_of_false Nat.one_ne_zero (hnone _ rfl), fun req h => by cases h⟩
          | ok req =>
            refine ⟨iff_of_false (finish_ne_two req _) husage,
              fun h => absurd h (finish_ne_two req _), ?_, ?_⟩
            · refine finish_eq_zero_iff.trans ⟨fun h => Or.inr ⟨req, rfl, h⟩, ?_⟩
              rintro (h | ⟨req', ⟨⟩, h⟩)
              · exact absurd h hnotext
              · exact h
            · rintro req' ⟨⟩
              exact ⟨rfl, hook, args, rfl, hknown, hreq⟩

/-- An escalation that the agent agrees to. -/
theorem dispatch_spec_escalation :
    Answered willingWorld .escalation ∧ ¬ UsageError ["pg_agentc", "escalation"] := by
  have hrun : dispatch willingWorld ["pg_agentc", "escalation"] =
      some ⟨0, true, some .escalation⟩ := by
    decide +kernel
  obtain ⟨husage, -, hzero, -⟩ := dispatch_spec willingWorld ["pg_agentc", "escalation"] hrun
  refine ⟨?_, fun h => absurd (husage.mpr h) (by decide)⟩
  rcases hzero.mp rfl with ⟨hook, args, hparse, hhelp⟩ | ⟨req, hsent, hanswer⟩
  · have hname := parseInvocation_name "escalation" []
    cases hname.symm.trans hparse
    exact absurd hhelp (by decide)
  · obtain rfl := Option.some.inj hsent
    exact hanswer

end PgAgent
