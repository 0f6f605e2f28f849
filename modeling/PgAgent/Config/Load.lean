import PgAgent.Config.Raft
import PgAgent.Library.Decimal
import PgAgent.Library.Text
import PgAgent.Standby.Conninfo

/-!
# Loading the configuration

`Config` of `config.rs`, in what decides who the members are and which of them this node is, and
`load_config` of the daemon, which looks at the node's files and host name twice: once when the
document is read and once more after the environment has had its say.

Four sources can name the local node.  They are asked in the order of their authority, and the
first one that is present decides.

* `resolveLocalNodeId_eq_ok_iff` --- a source that is present and broken is never passed over for
  a weaker one;
* `validate_eq_ok_iff` --- what an accepted configuration is, as a whole;
* `loadConfig_eq_ok_iff` --- the two looks together.

The document itself, as the TOML parser leaves it, is the input.
-/

namespace PgAgent

/-! ## What is read -/

/-- `fs::read_to_string`. -/
inductive FileRead where
  | text (raw : String)
  | notFound
  | failed
  deriving DecidableEq, Repr

/-- What a node answers about itself: its files, and its name if it has a readable one. -/
structure Host where
  readFile : String → FileRead
  hostname : Option String

/-- Why a node id file is no good. -/
inductive NodeIdFault where
  | unreadable
  | unparsable
  deriving DecidableEq, Repr

/-- The variants of `AgentError` that loading ends in. -/
inductive ConfigError where
  | noPool
  | negativeId (id : NodeId)
  | duplicateId (id : NodeId)
  | duplicateHost (hostname : String)
  | localNodeMissingFromPool (origin : String) (id : NodeId)
  | nodeIdFile (path : String) (fault : NodeIdFault)
  | replicationSslMode
  | agent (e : AgentError)
  deriving DecidableEq, Repr

/-- The configuration; an absent key is `none`, and the local node id is `-1` until it is
resolved. -/
structure Config where
  nodeId : Option NodeId
  nodeIdFile : Option String
  agentPort : Option UInt16
  pool : List NodeConfig
  replication : PgReplicationConfig
  raft : RaftConfig
  localNodeId : NodeId
  deriving DecidableEq

def defaultAgentPort : UInt16 := 9701

def envAgentPort : String := "PG_AGENTD_PORT"

/-- pgpool's own file, in the spelling of either family. -/
def defaultPgpoolNodeIdFiles : List String :=
  ["/etc/pgpool2/pgpool_node_id", "/etc/pgpool-II/pgpool_node_id"]

/-- `raw.trim().parse::<i32>()`. -/
def parseNodeId (raw : String) : Option NodeId :=
  Rust.parseI32 (String.ofList (Rust.trim raw.toList))

def readNodeIdFile (host : Host) (path : String) : Except ConfigError NodeId :=
  match host.readFile path with
  | .text raw =>
      match parseNodeId raw with
      | some id => .ok id
      | none => .error (.nodeIdFile path .unparsable)
  | .notFound => .error (.nodeIdFile path .unreadable)
  | .failed => .error (.nodeIdFile path .unreadable)

/-- `read_node_id_file` for a file that need not be there. -/
def tryReadNodeIdFile (host : Host) (path : String) : Except ConfigError (Option NodeId) :=
  match host.readFile path with
  | .text raw =>
      match parseNodeId raw with
      | some id => .ok (some id)
      | none => .error (.nodeIdFile path .unparsable)
  | .notFound => .ok none
  | .failed => .error (.nodeIdFile path .unreadable)

namespace Config

def applyDefaults (cfg : Config) : Config :=
  { cfg with agentPort := some (cfg.agentPort.getD defaultAgentPort) }

/-- `apply_env_overrides_from`, for the one key of the environment that is kept here. -/
def applyEnvOverrides (cfg : Config) (getenv : String → Option String) : Config :=
  match (getenv envAgentPort).filter fun s => s ≠ "" with
  | none => cfg
  | some s =>
      match Rust.parseUnsigned (2 ^ 16) s.toList with
      | .ok port => { cfg with agentPort := some (UInt16.ofNat port) }
      | .error _ => cfg

def setLocalNodeById (cfg : Config) (id : NodeId) (origin : String) : Except ConfigError Config :=
  if cfg.pool.any fun n => n.id == id then .ok { cfg with localNodeId := id }
  else .error (.localNodeMissingFromPool origin id)

/-- The third source: the first of pgpool's files that is there. -/
def fromPgpoolFiles (host : Host) : List String → Except ConfigError (Option (NodeId × String))
  | [] => .ok none
  | path :: paths =>
      match tryReadNodeIdFile host path with
      | .error e => .error e
      | .ok (some id) => .ok (some (id, path))
      | .ok none => fromPgpoolFiles host paths

/-- The fourth source: the first member with the host's name. -/
def fromHostname (cfg : Config) (host : Host) : Config :=
  match host.hostname with
  | none => cfg
  | some name =>
      match cfg.pool.find? fun n => n.hostname == name with
      | some n => { cfg with localNodeId := n.id }
      | none => cfg

def resolveLocalNodeIdWithPgpoolFiles (cfg : Config) (host : Host) (pgpoolFiles : List String) :
    Except ConfigError Config :=
  let cfg : Config := { cfg with localNodeId := -1 }
  match cfg.nodeId with
  | some id => cfg.setLocalNodeById id "config node_id"
  | none =>
    match cfg.nodeIdFile with
    | some path =>
        (readNodeIdFile host path).bind fun id => cfg.setLocalNodeById id ("node_id_file " ++ path)
    | none =>
      match fromPgpoolFiles host pgpoolFiles with
      | .error e => .error e
      | .ok (some (id, path)) => cfg.setLocalNodeById id ("pgpool_node_id file " ++ path)
      | .ok none => .ok (cfg.fromHostname host)

def resolveLocalNodeId (cfg : Config) (host : Host) : Except ConfigError Config :=
  cfg.resolveLocalNodeIdWithPgpoolFiles host defaultPgpoolNodeIdFiles

def toNodePool (cfg : Config) : NodePool := ⟨cfg.pool, cfg.localNodeId⟩

/-- The loop of `validate` over the pool, with the ids and the host names it has met. -/
def checkPool (ids : List NodeId) (hosts : List String) :
    List NodeConfig → Except ConfigError Unit
  | [] => .ok ()
  | n :: rest =>
      if n.id < 0 then .error (.negativeId n.id)
      else if n.id ∈ ids then .error (.duplicateId n.id)
      else if n.hostname ∈ hosts then .error (.duplicateHost n.hostname)
      else checkPool (n.id :: ids) (n.hostname :: hosts) rest

/-- `validate`; `none` where the check of the `[raft]` section panics. -/
def validate (cfg : Config) : Option (Except ConfigError Unit) :=
  if cfg.pool = [] then some (.error .noPool)
  else
    match checkPool [] [] cfg.pool with
    | .error e => some (.error e)
    | .ok () =>
      match cfg.toNodePool.localNode with
      | .error e => some (.error (.agent e))
      | .ok _ =>
        match cfg.replication.validate with
        | .error _ => some (.error .replicationSslMode)
        | .ok () => cfg.raft.validate.map fun verdict => verdict.mapError ConfigError.agent

/-- A configuration with its local node resolved, and checked. -/
def resolveAndValidate (cfg : Config) (host : Host) : Option (Except ConfigError Config) :=
  match cfg.resolveLocalNodeId host with
  | .error e => some (.error e)
  | .ok cfg => cfg.validate.map fun verdict => verdict.map fun _ => cfg

/-- `Config::load`, behind the TOML parser. -/
def load (doc : Config) (host : Host) : Option (Except ConfigError Config) :=
  doc.applyDefaults.resolveAndValidate host

end Config

/-- `load_config` of the daemon: `first` and `second` are the host at its two looks. -/
def loadConfig (doc : Config) (getenv : String → Option String) (first second : Host) :
    Option (Except ConfigError Config) :=
  match doc.load first with
  | none => none
  | some (.error e) => some (.error e)
  | some (.ok cfg) =>
      ((cfg.applyEnvOverrides getenv).applyDefaults).resolveAndValidate second

/-! ## The pool that is accepted -/

/-- A pool that has passed the check: its members can be told apart by their ids and by their host
names, and one of them is this node. -/
structure ClusterPool extends NodePool where
  ids_nonneg : ∀ n ∈ members, 0 ≤ n.id
  ids_nodup : (members.map NodeConfig.id).Nodup
  hosts_nodup : (members.map NodeConfig.hostname).Nodup
  local_mem : localNodeId ∈ members.map NodeConfig.id

namespace ClusterPool

variable (pool : ClusterPool) {n m : NodeConfig}

theorem eq_of_hostname_eq (hn : n ∈ pool.members) (hm : m ∈ pool.members)
    (h : n.hostname = m.hostname) : n = m :=
  List.inj_on_of_nodup_map pool.hosts_nodup hn hm h

/-- A search for a value that no other member has finds the member. -/
theorem find?_member {p : NodeConfig → Bool} (hn : n ∈ pool.members) (hp : p n = true)
    (huniq : ∀ m ∈ pool.members, p m = true → m = n) : pool.members.find? p = some n := by
  cases hfind : pool.members.find? p with
  | none => exact absurd hp (List.find?_eq_none.mp hfind n hn)
  | some m => rw [huniq m (List.mem_of_find?_eq_some hfind) (List.find?_some hfind)]

theorem nodeByHostname_member (hn : n ∈ pool.members) :
    pool.nodeByHostname n.hostname = .ok n := by
  have hfind : pool.members.find? (fun m => m.hostname == n.hostname) = some n :=
    pool.find?_member hn (beq_self_eq_true _)
      fun m hm hhost => pool.eq_of_hostname_eq hm hn (beq_iff_eq.mp hhost)
  unfold NodePool.nodeByHostname
  rw [hfind]

/-- A member is found by its host name, whatever id comes with it. -/
theorem resolveNode_hostname (hn : n ∈ pool.members) (hne : n.hostname ≠ "") (id : NodeId) :
    pool.resolveNode ⟨id, n.hostname⟩ = .ok n := by
  unfold NodePool.resolveNode
  dsimp only
  rw [if_pos hne, pool.nodeByHostname_member hn]
  rfl

end ClusterPool

namespace Config

/-! ## What the check accepts -/

/-- The loop over the pool, with what it has met before. -/
theorem checkPool_eq_ok_iff {l : List NodeConfig} {ids : List NodeId} {hosts : List String} :
    checkPool ids hosts l = .ok () ↔
      (∀ n ∈ l, 0 ≤ n.id) ∧
      ((l.map NodeConfig.id).Nodup ∧ ∀ n ∈ l, n.id ∉ ids) ∧
      ((l.map NodeConfig.hostname).Nodup ∧ ∀ n ∈ l, n.hostname ∉ hosts) := by
  induction l generalizing ids hosts with
  | nil => simp [checkPool]
  | cons n rest ih =>
    unfold checkPool
    by_cases hneg : n.id < 0
    · rw [if_pos hneg]
      refine iff_of_false (fun h => by cases h) fun h => ?_
      exact not_lt.mpr (h.1 n List.mem_cons_self) hneg
    rw [if_neg hneg]
    by_cases hid : n.id ∈ ids
    · rw [if_pos hid]
      refine iff_of_false (fun h => by cases h) fun h => ?_
      exact h.2.1.2 n List.mem_cons_self hid
    rw [if_neg hid]
    by_cases hhost : n.hostname ∈ hosts
    · rw [if_pos hhost]
      refine iff_of_false (fun h => by cases h) fun h => ?_
      exact h.2.2.2 n List.mem_cons_self hhost
    rw [if_neg hhost, ih]
    simp only [List.mem_cons, not_or, List.map_cons, List.nodup_cons, List.mem_map, not_exists,
      not_and, forall_eq_or_imp]
    have hnonneg := not_lt.mp hneg
    constructor
    · rintro ⟨hall, ⟨hids, hidout⟩, ⟨hhosts, hhostout⟩⟩
      exact ⟨⟨hnonneg, hall⟩,
        ⟨⟨fun m hm => (hidout m hm).1, hids⟩, hid, fun m hm => (hidout m hm).2⟩,
        ⟨fun m hm => (hhostout m hm).1, hhosts⟩, hhost, fun m hm => (hhostout m hm).2⟩
    · rintro ⟨⟨-, hall⟩, ⟨⟨hidne, hids⟩, -, hidout⟩,
        ⟨⟨hhostne, hhosts⟩, -, hhostout⟩⟩
      exact ⟨hall, ⟨hids, fun m hm => ⟨hidne m hm, hidout m hm⟩⟩,
        ⟨hhosts, fun m hm => ⟨hhostne m hm, hhostout m hm⟩⟩⟩

/-- The local node is found in a pool if its id is there and no sentinel. -/
theorem exists_localNode_iff {pool : NodePool} :
    (∃ n, pool.localNode = .ok n) ↔
      0 ≤ pool.localNodeId ∧ pool.localNodeId ∈ pool.members.map NodeConfig.id := by
  unfold NodePool.localNode
  by_cases hneg : pool.localNodeId < 0
  · rw [if_pos hneg]
    refine iff_of_false ?_ fun h => not_lt.mpr h.1 hneg
    rintro ⟨n, hn⟩
    cases hn
  rw [if_neg hneg, List.mem_map]
  unfold NodePool.nodeById
  cases hfind : pool.members.find? (fun n => n.id == pool.localNodeId) with
  | none =>
    refine iff_of_false ?_ ?_
    · rintro ⟨n, hn⟩
      cases hn
    · rintro ⟨-, n, hn, hid⟩
      exact List.find?_eq_none.mp hfind n hn (beq_iff_eq.mpr hid)
  | some n =>
    have hid := List.find?_some hfind
    exact iff_of_true ⟨n, rfl⟩
      ⟨not_lt.mp hneg, n, List.mem_of_find?_eq_some hfind, beq_iff_eq.mp hid⟩

/-- What an accepted configuration guarantees, and all it guarantees. -/
theorem validate_eq_ok_iff (cfg : Config) :
    cfg.validate = some (.ok ()) ↔
      (∃ pool : ClusterPool, pool.toNodePool = cfg.toNodePool) ∧
      cfg.replication.validate = .ok () ∧ cfg.raft.validate = some (.ok ()) := by
  have hpool : (∃ pool : ClusterPool, pool.toNodePool = cfg.toNodePool) ↔
      checkPool [] [] cfg.pool = .ok () ∧ cfg.localNodeId ∈ cfg.pool.map NodeConfig.id := by
    rw [checkPool_eq_ok_iff]
    constructor
    · rintro ⟨⟨_, hnonneg, hids, hhosts, hlocal⟩, rfl⟩
      exact ⟨⟨hnonneg, ⟨hids, fun _ _ => List.not_mem_nil⟩, hhosts,
        fun _ _ => List.not_mem_nil⟩,
        hlocal⟩
    · rintro ⟨⟨hnonneg, ⟨hids, -⟩, hhosts, -⟩, hlocal⟩
      exact ⟨⟨cfg.toNodePool, hnonneg, hids, hhosts, hlocal⟩, rfl⟩
  rw [hpool]
  unfold validate
  by_cases hempty : cfg.pool = []
  · rw [if_pos hempty, hempty]
    exact iff_of_false (fun h => by cases h) fun h => List.not_mem_nil h.1.2
  rw [if_neg hempty]
  cases hcheck : checkPool [] [] cfg.pool with
  | error e => exact iff_of_false (fun h => by cases h) fun h => by cases h.1.1
  | ok u =>
    have hnonneg := (checkPool_eq_ok_iff.mp hcheck).1
    have hlocal : (∃ n, cfg.toNodePool.localNode = .ok n) ↔
        cfg.localNodeId ∈ cfg.pool.map NodeConfig.id := by
      rw [exists_localNode_iff]
      refine and_iff_right_of_imp fun h => ?_
      obtain ⟨n, hn, hid⟩ := List.mem_map.mp h
      exact hid ▸ hnonneg n hn
    dsimp only
    cases hfound : cfg.toNodePool.localNode with
    | error e =>
      refine iff_of_false (fun h => by cases h) fun h => ?_
      obtain ⟨n, hn⟩ := hlocal.mpr h.1.2
      cases hfound.symm.trans hn
    | ok n =>
      dsimp only
      cases hssl : cfg.replication.validate with
      | error e => exact iff_of_false (fun h => by cases h) fun h => by cases h.2.1
      | ok v =>
        dsimp only
        rw [Option.map_eq_some_iff]
        constructor
        · rintro ⟨verdict, hverdict, hok⟩
          cases verdict with
          | error e => cases hok
          | ok w => exact ⟨⟨rfl, hlocal.mp ⟨n, hfound⟩⟩, rfl, hverdict⟩
        · rintro ⟨-, -, hraft⟩
          exact ⟨.ok (), hraft, rfl⟩

/-! ## Which source decides -/

/-- The number that a file holds. -/
def Holds (host : Host) (path : String) (id : NodeId) : Prop :=
  ∃ raw, host.readFile path = .text raw ∧ parseNodeId raw = some id

/-- The first source that is present on the host names `id`. -/
inductive Names (cfg : Config) (host : Host) : NodeId → Prop where
  | config {id : NodeId} : cfg.nodeId = some id → Names cfg host id
  | file {path : String} {id : NodeId} :
      cfg.nodeId = none → cfg.nodeIdFile = some path → Holds host path id → Names cfg host id
  | pgpool {front back : List String} {path : String} {id : NodeId} :
      cfg.nodeId = none → cfg.nodeIdFile = none →
      defaultPgpoolNodeIdFiles = front ++ path :: back →
      (∀ p ∈ front, host.readFile p = .notFound) → Holds host path id → Names cfg host id
  | hostname {name : String} {n : NodeConfig} :
      cfg.nodeId = none → cfg.nodeIdFile = none →
      (∀ p ∈ defaultPgpoolNodeIdFiles, host.readFile p = .notFound) →
      host.hostname = some name → cfg.pool.find? (fun n => n.hostname == name) = some n →
      Names cfg host n.id

/-- No source is present, and the host's name is no member's. -/
structure Unnamed (cfg : Config) (host : Host) : Prop where
  nodeId : cfg.nodeId = none
  nodeIdFile : cfg.nodeIdFile = none
  pgpool : ∀ p ∈ defaultPgpoolNodeIdFiles, host.readFile p = .notFound
  hostname : ∀ name, host.hostname = some name → ∀ n ∈ cfg.pool, n.hostname ≠ name

variable {host : Host} {cfg cfg' : Config} {id : NodeId} {path : String}

theorem setLocalNodeById_eq_ok_iff {origin : String} :
    cfg.setLocalNodeById id origin = .ok cfg' ↔
      id ∈ cfg.pool.map NodeConfig.id ∧ cfg' = { cfg with localNodeId := id } := by
  have hany : (cfg.pool.any fun n => n.id == id) = true ↔ id ∈ cfg.pool.map NodeConfig.id := by
    simp [List.mem_map]
  unfold setLocalNodeById
  by_cases h : (cfg.pool.any fun n => n.id == id) = true
  · rw [if_pos h, and_iff_right (hany.mp h), Except.ok.injEq, eq_comm]
  · rw [if_neg h]
    exact iff_of_false (fun h => by cases h) fun h' => h (hany.mpr h'.1)

theorem readNodeIdFile_eq_ok_iff : readNodeIdFile host path = .ok id ↔ Holds host path id := by
  unfold readNodeIdFile Holds
  cases host.readFile path with
  | text raw =>
    cases hparse : parseNodeId raw with
    | none => simp [hparse]
    | some v => simp [hparse]
  | notFound => simp
  | failed => simp

theorem tryReadNodeIdFile_eq_some_iff :
    tryReadNodeIdFile host path = .ok (some id) ↔ Holds host path id := by
  unfold tryReadNodeIdFile Holds
  cases host.readFile path with
  | text raw =>
    cases hparse : parseNodeId raw with
    | none => simp [hparse]
    | some v => simp [hparse]
  | notFound => simp
  | failed => simp

theorem tryReadNodeIdFile_eq_none_iff :
    tryReadNodeIdFile host path = .ok none ↔ host.readFile path = .notFound := by
  unfold tryReadNodeIdFile
  cases host.readFile path with
  | text raw => cases hparse : parseNodeId raw <;> simp [hparse]
  | notFound => simp
  | failed => simp

theorem fromPgpoolFiles_eq_none_iff {paths : List String} :
    fromPgpoolFiles host paths = .ok none ↔ ∀ p ∈ paths, host.readFile p = .notFound := by
  induction paths with
  | nil => simp [fromPgpoolFiles]
  | cons p paths ih =>
    unfold fromPgpoolFiles
    rw [List.forall_mem_cons, ← tryReadNodeIdFile_eq_none_iff, ← ih]
    rcases tryReadNodeIdFile host p with e | _ | v
    · simp
    · simp
    · simp

/-- Of pgpool's files, the first one that is there is read, and the ones before it are missing. -/
theorem fromPgpoolFiles_eq_some_iff {paths : List String} :
    fromPgpoolFiles host paths = .ok (some (id, path)) ↔
      ∃ front back, paths = front ++ path :: back ∧
        (∀ p ∈ front, host.readFile p = .notFound) ∧
        Holds host path id := by
  induction paths with
  | nil => simp [fromPgpoolFiles]
  | cons p paths ih =>
    unfold fromPgpoolFiles
    rcases htry : tryReadNodeIdFile host p with e | _ | v
    · -- the broken file is not passed over
      refine iff_of_false (fun h => by cases h) ?_
      rintro ⟨front, back, heq, hfront, hholds⟩
      cases front with
      | nil =>
        obtain ⟨rfl, -⟩ := List.cons.inj heq
        cases htry.symm.trans (tryReadNodeIdFile_eq_some_iff.mpr hholds)
      | cons q front =>
        obtain ⟨rfl, -⟩ := List.cons.inj heq
        cases htry.symm.trans (tryReadNodeIdFile_eq_none_iff.mpr (hfront p List.mem_cons_self))
    · have hmissing := tryReadNodeIdFile_eq_none_iff.mp htry
      dsimp only
      rw [ih]
      constructor
      · rintro ⟨front, back, rfl, hfront, hholds⟩
        exact ⟨p :: front, back, rfl, List.forall_mem_cons.mpr ⟨hmissing, hfront⟩, hholds⟩
      · rintro ⟨front, back, heq, hfront, hholds⟩
        cases front with
        | nil =>
          obtain ⟨rfl, -⟩ := List.cons.inj heq
          cases htry.symm.trans (tryReadNodeIdFile_eq_some_iff.mpr hholds)
        | cons q front =>
          obtain ⟨-, rfl⟩ := List.cons.inj heq
          exact ⟨front, back, rfl, (List.forall_mem_cons.mp hfront).2, hholds⟩
    · have hthere := tryReadNodeIdFile_eq_some_iff.mp htry
      dsimp only
      rw [Except.ok.injEq, Option.some.injEq, Prod.mk.injEq]
      constructor
      · rintro ⟨rfl, rfl⟩
        exact ⟨[], paths, rfl, fun _ h => absurd h List.not_mem_nil, hthere⟩
      · rintro ⟨front, back, heq, hfront, hholds⟩
        cases front with
        | nil =>
          obtain ⟨rfl, -⟩ := List.cons.inj heq
          cases htry.symm.trans (tryReadNodeIdFile_eq_some_iff.mpr hholds)
          exact ⟨rfl, rfl⟩
        | cons q front =>
          obtain ⟨rfl, -⟩ := List.cons.inj heq
          cases htry.symm.trans (tryReadNodeIdFile_eq_none_iff.mpr (hfront p List.mem_cons_self))

theorem fromHostname_cases (cfg : Config) (host : Host) :
    (∃ name n, host.hostname = some name ∧
        cfg.pool.find? (fun n => n.hostname == name) = some n ∧
        cfg.fromHostname host = { cfg with localNodeId := n.id }) ∨
      (∀ name, host.hostname = some name → ∀ n ∈ cfg.pool, n.hostname ≠ name) ∧
        cfg.fromHostname host = cfg := by
  unfold fromHostname
  cases hname : host.hostname with
  | none => exact Or.inr ⟨fun name h => (by cases h), rfl⟩
  | some name =>
    dsimp only
    cases hfind : cfg.pool.find? (fun n => n.hostname == name) with
    | some n => exact Or.inl ⟨name, n, rfl, hfind, rfl⟩
    | none =>
      refine Or.inr ⟨fun name' hname' n hn hhost => ?_, rfl⟩
      cases hname'
      exact List.find?_eq_none.mp hfind n hn (beq_iff_eq.mpr hhost)

/-- The source that decides has the last word. -/
theorem resolveLocalNodeId_of_names (h : Names cfg host id)
    (hmem : id ∈ cfg.pool.map NodeConfig.id) :
    cfg.resolveLocalNodeId host = .ok { cfg with localNodeId := id } := by
  obtain ⟨nodeId, nodeIdFile, agentPort, pool, replication, raft, localNodeId⟩ := cfg
  unfold resolveLocalNodeId resolveLocalNodeIdWithPgpoolFiles
  cases h with
  | config h =>
    obtain rfl : nodeId = some id := h
    exact setLocalNodeById_eq_ok_iff.mpr ⟨hmem, rfl⟩
  | @file path _ hid hfile hholds =>
    obtain rfl : nodeId = none := hid
    obtain rfl : nodeIdFile = some path := hfile
    dsimp only
    rw [readNodeIdFile_eq_ok_iff.mpr hholds]
    exact setLocalNodeById_eq_ok_iff.mpr ⟨hmem, rfl⟩
  | pgpool hid hfile hfiles hfront hholds =>
    obtain rfl : nodeId = none := hid
    obtain rfl : nodeIdFile = none := hfile
    dsimp only
    rw [fromPgpoolFiles_eq_some_iff.mpr ⟨_, _, hfiles, hfront, hholds⟩]
    exact setLocalNodeById_eq_ok_iff.mpr ⟨hmem, rfl⟩
  | hostname hid hfile hall hname hfind =>
    obtain rfl : nodeId = none := hid
    obtain rfl : nodeIdFile = none := hfile
    dsimp only at hfind ⊢
    rw [fromPgpoolFiles_eq_none_iff.mpr hall]
    unfold fromHostname
    dsimp only
    rw [hname]
    dsimp only
    rw [hfind]

theorem resolveLocalNodeId_of_unnamed (h : Unnamed cfg host) :
    cfg.resolveLocalNodeId host = .ok { cfg with localNodeId := -1 } := by
  obtain ⟨nodeId, nodeIdFile, agentPort, pool, replication, raft, localNodeId⟩ := cfg
  obtain ⟨hid, hfile, hall, hnone⟩ := h
  obtain rfl : nodeId = none := hid
  obtain rfl : nodeIdFile = none := hfile
  unfold resolveLocalNodeId resolveLocalNodeIdWithPgpoolFiles
  dsimp only
  rw [fromPgpoolFiles_eq_none_iff.mpr hall]
  rcases fromHostname_cases
      { nodeId := none, nodeIdFile := none, agentPort, pool, replication, raft, localNodeId := -1 }
      host with ⟨name, n, hname, hfind, -⟩ | ⟨-, heq⟩
  · have hhost := List.find?_some hfind
    exact absurd (beq_iff_eq.mp hhost) (hnone name hname n (List.mem_of_find?_eq_some hfind))
  · exact congrArg Except.ok heq

/-- **The first source that is present decides, or nothing does.**  A source that is present and
broken, or that names no member, ends the resolution. -/
theorem resolveLocalNodeId_eq_ok_iff :
    cfg.resolveLocalNodeId host = .ok cfg' ↔
      (∃ id, Names cfg host id ∧ id ∈ cfg.pool.map NodeConfig.id ∧
        cfg' = { cfg with localNodeId := id }) ∨
      Unnamed cfg host ∧ cfg' = { cfg with localNodeId := -1 } := by
  constructor
  · intro h
    obtain ⟨nodeId, nodeIdFile, agentPort, pool, replication, raft, localNodeId⟩ := cfg
    unfold resolveLocalNodeId resolveLocalNodeIdWithPgpoolFiles at h
    dsimp only at h
    cases nodeId with
    | some v =>
      obtain ⟨hmem, rfl⟩ := setLocalNodeById_eq_ok_iff.mp h
      exact Or.inl ⟨v, .config rfl, hmem, rfl⟩
    | none =>
      cases nodeIdFile with
      | some path =>
        dsimp only at h
        cases hread : readNodeIdFile host path with
        | error e =>
          rw [hread] at h
          cases h
        | ok v =>
          rw [hread] at h
          obtain ⟨hmem, rfl⟩ := setLocalNodeById_eq_ok_iff.mp h
          exact Or.inl ⟨v, .file rfl rfl (readNodeIdFile_eq_ok_iff.mp hread), hmem, rfl⟩
      | none =>
        dsimp only at h
        rcases hprobe : fromPgpoolFiles host defaultPgpoolNodeIdFiles with e | _ | ⟨v, path⟩
        · rw [hprobe] at h
          cases h
        · rw [hprobe] at h
          cases h
          have hall := fromPgpoolFiles_eq_none_iff.mp hprobe
          rcases fromHostname_cases
              { nodeId := none, nodeIdFile := none, agentPort, pool, replication, raft,
                localNodeId := -1 }
              host with ⟨name, n, hname, hfind, heq⟩ | ⟨hnone, heq⟩
          · exact Or.inl ⟨n.id, .hostname rfl rfl hall hname hfind,
              List.mem_map_of_mem (List.mem_of_find?_eq_some hfind), heq⟩
          · exact Or.inr ⟨⟨rfl, rfl, hall, hnone⟩, heq⟩
        · rw [hprobe] at h
          obtain ⟨front, back, hfiles, hfront, hholds⟩ := fromPgpoolFiles_eq_some_iff.mp hprobe
          obtain ⟨hmem, rfl⟩ := setLocalNodeById_eq_ok_iff.mp h
          exact Or.inl ⟨v, .pgpool rfl rfl hfiles hfront hholds, hmem, rfl⟩
  · rintro (⟨id, hnames, hmem, rfl⟩ | ⟨hun, rfl⟩)
    · exact resolveLocalNodeId_of_names hnames hmem
    · exact resolveLocalNodeId_of_unnamed hun

/-- The local node id that a configuration has had does not matter to a new look, nor does its
port. -/
theorem Names.congr (h : Names cfg host id) (hid : cfg'.nodeId = cfg.nodeId)
    (hfile : cfg'.nodeIdFile = cfg.nodeIdFile) (hpool : cfg'.pool = cfg.pool) :
    Names cfg' host id := by
  cases h with
  | config h => exact .config (hid.trans h)
  | file h₁ h₂ hholds => exact .file (hid.trans h₁) (hfile.trans h₂) hholds
  | pgpool h₁ h₂ hfiles hfront hholds =>
    exact .pgpool (hid.trans h₁) (hfile.trans h₂) hfiles hfront hholds
  | hostname h₁ h₂ hall hname hfind =>
    exact .hostname (hid.trans h₁) (hfile.trans h₂) hall hname (hpool ▸ hfind)

/-- A look at the host accepts a configuration whose sources name a member of a pool that passes
the check, and whose other sections pass theirs. -/
theorem resolveAndValidate_eq_ok_iff :
    cfg.resolveAndValidate host = some (.ok cfg') ↔
      (∃ pool : ClusterPool, pool.members = cfg.pool ∧ Names cfg host pool.localNodeId ∧
        cfg' = { cfg with localNodeId := pool.localNodeId }) ∧
      cfg.replication.validate = .ok () ∧ cfg.raft.validate = some (.ok ()) := by
  unfold resolveAndValidate
  constructor
  · intro h
    cases hresolve : cfg.resolveLocalNodeId host with
    | error e =>
      rw [hresolve] at h
      cases h
    | ok resolved =>
      rw [hresolve] at h
      obtain ⟨verdict, hverdict, hok⟩ := Option.map_eq_some_iff.mp h
      cases verdict with
      | error e => cases hok
      | ok u =>
        cases hok
        obtain ⟨⟨pool, hpool⟩, hssl, hraft⟩ := (validate_eq_ok_iff resolved).mp hverdict
        rcases resolveLocalNodeId_eq_ok_iff.mp hresolve with ⟨id, hnames, -, rfl⟩ | ⟨-, rfl⟩
        · have hid : pool.localNodeId = id := congrArg NodePool.localNodeId hpool
          subst hid
          exact ⟨⟨pool, congrArg NodePool.members hpool, hnames, rfl⟩, hssl, hraft⟩
        · -- the sentinel is no member's id
          have hid : pool.localNodeId = -1 := congrArg NodePool.localNodeId hpool
          obtain ⟨n, hn, hlocal⟩ := List.mem_map.mp pool.local_mem
          have hnonneg := pool.ids_nonneg n hn
          rw [hlocal, hid] at hnonneg
          exact absurd hnonneg (by decide)
  · rintro ⟨⟨pool, hmembers, hnames, rfl⟩, hssl, hraft⟩
    have hmem : pool.localNodeId ∈ cfg.pool.map NodeConfig.id := hmembers ▸ pool.local_mem
    rw [resolveLocalNodeId_of_names hnames hmem]
    have hvalid : ({ cfg with localNodeId := pool.localNodeId } : Config).validate
        = some (.ok ()) := by
      refine (validate_eq_ok_iff _).mpr ⟨⟨pool, ?_⟩, hssl, hraft⟩
      unfold toNodePool
      rw [← hmembers]
    dsimp only
    rw [hvalid]
    rfl

/-- The port that the peers' addresses end in. -/
def effectiveAgentPort (doc : Config) (getenv : String → Option String) : UInt16 :=
  ((doc.applyDefaults.applyEnvOverrides getenv).agentPort).getD defaultAgentPort

/-- Between the two looks only the port changes. -/
theorem applyEnvOverrides_applyDefaults (doc : Config) (getenv : String → Option String)
    (id : NodeId) :
    (({ doc.applyDefaults with localNodeId := id } : Config).applyEnvOverrides getenv).applyDefaults
      = { doc with
          agentPort := some (doc.effectiveAgentPort getenv)
          localNodeId := id } := by
  unfold effectiveAgentPort applyEnvOverrides
  cases (getenv envAgentPort).filter fun s => s ≠ "" with
  | none => rfl
  | some s =>
    dsimp only
    cases Rust.parseUnsigned (2 ^ 16) s.toList with
    | ok port => rfl
    | error e => rfl

end Config

/-- **What the daemon starts with.**  A document is accepted if its pool can be told apart by ids
and by host names, its other sections pass their checks, and the first source present names a
member at both looks; the second look's member is this node. -/
theorem loadConfig_eq_ok_iff {doc cfg : Config} {getenv : String → Option String}
    {first second : Host} :
    loadConfig doc getenv first second = some (.ok cfg) ↔
      (∃ earlier pool : ClusterPool, earlier.members = doc.pool ∧ pool.members = doc.pool ∧
        doc.Names first earlier.localNodeId ∧ doc.Names second pool.localNodeId ∧
        cfg = { doc with
                agentPort := some (doc.effectiveAgentPort getenv)
                localNodeId := pool.localNodeId }) ∧
      doc.replication.validate = .ok () ∧ doc.raft.validate = some (.ok ()) := by
  have hlook : ∀ id : NodeId, ∀ host : Host, ∀ cfg : Config,
      ((({ doc.applyDefaults with localNodeId := id } : Config).applyEnvOverrides
          getenv).applyDefaults).resolveAndValidate host = some (.ok cfg) ↔
        (∃ pool : ClusterPool, pool.members = doc.pool ∧ doc.Names host pool.localNodeId ∧
          cfg = { doc with
                  agentPort := some (doc.effectiveAgentPort getenv)
                  localNodeId := pool.localNodeId }) ∧
        doc.replication.validate = .ok () ∧ doc.raft.validate = some (.ok ()) := by
    intro id host cfg
    rw [Config.applyEnvOverrides_applyDefaults, Config.resolveAndValidate_eq_ok_iff]
    refine and_congr_left fun _ => exists_congr fun pool => and_congr_right fun _ =>
      and_congr_left fun _ => ?_
    exact ⟨fun h => h.congr rfl rfl rfl, fun h => h.congr rfl rfl rfl⟩
  unfold loadConfig
  constructor
  · intro h
    split at h
    · cases h
    · cases h
    · next loaded hload =>
      obtain ⟨⟨earlier, hearlier, hnames, rfl⟩, -, -⟩ :=
        Config.resolveAndValidate_eq_ok_iff.mp hload
      obtain ⟨⟨pool, hpool, hnames', hcfg⟩, hssl, hraft⟩ := (hlook _ _ _).mp h
      exact ⟨⟨earlier, pool, hearlier, hpool, hnames.congr rfl rfl rfl, hnames', hcfg⟩, hssl,
        hraft⟩
  · rintro ⟨⟨earlier, pool, hearlier, hpool, hnames, hnames', hcfg⟩, hssl, hraft⟩
    have hload : doc.load first =
        some (.ok { doc.applyDefaults with localNodeId := earlier.localNodeId }) :=
      Config.resolveAndValidate_eq_ok_iff.mpr
        ⟨⟨earlier, hearlier, hnames.congr rfl rfl rfl, rfl⟩, hssl, hraft⟩
    rw [hload]
    exact (hlook _ _ _).mpr ⟨⟨pool, hpool, hnames', hcfg⟩, hssl, hraft⟩

end PgAgent
