import PgAgent.Library.Conninfo
import PgAgent.Library.Decimal
import PgAgent.Standby.Options

/-!
# The connection string of a standby

`PgReplicationConfig` of `pgstandby.rs`: the texts of a request are put into a connection string as
they are, and `pg_basebackup`, `pg_rewind` and PostgreSQL itself have libpq cut it again. Nothing is
quoted; what keeps the two apart is the check of the options.

* `word_of_allowedPrimaryHost`, `word_of_allowedReplUser`, `word_of_allowedSlotName` --- the texts
  that are admitted are words of libpq;
* `toList_conninfo` --- the string is a rendering of pairs;
* `conninfo_readBack` --- libpq finds the pairs that were put in, and no other.
-/

namespace PgAgent

open Libpq

def allowedSslmodes : List String :=
  ["disable", "allow", "prefer", "require", "verify-ca", "verify-full"]

def defaultReplSslmode : String := "verify-full"

/-- `InvalidSslMode`. -/
inductive InvalidSslMode
  | mk
  deriving DecidableEq, Repr

/-- `PgReplicationConfig`. -/
structure PgReplicationConfig where
  sslmode : Option String
  deriving DecidableEq, Repr

namespace PgReplicationConfig

def validate (cfg : PgReplicationConfig) : Except InvalidSslMode Unit :=
  match cfg.sslmode with
  | some mode => if !allowedSslmodes.contains mode then .error .mk else .ok ()
  | none => .ok ()

def effectiveSslmode (cfg : PgReplicationConfig) : String := cfg.sslmode.getD defaultReplSslmode

def conninfo (cfg : PgReplicationConfig) (host : String) (port : UInt16) (user dbname : String) :
    String :=
  let s := "host=" ++ host ++ " port=" ++ toString port.toNat ++ " user=" ++ user
  let s := if dbname = "" then s else s ++ " dbname=" ++ dbname
  s ++ " sslmode=" ++ cfg.effectiveSslmode

end PgReplicationConfig

/-- The value of `primary_conninfo` in `render_recovery_conf`. -/
def withApplicationName (conninfo slotName : String) : String :=
  conninfo ++ " application_name=" ++ slotName

/-! ## Words -/

theorem plain_of_isAlphanum {c : Char} (h : c.isAlphanum = true) : Plain c := by
  have hrange : 48 ≤ c.toNat ∧ c.toNat ≤ 57 ∨ 65 ≤ c.toNat ∧ c.toNat ≤ 90 ∨
      97 ≤ c.toNat ∧ c.toNat ≤ 122 := by
    simp only [Char.isAlphanum, Char.isAlpha, Char.isUpper, Char.isLower, Char.isDigit,
      Bool.or_eq_true, Bool.and_eq_true, decide_eq_true_eq, ge_iff_le, UInt32.le_iff_toNat_le] at h
    have hval : c.toNat = c.val.toNat := rfl
    rw [hval]
    rcases h with (h | h) | h
    · exact Or.inr (Or.inl h)
    · exact Or.inr (Or.inr h)
    · exact Or.inl h
  refine ⟨?_, ?_, ?_, ?_⟩
  · simp only [isSpace, Bool.or_eq_false_iff, Bool.and_eq_false_iff, decide_eq_false_iff_not,
      beq_eq_false_iff_ne]
    omega
  all_goals
    rintro rfl
    revert hrange
    decide

theorem word_of_allowedPrimaryHost {s : String} (h : allowedPrimaryHost s = true) :
    Word s.toList := by
  obtain ⟨hne, hall⟩ := Bool.and_eq_true_iff.mp h
  refine ⟨by simpa using hne, fun c hc => ?_⟩
  have hc := List.all_eq_true.mp hall c hc
  simp only [Bool.or_eq_true, beq_iff_eq] at hc
  rcases hc with (((hc | rfl) | rfl) | rfl) | rfl
  · exact plain_of_isAlphanum hc
  all_goals exact ⟨by decide, by decide, by decide, by decide⟩

theorem word_of_allowedSlotName {s : String} (h : allowedSlotName s = true) : Word s.toList := by
  obtain ⟨hne, hall⟩ := Bool.and_eq_true_iff.mp h
  refine ⟨by simpa using hne, fun c hc => ?_⟩
  have hc := List.all_eq_true.mp hall c hc
  simp only [Bool.or_eq_true, beq_iff_eq] at hc
  rcases hc with ((hc | rfl) | rfl) | rfl
  · exact plain_of_isAlphanum hc
  all_goals exact ⟨by decide, by decide, by decide, by decide⟩

/-- The alphabet of roles is the one of slots. -/
theorem word_of_allowedReplUser {s : String} (h : allowedReplUser s = true) : Word s.toList :=
  word_of_allowedSlotName h

theorem word_toString (n : ℕ) : Word (toString n).toList := by
  constructor
  · show (Nat.repr n).toList ≠ []
    rw [Nat.toList_repr]
    exact Nat.toDigits_ne_nil
  · intro c hc
    refine plain_of_isAlphanum ?_
    simp only [Char.isAlphanum, Decimal.isDigit_of_mem_repr hc, Bool.or_true]

theorem word_effectiveSslmode {cfg : PgReplicationConfig} (h : cfg.validate = .ok ()) :
    Word cfg.effectiveSslmode.toList := by
  have hmode : cfg.effectiveSslmode ∈ allowedSslmodes := by
    unfold PgReplicationConfig.validate at h
    unfold PgReplicationConfig.effectiveSslmode
    cases hsome : cfg.sslmode with
    | none => exact (by decide : defaultReplSslmode ∈ allowedSslmodes)
    | some mode =>
      rw [hsome] at h
      dsimp only at h
      split at h
      · cases h
      · rename_i hcontains
        simpa using hcontains
  have hwords : ∀ mode ∈ allowedSslmodes, allowedSlotName mode = true := by decide
  exact word_of_allowedSlotName (hwords _ hmode)

/-! ## Reading back -/

/-- What has been put into a connection string. -/
def conninfoPairs (host : String) (port : UInt16) (user dbname sslmode : String) : Pairs :=
  [("host".toList, host.toList), ("port".toList, (toString port.toNat).toList),
    ("user".toList, user.toList)] ++
  (if dbname = "" then [] else [("dbname".toList, dbname.toList)]) ++
  [("sslmode".toList, sslmode.toList)]

section ReadBack

variable {cfg : PgReplicationConfig} {host user dbname slotName : String} {port : UInt16}

theorem toList_conninfo (cfg : PgReplicationConfig) (host : String) (port : UInt16)
    (user dbname : String) :
    (cfg.conninfo host port user dbname).toList =
      render (conninfoPairs host port user dbname cfg.effectiveSslmode) := by
  unfold PgReplicationConfig.conninfo conninfoPairs
  dsimp only
  by_cases hdb : dbname = ""
  · rw [if_pos hdb, if_pos hdb]
    simp [render]
  · rw [if_neg hdb, if_neg hdb]
    simp [render]

theorem toList_withApplicationName (cfg : PgReplicationConfig) (host : String) (port : UInt16)
    (user dbname slotName : String) :
    (withApplicationName (cfg.conninfo host port user dbname) slotName).toList =
      render (conninfoPairs host port user dbname cfg.effectiveSslmode ++
        [("application_name".toList, slotName.toList)]) := by
  rw [render_concat (by simp [conninfoPairs]), ← toList_conninfo]
  simp [withApplicationName]

/-- The pairs are words. -/
theorem word_of_mem_conninfoPairs (hcfg : cfg.validate = .ok ())
    (hconn : validateConnection host port user = .ok ())
    (hdb : dbname = "" ∨ dbname = "postgres") :
    ∀ p ∈ conninfoPairs host port user dbname cfg.effectiveSslmode, Word p.1 ∧ Word p.2 := by
  obtain ⟨hhost, -, huser⟩ := validateConnection_eq_ok_iff.mp hconn
  have hkey : ∀ key : String, allowedSlotName key = true → Word key.toList :=
    fun _ => word_of_allowedSlotName
  intro p hp
  simp only [conninfoPairs, List.mem_append, List.mem_cons, List.not_mem_nil, or_false] at hp
  rcases hp with ((rfl | rfl | rfl) | hp) | rfl
  · exact ⟨hkey "host" (by decide), word_of_allowedPrimaryHost hhost⟩
  · exact ⟨hkey "port" (by decide), word_toString _⟩
  · exact ⟨hkey "user" (by decide), word_of_allowedReplUser huser⟩
  · rcases hdb with rfl | rfl
    · cases hp
    · obtain rfl : p = ("dbname".toList, "postgres".toList) := by simpa using hp
      exact ⟨hkey "dbname" (by decide), hkey "postgres" (by decide)⟩
  · exact ⟨hkey "sslmode" (by decide), word_effectiveSslmode hcfg⟩

theorem readConninfo_conninfo (hcfg : cfg.validate = .ok ())
    (hconn : validateConnection host port user = .ok ())
    (hdb : dbname = "" ∨ dbname = "postgres") :
    readConninfo (cfg.conninfo host port user dbname).toList =
      some (conninfoPairs host port user dbname cfg.effectiveSslmode) := by
  rw [toList_conninfo]
  exact readConninfo_render (word_of_mem_conninfoPairs hcfg hconn hdb)

theorem readConninfo_withApplicationName (hcfg : cfg.validate = .ok ())
    (hconn : validateConnection host port user = .ok ())
    (hdb : dbname = "" ∨ dbname = "postgres") (hslot : allowedSlotName slotName = true) :
    readConninfo (withApplicationName (cfg.conninfo host port user dbname) slotName).toList =
      some (conninfoPairs host port user dbname cfg.effectiveSslmode ++
        [("application_name".toList, slotName.toList)]) := by
  rw [toList_withApplicationName]
  refine readConninfo_render fun p hp => ?_
  rcases List.mem_append.mp hp with hp | hp
  · exact word_of_mem_conninfoPairs hcfg hconn hdb p hp
  · obtain rfl := List.mem_singleton.mp hp
    exact ⟨word_of_allowedSlotName (by decide : allowedSlotName "application_name" = true),
      word_of_allowedSlotName hslot⟩

end ReadBack

/-- **libpq finds in a connection string what has been put into it**: for the options that are
admitted the pairs are the given ones, each once and in order, with and without the
`application_name`. -/
theorem conninfo_readBack {cfg : PgReplicationConfig} (hcfg : cfg.validate = .ok ())
    {dbname : String} (hdb : dbname = "" ∨ dbname = "postgres") :
    (∀ opts : BasebackupOpts, opts.validate = .ok () →
      readConninfo
          (cfg.conninfo opts.primaryHost opts.primaryPort opts.replUser dbname).toList =
        some (conninfoPairs opts.primaryHost opts.primaryPort opts.replUser dbname
          cfg.effectiveSslmode) ∧
      readConninfo
          (withApplicationName
            (cfg.conninfo opts.primaryHost opts.primaryPort opts.replUser dbname)
            opts.slotName).toList =
        some (conninfoPairs opts.primaryHost opts.primaryPort opts.replUser dbname
          cfg.effectiveSslmode ++ [("application_name".toList, opts.slotName.toList)])) ∧
    ∀ opts : RewindOpts, opts.validate = .ok () →
      readConninfo
          (cfg.conninfo opts.primaryHost opts.primaryPort opts.replUser dbname).toList =
        some (conninfoPairs opts.primaryHost opts.primaryPort opts.replUser dbname
          cfg.effectiveSslmode) ∧
      ∀ slotName, allowedSlotName slotName = true →
        readConninfo
            (withApplicationName
              (cfg.conninfo opts.primaryHost opts.primaryPort opts.replUser dbname)
              slotName).toList =
          some (conninfoPairs opts.primaryHost opts.primaryPort opts.replUser dbname
            cfg.effectiveSslmode ++ [("application_name".toList, slotName.toList)]) := by
  refine ⟨fun opts hopts => ?_, fun opts hopts => ?_⟩
  · obtain ⟨hconn, hslot⟩ := BasebackupOpts.validate_eq_ok_iff.mp hopts
    exact ⟨readConninfo_conninfo hcfg hconn hdb,
      readConninfo_withApplicationName hcfg hconn hdb hslot⟩
  · exact ⟨readConninfo_conninfo hcfg hopts hdb,
      fun _ hslot => readConninfo_withApplicationName hcfg hopts hdb hslot⟩

/-- A base backup from `db0`, with the default `sslmode`. -/
theorem conninfo_readBack_db0 :
    (⟨"db0", 5432, "repl", "node1"⟩ : BasebackupOpts).validate = .ok () ∧
      readConninfo "host=db0 port=5432 user=repl sslmode=verify-full".toList =
        some (conninfoPairs "db0" 5432 "repl" "" "verify-full") := by
  have hopts : (⟨"db0", 5432, "repl", "node1"⟩ : BasebackupOpts).validate = .ok () := by decide
  have hread :=
    ((@conninfo_readBack ⟨none⟩ (by decide) "" (Or.inl rfl)).1
      ⟨"db0", 5432, "repl", "node1"⟩ hopts).1
  have htext : (⟨none⟩ : PgReplicationConfig).conninfo "db0" 5432 "repl" "" =
      "host=db0 port=5432 user=repl sslmode=verify-full" := by decide
  rw [htext] at hread
  exact ⟨hopts, hread⟩

end PgAgent
