import Mathlib.Algebra.Order.Ring.Nat
import Mathlib.Tactic.NormNum

/-!
# The options of a standby

The requests that set a standby up name the host, the port and the role to connect with, and the
slot to use. All of them pass the same check, which admits few characters: the texts are put into a
connection string without quoting.

* `validateConnection_eq_ok_iff`, `BasebackupOpts.validate_eq_ok_iff` --- what the check admits.
-/

namespace PgAgent

/-- `^[A-Za-z0-9._:-]+$`. -/
def allowedPrimaryHost (s : String) : Bool :=
  s != "" && s.toList.all fun c => c.isAlphanum || c == '.' || c == '_' || c == ':' || c == '-'

/-- `^[A-Za-z0-9_.-]+$`, of the role. -/
def allowedReplUser (s : String) : Bool :=
  s != "" && s.toList.all fun c => c.isAlphanum || c == '_' || c == '.' || c == '-'

/-- `^[A-Za-z0-9_.-]+$`, of the slot. -/
def allowedSlotName (s : String) : Bool :=
  s != "" && s.toList.all fun c => c.isAlphanum || c == '_' || c == '.' || c == '-'

def validateConnection (host : String) (port : UInt16) (user : String) : Except String Unit :=
  if host = "" then .error "primary_host is required"
  else if !allowedPrimaryHost host then .error "primary_host contains invalid characters"
  else if port = 0 then .error "primary_port must be greater than zero"
  else if user = "" then .error "repl_user is required"
  else if !allowedReplUser user then .error "repl_user contains invalid characters"
  else .ok ()

/-- `WriteRecoveryConfOpts`. -/
structure WriteRecoveryConfOpts where
  primaryHost : String
  primaryPort : UInt16
  replUser : String
  slotName : String
  deriving DecidableEq, Repr

/-- `WriteRecoveryConfOpts::validate`. -/
def WriteRecoveryConfOpts.validate (opts : WriteRecoveryConfOpts) : Except String Unit :=
  (validateConnection opts.primaryHost opts.primaryPort opts.replUser).bind fun _ =>
    if opts.slotName = "" then .error "slot_name is required"
    else if !allowedSlotName opts.slotName then .error "slot_name contains invalid characters"
    else .ok ()

/-- `BasebackupOpts`. -/
structure BasebackupOpts where
  primaryHost : String
  primaryPort : UInt16
  replUser : String
  slotName : String
  deriving DecidableEq, Repr

/-- `BasebackupOpts::validate`. -/
def BasebackupOpts.validate (opts : BasebackupOpts) : Except String Unit :=
  (validateConnection opts.primaryHost opts.primaryPort opts.replUser).bind fun _ =>
    if opts.slotName = "" then .error "slot_name is required"
    else if !allowedSlotName opts.slotName then .error "slot_name contains invalid characters"
    else .ok ()

/-- `RewindOpts`. -/
structure RewindOpts where
  primaryHost : String
  primaryPort : UInt16
  replUser : String
  deriving DecidableEq, Repr

/-- `RewindOpts::validate`. -/
def RewindOpts.validate (opts : RewindOpts) : Except String Unit :=
  validateConnection opts.primaryHost opts.primaryPort opts.replUser

/-! ## What the check admits -/

theorem validateConnection_eq_ok_iff {host user : String} {port : UInt16} :
    validateConnection host port user = .ok () ↔
      allowedPrimaryHost host = true ∧ port ≠ 0 ∧ allowedReplUser user = true := by
  unfold validateConnection
  have hhost : host = "" → allowedPrimaryHost host = false := by
    rintro rfl
    rfl
  have huser : user = "" → allowedReplUser user = false := by
    rintro rfl
    rfl
  split_ifs with h1 h2 h3 h4 h5 <;> simp_all

theorem BasebackupOpts.validate_eq_ok_iff {opts : BasebackupOpts} :
    opts.validate = .ok () ↔
      validateConnection opts.primaryHost opts.primaryPort opts.replUser = .ok () ∧
        allowedSlotName opts.slotName = true := by
  unfold BasebackupOpts.validate
  have hslot : opts.slotName = "" → allowedSlotName opts.slotName = false := by
    intro h
    rw [h]
    rfl
  cases hconn : validateConnection opts.primaryHost opts.primaryPort opts.replUser with
  | error e => exact iff_of_false (by rintro ⟨⟩) (by rintro ⟨⟨⟩, -⟩)
  | ok u =>
    show (if opts.slotName = "" then _ else _) = _ ↔ _
    split_ifs with h1 h2 <;> simp_all

end PgAgent
