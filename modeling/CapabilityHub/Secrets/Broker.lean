import CapabilityHub.Data.Dict
import CapabilityHub.Data.Runs
import CapabilityHub.Database.Transaction
import CapabilityHub.Errors

/-! # The scoped secret broker

`ScopedSecretBroker`. The leases change under a lock: an issue, an admission and a revocation are
one step each. What an admitted `consume` does after it left the lock, to resolve the alias and to
call the trusted consumer, is a step each as well, and a consumer that calls the broker again does
so between the start and the end of its call.
-/

namespace CapabilityHub.Secrets

structure SecretScope where
  tenant : String
  principal : String
  session : String
  task : String
  provider : String
  operation : String
  policyRevision : String
  named : ∀ binding ∈ [tenant, principal, session, task, provider, operation, policyRevision],
    binding ≠ ""
  deriving DecidableEq

/-- `_Lease`. -/
structure Lease where
  aliasName : String
  scope : SecretScope
  expiresAt : Int
  usesRemaining : Int
  deriving DecidableEq

/-- `SecretBrokerError`. -/
def secretBrokerError (code : String) : Raised :=
  .hub {
    code := code
    category := .policy
    safeMessage := "Secret handle is unavailable for this operation." }

def isWordStart (character : Char) : Bool :=
  ('A' ≤ character && character ≤ 'Z') || ('a' ≤ character && character ≤ 'z') || character = '_'

/-- `_ALIAS.fullmatch`. -/
def IsAlias (aliasName : String) : Prop :=
  match aliasName.toList with
  | [] => False
  | first :: rest => isWordStart first ∧ rest.length ≤ 127 ∧
      rest.all fun character => isWordStart character || ('0' ≤ character && character ≤ '9')

instance {aliasName : String} : Decidable (IsAlias aliasName) := by
  unfold IsAlias
  split <;> infer_instance

def maxTtlSeconds : Int := 3600

def maxUses : Int := 32

/-- The leases of a broker, by token. -/
abbrev Leases : Type := Dict String Lease

open Transaction

/-- `issue`, with the token that is drawn; `trusted` are the providers with a consumer. -/
def issue (trusted : List String) (aliasName : String) (scope : SecretScope) (ttlSeconds uses : Int)
    (timestamp : Int) (token : String) : Transaction Leases Raised Unit := do
  query fun _ => raiseIf (¬IsAlias aliasName) .valueError
  query fun _ => raiseIf (scope.provider ∉ trusted) (secretBrokerError "untrusted_secret_consumer")
  query fun _ => raiseIf (¬(1 ≤ ttlSeconds ∧ ttlSeconds ≤ maxTtlSeconds)) .valueError
  query fun _ => raiseIf (¬(1 ≤ uses ∧ uses ≤ maxUses)) .valueError
  write fun leases => leases.set token ⟨aliasName, scope, timestamp + ttlSeconds, uses⟩

/-- `_admit`: the alias and the uses that remain. -/
def admitUse (trusted : List String) (token : String) (scope : SecretScope) (timestamp : Int) :
    Transaction Leases Raised (String × Int) := fun leases =>
  match leases.get? token with
  | none => .error (secretBrokerError "secret_handle_consumed") leases
  | some lease =>
      if lease.expiresAt ≤ timestamp then
        .error (secretBrokerError "secret_handle_expired") (leases.erase token)
      else if lease.scope ≠ scope then .error (secretBrokerError "secret_scope_mismatch") leases
      else if scope.provider ∉ trusted then
        .error (secretBrokerError "untrusted_secret_consumer") leases
      else
        let remaining := lease.usesRemaining - 1
        .ok (lease.aliasName, remaining)
          (if remaining = 0 then leases.erase token
          else leases.set token { lease with usesRemaining := remaining })

/-- Where an admitted `consume` is. -/
inductive Stage where
  | admitted
  /-- The alias was resolved to a value. -/
  | resolved (value : String)
  /-- `secret_alias_unavailable` -/
  | unavailable
  /-- The trusted consumer is running. -/
  | delivering
  | returned
  /-- `trusted_secret_consumer_failed` -/
  | failed
  deriving DecidableEq

/-- The trusted consumer was called. -/
def Stage.Delivered : Stage → Prop
  | delivering | returned | failed => True
  | admitted | resolved _ | unavailable => False

instance : DecidablePred Stage.Delivered
  | .delivering | .returned | .failed => .isTrue trivial
  | .admitted | .resolved _ | .unavailable => .isFalse id

/-- An admitted call of `consume`. -/
structure Consumption where
  token : String
  scope : SecretScope
  timestamp : Int
  aliasName : String
  remaining : Int
  stage : Stage := .admitted
  deriving DecidableEq

namespace Consumption

/-- `value = self._environment(alias)`; `none` where it raises or has none. -/
def resolve (value : Option String) (consumption : Consumption) : Consumption :=
  match consumption.stage with
  | .admitted => { consumption with
      stage := match value with
        | some text => if text = "" then .unavailable else .resolved text
        | none => .unavailable }
  | _ => consumption

/-- The consumer is called. -/
def deliver (consumption : Consumption) : Consumption :=
  match consumption.stage with
  | .resolved _ => { consumption with stage := .delivering }
  | _ => consumption

/-- The consumer returns or raises. -/
def finish (raises : Bool) (consumption : Consumption) : Consumption :=
  match consumption.stage with
  | .delivering => { consumption with stage := if raises then .failed else .returned }
  | _ => consumption

end Consumption

/-- A handle that was issued, as long as anything is. -/
structure Issued where
  token : String
  scope : SecretScope
  expiresAt : Int
  uses : Int
  deriving DecidableEq

/-- A broker, the calls of `consume` that it admitted, and its history. -/
structure Broker where
  leases : Leases := ∅
  consumptions : List Consumption := []
  issued : List Issued := []
  /-- The issued handles that were revoked. -/
  revoked : List String := []
  /-- The handles that a `consume` found expired. -/
  lapsed : List String := []

inductive Action where
  | issue (aliasName : String) (scope : SecretScope) (ttlSeconds uses timestamp : Int) (token : String)
  | consume (token : String) (scope : SecretScope) (timestamp : Int)
  | resolve (index : Nat) (value : Option String)
  | deliver (index : Nat)
  | finish (index : Nat) (raises : Bool)
  | revoke (token : String)

namespace Broker

variable (trusted : List String) (broker : Broker)

/-- The call is admitted. -/
def Admits (token : String) (scope : SecretScope) (timestamp : Int) : Prop :=
  ∃ admitted leases, admitUse trusted token scope timestamp broker.leases = .ok admitted leases

def IsIssued (token : String) : Prop := token ∈ broker.issued.map Issued.token

instance {token : String} : Decidable (broker.IsIssued token) :=
  inferInstanceAs (Decidable (token ∈ broker.issued.map Issued.token))

def step : Action → Broker
  | .issue aliasName scope ttlSeconds uses timestamp token =>
      match Secrets.issue trusted aliasName scope ttlSeconds uses timestamp token broker.leases with
      | .ok () leases => { broker with
          leases := leases
          issued := ⟨token, scope, timestamp + ttlSeconds, uses⟩ :: broker.issued }
      | .error _ leases => { broker with leases := leases }
  | .consume token scope timestamp =>
      match admitUse trusted token scope timestamp broker.leases with
      | .ok (aliasName, remaining) leases => { broker with
          leases := leases
          consumptions := broker.consumptions ++
            [{ token := token, scope := scope, timestamp := timestamp, aliasName := aliasName,
               remaining := remaining }] }
      | .error error leases => { broker with
          leases := leases
          lapsed := if error = secretBrokerError "secret_handle_expired" then token :: broker.lapsed
            else broker.lapsed }
  | .resolve index value =>
      { broker with consumptions := broker.consumptions.modify index (Consumption.resolve value) }
  | .deliver index =>
      { broker with consumptions := broker.consumptions.modify index Consumption.deliver }
  | .finish index raises =>
      { broker with consumptions := broker.consumptions.modify index (Consumption.finish raises) }
  | .revoke token =>
      { broker with
        leases := broker.leases.erase token
        revoked := if broker.IsIssued token then token :: broker.revoked else broker.revoked }

/-- `active_count`. -/
def activeCount : Nat := broker.leases.size

/-- How often a `consume` of the handle was admitted. -/
def admissions (token : String) : Nat := broker.consumptions.countP (·.token = token)

/-- How often the trusted consumer was called for the handle. -/
def deliveries (token : String) : Nat :=
  broker.consumptions.countP fun consumption =>
    consumption.token = token ∧ consumption.stage.Delivered

/-- The handle has uses left, and was neither revoked nor found expired. -/
def Active (issued : Issued) : Prop :=
  (broker.admissions issued.token : Int) < issued.uses ∧ issued.token ∉ broker.revoked ∧
    issued.token ∉ broker.lapsed

instance : DecidablePred broker.Active := fun issued =>
  inferInstanceAs (Decidable (_ ∧ issued.token ∉ broker.revoked ∧ issued.token ∉ broker.lapsed))

end Broker

end CapabilityHub.Secrets
