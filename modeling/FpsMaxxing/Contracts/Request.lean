import FpsMaxxing.Contracts.Value

namespace FpsMaxxing

open Serde

inductive RiskClass
  | readOnly
  | reversible
  | approvalRequired
  | denied
  deriving DecidableEq

inductive Persistence
  | none
  | leased
  | persistent
  | rebootRequired
  deriving DecidableEq

structure CapabilityDescriptor where
  id : String
  description : String
  risk : RiskClass
  persistence : Persistence
  inputSchema : Value

structure ProviderManifest where
  id : String
  protocolVersion : NonZeroU32
  targets : List String
  capabilities : List CapabilityDescriptor

def maxLeaseSeconds : UInt64 := 300

structure ChangeRequest where
  capabilityId : String
  parameters : Value
  leaseSeconds : NonZeroU64
  deriving DecidableEq

structure StateSnapshot where
  providerId : String
  state : Value
  deriving DecidableEq

def objectParameters (field : Option Value) : Option Value := do
  let parameters ← field
  if parameters.isObject then some parameters else none

instance : Serde ChangeRequest where
  toValue request := .object
    [("capability_id", toValue request.capabilityId),
      ("lease_seconds", toValue request.leaseSeconds),
      ("parameters", request.parameters)]
  fromValue v := do
    match ← structFields ["capability_id", "parameters", "lease_seconds"] v with
    | [capabilityId, parameters, leaseSeconds] =>
      return ⟨← required capabilityId, ← objectParameters parameters, ← required leaseSeconds⟩
    | _ => none

instance : Serde StateSnapshot where
  toValue snapshot := .object
    [("provider_id", toValue snapshot.providerId), ("state", snapshot.state)]
  fromValue v := do
    match ← structFields ["provider_id", "state"] v with
    | [providerId, state] => return ⟨← required providerId, ← required state⟩
    | _ => none

def RiskClass.name : RiskClass → String
  | readOnly => "read-only"
  | reversible => "reversible"
  | approvalRequired => "approval-required"
  | denied => "denied"

def Persistence.name : Persistence → String
  | none => "none"
  | leased => "leased"
  | persistent => "persistent"
  | rebootRequired => "reboot-required"

instance : Serde RiskClass where
  toValue risk := .string risk.name
  fromValue := unitVariant fun name =>
    [RiskClass.readOnly, .reversible, .approvalRequired, .denied].find? fun risk => risk.name = name

instance : Serde Persistence where
  toValue persistence := .string persistence.name
  fromValue := unitVariant fun name =>
    [Persistence.none, .leased, .persistent, .rebootRequired].find? fun persistence =>
      persistence.name = name

instance : Serde CapabilityDescriptor where
  toValue capability := .object
    [("description", toValue capability.description), ("id", toValue capability.id),
      ("input_schema", capability.inputSchema), ("persistence", toValue capability.persistence),
      ("risk", toValue capability.risk)]
  fromValue v := do
    match ← structFields ["id", "description", "risk", "persistence", "input_schema"] v with
    | [id, description, risk, persistence, inputSchema] =>
      return ⟨← required id, ← required description, ← required risk, ← required persistence,
        ← required inputSchema⟩
    | _ => none

instance : Serde ProviderManifest where
  toValue manifest := .object
    [("capabilities", toValue manifest.capabilities), ("id", toValue manifest.id),
      ("protocol_version", toValue manifest.protocolVersion), ("targets", toValue manifest.targets)]
  fromValue v := do
    match ← structFields ["id", "protocol_version", "targets", "capabilities"] v with
    | [id, protocolVersion, targets, capabilities] =>
      return ⟨← required id, ← required protocolVersion, ← required targets,
        ← required capabilities⟩
    | _ => none

instance : LawfulSerde StateSnapshot where
  fromValue_toValue s := by
    simp [toValue, fromValue, structFields, required, Value.asStr, List.lookup_cons]

lemma request_fromValue_toValue (request : ChangeRequest) :
    fromValue (toValue request) = some request ↔ request.parameters.isObject = true := by
  have hl : (fromValue (toValue request.leaseSeconds) : Option NonZeroU64) =
      some request.leaseSeconds := by simp
  obtain ⟨id, parameters, lease⟩ := request
  simp [toValue, fromValue, structFields, required, objectParameters, Value.asStr, List.lookup_cons]
    at hl ⊢
  split_ifs <;> simp_all

end FpsMaxxing
