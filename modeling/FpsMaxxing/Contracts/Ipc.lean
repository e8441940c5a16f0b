import FpsMaxxing.Contracts.Request

/-! What the two sides of the broker's socket say to each other. -/

namespace FpsMaxxing

open Serde

inductive BrokerOp
  | discover
  | runLifecycle
  deriving DecidableEq

structure BrokerRequest where
  op : BrokerOp
  owner : Option String
  change : Option ChangeRequest
  deriving DecidableEq

structure LifecycleReport where
  providerId : String
  preview : String
  verified : Bool
  rolledBack : Bool
  deriving DecidableEq

inductive BrokerErrorKind
  | unauthenticated
  | malformed
  | unknownCapability
  | policyDenied
  | ownerConflict
  | lifecycleFailed
  | internal
  deriving DecidableEq

structure BrokerErrorBody where
  kind : BrokerErrorKind
  message : String
  deriving DecidableEq

inductive BrokerResponse
  | capabilities (manifest : ProviderManifest)
  | lifecycle (report : LifecycleReport)
  | error (body : BrokerErrorBody)

def BrokerOp.name : BrokerOp → String
  | discover => "discover"
  | runLifecycle => "run-lifecycle"

def BrokerErrorKind.name : BrokerErrorKind → String
  | unauthenticated => "unauthenticated"
  | malformed => "malformed"
  | unknownCapability => "unknown-capability"
  | policyDenied => "policy-denied"
  | ownerConflict => "owner-conflict"
  | lifecycleFailed => "lifecycle-failed"
  | internal => "internal"

instance : Serde BrokerOp where
  toValue op := .string op.name
  fromValue := unitVariant fun name =>
    [BrokerOp.discover, .runLifecycle].find? fun op => op.name = name

/-- A field with `skip_serializing_if = "Option::is_none"`. -/
def unlessNone {α : Type} [Serde α] (name : String) (field : Option α) : List (String × Value) :=
  (field.map fun a => (name, toValue a)).toList

/-- As `structFields`, where the fields after the first `count` have a default: an array may end
before any of them. -/
def structFieldsOr (count : ℕ) (names : List String) : Value → Option (List (Option Value))
  | .array items =>
    if count ≤ items.length ∧ items.length ≤ names.length then
      some (items.map some ++ List.replicate (names.length - items.length) none)
    else none
  | v => structFields names v

instance : Serde BrokerRequest where
  toValue request := .object (unlessNone "change" request.change ++
    ("op", toValue request.op) :: unlessNone "owner" request.owner)
  fromValue v := do
    match ← structFieldsOr 1 ["op", "owner", "change"] v with
    | [op, owner, change] => return ⟨← required op, ← optional owner, ← optional change⟩
    | _ => none

instance : Serde LifecycleReport where
  toValue report := .object
    [("preview", toValue report.preview), ("provider_id", toValue report.providerId),
      ("rolled_back", toValue report.rolledBack), ("verified", toValue report.verified)]
  fromValue v := do
    match ← structFields ["provider_id", "preview", "verified", "rolled_back"] v with
    | [providerId, preview, verified, rolledBack] =>
      return ⟨← required providerId, ← required preview, ← required verified,
        ← required rolledBack⟩
    | _ => none

/-- What the visitor of an internally tagged enum sets aside: the tag, and the rest of the map or of
the sequence that begins with it. -/
def taggedContent (tag : String) : Value → Option (Value × Value)
  | .object fields => do
    let name ← fields.lookup tag
    return (name, .object (fields.filter fun field => field.1 ≠ tag))
  | .array (name :: rest) => some (name, .array rest)
  | _ => none

/-- A unit variant in content that was set aside: there an empty map counts as null. -/
def contentVariant {α : Type} (name : String → Option α) : Value → Option α
  | .object [(key, .object [])] => name key
  | v => unitVariant name v

def RiskClass.named (name : String) : Option RiskClass :=
  [readOnly, reversible, approvalRequired, denied].find? fun risk => risk.name = name

def Persistence.named (name : String) : Option Persistence :=
  [none, leased, persistent, rebootRequired].find? fun persistence => persistence.name = name

def BrokerErrorKind.named (name : String) : Option BrokerErrorKind :=
  [unauthenticated, malformed, unknownCapability, policyDenied, ownerConflict, lifecycleFailed,
    internal].find? fun kind => kind.name = name

def CapabilityDescriptor.ofContent (v : Value) : Option CapabilityDescriptor := do
  match ← structFields ["id", "description", "risk", "persistence", "input_schema"] v with
  | [id, description, risk, persistence, inputSchema] =>
    return ⟨← required id, ← required description, ← risk.bind (contentVariant RiskClass.named),
      ← persistence.bind (contentVariant Persistence.named), ← required inputSchema⟩
  | _ => none

def ProviderManifest.ofContent (v : Value) : Option ProviderManifest := do
  match ← structFields ["id", "protocol_version", "targets", "capabilities"] v with
  | [id, protocolVersion, targets, some (.array capabilities)] =>
    return ⟨← required id, ← required protocolVersion, ← required targets,
      ← capabilities.mapM CapabilityDescriptor.ofContent⟩
  | _ => none

def BrokerErrorBody.ofContent (v : Value) : Option BrokerErrorBody := do
  match ← structFields ["kind", "message"] v with
  | [kind, message] =>
    return ⟨← kind.bind (contentVariant BrokerErrorKind.named), ← required message⟩
  | _ => none

def BrokerResponse.payload {α : Type} (name : String) (ofContent : Value → Option α)
    (content : Value) : Option α := do
  match ← structFields [name] content with
  | [field] => field.bind ofContent
  | _ => none

instance : Serde BrokerResponse where
  toValue
    | .capabilities manifest =>
      .object [("capabilities", toValue manifest), ("outcome", .string "capabilities")]
    | .lifecycle report => .object [("lifecycle", toValue report), ("outcome", .string "lifecycle")]
    | .error body => .object
      [("error", .object [("kind", .string body.kind.name), ("message", toValue body.message)]),
        ("outcome", .string "error")]
  fromValue v := do
    let (tag, content) ← taggedContent "outcome" v
    match ← tag.asStr with
    | "capabilities" =>
      .capabilities <$> BrokerResponse.payload "capabilities" ProviderManifest.ofContent content
    -- a report has no enum in it, so that setting it aside makes no difference
    | "lifecycle" => .lifecycle <$> BrokerResponse.payload "lifecycle" fromValue content
    | "error" => .error <$> BrokerResponse.payload "error" BrokerErrorBody.ofContent content
    | _ => none

def BrokerResponse.refused (kind : BrokerErrorKind) (message : String) : BrokerResponse :=
  .error ⟨kind, message⟩

end FpsMaxxing
