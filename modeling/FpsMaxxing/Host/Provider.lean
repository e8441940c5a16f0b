import FpsMaxxing.Contracts.Request

namespace FpsMaxxing

open Serde

inductive ProviderError
  | unsupportedCapability (id : String)
  | invalidRequest (message : String)
  | unavailable (message : String)
  | rollbackFailed (message : String)
  deriving DecidableEq

def ProviderError.text : ProviderError → String
  | .unsupportedCapability id => "unsupported capability: " ++ id
  | .invalidRequest message => "invalid request: " ++ message
  | .unavailable message => "provider unavailable: " ++ message
  | .rollbackFailed message => "rollback failed: " ++ message

/-- The provider trait over a host with states `σ`: which answers each method may give and, for the
two that take `&mut self`, which state they may leave. The manifest is the one read at `open`. -/
structure Provider (σ : Type) where
  manifest : ProviderManifest
  snapshot : σ → Except ProviderError StateSnapshot → Prop
  preview : ChangeRequest → σ → Except ProviderError String → Prop
  apply : ChangeRequest → σ → Except ProviderError Unit → σ → Prop
  verify : ChangeRequest → σ → Except ProviderError Bool → Prop
  rollback : StateSnapshot → σ → Except ProviderError Unit → σ → Prop
  snapshot_answers : ∀ x, ∃ r, snapshot x r
  preview_answers : ∀ request x, ∃ r, preview request x r
  apply_answers : ∀ request x, ∃ r y, apply request x r y
  verify_answers : ∀ request x, ∃ r, verify request x r
  rollback_answers : ∀ snapshot x, ∃ r y, rollback snapshot x r y

variable {σ : Type}

/-- Rolling back to a snapshot the provider produced succeeds and re-establishes its state. -/
def Provider.Faithful (P : Provider σ) : Prop :=
  ∀ x s, P.snapshot x (.ok s) → ∀ y r z, P.rollback s y r z → r = .ok () ∧ z = x

def Provider.Restores (P : Provider σ) : Prop :=
  ∀ x s, P.snapshot x (.ok s) → ∀ y r z, P.rollback s y r z →
    r = .ok () ∧ ∀ t, P.snapshot z t → t = .ok s

structure Device (σ : Type) where
  manifest : ProviderManifest
  snapshot : σ → Except ProviderError StateSnapshot
  preview : ChangeRequest → σ → Except ProviderError String
  apply : ChangeRequest → σ → Except ProviderError Unit × σ
  verify : ChangeRequest → σ → Except ProviderError Bool
  rollback : StateSnapshot → σ → Except ProviderError Unit × σ

def Device.provider (d : Device σ) : Provider σ where
  manifest := d.manifest
  snapshot x r := r = d.snapshot x
  preview request x r := r = d.preview request x
  apply request x r y := (r, y) = d.apply request x
  verify request x r := r = d.verify request x
  rollback snapshot x r y := (r, y) = d.rollback snapshot x
  snapshot_answers _ := ⟨_, rfl⟩
  preview_answers _ _ := ⟨_, rfl⟩
  apply_answers _ _ := ⟨_, _, rfl⟩
  verify_answers _ _ := ⟨_, rfl⟩
  rollback_answers _ _ := ⟨_, _, rfl⟩

lemma Device.restores {d : Device σ} (h : d.provider.Faithful) : d.provider.Restores := by
  intro x s hs y r z hr
  obtain ⟨hok, rfl⟩ := h x s hs y r z hr
  exact ⟨hok, fun t ht => ht.trans hs.symm⟩

def requestedValue (request : ChangeRequest) : Option UInt64 :=
  request.parameters.get "value" >>= Value.asU64

def valueSchema : Value := .object
  [("properties", .object [("value", .object
      [("maximum", toValue (100 : UInt64)), ("minimum", toValue (0 : UInt64)),
        ("type", .string "integer")])]),
    ("required", .array [.string "value"]),
    ("type", .string "object")]

def mockManifest (os : String) : ProviderManifest where
  id := "mock"
  protocolVersion := ⟨1, by decide⟩
  targets := [os]
  capabilities := [{
    id := "mock.value"
    description := "Sets an in-memory value for contract testing"
    risk := .reversible
    persistence := .leased
    inputSchema := valueSchema }]

def mockProvider (os : String) : Device UInt64 where
  manifest := mockManifest os
  snapshot value := .ok ⟨"mock", .object [("value", toValue value)]⟩
  preview request current :=
    match requestedValue request with
    | some value => .ok ("set mock.value from " ++ toString current ++ " to " ++ toString value)
    | none => .error (.invalidRequest "value must be a u64")
  apply request current :=
    if request.capabilityId ≠ "mock.value" then
      (.error (.unsupportedCapability request.capabilityId), current)
    else
      match requestedValue request with
      | some value => (.ok (), value)
      | none => (.error (.invalidRequest "value must be a u64"), current)
  verify request current := .ok (decide (requestedValue request = some current))
  rollback snapshot current :=
    match snapshot.state.get "value" >>= Value.asU64 with
    | some value => (.ok (), value)
    | none => (.error (.rollbackFailed "snapshot has no value"), current)

lemma mockProvider_rollback (os : String) (value current : UInt64) :
    (mockProvider os).rollback ⟨"mock", .object [("value", toValue value)]⟩ current =
      (.ok (), value) := rfl

lemma mockProvider_faithful (os : String) : (mockProvider os).provider.Faithful := by
  rintro x s hs y r z h
  cases hs
  simpa [Device.provider, mockProvider_rollback] using h

def mockRequest (value : UInt64) : ChangeRequest :=
  ⟨"mock.value", .object [("value", toValue value)], ⟨30, by decide⟩⟩

end FpsMaxxing
