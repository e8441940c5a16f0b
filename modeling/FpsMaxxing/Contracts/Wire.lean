import FpsMaxxing.Contracts.Ipc

/-! The broker's messages on the wire: what is encoded is decoded to itself. -/

namespace FpsMaxxing

open Serde

lemma RiskClass.named_name (risk : RiskClass) : RiskClass.named risk.name = some risk := by
  cases risk <;> decide

lemma Persistence.named_name (persistence : Persistence) :
    Persistence.named persistence.name = some persistence := by
  cases persistence <;> decide

lemma BrokerErrorKind.named_name (kind : BrokerErrorKind) :
    BrokerErrorKind.named kind.name = some kind := by
  cases kind <;> decide

lemma contentVariant_string {α : Type} (named : String → Option α) (name : String) :
    contentVariant named (.string name) = named name := rfl

instance : LawfulSerde BrokerOp where
  fromValue_toValue op := by cases op <;> decide

lemma roundTrips_strings (strings : List String) : RoundTrips strings :=
  .list fun s _ => roundTrips s

lemma CapabilityDescriptor.ofContent_toValue (capability : CapabilityDescriptor) :
    ofContent (toValue capability) = some capability := by
  have hs : structFields ["id", "description", "risk", "persistence", "input_schema"]
      (toValue capability) = some [some (toValue capability.id),
        some (toValue capability.description), some (.string capability.risk.name),
        some (.string capability.persistence.name), some capability.inputSchema] := rfl
  have hi := (roundTrips capability.id).required
  have hd := (roundTrips capability.description).required
  rw [ofContent, hs]
  simp only [Option.bind_eq_bind, Option.bind_some, hi, hd, contentVariant_string,
    RiskClass.named_name, Persistence.named_name]
  rfl

lemma mapM_map_eq_some {α β : Type} {f : α → β} {g : β → Option α} (h : ∀ a, g (f a) = some a)
    (as : List α) : (as.map f).mapM g = some as := by
  induction as with
  | nil => rfl
  | cons a as ih => simp [h, ih]

lemma ProviderManifest.ofContent_toValue (manifest : ProviderManifest) :
    ofContent (toValue manifest) = some manifest := by
  have hs : structFields ["id", "protocol_version", "targets", "capabilities"]
      (toValue manifest) = some [some (toValue manifest.id),
        some (toValue manifest.protocolVersion), some (toValue manifest.targets),
        some (.array (manifest.capabilities.map toValue))] := rfl
  have hi := (roundTrips manifest.id).required
  have hp := (roundTrips manifest.protocolVersion).required
  have ht := (roundTrips_strings manifest.targets).required
  have hc := mapM_map_eq_some CapabilityDescriptor.ofContent_toValue manifest.capabilities
  rw [ofContent, hs]
  simp only [Option.bind_eq_bind, Option.bind_some, hi, hp, ht, hc]
  rfl

instance : LawfulSerde LifecycleReport where
  fromValue_toValue _ := rfl

lemma BrokerErrorBody.ofContent_toValue (body : BrokerErrorBody) : ofContent (.object
    [("kind", .string body.kind.name), ("message", toValue body.message)]) = some body := by
  have hs : structFields ["kind", "message"] (.object
      [("kind", .string body.kind.name), ("message", toValue body.message)]) =
      some [some (.string body.kind.name), some (toValue body.message)] := rfl
  have hm := (roundTrips body.message).required
  rw [ofContent, hs]
  simp only [Option.bind_eq_bind, Option.bind_some, contentVariant_string,
    BrokerErrorKind.named_name, hm]
  rfl

instance : LawfulSerde BrokerResponse where
  fromValue_toValue response := by
    cases response with
    | capabilities manifest =>
      exact congrArg (Option.map BrokerResponse.capabilities) (ProviderManifest.ofContent_toValue manifest)
    | lifecycle report => exact congrArg (Option.map BrokerResponse.lifecycle) (fromValue_toValue report)
    | error body => exact congrArg (Option.map BrokerResponse.error) (BrokerErrorBody.ofContent_toValue body)

def BrokerRequest.Named (request : BrokerRequest) : Prop :=
  ∀ change, request.change = some change → change.parameters.isObject = true

lemma BrokerRequest.Named.roundTrips {request : BrokerRequest} (h : request.Named) :
    RoundTrips request := by
  have ho := (FpsMaxxing.roundTrips request.op).required
  have hw : optional (request.owner.map toValue) = some request.owner := by
    cases request.owner <;> rfl
  have hc : optional (request.change.map toValue) = some request.change := by
    cases hr : request.change with
    | none => rfl
    | some change =>
      have ht := (request_fromValue_toValue change).mpr (h change hr)
      exact congrArg (Option.map some) ht
  have hs : structFieldsOr 1 ["op", "owner", "change"] (toValue request) =
      some [some (toValue request.op), request.owner.map toValue, request.change.map toValue] := by
    obtain ⟨op, owner, change⟩ := request
    cases owner <;> cases change <;> rfl
  refine Option.bind_eq_some_iff.mpr ⟨_, hs, ?_⟩
  simp only [ho, hw, hc]
  rfl

lemma RoundTrips.eq_of_toValue_eq {α : Type} [Serde α] {a b : α} (ha : RoundTrips a)
    (hb : RoundTrips b) (h : toValue a = toValue b) : a = b := by
  have hv : fromValue (toValue b) = some a := h ▸ ha
  exact Option.some.inj (hv.symm.trans hb)

theorem wire_round_trip :
    (∀ request : BrokerRequest, request.Named → fromValue (toValue request) = some request) ∧
    (∀ response : BrokerResponse, fromValue (toValue response) = some response) ∧
    (∀ a b : BrokerRequest, a.Named → b.Named → toValue a = toValue b → a = b) ∧
    ∀ a b : BrokerResponse, toValue a = toValue b → a = b := by
  refine ⟨fun request h => h.roundTrips, fromValue_toValue, fun a b ha hb h => ?_, fun a b h => ?_⟩
  · exact ha.roundTrips.eq_of_toValue_eq hb.roundTrips h
  · exact (roundTrips a).eq_of_toValue_eq (roundTrips b) h

theorem wire_round_trip_lifecycle : fromValue (toValue (⟨.runLifecycle, some "owner-a",
      some ⟨"mock.value", .object [("value", toValue (42 : UInt64))], ⟨30, by decide⟩⟩⟩ :
      BrokerRequest)) =
    some (⟨.runLifecycle, some "owner-a",
      some ⟨"mock.value", .object [("value", toValue (42 : UInt64))], ⟨30, by decide⟩⟩⟩ :
      BrokerRequest) := by
  refine wire_round_trip.1 _ fun change h => ?_
  cases h
  rfl

end FpsMaxxing
