import FpsMaxxing.Host.Calls

/-! The broker: policy, the staged lifecycle of a temporary experiment and its journal records. -/

namespace FpsMaxxing

open Effects Serde

inductive ControlPlaneError
  | unknownCapability (id : String)
  | policyDenied (message : String)
  | provider (error : ProviderError)
  | verificationFailed
  | rollbackVerificationFailed
  | unknownTrial (id : ℤ)
  | journal (error : SqlError)
  | serialization (message : String)
  deriving DecidableEq

namespace ControlPlaneError

def kind : ControlPlaneError → String
  | unknownCapability _ => "unknown-capability"
  | policyDenied _ => "policy-denied"
  | provider _ => "provider"
  | verificationFailed => "verification-failed"
  | rollbackVerificationFailed => "rollback-verification-failed"
  | unknownTrial _ => "unknown-trial"
  | journal _ => "journal"
  | serialization _ => "serialization"

def text : ControlPlaneError → String
  | unknownCapability id => "unknown capability: " ++ id
  | policyDenied message => "policy denied request: " ++ message
  | provider error => error.text
  | verificationFailed => "verification probe failed"
  | rollbackVerificationFailed => "rollback verification failed"
  | unknownTrial id => "unknown trial: " ++ toString id
  | journal error => error.text
  | serialization message => message

end ControlPlaneError

structure StageFailure where
  stage : Stage
  error : ControlPlaneError
  suppressed : Option StageFailure

def StageFailure.suppressing (failure original : StageFailure) : StageFailure :=
  { failure with suppressed := some original }

structure LifecycleResult where
  providerId : String
  preview : String
  verified : Bool
  rolledBack : Bool
  deriving DecidableEq

def maxMockValue : UInt64 := 100

structure ControlPlane where
  manifest : ProviderManifest

def Provider.plane {σ : Type} (P : Provider σ) : ControlPlane := ⟨P.manifest⟩

namespace ControlPlane

def snapshot : ExceptT ControlPlaneError (Program Calls) StateSnapshot :=
  mapErr .provider (invoke .snapshot)

def recordTrial (payload : Value) : ExceptT ControlPlaneError (Program Calls) ℤ :=
  mapErr .journal (execute (.recordTrial payload))

def readTrial (id : ℤ) : ExceptT ControlPlaneError (Program Calls) Value := do
  match ← mapErr .journal (execute (.readTrial id)) with
  | some payload => return payload
  | none => throw (.unknownTrial id)

variable (plane : ControlPlane) (experiment : ℤ) (request : ChangeRequest)
  (snapshot : StateSnapshot)

def opens (os : String) : ExceptT ControlPlaneError (Program Calls) Unit := do
  if ¬ plane.manifest.targets.contains os then
    throw (.policyDenied "unknown platform target")
  mapErr .journal (execute .createTables)

def validate : Except ControlPlaneError Unit :=
  match plane.manifest.capabilities.find? fun item => item.id = request.capabilityId with
  | none => .error (.unknownCapability request.capabilityId)
  | some capability =>
    if capability.risk ≠ .reversible then
      .error (.policyDenied "only reversible mock capabilities are enabled")
    else if request.leaseSeconds.val > maxLeaseSeconds then
      .error (.policyDenied ("lease exceeds " ++ toString maxLeaseSeconds ++ " seconds"))
    else
      match request.parameters.get "value" >>= Value.asU64 with
      | none => .error (.policyDenied "mock.value requires an unsigned value")
      | some value =>
        if value > maxMockValue then
          .error (.policyDenied ("mock.value is bounded to 0..=" ++ toString maxMockValue))
        else .ok ()

lemma validate_eq_ok : plane.validate request = .ok () ↔
    (∃ capability, (plane.manifest.capabilities.find? fun item => item.id = request.capabilityId) =
        some capability ∧ capability.risk = .reversible) ∧
      request.leaseSeconds.val ≤ maxLeaseSeconds ∧
      ∃ value, (request.parameters.get "value" >>= Value.asU64) = some value ∧
        value ≤ maxMockValue := by
  rw [validate]
  cases hf : plane.manifest.capabilities.find? fun item => item.id = request.capabilityId with
  | none => simp
  | some capability =>
    cases hv : request.parameters.get "value" >>= Value.asU64 with
    | none =>
      dsimp only
      split_ifs <;> simp
    | some value =>
      dsimp only
      split_ifs <;> simp_all

lemma object_of_validate (h : plane.validate request = .ok ()) :
    request.parameters.isObject = true := by
  obtain ⟨_, _, value, hv, _⟩ := (plane.validate_eq_ok request).mp h
  obtain ⟨v, hg, _⟩ := Option.bind_eq_some_iff.mp hv
  exact Value.isObject_of_get hg

def record (stage : Stage) (payload : Value) : Program Calls (Except SqlError Unit) :=
  execute (.insert [⟨experiment, stage, plane.manifest.id, payload⟩])

def inStage {α : Type} (stage : Stage) (answer : Program Calls (Except ProviderError α)) :
    ExceptT StageFailure (Program Calls) α :=
  mapErr (fun error => ⟨stage, .provider error, none⟩) answer

def recordStage (stage : Stage) (payload : Value) : ExceptT StageFailure (Program Calls) Unit :=
  mapErr (fun error => ⟨stage, .journal error, none⟩) (plane.record experiment stage payload)

def observeApplied : ExceptT StageFailure (Program Calls) Bool := do
  plane.recordStage experiment .apply (.object [("applied", toValue true)])
  let verified ← inStage .verify (invoke (.verify request))
  plane.recordStage experiment .verify (.object [("verified", toValue verified)])
  if verified then
    return true
  else
    throw ⟨.verify, .verificationFailed, none⟩

def restore : ExceptT StageFailure (Program Calls) Unit := do
  inStage .rollback (invoke (.rollback snapshot))
  plane.recordStage experiment .rollback (toValue snapshot)
  let restored ← inStage .rollbackVerify (invoke .snapshot)
  let rolledBack := decide (restored = snapshot)
  plane.recordStage experiment .rollbackVerify (.object [("restored", toValue rolledBack)])
  if rolledBack then
    return
  else
    throw ⟨.rollbackVerify, .rollbackVerificationFailed, none⟩

def runStages : ExceptT StageFailure (Program Calls) LifecycleResult := do
  let preview ← inStage .preview (invoke (.preview request))
  plane.recordStage experiment .preview (.object [("description", toValue preview)])
  plane.recordStage experiment .applyIntent (toValue request)
  let observed ← ExceptT.lift (ExceptT.run do
    inStage .apply (invoke (.apply request))
    plane.observeApplied experiment request)
  -- the answer of `apply` and of its records is not looked at before the restore
  let restored ← ExceptT.lift (plane.restore experiment snapshot).run
  match restored, observed with
  | .error failure, .error original => throw (failure.suppressing original)
  | .error failure, .ok _ => throw failure
  | .ok (), .error failure => throw failure
  | .ok (), .ok verified => return ⟨plane.manifest.id, preview, verified, true⟩

def beginExperiment : Program Calls (Except SqlError ℤ) :=
  execute (.beginExperiment plane.manifest.id (toValue snapshot))

def completedPayload (result : LifecycleResult) : Value := .object
  [("rolled_back", toValue result.rolledBack), ("verified", toValue result.verified)]

def failurePayload (failure : StageFailure) : List (String × Value) :=
  [("error", .string failure.error.text), ("kind", .string failure.error.kind),
    ("stage", .string failure.stage.text)]

def failedPayload (failure : StageFailure) : Value :=
  match failure.suppressed with
  | none => .object (failurePayload failure)
  | some original =>
    .object (failurePayload failure ++ [("suppressed", .object (failurePayload original))])

def recordOutcome : Except StageFailure LifecycleResult →
    ExceptT ControlPlaneError (Program Calls) LifecycleResult
  | .ok result => do
    mapErr .journal (plane.record experiment .completed (completedPayload result))
    return result
  | .error failure => do
    -- a journal that refuses the terminal record is only reported on stderr
    let _ ← ExceptT.lift (plane.record experiment .failed (failedPayload failure))
    throw failure.error

def runLifecycle : ExceptT ControlPlaneError (Program Calls) LifecycleResult := do
  ExceptT.mk (pure (plane.validate request))
  let snapshot ← mapErr .provider (invoke .snapshot)
  let experiment ← mapErr .journal (plane.beginExperiment snapshot)
  let outcome ← ExceptT.lift (plane.runStages experiment request snapshot).run
  plane.recordOutcome experiment outcome

end ControlPlane

end FpsMaxxing
