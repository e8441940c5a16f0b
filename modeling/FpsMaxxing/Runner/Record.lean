import FpsMaxxing.Contracts.Trial
import FpsMaxxing.Host.ControlPlane

/-! The record of a trial as it is journaled, and the errors of running or replaying one. -/

namespace FpsMaxxing

open Serde

def trialRecordVersion : UInt32 := 1

structure LifecycleOutcome where
  providerId : String
  preview : String
  verified : Bool
  rolledBack : Bool
  deriving DecidableEq

def LifecycleOutcome.ofResult (result : LifecycleResult) : LifecycleOutcome where
  providerId := result.providerId
  preview := result.preview
  verified := result.verified
  rolledBack := result.rolledBack

structure LifecycleFailure where
  kind : String
  error : String
  deriving DecidableEq

def LifecycleFailure.ofError (error : ControlPlaneError) : LifecycleFailure where
  kind := error.kind
  error := error.text

structure TrialRecord where
  schemaVersion : UInt32
  spec : ExperimentSpec
  baselineValue : UInt64
  candidateValue : UInt64
  baselineSamples : List MetricSample
  candidateSamples : List MetricSample
  verdict : Verdict
  lifecycle : Option LifecycleOutcome
  lifecycleError : Option LifecycleFailure
  deriving DecidableEq

structure StoredTrial where
  id : ℤ
  record : TrialRecord
  deriving DecidableEq

structure ReplayOutcome where
  trialId : ℤ
  recorded : Verdict
  recomputed : Verdict
  policyLegal : Bool
  policyReason : Option String
  deriving DecidableEq

def ReplayOutcome.isConsistent (outcome : ReplayOutcome) : Bool :=
  outcome.recorded.equals outcome.recomputed

instance : Serde LifecycleOutcome where
  toValue outcome := .object
    [("preview", toValue outcome.preview), ("provider_id", toValue outcome.providerId),
      ("rolled_back", toValue outcome.rolledBack), ("verified", toValue outcome.verified)]
  fromValue v := do
    match ← structFields ["provider_id", "preview", "verified", "rolled_back"] v with
    | [providerId, preview, verified, rolledBack] =>
      return ⟨← required providerId, ← required preview, ← required verified,
        ← required rolledBack⟩
    | _ => none

instance : Serde LifecycleFailure where
  toValue failure := .object [("error", toValue failure.error), ("kind", toValue failure.kind)]
  fromValue v := do
    match ← structFields ["kind", "error"] v with
    | [kind, error] => return ⟨← required kind, ← required error⟩
    | _ => none

instance : Serde TrialRecord where
  toValue record := .object
    [("baseline_samples", toValue record.baselineSamples),
      ("baseline_value", toValue record.baselineValue),
      ("candidate_samples", toValue record.candidateSamples),
      ("candidate_value", toValue record.candidateValue),
      ("lifecycle", toValue record.lifecycle),
      ("lifecycle_error", toValue record.lifecycleError),
      ("schema_version", toValue record.schemaVersion), ("spec", toValue record.spec),
      ("verdict", toValue record.verdict)]
  fromValue v := do
    match ← structFields ["schema_version", "spec", "baseline_value", "candidate_value",
      "baseline_samples", "candidate_samples", "verdict", "lifecycle", "lifecycle_error"] v with
    | [schemaVersion, spec, baselineValue, candidateValue, baselineSamples, candidateSamples,
        verdict, lifecycle, lifecycleError] =>
      return ⟨← required schemaVersion, ← required spec, ← required baselineValue,
        ← required candidateValue, ← required baselineSamples, ← required candidateSamples,
        ← required verdict, ← optional lifecycle, ← optional lifecycleError⟩
    | _ => none

instance : LawfulSerde LifecycleOutcome := ⟨fun _ => rfl⟩
instance : LawfulSerde LifecycleFailure := ⟨fun _ => rfl⟩

lemma roundTrips_record {record : TrialRecord} (hs : RoundTrips record.spec)
    (hb : RoundTrips record.baselineSamples) (hc : RoundTrips record.candidateSamples)
    (hv : RoundTrips record.verdict) : RoundTrips record := by
  have hn := (roundTrips record.schemaVersion).required
  have hs := hs.required
  have hbv := (roundTrips record.baselineValue).required
  have hcv := (roundTrips record.candidateValue).required
  have hb := hb.required
  have hc := hc.required
  have hv := hv.required
  have hl := optional_toValue fun a (_ : record.lifecycle = some a) => ⟨roundTrips a, nofun⟩
  have he := optional_toValue fun a (_ : record.lifecycleError = some a) => ⟨roundTrips a, nofun⟩
  have hf : structFields ["schema_version", "spec", "baseline_value", "candidate_value",
      "baseline_samples", "candidate_samples", "verdict", "lifecycle", "lifecycle_error"]
      (toValue record) = some [some (toValue record.schemaVersion), some (toValue record.spec),
        some (toValue record.baselineValue), some (toValue record.candidateValue),
        some (toValue record.baselineSamples), some (toValue record.candidateSamples),
        some (toValue record.verdict), some (toValue record.lifecycle),
        some (toValue record.lifecycleError)] := rfl
  refine Option.bind_eq_some_iff.mpr ⟨_, hf, ?_⟩
  simp only [hn, hs, hbv, hcv, hb, hc, hv, hl, he]
  rfl

lemma TrialRecord.finite_of_fromValue {v : Value} {record : TrialRecord}
    (h : fromValue v = some record) :
    (∀ sample ∈ record.baselineSamples, sample.Finite) ∧
      ∀ sample ∈ record.candidateSamples, sample.Finite := by
  simp only [fromValue, Option.bind_eq_bind, Option.bind_eq_some_iff] at h
  obtain ⟨fields, _, h⟩ := h
  split at h
  · simp only [Option.pure_def, Option.bind_eq_some_iff, Option.some.injEq] at h
    obtain ⟨_, _, _, _, _, _, _, _, baseline, hb, candidate, hc, _, _, _, _, _, _, rfl⟩ := h
    obtain ⟨_, _, hb⟩ := Option.bind_eq_some_iff.mp hb
    obtain ⟨_, _, hc⟩ := Option.bind_eq_some_iff.mp hc
    exact ⟨fun _ => MetricSample.finite_of_mem hb, fun _ => MetricSample.finite_of_mem hc⟩
  · cases h

inductive RunnerError
  | controlPlane (error : ControlPlaneError)
  | lifecycleFailed (trialId : Option ℤ) (journalError : Option ControlPlaneError)
      (source : ControlPlaneError)
  | trialNotJournaled (lifecycle : Option LifecycleOutcome) (source : ControlPlaneError)
  | invalidSpec (message : String)
  | invalidTarget
  | invalidBaseline
  | baselineOutOfPolicy (value : UInt64)
  | inconsistentRecord (message : String)
  | unsupportedRecordVersion (version : UInt32)
  | malformedRecordVersion
  | decode (message : String)
  deriving DecidableEq

def trialLost (applied : Bool) : String :=
  if applied then "trial record was lost after its promotion completed the lifecycle"
  else "trial record was lost"

def journaledAs : Option ℤ → Option ControlPlaneError → String
  | some id, _ => "journaling trial " ++ toString id
  | none, some error => "failing to journal its trial: " ++ error.text
  | none, none => "failing to journal its trial"

def RunnerError.text : RunnerError → String
  | controlPlane error => error.text
  | lifecycleFailed trialId journalError source =>
    "lifecycle failed after " ++ journaledAs trialId journalError ++ ": " ++ source.text
  | trialNotJournaled lifecycle source => trialLost lifecycle.isSome ++ ": " ++ source.text
  | invalidSpec message => "experiment spec rejected: " ++ message
  | invalidTarget => "experiment target is missing an unsigned mock value"
  | invalidBaseline => "provider snapshot is missing an unsigned mock value"
  | baselineOutOfPolicy value => "provider snapshot value is " ++ toString value ++ ", above the " ++
    toString maxMockValue ++ " the policy allows"
  | inconsistentRecord message => "journaled trial contradicts its own spec: " ++ message
  | unsupportedRecordVersion version =>
    "journaled trial uses unsupported record version " ++ toString version
  | malformedRecordVersion => "journaled trial does not carry a readable record version"
  | decode message => message

end FpsMaxxing
