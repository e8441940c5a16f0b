import FpsMaxxing.Effects.Checks
import FpsMaxxing.Runner.Model
import FpsMaxxing.Runner.Record

/-! The policy gate: what a specification has to satisfy before it is measured and what a journaled
record has to satisfy when it is replayed. -/

namespace FpsMaxxing

open Effects Numeric Serde

/-- What `{:?}` prints for a character of a string. Only control characters count as unprintable
here. -/
def escapeDebug (c : Char) : String :=
  match c.toNat with
  | 0 => "\\0"
  | 9 => "\\t"
  | 10 => "\\n"
  | 13 => "\\r"
  | 34 => "\\\""
  | 92 => "\\\\"
  | n =>
    if n < 32 ∨ 127 ≤ n ∧ n < 160 then "\\u\x7b" ++ String.ofList (Nat.toDigits 16 n) ++ "\x7d"
    else c.toString

def debugText (s : String) : String := "\"" ++ String.join (s.toList.map escapeDebug) ++ "\""

def validateBounds (bounds : DecisionBounds) : Except RunnerError Unit := do
  let minSamples := bounds.minSamples.val
  rejectIf (minSamples > maxSamples) (.invalidSpec ("min_samples is " ++ toString minSamples ++
    ", above the " ++ toString maxSamples ++ " ceiling"))
  forM [("max_temperature_c", bounds.maxTemperatureC, maxDecisionTemperatureC),
      ("max_power_w", bounds.maxPowerW, maxDecisionPowerW)] fun (label, bound, ceiling) =>
    rejectIf (¬ bound.isFinite ∨ bound ≤ 0 ∨ bound > ceiling) (.invalidSpec (label ++ " is " ++
      bound.text ++ ", outside the 0 exclusive to " ++ ceiling.text ++
      " inclusive the policy allows"))
  let improvement := bounds.minFpsImprovement
  rejectIf (¬ improvement.isFinite ∨ improvement < 0) (.invalidSpec ("min_fps_improvement is " ++
    improvement.text ++ ", but the policy requires a finite gain of at least 0"))
  rejectIf (bounds.maxErrors > maxDecisionErrors) (.invalidSpec ("max_errors is " ++
    toString bounds.maxErrors ++ ", above the " ++ toString maxDecisionErrors ++
    " the policy allows"))

def validateParameters : Value → Except RunnerError Unit
  | .object fields => forM fields fun (key, _) =>
    rejectIf (¬ modeledParameters.contains key) (.invalidSpec ("target parameter " ++
      debugText key ++ " is not one " ++ modeledCapabilityId ++ " takes"))
  | _ => throw .invalidTarget

def candidateValue (spec : ExperimentSpec) : Except RunnerError UInt64 :=
  okOr (spec.target.parameters.get "value" >>= Value.asU64) .invalidTarget

def validateSpec (spec : ExperimentSpec) : Except RunnerError UInt64 := do
  rejectIf (spec.target.capabilityId ≠ modeledCapabilityId)
    (.controlPlane (.unknownCapability spec.target.capabilityId))
  validateBounds spec.bounds
  let hypothesis := spec.hypothesis.length
  rejectIf (hypothesis < minHypothesisChars.toNat) (.invalidSpec ("hypothesis is " ++
    toString hypothesis ++ " characters, below the " ++ toString minHypothesisChars ++
    " the schema requires"))
  rejectIf (hypothesis > maxHypothesisChars.toNat) (.invalidSpec ("hypothesis is " ++
    toString hypothesis ++ " characters, above the " ++ toString maxHypothesisChars ++
    " ceiling"))
  let minSamples := spec.bounds.minSamples.val
  forM [("warmup_samples", spec.warmupSamples), ("baseline_samples", spec.baselineSamples.val),
      ("candidate_samples", spec.candidateSamples.val)] fun (label, count) =>
    rejectIf (count > maxSamples) (.invalidSpec (label ++ " is " ++ toString count ++
      ", above the " ++ toString maxSamples ++ " ceiling"))
  forM [("baseline_samples", spec.baselineSamples.val),
      ("candidate_samples", spec.candidateSamples.val)] fun (label, count) =>
    rejectIf (count < minSamples) (.invalidSpec (label ++ " is " ++ toString count ++
      ", below the " ++ toString minSamples ++ " the bounds require"))
  validateParameters spec.target.parameters
  let value ← candidateValue spec
  rejectIf (value > maxMockValue) (.invalidSpec ("target value is " ++ toString value ++
    ", above the " ++ toString maxMockValue ++ " the policy allows"))
  let lease := spec.target.leaseSeconds.val
  rejectIf (lease > maxLeaseSeconds) (.invalidSpec ("lease_seconds is " ++ toString lease ++
    ", above the " ++ toString maxLeaseSeconds ++ " the policy allows"))
  return value

def validate (manifest : ProviderManifest) (spec : ExperimentSpec) : Except RunnerError UInt64 := do
  rejectIf (¬ manifest.capabilities.any fun capability =>
      capability.id = spec.target.capabilityId)
    (.controlPlane (.unknownCapability spec.target.capabilityId))
  validateSpec spec

def holdsDeclaredCount (samples : List MetricSample) (declared : NonZeroU32) : Bool :=
  decide (samples.length < 2 ^ 32) && UInt32.ofNat samples.length == declared.val

def presence (recorded : Bool) : String := if recorded then "present" else "absent"

def Decision.debugText : Decision → String
  | promote => "Promote"
  | reject => "Reject"

def checkPolicy (record : TrialRecord) : Except RunnerError Unit := do
  let candidateValue ← validateSpec record.spec
  rejectIf (candidateValue ≠ record.candidateValue) (.inconsistentRecord ("candidate_value is " ++
    toString record.candidateValue ++ ", but its spec asks for " ++ toString candidateValue))
  rejectIf (record.baselineValue > maxMockValue) (.inconsistentRecord ("baseline_value is " ++
    toString record.baselineValue ++ ", above the " ++ toString maxMockValue ++
    " the policy allows"))
  forM [("baseline_samples", record.baselineSamples, record.spec.baselineSamples),
      ("candidate_samples", record.candidateSamples, record.spec.candidateSamples)]
    fun (label, samples, declared) =>
      rejectIf (¬ holdsDeclaredCount samples declared) (.inconsistentRecord (label ++ " holds " ++
        toString samples.length ++ " samples, but its spec declares " ++ toString declared.val))
  let recordedLifecycle := record.lifecycle.isSome
  let recordedFailure := record.lifecycleError.isSome
  let holds : Bool := match record.verdict.decision with
    | .promote => recordedLifecycle != recordedFailure
    | .reject => !recordedLifecycle && !recordedFailure
  rejectIf (¬ holds) (.inconsistentRecord ("verdict is " ++ record.verdict.decision.debugText ++
    " with lifecycle " ++ presence recordedLifecycle ++ " and lifecycle_error " ++
    presence recordedFailure ++
    ", but a promotion records exactly one of the two and a rejection neither"))
  forM record.lifecycle.toList fun lifecycle =>
    rejectIf (¬ (lifecycle.verified && lifecycle.rolledBack)) (.inconsistentRecord (
      "lifecycle records verified " ++ toString lifecycle.verified ++ " and rolled_back " ++
      toString lifecycle.rolledBack ++ ", but a completed lifecycle observes the applied value " ++
      "and restores the captured baseline"))

structure DecisionBounds.Legal (bounds : DecisionBounds) : Prop where
  minSamples : bounds.minSamples.val ≤ maxSamples
  maxTemperatureC : ∃ q, bounds.maxTemperatureC = .finite q ∧ 0 < q ∧ q ≤ 90
  maxPowerW : ∃ q, bounds.maxPowerW = .finite q ∧ 0 < q ∧ q ≤ 250
  minFpsImprovement : ∃ q, bounds.minFpsImprovement = .finite q ∧ 0 ≤ q
  maxErrors : bounds.maxErrors = 0

structure ExperimentSpec.Legal (spec : ExperimentSpec) (value : UInt64) : Prop where
  capabilityId : spec.target.capabilityId = modeledCapabilityId
  bounds : spec.bounds.Legal
  hypothesis : 1 ≤ spec.hypothesis.length ∧ spec.hypothesis.length ≤ 4096
  warmupSamples : spec.warmupSamples ≤ maxSamples
  baselineSamples : spec.bounds.minSamples.val ≤ spec.baselineSamples.val ∧
    spec.baselineSamples.val ≤ maxSamples
  candidateSamples : spec.bounds.minSamples.val ≤ spec.candidateSamples.val ∧
    spec.candidateSamples.val ≤ maxSamples
  parameters : ∃ fields, spec.target.parameters = .object fields ∧
    ∀ field ∈ fields, field.1 ∈ modeledParameters
  requested : (spec.target.parameters.get "value" >>= Value.asU64) = some value
  value : value ≤ maxMockValue
  leaseSeconds : spec.target.leaseSeconds.val ≤ maxLeaseSeconds

lemma ceiling_iff {bound : F64} {ceiling : ℚ} :
    ¬ (¬ bound.isFinite = true ∨ bound ≤ 0 ∨ bound > .finite ceiling) ↔
      ∃ q, bound = .finite q ∧ 0 < q ∧ q ≤ ceiling := by
  cases bound <;> simp [F64.isFinite]

lemma gain_iff {gain : F64} :
    ¬ (¬ gain.isFinite = true ∨ gain < 0) ↔ ∃ q, gain = .finite q ∧ 0 ≤ q := by
  cases gain <;> simp [F64.isFinite]

lemma validateBounds_eq_ok {bounds : DecisionBounds} {u : Unit} :
    validateBounds bounds = .ok u ↔ bounds.Legal := by
  simp only [validateBounds, bind_eq_ok, rejectIf_eq_ok, forM_eq_ok, List.forall_mem_cons, gain_iff,
    maxDecisionTemperatureC, maxDecisionPowerW, F64.ofNat_eq, ceiling_iff, exists_const]
  constructor
  · rintro ⟨hm, ⟨ht, hp, _⟩, hi, he⟩
    exact ⟨UInt32.not_lt.mp hm, ht, hp, hi, UInt64.le_zero_iff.mp (UInt64.not_lt.mp he)⟩
  · rintro ⟨hm, ht, hp, hi, he⟩
    exact ⟨UInt32.not_lt.mpr hm, ⟨ht, hp, List.forall_mem_nil _⟩, hi, by simp [he]⟩

lemma validateParameters_eq_ok {parameters : Value} {u : Unit} :
    validateParameters parameters = .ok u ↔
      ∃ fields, parameters = .object fields ∧ ∀ field ∈ fields, field.1 ∈ modeledParameters := by
  cases parameters <;> simp [validateParameters, forM_eq_ok]

lemma validateSpec_eq_ok {spec : ExperimentSpec} {value : UInt64} :
    validateSpec spec = .ok value ↔ spec.Legal value := by
  simp only [validateSpec, candidateValue, bind_eq_ok, rejectIf_eq_ok, forM_eq_ok, okOr_eq_ok,
    List.forall_mem_cons, validateBounds_eq_ok, validateParameters_eq_ok, pure_eq_ok, exists_const]
  constructor
  · rintro ⟨hc, hb, hl, hu, ⟨hw, hbl, hcl, _⟩, ⟨hbm, hcm, _⟩, hp, v, hr, hv, hs, rfl⟩
    exact ⟨not_not.mp hc, hb, ⟨Nat.not_lt.mp hl, Nat.not_lt.mp hu⟩, UInt32.not_lt.mp hw,
      ⟨UInt32.not_lt.mp hbm, UInt32.not_lt.mp hbl⟩, ⟨UInt32.not_lt.mp hcm, UInt32.not_lt.mp hcl⟩,
      hp, hr, UInt64.not_lt.mp hv, UInt64.not_lt.mp hs⟩
  · rintro ⟨hc, hb, ⟨hl, hu⟩, hw, ⟨hbm, hbl⟩, ⟨hcm, hcl⟩, hp, hr, hv, hs⟩
    exact ⟨not_not.mpr hc, hb, Nat.not_lt.mpr hl, Nat.not_lt.mpr hu,
      ⟨UInt32.not_lt.mpr hw, UInt32.not_lt.mpr hbl, UInt32.not_lt.mpr hcl, List.forall_mem_nil _⟩,
      ⟨UInt32.not_lt.mpr hbm, UInt32.not_lt.mpr hcm, List.forall_mem_nil _⟩, hp, value, hr,
      UInt64.not_lt.mpr hv, UInt64.not_lt.mpr hs, rfl⟩

lemma holdsDeclaredCount_iff {samples : List MetricSample} {declared : NonZeroU32} :
    holdsDeclaredCount samples declared = true ↔ samples.length = declared.val.toNat := by
  simp only [holdsDeclaredCount, Bool.and_eq_true, decide_eq_true_eq, beq_iff_eq,
    ← UInt32.toNat_inj]
  constructor
  · rintro ⟨hl, h⟩
    rwa [UInt32.toNat_ofNat_of_lt' hl] at h
  · intro h
    have hl : samples.length < 2 ^ 32 := h ▸ declared.val.toNat_lt
    exact ⟨hl, by rw [UInt32.toNat_ofNat_of_lt' hl, h]⟩

structure TrialRecord.Legal (record : TrialRecord) : Prop where
  spec : record.spec.Legal record.candidateValue
  baselineValue : record.baselineValue ≤ maxMockValue
  baselineSamples : record.baselineSamples.length = record.spec.baselineSamples.val.toNat
  candidateSamples : record.candidateSamples.length = record.spec.candidateSamples.val.toNat
  promoted : record.verdict.decision = .promote →
    record.lifecycle.isSome ≠ record.lifecycleError.isSome
  rejected : record.verdict.decision = .reject →
    record.lifecycle = none ∧ record.lifecycleError = none
  lifecycle : ∀ lifecycle, record.lifecycle = some lifecycle →
    lifecycle.verified = true ∧ lifecycle.rolledBack = true

lemma checkPolicy_eq_ok {record : TrialRecord} {u : Unit} :
    checkPolicy record = .ok u ↔ record.Legal := by
  simp only [checkPolicy, bind_eq_ok, rejectIf_eq_ok, forM_eq_ok, List.forall_mem_cons,
    validateSpec_eq_ok, holdsDeclaredCount_iff, exists_const]
  constructor
  · rintro ⟨v, hs, hv, hb, ⟨hbl, hcl, _⟩, hd, hl⟩
    obtain rfl := not_not.mp hv
    refine ⟨hs, UInt64.not_lt.mp hb, not_not.mp hbl, not_not.mp hcl, fun h => ?_, fun h => ?_,
      by simpa using hl⟩
    · simpa [h] using hd
    · simpa [h] using hd
  · rintro ⟨hs, hb, hbl, hcl, hp, hr, hl⟩
    refine ⟨_, hs, not_not.mpr rfl, UInt64.not_lt.mpr hb,
      ⟨not_not.mpr hbl, not_not.mpr hcl, List.forall_mem_nil _⟩, ?_, by simpa using hl⟩
    cases h : record.verdict.decision with
    | promote => simpa using hp h
    | reject => simpa using hr h

end FpsMaxxing
