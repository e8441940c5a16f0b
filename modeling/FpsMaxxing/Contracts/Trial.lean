import FpsMaxxing.Contracts.Request
import FpsMaxxing.Numeric.Machine

/-! The contracts of an experiment: its specification, its samples and the verdict on them. -/

namespace FpsMaxxing

open Numeric Serde

instance : Serde F64 where
  toValue
    | .finite q => .number (.float q)
    | _ => .null
  fromValue
    | .number (.posInt n) => some (.finite n.toNat)
    | .number (.negInt n) => some (.finite (-(n + 1)))
    | .number (.float q) => some (.finite q)
    | _ => none

structure MetricSample where
  fps : F64
  temperatureC : F64
  powerW : F64
  errors : UInt64
  deriving DecidableEq

structure MetricSummary where
  samples : UInt64
  meanFps : F64
  maxTemperatureC : F64
  maxPowerW : F64
  totalErrors : UInt64
  deriving DecidableEq

def maxDecisionTemperatureC : F64 := 90
def maxDecisionPowerW : F64 := 250
def maxDecisionErrors : UInt64 := 0

structure DecisionBounds where
  minSamples : NonZeroU32
  minFpsImprovement : F64
  maxTemperatureC : F64
  maxPowerW : F64
  maxErrors : UInt64
  deriving DecidableEq

def maxSamples : UInt32 := 10000
def maxHypothesisChars : UInt32 := 4096
def minHypothesisChars : UInt32 := 1

structure ExperimentSpec where
  hypothesis : String
  target : ChangeRequest
  warmupSamples : UInt32
  baselineSamples : NonZeroU32
  candidateSamples : NonZeroU32
  bounds : DecisionBounds
  deriving DecidableEq

inductive Decision
  | promote
  | reject
  deriving DecidableEq

inductive VerdictReason
  | promoted
  | insufficientSamples
  | temperatureExceeded
  | powerExceeded
  | errorsExceeded
  | insufficientImprovement
  deriving DecidableEq

structure Verdict where
  decision : Decision
  reason : VerdictReason
  fpsImprovement : F64
  baseline : MetricSummary
  candidate : MetricSummary
  deriving DecidableEq

def MetricSummary.equals (a b : MetricSummary) : Bool :=
  a.samples == b.samples && a.meanFps.equals b.meanFps &&
    a.maxTemperatureC.equals b.maxTemperatureC && a.maxPowerW.equals b.maxPowerW &&
    a.totalErrors == b.totalErrors

def Verdict.equals (a b : Verdict) : Bool :=
  a.decision == b.decision && a.reason == b.reason && a.fpsImprovement.equals b.fpsImprovement &&
    a.baseline.equals b.baseline && a.candidate.equals b.candidate

instance : Serde MetricSample where
  toValue sample := .object
    [("errors", toValue sample.errors), ("fps", toValue sample.fps),
      ("power_w", toValue sample.powerW), ("temperature_c", toValue sample.temperatureC)]
  fromValue v := do
    match ← structFields ["fps", "temperature_c", "power_w", "errors"] v with
    | [fps, temperatureC, powerW, errors] =>
      return ⟨← required fps, ← required temperatureC, ← required powerW, ← required errors⟩
    | _ => none

instance : Serde MetricSummary where
  toValue summary := .object
    [("max_power_w", toValue summary.maxPowerW),
      ("max_temperature_c", toValue summary.maxTemperatureC),
      ("mean_fps", toValue summary.meanFps), ("samples", toValue summary.samples),
      ("total_errors", toValue summary.totalErrors)]
  fromValue v := do
    match ← structFields
      ["samples", "mean_fps", "max_temperature_c", "max_power_w", "total_errors"] v with
    | [samples, meanFps, maxTemperatureC, maxPowerW, totalErrors] =>
      return ⟨← required samples, ← required meanFps, ← required maxTemperatureC,
        ← required maxPowerW, ← required totalErrors⟩
    | _ => none

instance : Serde DecisionBounds where
  toValue bounds := .object
    [("max_errors", toValue bounds.maxErrors), ("max_power_w", toValue bounds.maxPowerW),
      ("max_temperature_c", toValue bounds.maxTemperatureC),
      ("min_fps_improvement", toValue bounds.minFpsImprovement),
      ("min_samples", toValue bounds.minSamples)]
  fromValue v := do
    match ← structFields
      ["min_samples", "min_fps_improvement", "max_temperature_c", "max_power_w", "max_errors"]
      v with
    | [minSamples, minFpsImprovement, maxTemperatureC, maxPowerW, maxErrors] =>
      return ⟨← required minSamples, ← required minFpsImprovement, ← required maxTemperatureC,
        ← required maxPowerW, ← required maxErrors⟩
    | _ => none

instance : Serde ExperimentSpec where
  toValue spec := .object
    [("baseline_samples", toValue spec.baselineSamples), ("bounds", toValue spec.bounds),
      ("candidate_samples", toValue spec.candidateSamples),
      ("hypothesis", toValue spec.hypothesis), ("target", toValue spec.target),
      ("warmup_samples", toValue spec.warmupSamples)]
  fromValue v := do
    match ← structFields
      ["hypothesis", "target", "warmup_samples", "baseline_samples", "candidate_samples", "bounds"]
      v with
    | [hypothesis, target, warmupSamples, baselineSamples, candidateSamples, bounds] =>
      return ⟨← required hypothesis, ← required target, ← required warmupSamples,
        ← required baselineSamples, ← required candidateSamples, ← required bounds⟩
    | _ => none

def Decision.name : Decision → String
  | promote => "promote"
  | reject => "reject"

def VerdictReason.name : VerdictReason → String
  | promoted => "promoted"
  | insufficientSamples => "insufficient-samples"
  | temperatureExceeded => "temperature-exceeded"
  | powerExceeded => "power-exceeded"
  | errorsExceeded => "errors-exceeded"
  | insufficientImprovement => "insufficient-improvement"

instance : Serde Decision where
  toValue decision := .string decision.name
  fromValue := unitVariant fun name =>
    [Decision.promote, .reject].find? fun decision => decision.name = name

instance : Serde VerdictReason where
  toValue reason := .string reason.name
  fromValue := unitVariant fun name =>
    [VerdictReason.promoted, .insufficientSamples, .temperatureExceeded, .powerExceeded,
      .errorsExceeded, .insufficientImprovement].find? fun reason => reason.name = name

instance : Serde Verdict where
  toValue verdict := .object
    [("baseline", toValue verdict.baseline), ("candidate", toValue verdict.candidate),
      ("decision", toValue verdict.decision), ("fps_improvement", toValue verdict.fpsImprovement),
      ("reason", toValue verdict.reason)]
  fromValue v := do
    match ← structFields ["decision", "reason", "fps_improvement", "baseline", "candidate"] v with
    | [decision, reason, fpsImprovement, baseline, candidate] =>
      return ⟨← required decision, ← required reason, ← required fpsImprovement,
        ← required baseline, ← required candidate⟩
    | _ => none

structure MetricSample.Finite (sample : MetricSample) : Prop where
  fps : sample.fps.isFinite = true
  temperatureC : sample.temperatureC.isFinite = true
  powerW : sample.powerW.isFinite = true

lemma finite_of_fromValue {v : Value} {x : F64} (h : fromValue v = some x) :
    x.isFinite = true := by
  match v, h with
  | .number (.posInt _), h | .number (.negInt _), h | .number (.float _), h =>
    obtain rfl := Option.some.inj h
    rfl

lemma finite_of_required {field : Option Value} {x : F64} (h : required field = some x) :
    x.isFinite = true := by
  obtain ⟨v, _, hv⟩ := Option.bind_eq_some_iff.mp h
  exact finite_of_fromValue hv

lemma MetricSample.finite_of_fromValue {v : Value} {sample : MetricSample}
    (h : fromValue v = some sample) : sample.Finite := by
  simp only [fromValue, Option.bind_eq_bind, Option.bind_eq_some_iff] at h
  obtain ⟨fields, _, h⟩ := h
  split at h
  · simp only [Option.pure_def, Option.bind_eq_some_iff, Option.some.injEq] at h
    obtain ⟨fps, hf, temperatureC, ht, powerW, hp, errors, _, rfl⟩ := h
    exact ⟨finite_of_required hf, finite_of_required ht, finite_of_required hp⟩
  · cases h

lemma MetricSample.finite_of_mem {v : Value} {samples : List MetricSample}
    (h : fromValue v = some samples) {sample : MetricSample} (hs : sample ∈ samples) :
    sample.Finite := by
  obtain ⟨w, hw⟩ := exists_fromValue_of_mem h hs
  exact finite_of_fromValue hw

instance : LawfulSerde Decision where
  fromValue_toValue decision := by cases decision <;> decide

instance : LawfulSerde VerdictReason where
  fromValue_toValue reason := by cases reason <;> decide

lemma roundTrips_f64 {x : F64} (h : x.isFinite = true) : RoundTrips x := by
  obtain ⟨q, rfl⟩ := F64.isFinite_iff.mp h
  rfl

lemma MetricSample.Finite.roundTrips {sample : MetricSample} (h : sample.Finite) :
    RoundTrips sample := by
  have hf := (roundTrips_f64 h.fps).required
  have ht := (roundTrips_f64 h.temperatureC).required
  have hp := (roundTrips_f64 h.powerW).required
  have he := (FpsMaxxing.roundTrips sample.errors).required
  have hs : structFields ["fps", "temperature_c", "power_w", "errors"] (toValue sample) =
      some [some (toValue sample.fps), some (toValue sample.temperatureC),
        some (toValue sample.powerW), some (toValue sample.errors)] := rfl
  refine Option.bind_eq_some_iff.mpr ⟨_, hs, ?_⟩
  simp only [hf, ht, hp, he]
  rfl

structure MetricSummary.Finite (summary : MetricSummary) : Prop where
  meanFps : summary.meanFps.isFinite = true
  maxTemperatureC : summary.maxTemperatureC.isFinite = true
  maxPowerW : summary.maxPowerW.isFinite = true

lemma MetricSummary.Finite.roundTrips {summary : MetricSummary} (h : summary.Finite) :
    RoundTrips summary := by
  have hn := (FpsMaxxing.roundTrips summary.samples).required
  have hf := (roundTrips_f64 h.meanFps).required
  have ht := (roundTrips_f64 h.maxTemperatureC).required
  have hp := (roundTrips_f64 h.maxPowerW).required
  have he := (FpsMaxxing.roundTrips summary.totalErrors).required
  have hs : structFields ["samples", "mean_fps", "max_temperature_c", "max_power_w", "total_errors"]
      (toValue summary) = some [some (toValue summary.samples), some (toValue summary.meanFps),
        some (toValue summary.maxTemperatureC), some (toValue summary.maxPowerW),
        some (toValue summary.totalErrors)] := rfl
  refine Option.bind_eq_some_iff.mpr ⟨_, hs, ?_⟩
  simp only [hn, hf, ht, hp, he]
  rfl

structure Verdict.Finite (verdict : Verdict) : Prop where
  fpsImprovement : verdict.fpsImprovement.isFinite = true
  baseline : verdict.baseline.Finite
  candidate : verdict.candidate.Finite

lemma Verdict.Finite.roundTrips {verdict : Verdict} (h : verdict.Finite) : RoundTrips verdict := by
  have hd := (FpsMaxxing.roundTrips verdict.decision).required
  have hr := (FpsMaxxing.roundTrips verdict.reason).required
  have hf := (roundTrips_f64 h.fpsImprovement).required
  have hb := h.baseline.roundTrips.required
  have hc := h.candidate.roundTrips.required
  have hs : structFields ["decision", "reason", "fps_improvement", "baseline", "candidate"]
      (toValue verdict) = some [some (toValue verdict.decision), some (toValue verdict.reason),
        some (toValue verdict.fpsImprovement), some (toValue verdict.baseline),
        some (toValue verdict.candidate)] := rfl
  refine Option.bind_eq_some_iff.mpr ⟨_, hs, ?_⟩
  simp only [hd, hr, hf, hb, hc]
  rfl

lemma roundTrips_bounds {bounds : DecisionBounds} (hi : bounds.minFpsImprovement.isFinite = true)
    (ht : bounds.maxTemperatureC.isFinite = true) (hp : bounds.maxPowerW.isFinite = true) :
    RoundTrips bounds := by
  have hm := (roundTrips bounds.minSamples).required
  have hi := (roundTrips_f64 hi).required
  have ht := (roundTrips_f64 ht).required
  have hp := (roundTrips_f64 hp).required
  have he := (roundTrips bounds.maxErrors).required
  have hs : structFields
      ["min_samples", "min_fps_improvement", "max_temperature_c", "max_power_w", "max_errors"]
      (toValue bounds) = some [some (toValue bounds.minSamples),
        some (toValue bounds.minFpsImprovement), some (toValue bounds.maxTemperatureC),
        some (toValue bounds.maxPowerW), some (toValue bounds.maxErrors)] := rfl
  refine Option.bind_eq_some_iff.mpr ⟨_, hs, ?_⟩
  simp only [hm, hi, ht, hp, he]
  rfl

lemma roundTrips_spec {spec : ExperimentSpec} (hb : RoundTrips spec.bounds)
    (ht : spec.target.parameters.isObject = true) : RoundTrips spec := by
  have hh := (roundTrips spec.hypothesis).required
  have ht := RoundTrips.required ((request_fromValue_toValue spec.target).mpr ht)
  have hw := (roundTrips spec.warmupSamples).required
  have hbs := (roundTrips spec.baselineSamples).required
  have hcs := (roundTrips spec.candidateSamples).required
  have hb := hb.required
  have hs : structFields
      ["hypothesis", "target", "warmup_samples", "baseline_samples", "candidate_samples", "bounds"]
      (toValue spec) = some [some (toValue spec.hypothesis), some (toValue spec.target),
        some (toValue spec.warmupSamples), some (toValue spec.baselineSamples),
        some (toValue spec.candidateSamples), some (toValue spec.bounds)] := rfl
  refine Option.bind_eq_some_iff.mpr ⟨_, hs, ?_⟩
  simp only [hh, ht, hw, hbs, hcs, hb]
  rfl

lemma Numeric.F64.equals_self {x : F64} (h : x.isFinite = true) : x.equals x = true := by
  obtain ⟨q, rfl⟩ := F64.isFinite_iff.mp h
  simp [F64.equals]

lemma MetricSummary.Finite.equals_self {summary : MetricSummary} (h : summary.Finite) :
    summary.equals summary = true := by
  simp [MetricSummary.equals, F64.equals_self h.meanFps, F64.equals_self h.maxTemperatureC,
    F64.equals_self h.maxPowerW]

lemma Verdict.Finite.equals_self {verdict : Verdict} (h : verdict.Finite) :
    verdict.equals verdict = true := by
  simp [Verdict.equals, F64.equals_self h.fpsImprovement, h.baseline.equals_self,
    h.candidate.equals_self]

end FpsMaxxing
