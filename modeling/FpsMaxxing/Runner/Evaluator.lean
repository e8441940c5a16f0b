import FpsMaxxing.Contracts.Trial
import Mathlib.Algebra.Order.Field.Basic

/-! The evaluator: aggregates of two sets of samples and the ordered rule that decides on them. -/

namespace FpsMaxxing

open Numeric

structure Totals where
  sumFps : F64
  divisor : F64
  maxTemperatureC : F64
  maxPowerW : F64
  totalErrors : UInt64

namespace Totals

def start : Totals := ⟨0, 0, .inf true, .inf true, 0⟩

def add (rounding : ℚ → F64) (totals : Totals) (sample : MetricSample) : Totals where
  sumFps := (totals.sumFps + sample.fps).round rounding
  divisor := (totals.divisor + 1).round rounding
  maxTemperatureC := totals.maxTemperatureC.max sample.temperatureC
  maxPowerW := totals.maxPowerW.max sample.powerW
  totalErrors := saturatingAdd totals.totalErrors sample.errors

end Totals

/-- `samples.len() as u64`; no slice is longer than a `u64` can count. -/
def countOf (samples : List MetricSample) : UInt64 :=
  if samples.length < 2 ^ 64 then .ofNat samples.length else maxU64

def summarizeBy (rounding : ℚ → F64) (samples : List MetricSample) : MetricSummary :=
  if samples.isEmpty then ⟨0, 0, 0, 0, 0⟩
  else
    let totals := samples.foldl (Totals.add rounding) .start
    { samples := countOf samples
      meanFps := (totals.sumFps / totals.divisor).round rounding
      maxTemperatureC := totals.maxTemperatureC
      maxPowerW := totals.maxPowerW
      totalErrors := totals.totalErrors }

def evaluateBy (rounding : ℚ → F64) (baseline candidate : List MetricSample)
    (bounds : DecisionBounds) : Verdict :=
  let baselineSummary := summarizeBy rounding baseline
  let candidateSummary := summarizeBy rounding candidate
  let fpsImprovement := (candidateSummary.meanFps - baselineSummary.meanFps).round rounding
  let minSamples := bounds.minSamples.val.toUInt64
  let reason : VerdictReason :=
    if baselineSummary.samples < minSamples ∨ candidateSummary.samples < minSamples then
      .insufficientSamples
    else if candidateSummary.maxTemperatureC > bounds.maxTemperatureC then .temperatureExceeded
    else if candidateSummary.maxPowerW > bounds.maxPowerW then .powerExceeded
    else if candidateSummary.totalErrors > bounds.maxErrors then .errorsExceeded
    else if fpsImprovement ≥ bounds.minFpsImprovement then .promoted
    else .insufficientImprovement
  let decision : Decision := if reason = .promoted then .promote else .reject
  ⟨decision, reason, fpsImprovement, baselineSummary, candidateSummary⟩

abbrev summarize : List MetricSample → MetricSummary := summarizeBy .finite

/-- The verdict as long as no result needs rounding. -/
abbrev evaluate : List MetricSample → List MetricSample → DecisionBounds → Verdict :=
  evaluateBy .finite

def meanFps (samples : List MetricSample) : ℚ :=
  (samples.map fun sample => sample.fps.toRat).sum / samples.length

variable {samples baseline candidate : List MetricSample} {bounds : DecisionBounds}

lemma countOf_toNat (samples : List MetricSample) :
    (countOf samples).toNat = min samples.length (2 ^ 64 - 1) := by
  rw [countOf]
  split_ifs with h
  · rw [UInt64.toNat_ofNat_of_lt' h]
    omega
  · rw [min_eq_right (by omega)]
    rfl

section

variable (rounding : ℚ → F64)

lemma summarize_samples (samples : List MetricSample) :
    (summarizeBy rounding samples).samples.toNat = min samples.length (2 ^ 64 - 1) := by
  cases samples with
  | nil => rfl
  | cons sample samples => exact countOf_toNat _

lemma summarize_maxTemperatureC (h : samples ≠ []) :
    (summarizeBy rounding samples).maxTemperatureC =
      (samples.map MetricSample.temperatureC).foldl F64.max (.inf true) := by
  rw [summarizeBy, if_neg (by simpa using h), List.foldl_map]
  exact (List.foldl_hom Totals.maxTemperatureC (H := fun _ _ => rfl)).symm

lemma summarize_maxPowerW (h : samples ≠ []) : (summarizeBy rounding samples).maxPowerW =
    (samples.map MetricSample.powerW).foldl F64.max (.inf true) := by
  rw [summarizeBy, if_neg (by simpa using h), List.foldl_map]
  exact (List.foldl_hom Totals.maxPowerW (H := fun _ _ => rfl)).symm

lemma lt_maxTemperatureC (h : samples ≠ []) (b : F64) :
    b < (summarizeBy rounding samples).maxTemperatureC ↔
      ∃ sample ∈ samples, b < sample.temperatureC := by
  simp [summarize_maxTemperatureC rounding h, F64.lt_foldl_max]

lemma lt_maxPowerW (h : samples ≠ []) (b : F64) :
    b < (summarizeBy rounding samples).maxPowerW ↔ ∃ sample ∈ samples, b < sample.powerW := by
  simp [summarize_maxPowerW rounding h, F64.lt_foldl_max]

lemma totalErrors_toNat (samples : List MetricSample) :
    (summarizeBy rounding samples).totalErrors.toNat =
      min (samples.map fun sample => sample.errors.toNat).sum (2 ^ 64 - 1) := by
  by_cases h : samples = []
  · simp [h, summarizeBy]
  · have hm : (summarizeBy rounding samples).totalErrors =
        (samples.map MetricSample.errors).foldl saturatingAdd 0 := by
      rw [summarizeBy, if_neg (by simpa using h), List.foldl_map]
      exact (List.foldl_hom Totals.totalErrors (H := fun _ _ => rfl)).symm
    simp [hm, toNat_foldl_saturatingAdd, List.map_map, Function.comp_def]

lemma sumFps_totals (samples : List MetricSample) :
    (samples.foldl (Totals.add rounding) .start).sumFps =
      (samples.map MetricSample.fps).foldl (fun sum fps => (sum + fps).round rounding) 0 := by
  rw [List.foldl_map]
  exact (List.foldl_hom Totals.sumFps (H := fun _ _ => rfl)).symm

lemma divisor_totals (samples : List MetricSample) :
    (samples.foldl (Totals.add rounding) .start).divisor =
      samples.foldl (fun count _ => (count + 1).round rounding) 0 :=
  (List.foldl_hom Totals.divisor (H := fun _ _ => rfl)).symm

lemma promote_iff : (evaluateBy rounding baseline candidate bounds).decision = .promote ↔
    (bounds.minSamples.val.toUInt64 ≤ (summarizeBy rounding baseline).samples ∧
      bounds.minSamples.val.toUInt64 ≤ (summarizeBy rounding candidate).samples) ∧
    ¬ bounds.maxTemperatureC < (summarizeBy rounding candidate).maxTemperatureC ∧
    ¬ bounds.maxPowerW < (summarizeBy rounding candidate).maxPowerW ∧
    (summarizeBy rounding candidate).totalErrors ≤ bounds.maxErrors ∧
    bounds.minFpsImprovement ≤ ((summarizeBy rounding candidate).meanFps -
      (summarizeBy rounding baseline).meanFps).round rounding := by
  rw [evaluateBy]
  dsimp only
  simp only [← UInt64.not_lt, ← not_or]
  split_ifs <;> simp_all

end

lemma count_exact (samples : List MetricSample) :
    samples.foldl (fun count _ => (count + 1 : F64)) 0 = .finite samples.length := by
  have hf : ∀ x ∈ samples.map fun _ => (1 : F64), x.isFinite = true := by simp
  have h := F64.foldl_add hf 0
  rw [List.foldl_map] at h
  rw [F64.zero_eq, h]
  simp

lemma summarize_meanFps (h : samples ≠ []) (hf : ∀ sample ∈ samples, sample.fps.isFinite = true) :
    (summarize samples).meanFps = .finite (meanFps samples) := by
  have hs : (samples.foldl (Totals.add .finite) .start).sumFps =
      .finite (samples.map fun sample => sample.fps.toRat).sum := by
    simp only [sumFps_totals, F64.round_exact]
    rw [F64.zero_eq, F64.foldl_add (by simpa using hf), zero_add, List.map_map]
    rfl
  have hd : (samples.foldl (Totals.add .finite) .start).divisor = .finite samples.length := by
    simp only [divisor_totals, F64.round_exact, count_exact]
  have hn : (samples.length : ℚ) ≠ 0 := by simpa using h
  rw [summarize, summarizeBy, if_neg (by simpa using h)]
  dsimp only
  rw [hs, hd, F64.div_finite _ hn, F64.round_exact, meanFps]

lemma summarize_finite (h : ∀ sample ∈ samples, sample.Finite) : (summarize samples).Finite := by
  by_cases hn : samples = []
  · rw [hn]
    exact ⟨rfl, rfl, rfl⟩
  refine ⟨?_, ?_, ?_⟩
  · rw [summarize_meanFps hn fun sample hs => (h sample hs).fps]
    rfl
  · rw [summarize_maxTemperatureC _ hn]
    refine F64.isFinite_maximum (by simpa using hn) ?_
    simpa using fun sample hs => (h sample hs).temperatureC
  · rw [summarize_maxPowerW _ hn]
    refine F64.isFinite_maximum (by simpa using hn) ?_
    simpa using fun sample hs => (h sample hs).powerW

lemma evaluate_finite (hb : ∀ sample ∈ baseline, sample.Finite)
    (hc : ∀ sample ∈ candidate, sample.Finite) : (evaluate baseline candidate bounds).Finite where
  fpsImprovement := by
    have hb := (summarize_finite hb).meanFps
    have hc := (summarize_finite hc).meanFps
    obtain ⟨p, hp⟩ := F64.isFinite_iff.mp hb
    obtain ⟨q, hq⟩ := F64.isFinite_iff.mp hc
    show (((summarize candidate).meanFps - (summarize baseline).meanFps).round _).isFinite = true
    rw [hp, hq]
    rfl
  baseline := summarize_finite hb
  candidate := summarize_finite hc

end FpsMaxxing
