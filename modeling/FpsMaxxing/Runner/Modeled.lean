import FpsMaxxing.Runner.Trial
import FpsMaxxing.Runner.Verdict

/-! What the evaluator decides on the measurements of the model. -/

namespace FpsMaxxing

open Numeric

def modeledDecision (spec : ExperimentSpec) (baseline candidate : UInt64) : Decision :=
  (evaluate (measure baseline spec.warmupSamples spec.baselineSamples.val)
    (measure candidate spec.warmupSamples spec.candidateSamples.val) spec.bounds).decision

def ExperimentSpec.recounted (spec : ExperimentSpec) (warmup : UInt32)
    (baselineSamples candidateSamples : NonZeroU32) : ExperimentSpec :=
  { spec with
    warmupSamples := warmup
    baselineSamples := baselineSamples
    candidateSamples := candidateSamples }

def Steady (value : UInt64) (samples : List MetricSample) : Prop :=
  samples ≠ [] ∧ ∀ sample ∈ samples, sample = sampleAt (knobToSetting value) value false

lemma measure_steady (value : UInt64) (warmup : UInt32) (counted : NonZeroU32) :
    Steady value (measure value warmup counted.val) := by
  have hn : counted.val.toNat ≠ 0 := fun h => counted.property (UInt32.toNat_inj.mp h)
  rw [measure_eq]
  exact ⟨by simpa using hn, fun sample hs => List.eq_of_mem_replicate hs⟩

variable {samples : List MetricSample} {value : UInt64} {bounds : DecisionBounds}

lemma Steady.exists_iff (h : Steady value samples) (p : MetricSample → Prop) :
    (∃ sample ∈ samples, p sample) ↔ p (sampleAt (knobToSetting value) value false) := by
  obtain ⟨hn, hall⟩ := h
  obtain ⟨sample, hs⟩ := List.exists_mem_of_ne_nil _ hn
  constructor
  · rintro ⟨sample, hs, hp⟩
    exact hall sample hs ▸ hp
  · exact fun hp => ⟨sample, hs, hall sample hs ▸ hp⟩

lemma knobToSetting_of_le (h : value ≤ maxMockValue) :
    knobToSetting value = .finite value.toNat := by
  have hv : value.toNat ≤ 100 := UInt64.le_iff_toNat_le.mp h
  rw [knobToSetting, if_pos (by omega)]

lemma steady_sample (h : value ≤ maxMockValue) : sampleAt (knobToSetting value) value false =
    ⟨.finite (60 + value.toNat), .finite (50 + value.toNat / 2), .finite (100 + value.toNat),
      saturatingSub value 90⟩ := by
  rw [knobToSetting_of_le h]
  simp only [sampleAt, baseFps, fpsGainPerUnit, baseTemperatureC, temperatureCPerUnit, basePowerW,
    powerWPerUnit, errorOnset, F64.ofNat_eq, F64.one_eq, F64.mul_finite, F64.add_finite, one_mul,
    Bool.false_eq_true, if_false]
  rw [one_div_mul_eq_div]

lemma Steady.averageFps (h : Steady value samples) (hv : value ≤ maxMockValue) :
    averageFps .finite samples = .finite (60 + value.toNat) := by
  obtain ⟨hn, hall⟩ := h
  have hs : samples = List.replicate samples.length (sampleAt (knobToSetting value) value false) :=
    List.eq_replicate_iff.mpr ⟨rfl, hall⟩
  have hl : (samples.length : ℚ) ≠ 0 := by simpa using hn
  have hf : ∀ x ∈ samples.map MetricSample.fps, x.isFinite = true := by
    rintro _ hx
    obtain ⟨sample, hm, rfl⟩ := List.mem_map.mp hx
    rw [hall sample hm]
    exact (sampleAt_finite value false).fps
  simp only [FpsMaxxing.averageFps, F64.round_exact, count_exact]
  rw [F64.zero_eq, F64.foldl_add hf, F64.div_finite _ hl, hs]
  rw [steady_sample hv, List.map_replicate, List.map_replicate, List.sum_replicate,
    List.length_replicate, zero_add, nsmul_eq_mul]
  exact congrArg F64.finite (mul_div_cancel_left₀ _ hl)

lemma Steady.errors_iff (h : Steady value samples) : 0 < errorSum samples ↔ 90 < value := by
  have hsum : 0 < errorSum samples ↔ ∃ sample ∈ samples, 0 < sample.errors.toNat := by
    rw [errorSum, List.sum_pos_iff_exists_pos_nat]
    simp
  rw [hsum, h.exists_iff fun sample => 0 < sample.errors.toNat]
  show 0 < (saturatingSub value 90).toNat ↔ 90 < value
  rw [saturatingSub]
  split_ifs with hle
  · rw [UInt64.toNat_sub_of_le _ _ hle, UInt64.lt_iff_toNat_lt]
    exact Nat.sub_pos_iff_lt
  · exact iff_of_false (Nat.lt_irrefl 0) fun hlt => hle (UInt64.le_of_lt hlt)

lemma enough_samples {counted minSamples : NonZeroU32} (h : minSamples.val ≤ counted.val)
    (value : UInt64) (warmup : UInt32) :
    ¬ (measure value warmup counted.val).length < minSamples.val.toNat := by
  rw [measure_eq, List.length_replicate]
  exact Nat.not_lt.mpr (UInt32.le_iff_toNat_le.mp h)

lemma modeledDecision_iff {spec : ExperimentSpec} {baseline candidate : UInt64}
    (h : spec.Legal candidate) (hb : baseline ≤ maxMockValue) :
    modeledDecision spec baseline candidate = .promote ↔
      candidate ≤ 90 ∧
      spec.bounds.minFpsImprovement ≤ .finite (candidate.toNat - baseline.toNat) ∧
      .finite (50 + candidate.toNat / 2) ≤ spec.bounds.maxTemperatureC ∧
      .finite (100 + candidate.toNat) ≤ spec.bounds.maxPowerW := by
  have hbs := measure_steady baseline spec.warmupSamples spec.baselineSamples
  have hcs := measure_steady candidate spec.warmupSamples spec.candidateSamples
  have hn := enough_samples h.baselineSamples.1 baseline spec.warmupSamples
  have hn' := enough_samples h.candidateSamples.1 candidate spec.warmupSamples
  obtain ⟨t, ht, _⟩ := h.bounds.maxTemperatureC
  obtain ⟨p, hp, _⟩ := h.bounds.maxPowerW
  have herr : spec.bounds.maxErrors < maxU64 ∧ spec.bounds.maxErrors.toNat <
      errorSum (measure candidate spec.warmupSamples spec.candidateSamples.val) ↔
        90 < candidate := by
    rw [← hcs.errors_iff, h.bounds.maxErrors]
    exact and_iff_right (by decide)
  have hgain : (Numeric.F64.finite (60 + candidate.toNat) - .finite (60 + baseline.toNat)) =
      .finite (candidate.toNat - baseline.toNat) := by
    rw [F64.sub_finite, add_sub_add_left_eq_sub]
  rw [modeledDecision, promote_iff_grounds, forall_grounds]
  simp only [Grounds, fpsGain, F64.round_exact, hn, hn',
    hcs.exists_iff fun sample => _ < sample.temperatureC,
    hcs.exists_iff fun sample => _ < sample.powerW, herr, hbs.averageFps hb,
    hcs.averageFps h.value, hgain, steady_sample h.value, ht, hp, F64.lt_finite, F64.le_finite,
    not_lt, not_not, UInt64.not_lt, or_self, not_false_eq_true, true_and]
  tauto

theorem modeled_promotion {spec : ExperimentSpec} {baseline candidate : UInt64}
    (hs : validateSpec spec = .ok candidate) (hb : baseline ≤ 100) :
    (modeledDecision spec baseline candidate = .promote ↔
      candidate ≤ 90 ∧
      spec.bounds.minFpsImprovement ≤ .finite (candidate.toNat - baseline.toNat) ∧
      .finite (50 + candidate.toNat / 2) ≤ spec.bounds.maxTemperatureC ∧
      .finite (100 + candidate.toNat) ≤ spec.bounds.maxPowerW) ∧
    (∀ warmup baselineSamples candidateSamples,
      validateSpec (spec.recounted warmup baselineSamples candidateSamples) = .ok candidate →
      modeledDecision (spec.recounted warmup baselineSamples candidateSamples) baseline candidate =
        modeledDecision spec baseline candidate) ∧
    ∀ value warmup counted, (measure value warmup counted).length = counted.toNat ∧
      ∀ sample ∈ measure value warmup counted,
        sample = sampleAt (knobToSetting value) value false := by
  have hl := validateSpec_eq_ok.mp hs
  refine ⟨modeledDecision_iff hl hb, fun warmup bs cs hs' => ?_, fun value warmup counted => ?_⟩
  · have hp := (modeledDecision_iff (validateSpec_eq_ok.mp hs') hb).trans
      (modeledDecision_iff hl hb).symm
    cases hd : modeledDecision spec baseline candidate with
    | promote => exact hp.mpr hd
    | reject =>
      cases hd' : modeledDecision (spec.recounted warmup bs cs) baseline candidate with
      | promote => exact absurd ((hp.mp hd').symm.trans hd) nofun
      | reject => rfl
  · rw [measure_eq]
    exact ⟨List.length_replicate, fun sample hm => List.eq_of_mem_replicate hm⟩

theorem modeled_promotion_forty : modeledDecision (specForValue 40) 7 40 = .promote ∧
    modeledDecision ((specForValue 40).recounted 0 ⟨3, by decide⟩ ⟨9, by decide⟩) 7 40 =
      .promote := by
  have hs : validateSpec (specForValue 40) = .ok 40 := by decide +kernel
  obtain ⟨hp, hcounts, _⟩ := @modeled_promotion (specForValue 40) 7 40 hs (by decide)
  have h := hp.mpr (by decide +kernel)
  exact ⟨h, (hcounts _ _ _ (by decide +kernel)).trans h⟩

end FpsMaxxing
