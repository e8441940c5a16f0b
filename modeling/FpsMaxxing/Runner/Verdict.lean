import FpsMaxxing.Runner.Evaluator

/-! What the evaluator decides, told from the samples and the bounds alone. -/

namespace FpsMaxxing

open Numeric

variable {rounding : ℚ → F64} {samples baseline candidate : List MetricSample}
  {bounds : DecisionBounds}

/-- The mean of the frame rates as floats add up in order, NaN and the infinities included. -/
def averageFps (rounding : ℚ → F64) (samples : List MetricSample) : F64 :=
  ((samples.map MetricSample.fps).foldl (fun sum fps => (sum + fps).round rounding) 0 /
    samples.foldl (fun count _ => (count + 1).round rounding) 0).round rounding

def fpsGain (rounding : ℚ → F64) (baseline candidate : List MetricSample) : F64 :=
  (averageFps rounding candidate - averageFps rounding baseline).round rounding

def errorSum (samples : List MetricSample) : ℕ :=
  (samples.map fun sample => sample.errors.toNat).sum

def Grounds (rounding : ℚ → F64) (baseline candidate : List MetricSample)
    (bounds : DecisionBounds) : VerdictReason → Prop
  | .insufficientSamples => baseline.length < bounds.minSamples.val.toNat ∨
      candidate.length < bounds.minSamples.val.toNat
  | .temperatureExceeded => ∃ sample ∈ candidate, bounds.maxTemperatureC < sample.temperatureC
  | .powerExceeded => ∃ sample ∈ candidate, bounds.maxPowerW < sample.powerW
  | .errorsExceeded => bounds.maxErrors < maxU64 ∧ bounds.maxErrors.toNat < errorSum candidate
  | .insufficientImprovement =>
    ¬ bounds.minFpsImprovement ≤ fpsGain rounding baseline candidate
  | .promoted => False

lemma samples_lt : (summarizeBy rounding samples).samples < bounds.minSamples.val.toUInt64 ↔
    samples.length < bounds.minSamples.val.toNat := by
  rw [UInt64.lt_iff_toNat_lt, summarize_samples, UInt32.toNat_toUInt64]
  have := bounds.minSamples.val.toNat_lt
  omega

lemma samples_ne_nil (h : ¬ samples.length < bounds.minSamples.val.toNat) : samples ≠ [] := by
  rintro rfl
  exact h (UInt32.lt_iff_toNat_lt.mp (UInt32.pos_iff_ne_zero.mpr bounds.minSamples.property))

lemma summarize_averageFps (h : samples ≠ []) :
    (summarizeBy rounding samples).meanFps = averageFps rounding samples := by
  rw [summarizeBy, if_neg (by simpa using h)]
  dsimp only
  rw [sumFps_totals, divisor_totals, averageFps]

lemma lt_totalErrors : bounds.maxErrors < (summarizeBy rounding samples).totalErrors ↔
    bounds.maxErrors < maxU64 ∧ bounds.maxErrors.toNat < errorSum samples := by
  have hm : maxU64.toNat = 2 ^ 64 - 1 := rfl
  rw [UInt64.lt_iff_toNat_lt, UInt64.lt_iff_toNat_lt, totalErrors_toNat, hm, errorSum]
  omega

lemma forall_grounds : (∀ reason, ¬ Grounds rounding baseline candidate bounds reason) ↔
    ¬ Grounds rounding baseline candidate bounds .insufficientSamples ∧
    ¬ Grounds rounding baseline candidate bounds .temperatureExceeded ∧
    ¬ Grounds rounding baseline candidate bounds .powerExceeded ∧
    ¬ Grounds rounding baseline candidate bounds .errorsExceeded ∧
    ¬ Grounds rounding baseline candidate bounds .insufficientImprovement := by
  constructor
  · exact fun h => ⟨h _, h _, h _, h _, h _⟩
  · rintro ⟨h₁, h₂, h₃, h₄, h₅⟩ reason
    cases reason <;> first | assumption | exact id

lemma promote_iff_grounds : (evaluateBy rounding baseline candidate bounds).decision = .promote ↔
    ∀ reason, ¬ Grounds rounding baseline candidate bounds reason := by
  rw [forall_grounds, promote_iff, ← UInt64.not_lt, ← UInt64.not_lt, ← UInt64.not_lt, samples_lt,
    samples_lt, lt_totalErrors, Grounds, not_or]
  refine and_congr_right fun ⟨hb, hc⟩ => ?_
  rw [lt_maxTemperatureC _ (samples_ne_nil hc), lt_maxPowerW _ (samples_ne_nil hc),
    summarize_averageFps (samples_ne_nil hb), summarize_averageFps (samples_ne_nil hc)]
  simp [Grounds, fpsGain]

def firstReason (baseline candidate : List MetricSample) (bounds : DecisionBounds) : VerdictReason :=
  if baseline.length < bounds.minSamples.val.toNat ∨
      candidate.length < bounds.minSamples.val.toNat then .insufficientSamples
  else if ∃ sample ∈ candidate, bounds.maxTemperatureC.toRat < sample.temperatureC.toRat then
    .temperatureExceeded
  else if ∃ sample ∈ candidate, bounds.maxPowerW.toRat < sample.powerW.toRat then .powerExceeded
  else if bounds.maxErrors.toNat < errorSum candidate then .errorsExceeded
  else if meanFps candidate - meanFps baseline < bounds.minFpsImprovement.toRat then
    .insufficientImprovement
  else .promoted

structure DecisionBounds.Finite (bounds : DecisionBounds) : Prop where
  minFpsImprovement : bounds.minFpsImprovement.isFinite = true
  maxTemperatureC : bounds.maxTemperatureC.isFinite = true
  maxPowerW : bounds.maxPowerW.isFinite = true

structure DecisionBounds.Tightens (tight loose : DecisionBounds) : Prop where
  minSamples : loose.minSamples.val ≤ tight.minSamples.val
  minFpsImprovement : loose.minFpsImprovement ≤ tight.minFpsImprovement
  maxTemperatureC : tight.maxTemperatureC ≤ loose.maxTemperatureC
  maxPowerW : tight.maxPowerW ≤ loose.maxPowerW
  maxErrors : tight.maxErrors ≤ loose.maxErrors

lemma reason_eq (hb : ∀ sample ∈ baseline, sample.Finite) (hc : ∀ sample ∈ candidate, sample.Finite)
    (hbounds : bounds.Finite) (he : bounds.maxErrors < maxU64) :
    (evaluate baseline candidate bounds).reason = firstReason baseline candidate bounds := by
  rw [evaluate, evaluateBy, firstReason]
  dsimp only
  simp only [samples_lt]
  refine if_ctx_congr Iff.rfl (fun _ => rfl) fun hn => ?_
  obtain ⟨hnb, hnc⟩ := not_or.mp hn
  have ht : (summarize candidate).maxTemperatureC > bounds.maxTemperatureC ↔
      ∃ sample ∈ candidate, bounds.maxTemperatureC.toRat < sample.temperatureC.toRat := by
    refine (lt_maxTemperatureC _ (samples_ne_nil hnc) _).trans (exists_congr fun sample => ?_)
    refine and_congr_right fun hs => ?_
    exact F64.lt_iff_toRat hbounds.maxTemperatureC (hc sample hs).temperatureC
  have hp : (summarize candidate).maxPowerW > bounds.maxPowerW ↔
      ∃ sample ∈ candidate, bounds.maxPowerW.toRat < sample.powerW.toRat := by
    refine (lt_maxPowerW _ (samples_ne_nil hnc) _).trans (exists_congr fun sample => ?_)
    refine and_congr_right fun hs => ?_
    exact F64.lt_iff_toRat hbounds.maxPowerW (hc sample hs).powerW
  have herr : (summarize candidate).totalErrors > bounds.maxErrors ↔
      bounds.maxErrors.toNat < errorSum candidate :=
    lt_totalErrors.trans (and_iff_right he)
  have hg : ((summarize candidate).meanFps - (summarize baseline).meanFps).round .finite ≥
      bounds.minFpsImprovement ↔
        ¬ meanFps candidate - meanFps baseline < bounds.minFpsImprovement.toRat := by
    rw [summarize_meanFps (samples_ne_nil hnb) fun sample hs => (hb sample hs).fps,
      summarize_meanFps (samples_ne_nil hnc) fun sample hs => (hc sample hs).fps, F64.sub_finite,
      F64.round_exact,
      ← F64.finite_toRat hbounds.minFpsImprovement, F64.toRat_finite, not_lt]
    exact F64.le_finite
  simp only [ht, hp, herr, hg, ite_not]

lemma decision_iff : (evaluate baseline candidate bounds).decision = .promote ↔
    (evaluate baseline candidate bounds).reason = .promoted := by
  have hd : (evaluate baseline candidate bounds).decision =
      if (evaluate baseline candidate bounds).reason = .promoted then .promote else .reject := rfl
  by_cases h : (evaluate baseline candidate bounds).reason = .promoted
  · rw [hd, if_pos h]
    exact iff_of_true rfl h
  · rw [hd, if_neg h]
    exact iff_of_false nofun h

lemma meanFps_perm {samples' : List MetricSample} (h : samples.Perm samples') :
    meanFps samples = meanFps samples' := by
  rw [meanFps, meanFps, (h.map _).sum_eq, h.length_eq]

lemma summarize_perm {samples' : List MetricSample} (h : samples.Perm samples')
    (hf : ∀ sample ∈ samples, sample.Finite) : summarize samples = summarize samples' := by
  by_cases hn : samples = []
  · subst hn
    rw [List.nil_perm.mp h]
  have hn' : samples' ≠ [] := fun hn' => hn (List.perm_nil.mp (hn' ▸ h))
  have hs : (summarize samples).samples = (summarize samples').samples := by
    rw [← UInt64.toNat_inj, summarize_samples, summarize_samples, h.length_eq]
  have hm : (summarize samples).meanFps = (summarize samples').meanFps := by
    rw [summarize_meanFps hn fun sample hs => (hf sample hs).fps, summarize_meanFps hn' fun sample hs =>
      (hf sample (h.mem_iff.mpr hs)).fps, meanFps_perm h]
  have ht : (summarize samples).maxTemperatureC = (summarize samples').maxTemperatureC := by
    rw [summarize_maxTemperatureC _ hn, summarize_maxTemperatureC _ hn']
    exact F64.foldl_max_perm (h.map _) nofun
  have hp : (summarize samples).maxPowerW = (summarize samples').maxPowerW := by
    rw [summarize_maxPowerW _ hn, summarize_maxPowerW _ hn']
    exact F64.foldl_max_perm (h.map _) nofun
  have he : (summarize samples).totalErrors = (summarize samples').totalErrors := by
    rw [← UInt64.toNat_inj, totalErrors_toNat, totalErrors_toNat, (h.map _).sum_eq]
  calc summarize samples
      = ⟨(summarize samples).samples, (summarize samples).meanFps,
          (summarize samples).maxTemperatureC, (summarize samples).maxPowerW,
          (summarize samples).totalErrors⟩ := rfl
    _ = summarize samples' := by rw [hs, hm, ht, hp, he]

lemma Grounds.tighten {tight : DecisionBounds} (h : tight.Tightens bounds) {reason : VerdictReason}
    (hg : Grounds rounding baseline candidate bounds reason) :
    Grounds rounding baseline candidate tight reason := by
  cases reason with
  | promoted => exact hg
  | insufficientSamples =>
    have hm := UInt32.le_iff_toNat_le.mp h.minSamples
    exact hg.imp (fun hb => hb.trans_le hm) fun hc => hc.trans_le hm
  | temperatureExceeded =>
    obtain ⟨sample, hs, hlt⟩ := hg
    exact ⟨sample, hs, F64.lt_of_le_of_lt h.maxTemperatureC hlt⟩
  | powerExceeded =>
    obtain ⟨sample, hs, hlt⟩ := hg
    exact ⟨sample, hs, F64.lt_of_le_of_lt h.maxPowerW hlt⟩
  | errorsExceeded =>
    obtain ⟨hlt, hsum⟩ := hg
    exact ⟨UInt64.lt_of_le_of_lt h.maxErrors hlt,
      (UInt64.le_iff_toNat_le.mp h.maxErrors).trans_lt hsum⟩
  | insufficientImprovement =>
    intro hle
    exact hg (F64.le_trans h.minFpsImprovement hle)

theorem evaluate_characterised (hb : ∀ sample ∈ baseline, sample.Finite)
    (hc : ∀ sample ∈ candidate, sample.Finite) (hbounds : bounds.Finite)
    (he : bounds.maxErrors < maxU64) :
    (evaluate baseline candidate bounds).reason = firstReason baseline candidate bounds ∧
      ((evaluate baseline candidate bounds).decision = .promote ↔
        (evaluate baseline candidate bounds).reason = .promoted) ∧
      (∀ baseline' candidate', baseline.Perm baseline' → candidate.Perm candidate' →
        evaluate baseline candidate bounds = evaluate baseline' candidate' bounds) ∧
      ∀ tight : DecisionBounds, tight.Tightens bounds →
        (evaluate baseline candidate bounds).decision = .reject →
          (evaluate baseline candidate tight).decision = .reject := by
  refine ⟨reason_eq hb hc hbounds he, decision_iff, fun baseline' candidate' hpb hpc => ?_,
    fun tight ht hr => ?_⟩
  · have hbs : summarizeBy .finite baseline = summarizeBy .finite baseline' := summarize_perm hpb hb
    have hcs : summarizeBy .finite candidate = summarizeBy .finite candidate' :=
      summarize_perm hpc hc
    rw [evaluate, evaluateBy, evaluateBy, hbs, hcs]
  · cases hd : (evaluate baseline candidate tight).decision with
    | reject => rfl
    | promote =>
      have hp := promote_iff_grounds.mpr fun reason hg => promote_iff_grounds.mp hd reason (hg.tighten ht)
      cases hr.symm.trans hp

def steadySamples (fps : F64) : List MetricSample := List.replicate 5 ⟨fps, 70, 180, 0⟩

theorem evaluate_characterised_steady :
    firstReason (steadySamples 100) (steadySamples 120) ⟨⟨3, by decide⟩, 5, 80, 200, 0⟩ = .promoted ∧
      (evaluate (steadySamples 100) (steadySamples 120) ⟨⟨3, by decide⟩, 5, 80, 200, 0⟩).reason =
        firstReason (steadySamples 100) (steadySamples 120) ⟨⟨3, by decide⟩, 5, 80, 200, 0⟩ := by
  have hf : ∀ fps : F64, fps.isFinite = true → ∀ sample ∈ steadySamples fps, sample.Finite := by
    intro fps hf sample hs
    rw [List.eq_of_mem_replicate hs]
    exact ⟨hf, rfl, rfl⟩
  exact ⟨by decide +kernel,
    (evaluate_characterised (hf 100 rfl) (hf 120 rfl) ⟨rfl, rfl, rfl⟩ (by decide)).1⟩

end FpsMaxxing
