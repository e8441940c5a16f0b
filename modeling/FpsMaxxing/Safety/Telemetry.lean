import FpsMaxxing.Numeric.Binary64
import FpsMaxxing.Runner.Trial
import FpsMaxxing.Runner.Verdict

/-! Telemetry that was lost: what a promotion says of readings that are not numbers. -/

namespace FpsMaxxing

open Numeric

variable {rounding : ℚ → F64} {baseline candidate : List MetricSample} {bounds : DecisionBounds}

def InBounds (candidate : List MetricSample) (bounds : DecisionBounds) : Prop :=
  ∀ sample ∈ candidate, sample.temperatureC ≤ bounds.maxTemperatureC ∧
    sample.powerW ≤ bounds.maxPowerW

instance : Decidable (InBounds candidate bounds) :=
  inferInstanceAs (Decidable (∀ sample ∈ candidate, _ ∧ _))

structure Legible (candidate : List MetricSample) (bounds : DecisionBounds) : Prop where
  maxTemperatureC : bounds.maxTemperatureC ≠ .nan
  maxPowerW : bounds.maxPowerW ≠ .nan
  readings : ∀ sample ∈ candidate, sample.temperatureC ≠ .nan ∧ sample.powerW ≠ .nan

lemma InBounds.legible (h : InBounds candidate bounds) (hn : candidate ≠ []) :
    Legible candidate bounds := by
  have hne : ∀ {x y : F64}, x ≤ y → x ≠ .nan ∧ y ≠ .nan := by
    rintro x y hle
    constructor <;> rintro rfl
    · exact F64.not_nan_le hle
    · exact F64.not_le_nan hle
  obtain ⟨sample, hs⟩ := List.exists_mem_of_ne_nil _ hn
  obtain ⟨ht, hp⟩ := h sample hs
  refine ⟨(hne ht).2, (hne hp).2, fun sample hs => ?_⟩
  obtain ⟨ht, hp⟩ := h sample hs
  exact ⟨(hne ht).1, (hne hp).1⟩

lemma Legible.inBounds (h : Legible candidate bounds)
    (ht : ¬ Grounds rounding baseline candidate bounds .temperatureExceeded)
    (hp : ¬ Grounds rounding baseline candidate bounds .powerExceeded) : InBounds candidate bounds := by
  intro sample hs
  obtain ⟨hst, hsp⟩ := h.readings sample hs
  have hle := F64.not_lt_iff.mp fun hlt => ht ⟨sample, hs, hlt⟩
  have hle' := F64.not_lt_iff.mp fun hlt => hp ⟨sample, hs, hlt⟩
  simp only [h.maxTemperatureC, hst, false_or] at hle
  simp only [h.maxPowerW, hsp, false_or] at hle'
  exact ⟨hle, hle'⟩

/-- On whatever machine: a promotion vouches for the readings exactly when all of them can be
compared, or something else in the trial rejects it. -/
theorem promoted_in_bounds_iff (rounding : ℚ → F64) (baseline candidate : List MetricSample)
    (bounds : DecisionBounds) :
    ((evaluateBy rounding baseline candidate bounds).decision = .promote →
        InBounds candidate bounds) ↔
      Legible candidate bounds ∨ ∃ reason, Grounds rounding baseline candidate bounds reason := by
  rw [promote_iff_grounds]
  constructor
  · intro h
    by_cases hg : ∃ reason, Grounds rounding baseline candidate bounds reason
    · exact .inr hg
    · have hg := not_exists.mp hg
      have hn := samples_ne_nil (not_or.mp (hg .insufficientSamples)).2
      exact .inl ((h hg).legible hn)
  · rintro (hl | ⟨reason, hr⟩) hg
    · exact hl.inBounds (hg _) (hg _)
    · exact absurd hr (hg reason)

def deafSamples (fps : F64) : List MetricSample :=
  [⟨fps, 70, 180, 0⟩, ⟨fps, .nan, 180, 0⟩, ⟨fps, 70, 180, 0⟩]

def steadyBounds : DecisionBounds := (specForValue 40).bounds

-- the gain of 5 is missed by what the sum of five frame rates loses
example : (evaluateBy binary64 (steadySamples (binary64 (1001 / 10)))
    (deafSamples (binary64 (1051 / 10))) steadyBounds).decision = .reject := by decide +kernel

theorem promoted_without_reading : ¬ ∀ baseline candidate bounds,
    (evaluateBy binary64 baseline candidate bounds).decision = .promote →
      InBounds candidate bounds := by
  intro h
  have hp : (evaluateBy binary64 (steadySamples 100) (deafSamples 120) steadyBounds).decision =
      .promote := by decide +kernel
  obtain ⟨ht, _⟩ := h _ _ _ hp ⟨120, .nan, 180, 0⟩ (by simp [deafSamples])
  exact F64.not_nan_le ht

end FpsMaxxing
