import FpsMaxxing.Runner.Trial

/-! The records a trial journals, and what a replay makes of them. -/

namespace FpsMaxxing

open Effects Numeric Serde

def Decision.LeadsTo : Decision → Option (Except ControlPlaneError LifecycleResult) → Prop
  | .promote, some (.ok result) => result.verified = true ∧ result.rolledBack = true
  | .promote, some (.error _) => True
  | .promote, none => False
  | .reject, outcome => outcome = none

lemma roundTrips_recordOf {spec : ExperimentSpec} {candidate : UInt64} (hs : spec.Legal candidate)
    (baseline : UInt64) (outcome : Option (Except ControlPlaneError LifecycleResult)) :
    RoundTrips (recordOf spec baseline candidate
      (measure baseline spec.warmupSamples spec.baselineSamples.val)
      (measure candidate spec.warmupSamples spec.candidateSamples.val) outcome) := by
  obtain ⟨ht, hti, _⟩ := hs.bounds.maxTemperatureC
  obtain ⟨hp, hpi, _⟩ := hs.bounds.maxPowerW
  obtain ⟨hi, hii, _⟩ := hs.bounds.minFpsImprovement
  refine roundTrips_record (roundTrips_spec (roundTrips_bounds ?_ ?_ ?_) ?_) ?_ ?_ ?_
  · exact F64.isFinite_iff.mpr ⟨_, hii⟩
  · exact F64.isFinite_iff.mpr ⟨_, hti⟩
  · exact F64.isFinite_iff.mpr ⟨_, hpi⟩
  · obtain ⟨v, hv, _⟩ := Option.bind_eq_some_iff.mp hs.requested
    exact Value.isObject_of_get hv
  · exact RoundTrips.list fun sample hm => (measure_finite _ _ _ sample hm).roundTrips
  · exact RoundTrips.list fun sample hm => (measure_finite _ _ _ sample hm).roundTrips
  · exact (evaluate_finite (measure_finite _ _ _) (measure_finite _ _ _)).roundTrips

structure Honest (spec : ExperimentSpec) (baseline candidate : UInt64)
    (outcome : Option (Except ControlPlaneError LifecycleResult)) (record : TrialRecord) :
    Prop where
  legal : spec.Legal candidate
  inPolicy : baseline ≤ maxMockValue
  built : record = recordOf spec baseline candidate
    (measure baseline spec.warmupSamples spec.baselineSamples.val)
    (measure candidate spec.warmupSamples spec.candidateSamples.val) outcome
  leads : record.verdict.decision.LeadsTo outcome

namespace Honest

variable {spec : ExperimentSpec} {baseline candidate : UInt64}
  {outcome : Option (Except ControlPlaneError LifecycleResult)} {record : TrialRecord}

section

variable (h : Honest spec baseline candidate outcome record)

include h

lemma verdict_finite : record.verdict.Finite := by
  rw [h.built]
  exact evaluate_finite (measure_finite _ _ _) (measure_finite _ _ _)

lemma verdict_eq : evaluate record.baselineSamples record.candidateSamples record.spec.bounds =
    record.verdict := by
  rw [h.built]
  rfl

lemma record_legal : record.Legal := by
  obtain ⟨hs, hb, rfl, hl⟩ := h
  refine ⟨hs, hb, by simp [recordOf, measure_eq], by simp [recordOf, measure_eq], fun hd => ?_,
    fun hd => ?_, fun lifecycle hlc => ?_⟩
  · rw [hd] at hl
    match outcome, hl with
    | some (.ok result), _ => simp [recordOf]
    | some (.error e), _ => simp [recordOf]
  · rw [hd] at hl
    cases hl
    exact ⟨rfl, rfl⟩
  · match outcome, hlc with
    | some (.ok result), hlc =>
      cases hlc
      generalize (recordOf _ _ _ _ _ _).verdict.decision = decision at hl
      cases decision with
      | promote => exact hl
      | reject => cases hl

lemma record_roundTrips : RoundTrips record := by
  rw [h.built]
  exact roundTrips_recordOf h.legal _ outcome

lemma replay_eq (decodeError : Value → String) (id : ℤ) :
    replay decodeError id (toValue record) = .ok ⟨id, record.verdict, record.verdict, true, none⟩ := by
  have hv : (toValue record).get "schema_version" = some (toValue record.schemaVersion) := rfl
  have hn : record.schemaVersion = trialRecordVersion := by
    rw [h.built]
    rfl
  have hd : fromValue (toValue record) = some record := h.record_roundTrips
  have hp : checkPolicy record = .ok () := checkPolicy_eq_ok.mpr h.record_legal
  simp only [replay, bind_eq_ok, okOr_eq_ok, rejectIf_eq_ok, pure_eq_ok, exists_const]
  refine ⟨trialRecordVersion, ?_, not_not.mpr rfl, record, hd, ?_⟩
  · rw [hv, hn]
    exact fromValue_toValue trialRecordVersion
  · rw [hp, h.verdict_eq]
    rfl

lemma consistent : record.verdict.equals record.verdict = true := h.verdict_finite.equals_self

end

end Honest

end FpsMaxxing
