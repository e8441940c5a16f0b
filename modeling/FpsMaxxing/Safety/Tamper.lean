import FpsMaxxing.Safety.HonestReplay

/-! What a replay can tell of a trial row that was rewritten: it has no second copy of the record,
so it holds each field only to the policy and to the other fields. -/

namespace FpsMaxxing

open Effects Numeric Serde

variable {σ : Type}

lemma Numeric.F64.eq_of_equals {x y : F64} (h : x.equals y = true) : x = y := by
  cases x <;> cases y <;> simp_all [F64.equals]

lemma MetricSummary.eq_of_equals {a b : MetricSummary} (h : a.equals b = true) : a = b := by
  simp only [equals, Bool.and_eq_true, beq_iff_eq] at h
  obtain ⟨⟨⟨⟨hn, hf⟩, ht⟩, hp⟩, he⟩ := h
  have hf := F64.eq_of_equals hf
  have ht := F64.eq_of_equals ht
  have hp := F64.eq_of_equals hp
  cases a
  cases b
  simp_all

lemma Verdict.eq_of_equals {a b : Verdict} (h : a.equals b = true) : a = b := by
  simp only [equals, Bool.and_eq_true, beq_iff_eq] at h
  obtain ⟨⟨⟨⟨hd, hr⟩, hf⟩, hb⟩, hc⟩ := h
  have hf := F64.eq_of_equals hf
  have hb := MetricSummary.eq_of_equals hb
  have hc := MetricSummary.eq_of_equals hc
  cases a
  cases b
  simp_all

lemma version_of_fromValue {payload : Value} {record : TrialRecord}
    (ho : payload.isObject = true) (h : fromValue payload = some record) :
    (payload.get "schema_version" >>= fromValue) = some record.schemaVersion := by
  cases payload with
  | object fields =>
    simp only [fromValue, structFields, Option.bind_eq_bind, Option.bind_eq_some_iff,
      Option.ite_none_right_eq_some] at h
    obtain ⟨_, ⟨_, h⟩, hd⟩ := h
    cases h
    simp only [Option.pure_def, List.map_cons, List.map_nil, Option.bind_eq_some_iff,
      Option.some.injEq] at hd
    obtain ⟨version, hver, _, _, _, _, _, _, _, _, _, _, _, _, _, _, _, _, rfl⟩ := hd
    exact hver
  | _ => cases ho

def Accepted (result : Except RunnerError ReplayOutcome) : Prop :=
  ∃ outcome, result = .ok outcome ∧ outcome.isConsistent = true ∧ outcome.policyLegal = true

lemma accepted_iff {decodeError : Value → String} {id : ℤ} {payload : Value} :
    Accepted (replay decodeError id payload) ↔ payload.isObject = true ∧ ∃ record : TrialRecord,
      fromValue payload = some record ∧ record.schemaVersion = trialRecordVersion ∧ record.Legal ∧
        record.verdict =
          evaluate record.baselineSamples record.candidateSamples record.spec.bounds := by
  constructor
  · rintro ⟨outcome, hr, hc, hl⟩
    have hr' := hr
    simp only [replay, bind_eq_ok, okOr_eq_ok, rejectIf_eq_ok, pure_eq_ok, exists_const] at hr'
    obtain ⟨version, hver, hv, record, hd, _⟩ := hr'
    obtain ⟨record', hd', _, hrec, hre, hlegal⟩ := replay_eq_ok hr
    obtain rfl : record = record' := Option.some.inj (hd.symm.trans hd')
    obtain ⟨v, hg, _⟩ := Option.bind_eq_some_iff.mp hver
    have ho : payload.isObject = true := Value.isObject_of_get hg
    have hver' := version_of_fromValue ho hd
    refine ⟨ho, record, hd, ?_, hlegal.mp hl, ?_⟩
    · exact Option.some.inj (hver'.symm.trans (hver.trans (congrArg some (not_not.mp hv))))
    · rw [← hre, ← hrec]
      exact Verdict.eq_of_equals hc
  · rintro ⟨ho, record, hd, hv, hlegal, hverdict⟩
    have hver := version_of_fromValue ho hd
    obtain ⟨hb, hc⟩ := TrialRecord.finite_of_fromValue hd
    have hf : record.verdict.Finite := by
      rw [hverdict]
      exact evaluate_finite hb hc
    refine ⟨⟨id, record.verdict, record.verdict, true, none⟩, ?_, hf.equals_self, rfl⟩
    simp only [replay, bind_eq_ok, okOr_eq_ok, rejectIf_eq_ok, pure_eq_ok, exists_const]
    refine ⟨trialRecordVersion, hv ▸ hver, not_not.mpr rfl, record, hd, ?_⟩
    rw [(checkPolicy_eq_ok (u := ())).mpr hlegal, ← hverdict]
    rfl

structure Rewrite (record rewritten : TrialRecord) : Prop where
  schemaVersion : rewritten.schemaVersion = record.schemaVersion
  capabilityId : rewritten.spec.target.capabilityId = record.spec.target.capabilityId
  legal : rewritten.Legal
  verdict : rewritten.verdict =
    evaluate rewritten.baselineSamples rewritten.candidateSamples rewritten.spec.bounds

def TrialRecord.Untouched (record : TrialRecord) : Prop :=
  record.lifecycle = none ∧ record.lifecycleError = none

lemma TrialRecord.Legal.untouched_iff {record : TrialRecord} (h : record.Legal) :
    record.Untouched ↔ record.verdict.decision = .reject := by
  constructor
  · rintro ⟨hl, he⟩
    cases hd : record.verdict.decision with
    | reject => rfl
    | promote => exact absurd (by simp [hl, he]) (h.promoted hd)
  · exact h.rejected

def blindMock : Device UInt64 := { mockProvider "linux" with verify := fun _ _ => .ok false }

def blindTrial : App UInt64 := .trial blindMock.provider "linux" (specForValue 40)

def blindRecord : TrialRecord :=
  recordOf (specForValue 40) 7 40 (measure 7 2 5) (measure 40 2 5)
    (some (.error .verificationFailed))

lemma blindTrial_reach : (apps UInt64).Reach (Pool.init (World.initial 7))
    (blindMock.launch blindTrial 20 (World.initial 7)) :=
  Device.launch_run rfl _ _ trivial fun _ => trivial

lemma mockRecord_accepted : Accepted (replay (fun _ => "") 1 (toValue mockRecord)) :=
  ⟨⟨1, mockRecord.verdict, mockRecord.verdict, true, none⟩, by decide +kernel, by decide +kernel,
    rfl⟩

def tampered : World UInt64 :=
  let w := (blindMock.launch blindTrial 20 (World.initial 7)).world
  { w with db := { w.db with trials := [⟨1, toValue mockRecord⟩] } }

/-- The rewrites that the documentation lists: the samples with their verdict, the hypothesis and
the knob values. Nothing else differs. -/
structure DocumentedRewrite (record rewritten : TrialRecord) : Prop where
  schemaVersion : rewritten.schemaVersion = record.schemaVersion
  capabilityId : rewritten.spec.target.capabilityId = record.spec.target.capabilityId
  leaseSeconds : rewritten.spec.target.leaseSeconds = record.spec.target.leaseSeconds
  warmupSamples : rewritten.spec.warmupSamples = record.spec.warmupSamples
  baselineSamples : rewritten.spec.baselineSamples = record.spec.baselineSamples
  candidateSamples : rewritten.spec.candidateSamples = record.spec.candidateSamples
  bounds : rewritten.spec.bounds = record.spec.bounds
  lifecycle : rewritten.lifecycle = record.lifecycle
  lifecycleError : rewritten.lifecycleError = record.lifecycleError

end FpsMaxxing
