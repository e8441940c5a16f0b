import FpsMaxxing.Runner.Trial
import Mathlib.Algebra.Order.BigOperators.Group.List

/-! A promotion lies inside the policy envelope whatever thresholds its specification declares. -/

namespace FpsMaxxing

open Effects Numeric Serde

structure Envelope (spec : ExperimentSpec) (baseline candidate : List MetricSample) : Prop where
  minSamples : 1 ≤ spec.bounds.minSamples.val.toNat
  baselineCount : spec.bounds.minSamples.val.toNat ≤ baseline.length ∧
    baseline.length = spec.baselineSamples.val.toNat
  candidateCount : spec.bounds.minSamples.val.toNat ≤ candidate.length ∧
    candidate.length = spec.candidateSamples.val.toNat
  finite : ∀ sample ∈ baseline ++ candidate, sample.Finite
  temperature : ∀ sample ∈ candidate, sample.temperatureC ≤ 90
  power : ∀ sample ∈ candidate, sample.powerW ≤ 250
  errors : ∀ sample ∈ candidate, sample.errors = 0
  gain : meanFps baseline ≤ meanFps candidate

lemma le_ceiling {x bound : F64} {ceiling : ℚ} (hx : x.isFinite = true)
    (hb : ∃ q, bound = .finite q ∧ 0 < q ∧ q ≤ ceiling) (h : ¬ bound < x) :
    x ≤ .finite ceiling := by
  obtain ⟨p, rfl⟩ := F64.isFinite_iff.mp hx
  obtain ⟨q, rfl, _, hq⟩ := hb
  rw [F64.le_finite]
  rw [F64.lt_finite, not_lt] at h
  exact h.trans hq

lemma errors_eq_zero {samples : List MetricSample} (h : (summarize samples).totalErrors ≤ 0)
    {sample : MetricSample} (hs : sample ∈ samples) : sample.errors = 0 := by
  have ht : (summarize samples).totalErrors.toNat = 0 := by
    rw [UInt64.le_zero_iff.mp h]
    rfl
  rw [totalErrors_toNat] at ht
  have hle := List.single_le_sum (fun _ _ => Nat.zero_le _) _
    (List.mem_map_of_mem (f := fun sample : MetricSample => sample.errors.toNat) hs)
  rw [← UInt64.toNat_inj]
  change sample.errors.toNat = 0
  omega

lemma envelope_of_promote {spec : ExperimentSpec} {value : UInt64}
    {baseline candidate : List MetricSample} (h : spec.Legal value)
    (hb : baseline.length = spec.baselineSamples.val.toNat)
    (hc : candidate.length = spec.candidateSamples.val.toNat)
    (fb : ∀ sample ∈ baseline, sample.Finite) (fc : ∀ sample ∈ candidate, sample.Finite)
    (hp : (evaluate baseline candidate spec.bounds).decision = .promote) :
    Envelope spec baseline candidate := by
  obtain ⟨_, ht, hw, he, hg⟩ := (promote_iff _).mp hp
  have hm : 1 ≤ spec.bounds.minSamples.val.toNat :=
    Nat.one_le_iff_ne_zero.mpr fun h0 => spec.bounds.minSamples.property (UInt32.toNat_inj.mp h0)
  have hmb := UInt32.le_iff_toNat_le.mp h.baselineSamples.1
  have hmc := UInt32.le_iff_toNat_le.mp h.candidateSamples.1
  have hnb : baseline ≠ [] := by
    rintro rfl
    simp at hb
    omega
  have hnc : candidate ≠ [] := by
    rintro rfl
    simp at hc
    omega
  rw [h.bounds.maxErrors] at he
  rw [lt_maxTemperatureC _ hnc] at ht
  rw [lt_maxPowerW _ hnc] at hw
  rw [F64.round_exact, summarize_meanFps hnb fun s hs => (fb s hs).fps,
    summarize_meanFps hnc fun s hs => (fc s hs).fps] at hg
  exact {
    minSamples := hm
    baselineCount := ⟨by omega, hb⟩
    candidateCount := ⟨by omega, hc⟩
    finite := fun s hs => (List.mem_append.mp hs).elim (fb s) (fc s)
    temperature := fun s hs => le_ceiling (fc s hs).temperatureC h.bounds.maxTemperatureC
      fun hlt => ht ⟨s, hs, hlt⟩
    power := fun s hs => le_ceiling (fc s hs).powerW h.bounds.maxPowerW
      fun hlt => hw ⟨s, hs, hlt⟩
    errors := fun s hs => errors_eq_zero he hs
    gain := by
      obtain ⟨q, hq, hq0⟩ := h.bounds.minFpsImprovement
      rw [hq, F64.sub_finite, F64.le_finite] at hg
      exact sub_nonneg.mp (hq0.trans hg) }

def LifecycleRule (spec : ExperimentSpec) (events : List PlaneCalls.Event) (o : PlaneOp) : Prop :=
  ∀ request, o = .runLifecycle request → request = spec.target ∧
    ∃ (snapshot : StateSnapshot) (baseline candidate : UInt64),
      (⟨.snapshot, .ok snapshot⟩ : PlaneCalls.Event) ∈ events ∧
      (snapshot.state.get "value" >>= Value.asU64) = some baseline ∧
      (spec.target.parameters.get "value" >>= Value.asU64) = some candidate ∧
      Envelope spec (measure baseline spec.warmupSamples spec.baselineSamples.val)
        (measure candidate spec.warmupSamples spec.candidateSamples.val)

lemma envelope_of_measure {spec : ExperimentSpec} {baseline candidate : UInt64}
    (h : spec.Legal candidate)
    (hp : (evaluate (measure baseline spec.warmupSamples spec.baselineSamples.val)
      (measure candidate spec.warmupSamples spec.candidateSamples.val) spec.bounds).decision =
        .promote) :
    Envelope spec (measure baseline spec.warmupSamples spec.baselineSamples.val)
      (measure candidate spec.warmupSamples spec.candidateSamples.val) := by
  exact envelope_of_promote h (by simp [measure_eq]) (by simp [measure_eq]) (measure_finite _ _ _)
    (measure_finite _ _ _) hp

lemma runTrial_obeys (plane : ControlPlane) (spec : ExperimentSpec) :
    (runTrial plane spec).run.Obeys (.history (LifecycleRule spec)) [] fun _ _ => True := by
  have hrule : ∀ events o, (∀ request, o ≠ .runLifecycle request) → LifecycleRule spec events o :=
    fun events o ho request h => absurd h (ho request)
  rw [runTrial, Program.obeys_run_bind, ExceptT.run_mk]
  cases hv : validate plane.manifest spec with
  | error e => trivial
  | ok candidate =>
    have hs := (validate_eq_ok.mp hv).2
    simp only [Program.pure_eq, Program.obeys_done]
    rw [baselineValue, Program.obeys_run_bind, Program.obeys_run_bind, Program.obeys_mapErr,
      obeys_ask]
    refine ⟨hrule _ _ (fun request h => by cases h), ?_⟩
    rintro (e | snapshot)
    · trivial
    simp only [Except.mapError, ExceptT.run_mk, Program.pure_eq, Program.obeys_done]
    cases hb : checkBaseline snapshot with
    | error e => trivial
    | ok baseline =>
      obtain ⟨hsb, _⟩ := checkBaseline_eq_ok.mp hb
      dsimp only
      rw [Program.obeys_run_lift_bind]
      cases hd : (evaluate (measure baseline spec.warmupSamples spec.baselineSamples.val)
          (measure candidate spec.warmupSamples spec.candidateSamples.val) spec.bounds).decision with
      | promote =>
        rw [Program.obeys_map, obeys_ask]
        refine ⟨?_, fun outcome => ?_⟩
        · rintro request ⟨⟩
          exact ⟨rfl, snapshot, baseline, candidate, by simp [Monitor.history], hsb, hs.requested,
            envelope_of_measure hs hd⟩
        · rw [Program.obeys_run_lift_bind, obeys_ask]
          exact ⟨hrule _ _ (fun request h => by cases h), fun journaled => trivial⟩
      | reject =>
        dsimp only
        rw [Program.obeys_done, Program.obeys_run_lift_bind, obeys_ask]
        exact ⟨hrule _ _ (fun request h => by cases h), fun journaled => trivial⟩

lemma Verdict.decision_of_equals {a b : Verdict} (h : a.equals b = true) :
    a.decision = b.decision := by
  simp only [Verdict.equals, Bool.and_eq_true, beq_iff_eq] at h
  exact h.1.1.1.1

lemma envelope_of_replay {decodeError : Value → String} {id : ℤ} {payload : Value}
    {outcome : ReplayOutcome} (h : replay decodeError id payload = .ok outcome)
    (hc : outcome.isConsistent = true) (hl : outcome.policyLegal = true)
    (hd : outcome.recorded.decision = .promote) :
    ∃ record : TrialRecord, fromValue payload = some record ∧ record.verdict = outcome.recorded ∧
      Envelope record.spec record.baselineSamples record.candidateSamples := by
  obtain ⟨record, hr, _, hv, hre, hlegal⟩ := replay_eq_ok h
  have hgate := hlegal.mp hl
  have hp : outcome.recomputed.decision = .promote := (Verdict.decision_of_equals hc).symm.trans hd
  obtain ⟨fb, fc⟩ := TrialRecord.finite_of_fromValue hr
  rw [hre] at hp
  exact ⟨record, hr, hv.symm,
    envelope_of_promote hgate.spec hgate.baselineSamples hgate.candidateSamples fb fc hp⟩

theorem promotion_in_envelope {σ W : Type} (planeSem : Semantics PlaneCalls W) (P : Provider σ)
    (plane : ControlPlane) (decodeError : Value → String) :
    (∀ spec w tr q v request, Steps planeSem (runTrial plane spec).run w tr q v →
      q.nextOp = some (.runLifecycle request) → request = spec.target ∧
        ∃ snapshot baseline candidate,
          (⟨.snapshot, .ok snapshot⟩ : PlaneCalls.Event) ∈ tr.map Entry.event ∧
          (snapshot.state.get "value" >>= Value.asU64) = some baseline ∧
          (spec.target.parameters.get "value" >>= Value.asU64) = some candidate ∧
          Envelope spec (measure baseline spec.warmupSamples spec.baselineSamples.val)
            (measure candidate spec.warmupSamples spec.candidateSamples.val)) ∧
    ∀ id w tr outcome v,
      Steps (sem P) ((replayTrial decodeError id).run.interpret plane.handle) w tr
        (.done (.ok outcome)) v →
      outcome.isConsistent = true → outcome.policyLegal = true →
      outcome.recorded.decision = .promote →
      ∃ trial ∈ w.db.trials, trial.id = id ∧ ∃ record : TrialRecord,
        fromValue trial.payload = some record ∧ record.verdict = outcome.recorded ∧
          Envelope record.spec record.baselineSamples record.candidateSamples := by
  constructor
  · intro spec w tr q v request hs hn
    exact hs.allows_of_history (runTrial_obeys plane spec) hn request rfl
  · intro id w tr outcome v hs hc hl hd
    obtain ⟨_, hreplay⟩ := (replayTrial_ensures plane decodeError id).steps hs
    obtain ⟨trial, ht, hid, hr⟩ := hreplay outcome rfl
    exact ⟨trial, ht, hid, envelope_of_replay hr hc hl hd⟩

def answering (value : UInt64) (_ : Unit) : (o : PlaneOp) → o.Res × Unit
  | .snapshot => (.ok ⟨"mock", .object [("value", toValue value)]⟩, ())
  | .runLifecycle _ => (.ok ⟨"mock", "", true, true⟩, ())
  | .recordTrial _ => (.ok 1, ())
  | .readTrial id => (.error (.unknownTrial id), ())

def promotedRecord : TrialRecord :=
  recordOf (specForValue 40) 7 40 (measure 7 2 5) (measure 40 2 5)
    (some (.ok ⟨"mock", "", true, true⟩))

def promotedWorld : World UInt64 := ⟨⟨true, [], [⟨1, toValue promotedRecord⟩]⟩, 7⟩

def promotedReplay : ReplayOutcome :=
  ⟨1, promotedRecord.verdict, promotedRecord.verdict, true, none⟩

theorem promotion_in_envelope_mock :
    (∃ snapshot baseline candidate,
      (⟨.snapshot, .ok snapshot⟩ : PlaneCalls.Event) ∈
        ((runTrial (mockProvider "linux").provider.plane (specForValue 40)).run.advance
          (answering 7) 1 ()).1.map Entry.event ∧
      (snapshot.state.get "value" >>= Value.asU64) = some baseline ∧
      ((specForValue 40).target.parameters.get "value" >>= Value.asU64) = some candidate ∧
      Envelope (specForValue 40) (measure baseline 2 5) (measure candidate 2 5)) ∧
    ∃ trial ∈ promotedWorld.db.trials, trial.id = 1 ∧ ∃ record : TrialRecord,
      fromValue trial.payload = some record ∧ record.verdict = promotedReplay.recorded ∧
        Envelope record.spec record.baselineSamples record.candidateSamples := by
  have h := promotion_in_envelope (W := Unit) (fun _ o r _ => r = (answering 7 () o).1)
    (mockProvider "linux").provider (mockProvider "linux").provider.plane fun _ => ""
  refine ⟨(h.1 (specForValue 40) () _ _ _ (specForValue 40).target
    (Program.advance_steps (fun _ _ => rfl) 1 _ ()) (by decide +kernel)).2, ?_⟩
  refine h.2 1 promotedWorld _ promotedReplay _ (Program.advance_done (n := 1)
    (Device.answer_sem (mockProvider "linux")) ?_) ?_ rfl ?_
  all_goals decide +kernel

end FpsMaxxing
