import FpsMaxxing.Safety.Denial
import FpsMaxxing.Safety.TrialOutcome

/-! The gate of the runner and the policy of the lifecycle, held against each other. -/

namespace FpsMaxxing

open Effects

variable {σ : Type}

def riskDenial : ControlPlaneError :=
  .policyDenied "only reversible mock capabilities are enabled"

def Reversible (manifest : ProviderManifest) (request : ChangeRequest) : Prop :=
  ∃ capability, manifest.capabilities.find? (fun item => item.id = request.capabilityId) =
    some capability ∧ capability.risk = .reversible

structure Agrees (manifest : ProviderManifest) (request : ChangeRequest) (value : UInt64) :
    Prop where
  requested : (request.parameters.get "value" >>= Value.asU64) = some value
  bounded : value ≤ maxMockValue
  accepted : Reversible manifest request → ControlPlane.validate ⟨manifest⟩ request = .ok ()
  denied : ¬ Reversible manifest request →
    ControlPlane.validate ⟨manifest⟩ request = .error riskDenial

lemma agrees_of_validate {manifest : ProviderManifest} {spec : ExperimentSpec} {value : UInt64}
    (h : validate manifest spec = .ok value) : Agrees manifest spec.target value := by
  obtain ⟨⟨offered, hm, hid⟩, hs⟩ := validate_eq_ok.mp h
  refine ⟨hs.requested, hs.value, fun hr => ?_, fun hr => ?_⟩
  · rw [ControlPlane.validate_eq_ok]
    exact ⟨hr, hs.leaseSeconds, value, hs.requested, hs.value⟩
  · rw [ControlPlane.validate]
    cases hf : manifest.capabilities.find? fun item => item.id = spec.target.capabilityId with
    | none =>
      have hn := List.find?_eq_none.mp hf offered hm
      simp [hid] at hn
    | some capability => exact if_pos fun hrisk => hr ⟨capability, hf, hrisk⟩

lemma denied_for_risk {others : World σ → World σ → Prop} {P : Provider σ} {spec : ExperimentSpec}
    {w v : World σ} {tr : Trace σ} {trialId : Option ℤ}
    {journalError : Option ControlPlaneError} {source : ControlPlaneError}
    (h : Steps (P.amid others) ((runTrial P.plane spec).run.interpret P.plane.handle) w tr
      (.done (.error (.lifecycleFailed trialId journalError source))) v) (hd : source.Denial) :
    source = riskDenial := by
  obtain ⟨hrefused, hran⟩ := trial_steps h
  cases hv : validate P.manifest spec with
  | error e =>
    obtain ⟨he, hearly, _⟩ := hrefused e hv
    cases he
    exact hearly.elim
  | ok candidate =>
    obtain ⟨answer, later, u, _, _, _, hbase, htried⟩ := hran candidate hv
    cases hb : baselineOf answer with
    | error e =>
      obtain ⟨he, hearly, _⟩ := hbase e hb
      cases he
      exact hearly.elim
    | ok baseline =>
      obtain ⟨outcome, lifecycle, x, inserted, record, ht⟩ := htried baseline hb
      obtain ⟨rfl, _⟩ := (ht.reports.lifecycleFailed _ _ _).mp rfl
      have henacted := ht.enacted
      cases hdec : record.verdict.decision with
      | reject =>
        rw [hdec] at henacted
        cases henacted.1
      | promote =>
        rw [hdec] at henacted
        obtain ⟨_, ⟨⟩, hs⟩ := henacted
        have hlogs := (P.plane.runLifecycle_logs spec.target).returned hs fun _ _ => trivial
        obtain ⟨_, hdenied⟩ := hlogs.1 source rfl hd
        have hagrees := agrees_of_validate hv
        by_cases hr : Reversible P.manifest spec.target
        · cases hdenied.symm.trans (hagrees.accepted hr)
        · exact Except.error.inj (hdenied.symm.trans (hagrees.denied hr))

theorem validators_agree (manifest : ProviderManifest) (spec : ExperimentSpec) :
    (∀ value, validate manifest spec = .ok value → Agrees manifest spec.target value) ∧
    ∀ (σ : Type) (others : World σ → World σ → Prop) (P : Provider σ), P.manifest = manifest →
      ∀ w tr trialId journalError source v,
        Steps (P.amid others) ((runTrial P.plane spec).run.interpret P.plane.handle) w tr
          (.done (.error (.lifecycleFailed trialId journalError source))) v →
        source.Denial → source = riskDenial := by
  refine ⟨fun value h => agrees_of_validate h, ?_⟩
  rintro σ others P rfl w tr trialId journalError source v hs hd
  exact denied_for_risk hs hd

def gatedProvider : Device UInt64 where
  __ := mockProvider "linux"
  manifest := { mockManifest "linux" with
    capabilities := [⟨"mock.value", "", .approvalRequired, .leased, .null⟩] }

def gatedRun :=
  ((runTrial gatedProvider.provider.plane (specForValue 40)).run.interpret
    gatedProvider.provider.plane.handle).advance gatedProvider.answer 20 ⟨⟨true, [], []⟩, 7⟩

theorem validators_agree_gated :
    Agrees gatedProvider.manifest (specForValue 40).target 40 ∧ ∃ source,
      gatedRun.2.1.result = some (.error (.lifecycleFailed (some 1) none source)) ∧
        source = riskDenial := by
  obtain ⟨hagree, hdenied⟩ := validators_agree gatedProvider.manifest (specForValue 40)
  have hr : gatedRun.2.1.result =
      some (.error (.lifecycleFailed (some 1) none riskDenial)) := by decide +kernel
  have hs : Steps (gatedProvider.provider.amid Keeps) _ _ _ _ _ :=
    Program.advance_done (fun v o => ⟨v, .refl, gatedProvider.answer_sem v o⟩) hr
  exact ⟨hagree 40 (by decide +kernel), riskDenial, hr,
    hdenied _ _ _ rfl _ _ _ _ _ _ hs trivial⟩

end FpsMaxxing
