import FpsMaxxing.Safety.AuditTrail

/-! What of a request itself its sender is told, and when. -/

namespace FpsMaxxing

open Effects

variable {σ : Type}

def ControlPlaneError.Denial : ControlPlaneError → Prop
  | .unknownCapability _ | .policyDenied _ => True
  | _ => False

lemma stageFailure_not_denial {o : Op} {r : o.Res} {failure : StageFailure}
    (h : stageFailure o r = some failure) : ¬ failure.error.Denial := by
  match o, r, h with
  | .provider (.preview _), .error _, h | .provider (.apply _), .error _, h
  | .provider (.verify _), .error _, h | .provider (.rollback _), .error _, h
  | .provider .snapshot, .error _, h =>
    cases h
    exact id
  | .journal (.insert [record]), .error _, h =>
    cases h
    exact id
  | .journal (.insert [record]), .ok u, h =>
    simp only [stageFailure, rowFailure] at h
    split_ifs at h <;> cases h <;> exact id

lemma failuresOf_not_denial {log : List Calls.Event} {failure : StageFailure}
    (h : failure ∈ failuresOf log) : ¬ failure.error.Denial := by
  obtain ⟨event, _, hf⟩ := List.mem_filterMap.mp h
  exact stageFailure_not_denial hf

lemma Reported.not_denial {prepare observe restore : List Calls.Event} {failure : StageFailure}
    (h : Reported (failuresOf prepare) (failuresOf observe) (failuresOf restore) failure) :
    ¬ failure.error.Denial := by
  generalize hp : failuresOf prepare = p at h
  generalize ho : failuresOf observe = o at h
  generalize hr : failuresOf restore = r at h
  cases h with
  | prepare => exact failuresOf_not_denial (hp ▸ List.mem_singleton_self _)
  | observe => exact failuresOf_not_denial (ho ▸ List.mem_singleton_self _)
  | restore => exact failuresOf_not_denial (hr ▸ List.mem_singleton_self _)
  | both original failure =>
    have hf : failure ∈ failuresOf restore := hr ▸ List.mem_singleton_self _
    exact fun hd => failuresOf_not_denial hf hd

namespace ControlPlane

variable (plane : ControlPlane) (request : ChangeRequest)

lemma recordOutcome_logs (experiment : ℤ) {outcome : Except StageFailure LifecycleResult}
    (h : ∀ failure, outcome = .error failure → ¬ failure.error.Denial) :
    (plane.recordOutcome experiment outcome).run.Logs anyAnswer fun _ r =>
      ∀ e, r = .error e → ¬ e.Denial := by
  cases outcome with
  | error failure =>
    rw [recordOutcome_error]
    refine ⟨⟨.ok (), trivial⟩, fun r _ e he => ?_⟩
    cases he
    exact h failure rfl
  | ok result =>
    rw [recordOutcome, Program.logs_run_bind, Program.logs_mapErr, record, logs_execute]
    rintro (e | u)
    · rintro _ ⟨⟩
      exact id
    · rintro _ ⟨⟩

lemma runLifecycle_logs : (plane.runLifecycle request).run.Logs anyAnswer fun log r =>
    ∀ e, r = .error e → e.Denial → log = [] ∧ plane.validate request = .error e := by
  rw [runLifecycle, Program.logs_run_bind, ExceptT.run_mk]
  cases hv : plane.validate request with
  | error e =>
    rintro _ ⟨⟩ _
    exact ⟨rfl, rfl⟩
  | ok u =>
    simp only [Program.pure_eq, Program.logs_done]
    rw [Program.logs_run_bind, Program.logs_mapErr, logs_invoke]
    rintro (e | snapshot)
    · rintro _ ⟨⟩ ⟨⟩
    dsimp only [Except.mapError]
    rw [Program.logs_run_bind, Program.logs_mapErr, beginExperiment, logs_execute]
    rintro (e | experiment)
    · rintro _ ⟨⟩ ⟨⟩
    dsimp only [Except.mapError]
    rw [Program.logs_run_lift_bind]
    refine (plane.runStages_logs experiment request snapshot).mono fun log outcome hs => ?_
    refine (plane.recordOutcome_logs experiment ?_).mono fun log' r hr e he hd => ?_
    · rintro failure rfl
      obtain ⟨_, _, _, _, _, hrep⟩ := hs
      exact hrep.not_denial
    · exact absurd hd (hr e he)

end ControlPlane

end FpsMaxxing
