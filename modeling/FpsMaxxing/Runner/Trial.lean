import FpsMaxxing.Runner.Evaluator
import FpsMaxxing.Runner.Gate

/-! Running a trial against the control plane, and replaying one from the journal alone. -/

namespace FpsMaxxing

open Effects Numeric Serde

inductive PlaneOp
  | snapshot
  | runLifecycle (request : ChangeRequest)
  | recordTrial (payload : Value)
  | readTrial (id : ℤ)
  deriving DecidableEq

abbrev PlaneOp.Res : PlaneOp → Type
  | .snapshot => Except ControlPlaneError StateSnapshot
  | .runLifecycle _ => Except ControlPlaneError LifecycleResult
  | .recordTrial _ => Except ControlPlaneError ℤ
  | .readTrial _ => Except ControlPlaneError Value

abbrev PlaneCalls : Signature := ⟨PlaneOp, PlaneOp.Res⟩

def ControlPlane.handle (plane : ControlPlane) : (o : PlaneOp) → Program Calls o.Res
  | .snapshot => ControlPlane.snapshot.run
  | .runLifecycle request => (plane.runLifecycle request).run
  | .recordTrial payload => (ControlPlane.recordTrial payload).run
  | .readTrial id => (ControlPlane.readTrial id).run

def ask (o : PlaneOp) : Program PlaneCalls o.Res := @Program.perform PlaneCalls o

@[simp] lemma obeys_ask {M : Type} {mon : Monitor PlaneCalls M} {m : M} (o : PlaneOp)
    (post : o.Res → M → Prop) :
    (ask o).Obeys mon m post ↔ mon.allows m o ∧ ∀ r, post r (mon.next m o r) := Iff.rfl

@[simp] lemma interpret_ask (plane : ControlPlane) (o : PlaneOp) :
    (ask o).interpret plane.handle = plane.handle o :=
  Program.interpret_perform (S := PlaneCalls) o

def checkBaseline (snapshot : StateSnapshot) : Except RunnerError UInt64 := do
  let value ← okOr (snapshot.state.get "value" >>= Value.asU64) .invalidBaseline
  rejectIf (value > maxMockValue) (.baselineOutOfPolicy value)
  return value

def baselineValue : ExceptT RunnerError (Program PlaneCalls) UInt64 := do
  let snapshot ← mapErr .controlPlane (ask .snapshot)
  ExceptT.mk (pure (checkBaseline snapshot))

def recordOf (spec : ExperimentSpec) (baselineValue candidateValue : UInt64)
    (baselineSamples candidateSamples : List MetricSample)
    (outcome : Option (Except ControlPlaneError LifecycleResult)) : TrialRecord where
  schemaVersion := trialRecordVersion
  spec := spec
  baselineValue := baselineValue
  candidateValue := candidateValue
  baselineSamples := baselineSamples
  candidateSamples := candidateSamples
  verdict := evaluate baselineSamples candidateSamples spec.bounds
  lifecycle := match outcome with
    | some (.ok result) => some (.ofResult result)
    | _ => none
  lifecycleError := match outcome with
    | some (.error error) => some (.ofError error)
    | _ => none

def report (record : TrialRecord) (outcome : Option (Except ControlPlaneError LifecycleResult))
    (journaled : Except ControlPlaneError ℤ) : Except RunnerError StoredTrial :=
  match outcome, journaled with
  | some (.error source), .ok id => .error (.lifecycleFailed (some id) none source)
  | some (.error source), .error journalError =>
    .error (.lifecycleFailed none (some journalError) source)
  | _, .ok id => .ok ⟨id, record⟩
  | _, .error source => .error (.trialNotJournaled record.lifecycle source)

def runTrial (plane : ControlPlane) (spec : ExperimentSpec) :
    ExceptT RunnerError (Program PlaneCalls) StoredTrial := do
  let candidateValue ← ExceptT.mk (pure (validate plane.manifest spec))
  let baselineValue ← baselineValue
  let baselineSamples := measure baselineValue spec.warmupSamples spec.baselineSamples.val
  let candidateSamples := measure candidateValue spec.warmupSamples spec.candidateSamples.val
  let verdict := evaluate baselineSamples candidateSamples spec.bounds
  let outcome ← ExceptT.lift (match verdict.decision with
    | .promote => some <$> ask (.runLifecycle spec.target)
    | .reject => pure none)
  let record :=
    recordOf spec baselineValue candidateValue baselineSamples candidateSamples outcome
  let journaled ← ExceptT.lift (ask (.recordTrial (toValue record)))
  ExceptT.mk (pure (report record outcome journaled))

def replay (decodeError : Value → String) (id : ℤ) (payload : Value) :
    Except RunnerError ReplayOutcome := do
  let version : UInt32 ← okOr (payload.get "schema_version" >>= fromValue) .malformedRecordVersion
  rejectIf (version ≠ trialRecordVersion) (.unsupportedRecordVersion version)
  let record : TrialRecord ← okOr (fromValue payload) (.decode (decodeError payload))
  let recomputed := evaluate record.baselineSamples record.candidateSamples record.spec.bounds
  let rejection := match checkPolicy record with
    | .ok () => none
    | .error error => some error
  return ⟨id, record.verdict, recomputed, rejection.isNone, rejection.map RunnerError.text⟩

def replayTrial (decodeError : Value → String) (id : ℤ) :
    ExceptT RunnerError (Program PlaneCalls) ReplayOutcome := do
  let payload ← mapErr .controlPlane (ask (.readTrial id))
  ExceptT.mk (pure (replay decodeError id payload))

def replayed (decodeError : Value → String) (id : ℤ) :
    Except SqlError (Option Value) → Except RunnerError ReplayOutcome
  | .error e => .error (.controlPlane (.journal e))
  | .ok none => .error (.controlPlane (.unknownTrial id))
  | .ok (some payload) => replay decodeError id payload

lemma replayTrial_eq (plane : ControlPlane) (decodeError : Value → String) (id : ℤ) :
    (replayTrial decodeError id).run.interpret plane.handle =
      replayed decodeError id <$> execute (.readTrial id) := by
  refine congrArg (@Program.call Calls _ (.journal (.readTrial id))) (funext fun r => ?_)
  match r with
  | .error e => rfl
  | .ok none => rfl
  | .ok (some payload) => rfl

lemma checkBaseline_eq_ok {snapshot : StateSnapshot} {value : UInt64} :
    checkBaseline snapshot = .ok value ↔
      (snapshot.state.get "value" >>= Value.asU64) = some value ∧ value ≤ maxMockValue := by
  simp only [checkBaseline, bind_eq_ok, okOr_eq_ok, rejectIf_eq_ok, pure_eq_ok, exists_const]
  constructor
  · rintro ⟨_, hs, hv, rfl⟩
    exact ⟨hs, UInt64.not_lt.mp hv⟩
  · rintro ⟨hs, hv⟩
    exact ⟨value, hs, UInt64.not_lt.mpr hv, rfl⟩

lemma validate_eq_ok {manifest : ProviderManifest} {spec : ExperimentSpec} {value : UInt64} :
    validate manifest spec = .ok value ↔
      (∃ capability ∈ manifest.capabilities, capability.id = spec.target.capabilityId) ∧
        spec.Legal value := by
  simp [validate, validateSpec_eq_ok]

lemma replay_eq_ok {decodeError : Value → String} {id : ℤ} {payload : Value}
    {outcome : ReplayOutcome} (h : replay decodeError id payload = .ok outcome) :
    ∃ record : TrialRecord, fromValue payload = some record ∧ outcome.trialId = id ∧
      outcome.recorded = record.verdict ∧
      outcome.recomputed =
        evaluate record.baselineSamples record.candidateSamples record.spec.bounds ∧
      (outcome.policyLegal = true ↔ record.Legal) := by
  simp only [replay, bind_eq_ok, okOr_eq_ok, rejectIf_eq_ok, pure_eq_ok, exists_const] at h
  obtain ⟨version, _, _, record, hr, rfl⟩ := h
  refine ⟨record, hr, rfl, rfl, rfl, ?_⟩
  rw [← checkPolicy_eq_ok (u := ())]
  cases checkPolicy record <;> simp

section

variable {σ : Type} {P : Provider σ} {w : World σ}

lemma replayTrial_ensures (plane : ControlPlane) (decodeError : Value → String) (id : ℤ) :
    ((replayTrial decodeError id).run.interpret plane.handle).Ensures (sem P) w fun r v =>
      v = w ∧ ∀ outcome, r = .ok outcome → ∃ trial ∈ w.db.trials, trial.id = id ∧
        replay decodeError id trial.payload = .ok outcome := by
  rw [replayTrial_eq, Program.ensures_map]
  refine ensures_execute_any (fun e => ⟨rfl, fun outcome h => by cases h⟩) fun now found db hrun => ?_
  simp only [Statement.run] at hrun
  split_ifs at hrun
  obtain ⟨rfl, rfl⟩ := Prod.mk.inj (Option.some.inj hrun)
  refine ⟨rfl, fun outcome h => ?_⟩
  cases hf : w.db.trials.find? fun trial => trial.id = id with
  | none =>
    rw [hf] at h
    cases h
  | some trial =>
    rw [hf] at h
    exact ⟨trial, List.mem_of_find?_eq_some hf, by simpa using List.find?_some hf, h⟩

end

def specForValue (value : UInt64) : ExperimentSpec where
  hypothesis := "raise mock.value"
  target := mockRequest value
  warmupSamples := 2
  baselineSamples := ⟨5, by decide⟩
  candidateSamples := ⟨5, by decide⟩
  bounds := ⟨⟨3, by decide⟩, 5, 80, 200, 0⟩

end FpsMaxxing
