import FpsMaxxing.Effects.Relational
import FpsMaxxing.Safety.Refusal

/-! What a client can tell from its answer about the errors on the host. -/

namespace FpsMaxxing

open Effects Serde Program

variable {σ σ' : Type}

def Record.veiled (record : Record) : Record :=
  if record.stage = .failed then { record with payload := .null } else record

def Op.veiled : Op → Op
  | .journal (.insert records) => .journal (.insert (records.map Record.veiled))
  | o => o

def SameCall (o o' : Op) : Prop := o.veiled = o'.veiled

def Op.Agree : (o : Op) → o.Res → o.Res → Prop
  | .provider .snapshot | .provider (.preview _) | .provider (.apply _) | .provider (.verify _)
  | .provider (.rollback _) | .journal _ => Effects.Agree (fun _ _ => True) Eq

inductive Alike : Calls.Event → Calls.Event → Prop
  | same {o r r'} : o.Agree r r' → Alike ⟨o, r⟩ ⟨o, r'⟩
  | inserted {records records' r r'} : Effects.Agree (fun _ _ => True) Eq r r' →
      Alike ⟨.journal (.insert records), r⟩ ⟨.journal (.insert records'), r'⟩

def ToldAlike (e e' : ControlPlaneError) : Prop := wireError e = wireError e'

abbrev Veiled {α ε : Type} (error : ε → ControlPlaneError) (x y : ExceptT ε (Program Calls) α) :
    Prop :=
  Coupled SameCall Alike (Agree (fun e e' => ToldAlike (error e) (error e')) Eq) x.run y.run

lemma coupled_invoke (method : Method) :
    Coupled SameCall Alike (Op.Agree (.provider method)) (invoke method) (invoke method) := by
  apply @coupled_perform Calls SameCall Alike (.provider method) (.provider method) _ rfl
  rintro r r' ⟨h⟩
  exact h

lemma coupled_insert {records records' : List Record}
    (h : records.map Record.veiled = records'.map Record.veiled) :
    Coupled SameCall Alike (Agree (fun _ _ => True) Eq) (execute (.insert records))
      (execute (.insert records')) := by
  apply @coupled_perform Calls SameCall Alike (.journal (.insert records))
    (.journal (.insert records')) _ (congrArg (fun rs => Op.journal (.insert rs)) h)
  rintro r r' (hr | hr) <;> exact hr

lemma coupled_begin (providerId : String) (payload : Value) :
    Coupled SameCall Alike (Agree (fun _ _ => True) Eq)
      (execute (.beginExperiment providerId payload))
      (execute (.beginExperiment providerId payload)) := by
  apply @coupled_perform Calls SameCall Alike (.journal (.beginExperiment providerId payload))
    (.journal (.beginExperiment providerId payload)) _ rfl
  rintro r r' ⟨h⟩
  exact h

lemma veiled_mapErr {α ε : Type} {answer : Program Calls (Except ε α)} (f : ε → ControlPlaneError)
    (h : Coupled SameCall Alike (Agree (fun _ _ => True) Eq) answer answer)
    (hf : ∀ e e', ToldAlike (f e) (f e')) : Veiled id (mapErr f answer) (mapErr f answer) :=
  coupled_mapErr h fun e e' _ => hf e e'

namespace ControlPlane

variable (plane : ControlPlane) (experiment : ℤ) (request : ChangeRequest)
  (snapshot : StateSnapshot)

lemma veiled_inStage {α : Type} (stage : Stage) {answer : Program Calls (Except ProviderError α)}
    (h : Coupled SameCall Alike (Agree (fun _ _ => True) Eq) answer answer) :
    Veiled StageFailure.error (inStage stage answer) (inStage stage answer) :=
  coupled_mapErr h fun _ _ _ => rfl

lemma veiled_recordStage (stage : Stage) (payload : Value) :
    Veiled StageFailure.error (plane.recordStage experiment stage payload)
      (plane.recordStage experiment stage payload) :=
  coupled_mapErr (coupled_insert rfl) fun _ _ _ => rfl

lemma veiled_observe : Veiled StageFailure.error (plane.observeApplied experiment request)
    (plane.observeApplied experiment request) := by
  apply coupled_run_bind (plane.veiled_recordStage experiment _ _)
  rintro _ _ rfl
  apply coupled_run_bind (veiled_inStage _ (coupled_invoke (.verify request)))
  rintro verified _ rfl
  apply coupled_run_bind (plane.veiled_recordStage experiment _ _)
  rintro _ _ rfl
  cases verified with
  | true => exact .done (.ok rfl)
  | false => exact .done (.error rfl)

lemma veiled_restore : Veiled StageFailure.error (plane.restore experiment snapshot)
    (plane.restore experiment snapshot) := by
  apply coupled_run_bind (veiled_inStage _ (coupled_invoke (.rollback snapshot)))
  rintro _ _ rfl
  apply coupled_run_bind (plane.veiled_recordStage experiment _ _)
  rintro _ _ rfl
  apply coupled_run_bind (veiled_inStage _ (coupled_invoke .snapshot))
  rintro restored _ rfl
  apply coupled_run_bind (plane.veiled_recordStage experiment _ _)
  rintro _ _ rfl
  by_cases hrestored : restored = snapshot
  · simp only [hrestored, decide_true, if_true]
    exact .done (.ok rfl)
  · simp only [hrestored, decide_false, Bool.false_eq_true, if_false]
    exact .done (.error rfl)

lemma veiled_runStages : Veiled StageFailure.error (plane.runStages experiment request snapshot)
    (plane.runStages experiment request snapshot) := by
  apply coupled_run_bind (veiled_inStage _ (coupled_invoke (.preview request)))
  rintro preview _ rfl
  apply coupled_run_bind (plane.veiled_recordStage experiment _ _)
  rintro _ _ rfl
  apply coupled_run_bind (plane.veiled_recordStage experiment _ _)
  rintro _ _ rfl
  have happly : Veiled StageFailure.error (do
      inStage .apply (invoke (.apply request))
      plane.observeApplied experiment request) (do
      inStage .apply (invoke (.apply request))
      plane.observeApplied experiment request) := by
    apply coupled_run_bind (veiled_inStage _ (coupled_invoke (.apply request)))
    rintro _ _ rfl
    exact plane.veiled_observe experiment request
  apply coupled_lift_bind happly
  intro observed observed' hobserved
  apply coupled_lift_bind (plane.veiled_restore experiment snapshot)
  intro restored restored' hrestored
  cases hrestored with
  | error hfailure =>
    cases hobserved with
    | error _ => exact .done (.error hfailure)
    | ok _ => exact .done (.error hfailure)
  | ok _ =>
    cases hobserved with
    | error hfailure => exact .done (.error hfailure)
    | ok hverified =>
      cases hverified
      exact .done (.ok rfl)

lemma coupled_failed (payload payload' : Value) :
    Coupled SameCall Alike (Agree (fun _ _ => True) Eq) (plane.record experiment .failed payload)
      (plane.record experiment .failed payload') := by
  apply coupled_insert
  simp [Record.veiled]

lemma veiled_recordOutcome {outcome outcome' : Except StageFailure LifecycleResult}
    (h : Agree (fun f f' => ToldAlike f.error f'.error) Eq outcome outcome') :
    Veiled id (plane.recordOutcome experiment outcome) (plane.recordOutcome experiment outcome') := by
  cases h with
  | error hfailure =>
    apply coupled_lift_bind (plane.coupled_failed experiment _ _)
    intro _ _ _
    exact .done (.error hfailure)
  | ok hresult =>
    cases hresult
    rw [recordOutcome]
    apply coupled_run_bind (veiled_mapErr .journal (coupled_insert rfl) fun _ _ => rfl)
    rintro _ _ rfl
    exact .done (.ok rfl)

lemma veiled_runLifecycle : Veiled id (plane.runLifecycle request) (plane.runLifecycle request) := by
  rw [runLifecycle]
  have hpolicy : Veiled id (ExceptT.mk (pure (plane.validate request)))
      (ExceptT.mk (pure (plane.validate request))) := by
    cases plane.validate request with
    | error e => exact .done (.error rfl)
    | ok _ => exact .done (.ok rfl)
  apply coupled_run_bind hpolicy
  rintro _ _ rfl
  apply coupled_run_bind (veiled_mapErr .provider (coupled_invoke .snapshot) fun _ _ => rfl)
  rintro snapshot _ rfl
  apply coupled_run_bind (veiled_mapErr .journal (coupled_begin _ _) fun _ _ => rfl)
  rintro experiment _ rfl
  apply coupled_lift_bind (plane.veiled_runStages experiment request snapshot)
  intro outcome outcome' houtcome
  exact plane.veiled_recordOutcome experiment houtcome

end ControlPlane

lemma lifecycleResponse_agree {outcome outcome' : Except ControlPlaneError LifecycleResult}
    (h : Agree (fun e e' => ToldAlike (id e) (id e')) Eq outcome outcome') :
    lifecycleResponse outcome = lifecycleResponse outcome' := by
  cases h with
  | error htold => exact htold
  | ok hresult => exact congrArg (fun result => lifecycleResponse (.ok result)) hresult

lemma BrokerService.coupled_handle (service : BrokerService) (ledger : OwnershipLedger)
    (request : BrokerRequest) :
    Coupled SameCall Alike Eq (service.handle ledger request) (service.handle ledger request) := by
  rw [handle_eq]
  cases service.enter ledger request with
  | error response => exact .done rfl
  | ok frame =>
    apply (service.plane.veiled_runLifecycle frame.1).map
    intro outcome outcome' h
    rw [lifecycleResponse_agree h]

theorem host_detail_veiled (P : Provider σ) (P' : Provider σ') (hm : P'.manifest = P.manifest)
    (ledger : OwnershipLedger) (request : BrokerRequest) {w v : World σ} {w' v' : World σ'}
    {tr : Trace σ} {tr' : Trace σ'} {answer answer' : BrokerResponse × OwnershipLedger}
    (h : Steps (sem P) ((BrokerService.new P.plane).handle ledger request) w tr (.done answer) v)
    (h' : Steps (sem P') ((BrokerService.new P'.plane).handle ledger request) w' tr'
      (.done answer') v')
    (ha : AnsweredAlike SameCall Alike tr tr') :
    answer'.1 = answer.1 ∧
      List.Forall₂ (fun e e' => SameCall e.op e'.op ∧ Alike e.event e'.event) tr tr' := by
  have hplane : P'.plane = P.plane := congrArg ControlPlane.mk hm
  rw [hplane] at h'
  obtain ⟨hanswer, hcalls⟩ :=
    ((BrokerService.new P.plane).coupled_handle ledger request).runs h h' ha
  exact ⟨congrArg Prod.fst hanswer.symm, hcalls⟩

def jammedProvider (applying restoring : String) : Device UInt64 where
  __ := mockProvider "linux"
  apply _ current := (.error (.unavailable applying), current)
  rollback _ current := (.error (.rollbackFailed restoring), current)

def jammedRun (applying restoring : String) :=
  handledBy (jammedProvider applying restoring) .new (mockRun "owner-b") 20

theorem host_detail_veiled_jammed : ∃ answer answer',
    (jammedRun "busy" "gone").2.1.result = some answer ∧
    (jammedRun "EIO on /dev/knob0" "EACCES on /dev/knob1").2.1.result = some answer' ∧
      answer'.1 = answer.1 := by
  have hsome : (jammedRun "busy" "gone").2.1.result.isSome = true := by decide +kernel
  have hsome' : (jammedRun "EIO on /dev/knob0" "EACCES on /dev/knob1").2.1.result.isSome = true := by
    decide +kernel
  obtain ⟨answer, hr⟩ := Option.isSome_iff_exists.mp hsome
  obtain ⟨answer', hr'⟩ := Option.isSome_iff_exists.mp hsome'
  have h := Program.advance_done (jammedProvider "busy" "gone").answer_sem hr
  have h' := Program.advance_done
    (jammedProvider "EIO on /dev/knob0" "EACCES on /dev/knob1").answer_sem hr'
  refine ⟨answer, answer', hr, hr', (host_detail_veiled (jammedProvider "busy" "gone").provider
    (jammedProvider "EIO on /dev/knob0" "EACCES on /dev/knob1").provider rfl .new (mockRun "owner-b")
    h h' (.of_forall₂ ?_)).1⟩
  exact .cons (.same (.ok rfl)) (.cons (.same (.ok rfl)) (.cons (.same (.ok rfl))
    (.cons (.same (.ok rfl)) (.cons (.same (.ok rfl)) (.cons (.same (.error trivial))
      (.cons (.same (.error trivial)) (.cons (.inserted (.ok rfl)) .nil)))))))

end FpsMaxxing
