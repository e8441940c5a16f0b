import FpsMaxxing.Safety.HonestReplay
import FpsMaxxing.Host.LifecycleEffect

/-! What the caller of a trial is told, whichever of the gates, the lifecycle and the insert fails
and whatever other runners append in between. -/

namespace FpsMaxxing

open Effects Serde

variable {σ : Type}

def RunnerError.Early : RunnerError → Prop
  | .lifecycleFailed .. | .trialNotJournaled .. => False
  | _ => True

lemma validateBounds_errs (bounds : DecisionBounds) :
    Errs RunnerError.Early (validateBounds bounds) := by
  refine Errs.bind (errs_rejectIf ?_) fun _ => Errs.bind (errs_forM fun _ => errs_rejectIf ?_)
    fun _ => Errs.bind (errs_rejectIf ?_) fun _ => errs_rejectIf ?_ <;> trivial

lemma validateParameters_errs (parameters : Value) :
    Errs RunnerError.Early (validateParameters parameters) := by
  cases parameters with
  | object fields =>
    apply errs_forM
    intro field
    exact errs_rejectIf (by trivial)
  | _ =>
    rintro e he
    cases he
    trivial

lemma validateSpec_errs (spec : ExperimentSpec) : Errs RunnerError.Early (validateSpec spec) := by
  refine Errs.bind (errs_rejectIf ?_) fun _ => Errs.bind (validateBounds_errs _) fun _ =>
    Errs.bind (errs_rejectIf ?_) fun _ => Errs.bind (errs_rejectIf ?_) fun _ =>
    Errs.bind (errs_forM fun _ => errs_rejectIf ?_) fun _ =>
    Errs.bind (errs_forM fun _ => errs_rejectIf ?_) fun _ =>
    Errs.bind (validateParameters_errs _) fun _ => Errs.bind (errs_okOr ?_) fun _ =>
    Errs.bind (errs_rejectIf ?_) fun _ => Errs.bind (errs_rejectIf ?_) fun _ => errs_pure _ <;>
  trivial

lemma validate_errs (manifest : ProviderManifest) (spec : ExperimentSpec) :
    Errs RunnerError.Early (validate manifest spec) :=
  Errs.bind (errs_rejectIf (by trivial)) fun _ => validateSpec_errs spec

lemma checkBaseline_errs (snapshot : StateSnapshot) :
    Errs RunnerError.Early (checkBaseline snapshot) := by
  refine Errs.bind (errs_okOr ?_) fun _ => Errs.bind (errs_rejectIf ?_) fun _ => errs_pure _ <;>
  trivial

def baselineOf (answer : Except ProviderError StateSnapshot) : Except RunnerError UInt64 :=
  (answer.mapError fun e => .controlPlane (.provider e)) >>= checkBaseline

lemma baselineOf_errs (answer : Except ProviderError StateSnapshot) :
    Errs RunnerError.Early (baselineOf answer) := by
  cases answer with
  | error e =>
    rintro e' he
    cases he
    trivial
  | ok snapshot =>
    exact checkBaseline_errs snapshot

/-- The calls of a process, with any number of steps of others before each. -/
abbrev Provider.amid (others : World σ → World σ → Prop) (P : Provider σ) :
    Semantics Calls (World σ) :=
  Semantics.among (Relation.ReflTransGen others) (sem P)

def trialRecord (spec : ExperimentSpec) (baseline candidate : UInt64)
    (outcome : Option (Except ControlPlaneError LifecycleResult)) : TrialRecord :=
  recordOf spec baseline candidate
    (measure baseline spec.warmupSamples spec.baselineSamples.val)
    (measure candidate spec.warmupSamples spec.candidateSamples.val) outcome

def reportedId : Except RunnerError StoredTrial → Option ℤ
  | .ok stored => some stored.id
  | .error (.lifecycleFailed id _ _) => id
  | .error _ => none

structure Reports (outcome : Option (Except ControlPlaneError LifecycleResult))
    (answer : Except SqlError ℤ) (record : TrialRecord) (r : Except RunnerError StoredTrial) :
    Prop where
  ok : ∀ stored, r = .ok stored ↔
    answer = .ok stored.id ∧ stored.record = record ∧ ∀ e, outcome ≠ some (.error e)
  lifecycleFailed : ∀ trialId journalError source,
    r = .error (.lifecycleFailed trialId journalError source) ↔
      outcome = some (.error source) ∧
        ((∃ id, answer = .ok id ∧ trialId = some id ∧ journalError = none) ∨
          ∃ e, answer = .error e ∧ trialId = none ∧ journalError = some (.journal e))
  trialNotJournaled : ∀ lifecycle source, r = .error (.trialNotJournaled lifecycle source) ↔
    (∃ e, answer = .error e ∧ source = .journal e) ∧ (∀ e, outcome ≠ some (.error e)) ∧
      ∀ completed, lifecycle = some completed ↔
        ∃ result, outcome = some (.ok result) ∧ completed = .ofResult result
  reportedId : reportedId r = answer.toOption

lemma reports_report {outcome : Option (Except ControlPlaneError LifecycleResult)}
    {record : TrialRecord} (answer : Except SqlError ℤ)
    (hl : ∀ completed, record.lifecycle = some completed ↔
      ∃ result, outcome = some (.ok result) ∧ completed = .ofResult result) :
    Reports outcome answer record (report record outcome (answer.mapError .journal)) := by
  have hlost : ∀ lifecycle : Option LifecycleOutcome, record.lifecycle = lifecycle ↔
      ∀ completed, lifecycle = some completed ↔
        ∃ result, outcome = some (.ok result) ∧ completed = .ofResult result := by
    intro lifecycle
    rw [Option.ext_iff]
    simp only [hl]
    exact forall_congr' fun completed => iff_comm
  constructor
  · rintro ⟨id, stored⟩
    rcases outcome with _ | source | result <;> cases answer <;>
      simp [report, Except.mapError, eq_comm]
  · intro trialId journalError source
    rcases outcome with _ | e | result <;> cases answer <;> simp [report, Except.mapError]
    all_goals
      constructor <;>
      · rintro ⟨rfl, rfl, rfl⟩
        exact ⟨rfl, rfl, rfl⟩
  · intro lifecycle source
    rw [← hlost]
    rcases outcome with _ | e | result <;> cases answer <;> simp [report, Except.mapError]
    all_goals
      constructor <;>
      · rintro ⟨rfl, rfl⟩
        exact ⟨rfl, rfl⟩
  · rcases outcome with _ | e | result <;> cases answer <;> rfl

def Enacted (others : World σ → World σ → Prop) (P : Provider σ) (request : ChangeRequest)
    (outcome : Option (Except ControlPlaneError LifecycleResult)) (u : World σ) (tr : Trace σ)
    (x : World σ) : Decision → Prop
  | .promote => ∃ result, outcome = some result ∧
      Steps (P.amid others) (P.plane.runLifecycle request).run u tr (.done result) x
  | .reject => outcome = none ∧ tr = [] ∧ x = u

/-- Whoever reads `id` later, from whatever has become of the journal, finds `record`. -/
def Readable (v : World σ) (id : ℤ) (record : TrialRecord) : Prop :=
  ∀ u, Keeps v u → ∀ Q : Provider σ,
    Program.Ensures ((sem Q).only JournalWorks) (ControlPlane.readTrial id).run u fun r w =>
      w = u ∧ ∃ payload, r = .ok payload ∧ fromValue payload = some record

structure Tried (others : World σ → World σ → Prop) (P : Provider σ) (spec : ExperimentSpec)
    (baseline candidate : UInt64) (u : World σ) (tr : Trace σ) (r : Except RunnerError StoredTrial)
    (v : World σ) (outcome : Option (Except ControlPlaneError LifecycleResult)) (lifecycle : Trace σ)
    (x : World σ) (answer : Except SqlError ℤ) (record : TrialRecord) : Prop where
  built : record = trialRecord spec baseline candidate outcome
  enacted : Enacted others P spec.target outcome u lifecycle x record.verdict.decision
  inserts : tr = lifecycle ++ [⟨x, .journal (.recordTrial (toValue record)), answer⟩]
  once : ∀ e ∈ lifecycle, ∀ payload, e.op ≠ .journal (.recordTrial payload)
  reports : Reports outcome answer record r
  promoted : record.verdict.decision = .promote →
    record.lifecycle.isSome = !record.lifecycleError.isSome
  rejected : record.verdict.decision = .reject →
    record.lifecycle = none ∧ record.lifecycleError = none
  readable : ∀ id, reportedId r = some id → Readable v id record

section

variable {others : World σ → World σ → Prop} {P : Provider σ} {spec : ExperimentSpec}
  {u v w : World σ} {tr : Trace σ}

lemma baselineValue_eq (plane : ControlPlane) :
    Program.interpret plane.handle baselineValue.run = baselineOf <$> invoke .snapshot := by
  refine congrArg (@Program.call Calls _ (.provider .snapshot)) (funext fun answer => ?_)
  cases answer <;> rfl

lemma baselineValue_steps {b : Except RunnerError UInt64}
    (h : Steps (P.amid others) (Program.interpret P.plane.handle baselineValue.run) w tr (.done b) v) :
    ∃ answer, tr = [⟨w, .provider .snapshot, answer⟩] ∧ b = baselineOf answer ∧
      P.snapshot v.host answer ∧ Relation.ReflTransGen others w v := by
  rw [baselineValue_eq] at h
  obtain ⟨q, hq, hs⟩ := h.of_map
  cases q with
  | call o next => cases hq
  | done answer =>
    cases hq
    obtain ⟨rfl, u, hu, ⟨ha, hh⟩, hdb⟩ := Steps.perform_inv hs
    obtain rfl : v = u := by
      cases u
      cases v
      simp_all
    exact ⟨answer, rfl, rfl, ha, hu⟩

lemma recordTrial_steps {payload : Value} {r : Except ControlPlaneError ℤ}
    (h : Steps (P.amid others) ((ask (.recordTrial payload)).interpret P.plane.handle) w tr (.done r)
      v) : ∃ answer, tr = [⟨w, .journal (.recordTrial payload), answer⟩] ∧
        r = answer.mapError .journal ∧ P.amid others w (.journal (.recordTrial payload)) answer v := by
  rw [interpret_ask] at h
  obtain ⟨answer, rfl, h'⟩ := Steps.mapErr_inv h
  obtain ⟨rfl, hs⟩ := Steps.perform_inv h'
  exact ⟨answer, rfl, rfl, hs⟩

lemma runLifecycle_once {request : ChangeRequest} {q : Program Calls _}
    (h : Steps (P.amid others) (P.plane.runLifecycle request).run w tr q v) :
    ∀ e ∈ tr, ∀ payload, e.op ≠ .journal (.recordTrial payload) := by
  intro e he payload hop
  obtain ⟨tr', next, h⟩ := h.of_mem he
  have ha := (h.obeys Lifecycle.runLifecycle_obeys).1
  rw [hop] at ha
  exact ha

lemma readable {payload : Value} {record : TrialRecord} {id : ℤ}
    (hs : P.amid others w (.journal (.recordTrial payload)) (.ok id) v)
    (hp : fromValue payload = some record) : Readable v id record := by
  obtain ⟨x, _, hs⟩ := hs
  have hr := (sem_keeps hs).ready (sem_recordTrial hs).1
  intro u hk Q
  have hf : u.db.trial (Trial.mk id payload).id = some ⟨id, payload⟩ :=
    hk.trial _ _ (sem_recordTrial_found hs)
  rw [ControlPlane.readTrial, Program.ensures_run_bind, Program.ensures_mapErr]
  refine (execute_readTrial (hk.ready hr) hf).mono ?_
  rintro _ w ⟨rfl, rfl⟩
  exact ⟨rfl, payload, rfl, hp⟩

lemma enacted_steps {request : ChangeRequest} {decision : Decision}
    {outcome : Option (Except ControlPlaneError LifecycleResult)}
    (h : Steps (P.amid others) (Program.interpret P.plane.handle (match decision with
      | .promote => some <$> ask (.runLifecycle request)
      | .reject => pure none)) u tr (.done outcome) w) :
    Enacted others P request outcome u tr w decision ∧
      ∀ e ∈ tr, ∀ payload, e.op ≠ .journal (.recordTrial payload) := by
  cases decision with
  | promote =>
    rw [Program.interpret_map, interpret_ask] at h
    obtain ⟨q, hq, hs⟩ := h.of_map
    cases q with
    | call o next => cases hq
    | done result =>
      cases hq
      exact ⟨⟨result, rfl, hs⟩, runLifecycle_once hs⟩
  | reject =>
    obtain ⟨rfl, ho, rfl⟩ := Steps.done_inv h
    cases ho
    exact ⟨⟨rfl, rfl, rfl⟩, nofun⟩

lemma journal_steps {record : TrialRecord}
    {outcome : Option (Except ControlPlaneError LifecycleResult)} {r : Except RunnerError StoredTrial}
    (h : Steps (P.amid others) (Program.interpret P.plane.handle (ExceptT.run do
      let journaled ← ExceptT.lift (ask (.recordTrial (toValue record)))
      ExceptT.mk (pure (report record outcome journaled)))) w tr (.done r) v) :
    ∃ answer, tr = [⟨w, .journal (.recordTrial (toValue record)), answer⟩] ∧
      r = report record outcome (answer.mapError .journal) ∧
      P.amid others w (.journal (.recordTrial (toValue record))) answer v := by
  obtain ⟨journaled, tr₁, x, tr₂, rfl, h₁, h₂⟩ := Steps.interpret_lift_bind_inv h
  obtain ⟨answer, rfl, rfl, hs⟩ := recordTrial_steps h₁
  obtain ⟨rfl, hr, rfl⟩ := Steps.done_inv h₂
  exact ⟨answer, rfl, Program.done.inj hr, hs⟩

lemma lifecycle_eq_some {baseline candidate : UInt64}
    {outcome : Option (Except ControlPlaneError LifecycleResult)} (completed : LifecycleOutcome) :
    (trialRecord spec baseline candidate outcome).lifecycle = some completed ↔
      ∃ result, outcome = some (.ok result) ∧ completed = .ofResult result := by
  rcases outcome with _ | e | result <;> simp [trialRecord, recordOf, eq_comm]

lemma tried {baseline candidate : UInt64} (hs : spec.Legal candidate)
    {outcome : Option (Except ControlPlaneError LifecycleResult)} {lifecycle : Trace σ} {x : World σ}
    {answer : Except SqlError ℤ} {r : Except RunnerError StoredTrial}
    (he : Enacted others P spec.target outcome u lifecycle x
      (trialRecord spec baseline candidate outcome).verdict.decision)
    (ho : ∀ e ∈ lifecycle, ∀ payload, e.op ≠ .journal (.recordTrial payload))
    (hj : P.amid others x
      (.journal (.recordTrial (toValue (trialRecord spec baseline candidate outcome)))) answer v)
    (hr : r = report (trialRecord spec baseline candidate outcome) outcome
      (answer.mapError .journal)) :
    Tried others P spec baseline candidate u
      (lifecycle ++ [⟨x, .journal (.recordTrial
        (toValue (trialRecord spec baseline candidate outcome))), answer⟩]) r v outcome lifecycle x
      answer (trialRecord spec baseline candidate outcome) := by
  have hrep : Reports outcome answer (trialRecord spec baseline candidate outcome) r :=
    hr ▸ reports_report answer lifecycle_eq_some
  refine ⟨rfl, he, rfl, ho, hrep, fun hd => ?_, fun hd => ?_, fun id hid => ?_⟩
  · rw [hd] at he
    obtain ⟨result, rfl, _⟩ := he
    cases result <;> rfl
  · rw [hd] at he
    obtain ⟨rfl, _⟩ := he
    exact ⟨rfl, rfl⟩
  · rw [hrep.reportedId] at hid
    cases answer with
    | error e => cases hid
    | ok id' =>
      cases hid
      exact readable hj (roundTrips_recordOf hs baseline outcome)

lemma measured_steps {baseline candidate : UInt64} (hs : spec.Legal candidate)
    {r : Except RunnerError StoredTrial}
    (h : Steps (P.amid others) (Program.interpret P.plane.handle (ExceptT.run do
      let outcome ← ExceptT.lift (match (trialRecord spec baseline candidate none).verdict.decision with
        | .promote => some <$> ask (.runLifecycle spec.target)
        | .reject => pure none)
      let journaled ← ExceptT.lift
        (ask (.recordTrial (toValue (trialRecord spec baseline candidate outcome))))
      ExceptT.mk (pure (report (trialRecord spec baseline candidate outcome) outcome journaled))))
      u tr (.done r) v) :
    ∃ outcome lifecycle x answer record,
      Tried others P spec baseline candidate u tr r v outcome lifecycle x answer record := by
  obtain ⟨outcome, tr₁, x, tr₂, rfl, h₁, h₂⟩ := Steps.interpret_lift_bind_inv h
  obtain ⟨answer, rfl, hr, hj⟩ := journal_steps h₂
  obtain ⟨he, ho⟩ := enacted_steps h₁
  exact ⟨outcome, tr₁, x, answer, _, tried hs he ho hj hr⟩

end

lemma trial_steps {others : World σ → World σ → Prop} {P : Provider σ} {spec : ExperimentSpec}
    {w v : World σ} {tr : Trace σ} {r : Except RunnerError StoredTrial}
    (h : Steps (P.amid others) ((runTrial P.plane spec).run.interpret P.plane.handle) w tr
      (.done r) v) :
    (∀ e, validate P.manifest spec = .error e → r = .error e ∧ e.Early ∧ tr = [] ∧ v = w) ∧
    ∀ candidate, validate P.manifest spec = .ok candidate →
      ∃ answer later u, tr = ⟨w, .provider .snapshot, answer⟩ :: later ∧
        P.snapshot u.host answer ∧ Relation.ReflTransGen others w u ∧
        (∀ e, baselineOf answer = .error e → r = .error e ∧ e.Early ∧ later = [] ∧ v = u) ∧
        ∀ baseline, baselineOf answer = .ok baseline →
          ∃ outcome lifecycle x answer record,
            Tried others P spec baseline candidate u later r v outcome lifecycle x answer
              record := by
  rw [runTrial] at h
  obtain ⟨e, rfl, h₁⟩ | ⟨candidate, tr₁, w₁, tr₂, rfl, h₁, h₂⟩ := Steps.interpret_bind_inv h
  · obtain ⟨rfl, hv, rfl⟩ := Steps.done_inv h₁
    have hv : validate P.manifest spec = .error e := (Program.done.inj hv).symm
    refine ⟨fun e' hv' => ?_, fun candidate hv' => ?_⟩
    · cases hv.symm.trans hv'
      exact ⟨rfl, validate_errs _ _ e hv, rfl, rfl⟩
    · cases hv.symm.trans hv'
  obtain ⟨rfl, hv, rfl⟩ := Steps.done_inv h₁
  have hv : validate P.manifest spec = .ok candidate := (Program.done.inj hv).symm
  refine ⟨fun e hv' => (by cases hv.symm.trans hv'), fun candidate' hv' => ?_⟩
  cases hv.symm.trans hv'
  obtain ⟨e, rfl, h₃⟩ | ⟨baseline, tr₃, u, later, rfl, h₃, h₄⟩ := Steps.interpret_bind_inv h₂
  · obtain ⟨answer, rfl, hb, hans, hu⟩ := baselineValue_steps h₃
    refine ⟨answer, [], v, rfl, hans, hu, fun e' hb' => ?_, fun baseline hb' => ?_⟩
    · cases hb.trans hb'
      exact ⟨rfl, baselineOf_errs answer e hb.symm, rfl, rfl⟩
    · cases hb.trans hb'
  · obtain ⟨answer, rfl, hb, hans, hu⟩ := baselineValue_steps h₃
    refine ⟨answer, later, u, rfl, hans, hu, fun e' hb' => (by cases hb.trans hb'),
      fun baseline' hb' => ?_⟩
    cases hb.trans hb'
    exact measured_steps (validate_eq_ok.mp hv).2 h₄

theorem trial_outcome {others : World σ → World σ → Prop} (P : Provider σ) (spec : ExperimentSpec)
    (w : World σ) :
    ((runTrial P.plane spec).run.interpret P.plane.handle).Ensures (P.amid others) w
        (fun _ _ => True) ∧
      ∀ tr r v, Steps (P.amid others) ((runTrial P.plane spec).run.interpret P.plane.handle) w tr
          (.done r) v →
        (∀ e, validate P.manifest spec = .error e → r = .error e ∧ e.Early ∧ tr = [] ∧ v = w) ∧
        ∀ candidate, validate P.manifest spec = .ok candidate →
          ∃ answer later u, tr = ⟨w, .provider .snapshot, answer⟩ :: later ∧
            P.snapshot u.host answer ∧ Relation.ReflTransGen others w u ∧
            (∀ e, baselineOf answer = .error e → r = .error e ∧ e.Early ∧ later = [] ∧ v = u) ∧
            ∀ baseline, baselineOf answer = .ok baseline →
              ∃ outcome lifecycle x answer record,
                Tried others P spec baseline candidate u later r v outcome lifecycle x answer
                  record := by
  refine ⟨Program.ensures_true (fun w o => ?_) _ _, fun tr r v h => trial_steps h⟩
  obtain ⟨r, v, hs⟩ := sem_answers P w o
  exact ⟨r, v, w, .refl, hs⟩

def promotedRun :=
  ((runTrial (mockProvider "linux").provider.plane (specForValue 40)).run.interpret
    (mockProvider "linux").provider.plane.handle).advance (mockProvider "linux").answer 20
      ⟨⟨true, [], []⟩, 7⟩

theorem trial_outcome_mock : Readable promotedRun.2.2 1 mockRecord := by
  have hr : promotedRun.2.1.result = some (.ok ⟨1, mockRecord⟩) := by decide +kernel
  have hs : Steps ((mockProvider "linux").provider.amid Keeps) _ _ _ _ _ :=
    Program.advance_done (fun v o => ⟨v, .refl, (mockProvider "linux").answer_sem v o⟩) hr
  have hv : validate (mockProvider "linux").manifest (specForValue 40) = .ok 40 := by decide +kernel
  obtain ⟨answer, later, u, _, _, _, he, ho⟩ :=
    ((trial_outcome (mockProvider "linux").provider (specForValue 40) _).2
      _ _ _ hs).2 40 hv
  cases hb : baselineOf answer with
  | error e => cases (he e hb).1
  | ok baseline =>
    obtain ⟨outcome, lifecycle, x, answer, record, ht⟩ := ho baseline hb
    obtain ⟨_, rfl, _⟩ := (ht.reports.ok ⟨1, mockRecord⟩).mp rfl
    exact ht.readable 1 rfl

end FpsMaxxing
