import FpsMaxxing.Host.Processes

/-! What a lifecycle does, whatever its provider and its journal answer: one specification for each
function it is made of. -/

namespace FpsMaxxing

open Effects Serde

variable {σ : Type}

namespace Progress

def stages (m : Progress) : List Stage := m.written.map Record.stage

def wrote (m : Progress) (tail : List Record) (lost : Bool) : Progress :=
  { m with written := m.written ++ tail, lost := lost }

@[simp] lemma wrote_experiment (m : Progress) (tail : List Record) (lost : Bool) :
    (m.wrote tail lost).experiment = m.experiment := rfl

@[simp] lemma wrote_stages (m : Progress) (tail : List Record) (lost : Bool) :
    (m.wrote tail lost).stages = m.stages ++ tail.map Record.stage := by
  simp [wrote, stages]

@[simp] lemma wrote_wrote (m : Progress) (tail tail' : List Record) (lost lost' : Bool) :
    (m.wrote tail lost).wrote tail' lost' = m.wrote (tail ++ tail') lost' := by
  simp [wrote]

@[simp] lemma wrote_lost (m : Progress) (tail : List Record) (lost : Bool) :
    (m.wrote tail lost).lost = lost := rfl

end Progress

namespace Lifecycle

variable (P : Provider σ) (request : ChangeRequest) (experiment : ℤ)

def monitor : Monitor Calls Progress := ⟨Progress.next, Progress.lifecycleAllows P request⟩

def entry (stage : Stage) (payload : Value) : Record :=
  ⟨experiment, stage, P.manifest.id, payload⟩

variable {P request experiment} {m : Progress} {stage : Stage} {payload : Value}

lemma mayRecord (he : m.experiment = some experiment) (ho : m.stages.Sublist stage.before)
    (hl : stage ≠ .snapshot ∧ stage ≠ .watchdogRestore)
    (hi : stage = .applyIntent → payload = toValue request)
    (hw : (entry P experiment stage payload).byWatchdog = false) :
    m.MayRecord P request (entry P experiment stage payload) where
  experiment := he
  providerId := rfl
  order := ho
  later := hl
  intent h := by
    have hp := hi h
    cases h
    simp [entry, Record.intent, hp]
  own := hw

lemma record_obeys {post : Except SqlError Unit → Progress → Prop}
    (hr : m.MayRecord P request (entry P experiment stage payload))
    (ho : post (.ok ()) (m.wrote [entry P experiment stage payload] m.lost))
    (hf : ∀ e, post (.error e) (m.wrote [] true)) :
    (P.plane.record experiment stage payload).Obeys (monitor P request) m post := by
  refine ⟨⟨_, rfl, hr⟩, ?_⟩
  rintro (e | u)
  · simpa [Progress.wrote, monitor, Progress.next] using hf e
  · exact ho

lemma recordStage_obeys {post : Except StageFailure Unit → Progress → Prop}
    (hr : m.MayRecord P request (entry P experiment stage payload))
    (ho : post (.ok ()) (m.wrote [entry P experiment stage payload] m.lost))
    (hf : ∀ e, post (.error ⟨stage, .journal e, none⟩) (m.wrote [] true)) :
    (P.plane.recordStage experiment stage payload).run.Obeys (monitor P request) m post := by
  rw [ControlPlane.recordStage, Program.obeys_mapErr]
  exact record_obeys hr ho hf

def probed (P : Provider σ) (experiment : ℤ) : List Record :=
  [entry P experiment .apply (.object [("applied", toValue true)]),
    entry P experiment .verify (.object [("verified", toValue true)])]

def Observed (P : Provider σ) (experiment : ℤ) (m : Progress) (r : Except StageFailure Bool)
    (m' : Progress) : Prop :=
  ∃ tail lost, m' = m.wrote tail lost ∧ (tail.map Record.stage).Sublist [.apply, .verify] ∧
    match r with
    | .ok verified => verified = true ∧ tail = probed P experiment ∧ lost = m.lost
    | .error failure => failure.suppressed = none ∧ (m.lost = true → lost = true)

lemma observeApplied_obeys (he : m.experiment = some experiment)
    (ho : m.stages.Sublist Stage.apply.before) :
    (P.plane.observeApplied experiment request).run.Obeys (monitor P request) m
      (Observed P experiment m) := by
  simp only [ControlPlane.observeApplied, Program.obeys_run_bind]
  refine recordStage_obeys (mayRecord he ho (by simp) (by simp) rfl) ?_ ?_
  · have ho' : (m.stages ++ [Stage.apply]).Sublist Stage.verify.before :=
      ho.append (List.Sublist.refl [Stage.apply])
    simp only [ControlPlane.inStage, Program.obeys_mapErr]
    refine ⟨rfl, ?_⟩
    rintro (e | verified)
    · exact ⟨_, _, rfl, by simp [entry], rfl, id⟩
    · refine recordStage_obeys
        (mayRecord he (by simpa [entry, monitor] using ho') (by simp) (by simp) rfl) ?_ ?_
      · cases verified with
        | false => exact ⟨_, _, Progress.wrote_wrote _ _ _ _ _, by simp [entry], rfl, id⟩
        | true => exact ⟨_, _, Progress.wrote_wrote _ _ _ _ _, by simp [entry], rfl, rfl, rfl⟩
      · intro e
        exact ⟨_, _, Progress.wrote_wrote _ _ _ _ _, by simp [entry], rfl, fun _ => rfl⟩
  · intro e
    exact ⟨_, _, rfl, by simp, rfl, fun _ => rfl⟩

def rolledBack (P : Provider σ) (experiment : ℤ) (snapshot : StateSnapshot) : List Record :=
  [entry P experiment .rollback (toValue snapshot),
    entry P experiment .rollbackVerify (.object [("restored", toValue true)])]

def rolled (m : Progress) (snapshot : StateSnapshot) (confirmed : Bool) : Progress :=
  { m with rollbacks := [snapshot], confirmed := confirmed }

@[simp] lemma rolled_wrote (m : Progress) (snapshot : StateSnapshot) (confirmed : Bool)
    (tail : List Record) (lost : Bool) : (rolled m snapshot confirmed).wrote tail lost =
      rolled (m.wrote tail lost) snapshot confirmed := rfl

@[simp] lemma rolled_experiment (m : Progress) (snapshot : StateSnapshot) (confirmed : Bool) :
    (rolled m snapshot confirmed).experiment = m.experiment := rfl

@[simp] lemma rolled_stages (m : Progress) (snapshot : StateSnapshot) (confirmed : Bool) :
    (rolled m snapshot confirmed).stages = m.stages := rfl

@[simp] lemma rolled_lost (m : Progress) (snapshot : StateSnapshot) (confirmed : Bool) :
    (rolled m snapshot confirmed).lost = m.lost := rfl

lemma rolled_reread (m : Progress) (snapshot restored : StateSnapshot) :
    (rolled m snapshot false).next (.provider .snapshot) (.ok restored) =
      rolled m snapshot (decide (restored = snapshot)) := by
  simp [rolled, eq_comm]

def Restored (P : Provider σ) (experiment : ℤ) (snapshot : StateSnapshot) (m : Progress)
    (r : Except StageFailure Unit) (m' : Progress) : Prop :=
  ∃ tail confirmed lost, m' = rolled (m.wrote tail lost) snapshot confirmed ∧
    (tail.map Record.stage).Sublist [.rollback, .rollbackVerify] ∧ (m.lost = true → lost = true) ∧
    match r with
    | .ok () => confirmed = true ∧ tail = rolledBack P experiment snapshot ∧ lost = m.lost
    | .error failure =>
      failure.suppressed = none ∧ (failure.stage = .rollback ∨ failure.stage = .rollbackVerify) ∧
        (lost = false → confirmed = false)

lemma restore_obeys {snapshot : StateSnapshot} (he : m.experiment = some experiment)
    (hc : m.captured = some snapshot) (ha : m.applied = true) (hn : m.rollbacks = [])
    (ho : m.stages.Sublist Stage.rollback.before) :
    (P.plane.restore experiment snapshot).run.Obeys (monitor P request) m
      (Restored P experiment snapshot m) := by
  simp only [ControlPlane.restore, Program.obeys_run_bind, ControlPlane.inStage, Program.obeys_mapErr]
  refine ⟨⟨ha, hn, hc⟩, ?_⟩
  show ∀ r : Except ProviderError Unit, _
  rintro (e | u)
  · exact ⟨[], false, m.lost, by simp [monitor, rolled, hn, Progress.wrote], by simp, id, rfl,
      .inl rfl, fun _ => rfl⟩
  have hm : m.next (.provider (.rollback snapshot)) (.ok u) = rolled m snapshot false := by
    simp [rolled, hn]
  simp only [monitor, hm, Except.mapError]
  refine recordStage_obeys (mayRecord he ho (by simp) (by simp) rfl) ?_ ?_
  · have ho' : (m.stages ++ [Stage.rollback]).Sublist Stage.rollbackVerify.before :=
      ho.append (List.Sublist.refl [Stage.rollback])
    refine ⟨.inr (by simp [rolled, Progress.wrote]), ?_⟩
    show ∀ r : Except ProviderError StateSnapshot, _
    rintro (e | restored)
    · exact ⟨_, false, m.lost, by simp; rfl, by simp [entry], id, rfl, .inr rfl, fun _ => rfl⟩
    simp only [rolled_wrote, rolled_reread]
    refine recordStage_obeys (mayRecord (by simpa using he) (by simpa [entry] using ho') (by simp)
      (by simp) rfl) ?_ ?_
    · by_cases hr : restored = snapshot
      · simp only [hr, decide_true, if_true, Program.obeys_run_pure, rolled_wrote,
          Progress.wrote_wrote, rolled_lost, Progress.wrote_lost]
        exact ⟨_, true, m.lost, rfl, by simp [entry], id, rfl, rfl, rfl⟩
      · simp only [hr, decide_false, Bool.false_eq_true, if_false, Program.obeys_run_throw,
          rolled_wrote, Progress.wrote_wrote, rolled_lost, Progress.wrote_lost]
        exact ⟨_, false, m.lost, rfl, by simp [entry], id, rfl, .inr rfl, fun _ => rfl⟩
    · intro e
      simp only [rolled_wrote, Progress.wrote_wrote]
      exact ⟨_, _, true, rfl, by simp [entry], by simp, rfl, .inr rfl, by simp⟩
  · intro e
    exact ⟨[], false, true, by simp [Progress.wrote, rolled], by simp, by simp, rfl, .inl rfl, by simp⟩

def begun (P : Provider σ) (experiment : ℤ) (snapshot : StateSnapshot) : Progress :=
  { Progress.start with
    captured := some snapshot
    experiment := some experiment
    written := [entry P experiment .snapshot (toValue snapshot)] }

def staged (P : Provider σ) (request : ChangeRequest) (experiment : ℤ) (snapshot : StateSnapshot)
    (preview : String) : List Record :=
  [entry P experiment .snapshot (toValue snapshot),
    entry P experiment .preview (.object [("description", toValue preview)]),
    .intent P request experiment] ++ probed P experiment ++ rolledBack P experiment snapshot

structure Staged (P : Provider σ) (request : ChangeRequest) (experiment : ℤ)
    (snapshot : StateSnapshot) (r : Except StageFailure LifecycleResult) (m : Progress) : Prop where
  began : m.experiment = some experiment
  captured : m.captured = some snapshot
  order : m.stages.Sublist Stage.completed.before
  rollbacks : m.rollbacks = if m.applied then [snapshot] else []
  unconfirmed : ∀ failure, r = .error failure → m.applied = true → m.confirmed = false →
    m.lost = false → failure.stage = .rollback ∨ failure.stage = .rollbackVerify
  ok : ∀ result, r = .ok result → m.applied = true ∧ m.confirmed = true ∧ m.lost = false ∧
    ∃ preview, result = ⟨P.manifest.id, preview, true, true⟩ ∧
      m.written = staged P request experiment snapshot preview

variable {snapshot : StateSnapshot}

lemma staged_refused {failure : StageFailure} {tail : List Record} {lost : Bool}
    (ht : (tail.map Record.stage).Sublist [.preview, .applyIntent]) :
    Staged P request experiment snapshot (.error failure)
      ((begun P experiment snapshot).wrote tail lost) where
  began := rfl
  captured := rfl
  order := by
    have h : (Stage.snapshot :: tail.map Record.stage).Sublist Stage.completed.before :=
      (ht.cons_cons _).trans (by decide)
    simpa [begun, Progress.stages, Progress.wrote, entry] using h
  rollbacks := rfl
  unconfirmed _ _ h := by simp [begun, Progress.wrote, Progress.start] at h
  ok _ h := by simp at h

def intended (P : Provider σ) (request : ChangeRequest) (experiment : ℤ) (snapshot : StateSnapshot)
    (preview : String) : Progress :=
  (begun P experiment snapshot).wrote
    [entry P experiment .preview (.object [("description", toValue preview)]),
      .intent P request experiment] false

def entered (P : Provider σ) (request : ChangeRequest) (experiment : ℤ) (snapshot : StateSnapshot)
    (preview : String) : Progress :=
  { intended P request experiment snapshot preview with applied := true }

lemma staged_restored {preview : String} {probe undo : List Record} {confirmed lost : Bool}
    {r : Except StageFailure LifecycleResult}
    (hp : (probe.map Record.stage).Sublist [.apply, .verify])
    (hu : (undo.map Record.stage).Sublist [.rollback, .rollbackVerify])
    (hf : ∀ failure, r = .error failure → confirmed = false → lost = false →
      failure.stage = .rollback ∨ failure.stage = .rollbackVerify)
    (ho : ∀ result, r = .ok result → confirmed = true ∧ lost = false ∧
      probe = probed P experiment ∧ undo = rolledBack P experiment snapshot ∧
        result = ⟨P.manifest.id, preview, true, true⟩) :
    Staged P request experiment snapshot r
      (rolled ((entered P request experiment snapshot preview).wrote (probe ++ undo) lost)
        snapshot confirmed) where
  began := rfl
  captured := rfl
  order := by
    have h : ([Stage.snapshot, .preview, .applyIntent] ++
        (probe.map Record.stage ++ undo.map Record.stage)).Sublist Stage.completed.before :=
      (hp.append hu).append_left [Stage.snapshot, .preview, .applyIntent]
    simpa [entered, intended, begun, Progress.stages, Progress.wrote, entry, rolled, Record.intent]
      using h
  rollbacks := rfl
  unconfirmed failure h _ := hf failure h
  ok result h := by
    obtain ⟨hc, hl, rfl, rfl, hr⟩ := ho result h
    exact ⟨rfl, hc, hl, preview, hr, by simp [staged, rolled, entered, intended, begun, Progress.wrote]⟩

lemma probe_obeys {preview : String} :
    (ExceptT.run do
      ControlPlane.inStage .apply (invoke (.apply request))
      P.plane.observeApplied experiment request).Obeys (monitor P request)
        (intended P request experiment snapshot preview)
        (Observed P experiment (entered P request experiment snapshot preview)) := by
  simp only [Program.obeys_run_bind, ControlPlane.inStage, Program.obeys_mapErr]
  refine ⟨⟨rfl, rfl, rfl, experiment, rfl, by simp [intended, Progress.wrote]⟩, ?_⟩
  show ∀ r : Except ProviderError Unit, _
  rintro (e | u)
  · exact ⟨[], false, rfl, by simp, rfl, id⟩
  · exact observeApplied_obeys rfl (.refl [Stage.snapshot, .preview, .applyIntent])

lemma runStages_obeys :
    (P.plane.runStages experiment request snapshot).run.Obeys (monitor P request)
      (begun P experiment snapshot) (Staged P request experiment snapshot) := by
  rw [ControlPlane.runStages, Program.obeys_run_bind, ControlPlane.inStage, Program.obeys_mapErr]
  refine ⟨rfl, ?_⟩
  show ∀ r : Except ProviderError String, _
  rintro (e | preview)
  · show Staged P request experiment snapshot _ ((begun P experiment snapshot).wrote [] false)
    exact staged_refused (by simp)
  simp only [Program.obeys_done, Except.mapError]
  rw [Program.obeys_run_bind]
  refine recordStage_obeys (mayRecord rfl (.refl [Stage.snapshot]) (by simp) (by simp) rfl) ?_
    (fun e => staged_refused (by simp))
  dsimp only
  rw [Program.obeys_run_bind]
  refine recordStage_obeys (mayRecord rfl (.refl [Stage.snapshot, .preview]) (by simp) (by simp) rfl) ?_
    (fun e => ?_)
  · dsimp only
    rw [Program.obeys_run_lift_bind]
    refine probe_obeys.mono ?_
    rintro observed _ ⟨probe, lost, rfl, hp, ho⟩
    rw [Program.obeys_run_lift_bind]
    refine (restore_obeys rfl rfl rfl rfl ?_).mono ?_
    · rw [Progress.wrote_stages]
      exact hp.append_left [Stage.snapshot, .preview, .applyIntent]
    rintro restored _ ⟨undo, confirmed, lost', rfl, hu, hl, hr⟩
    rw [Progress.wrote_wrote]
    cases restored with
    | error failure =>
      obtain ⟨-, hs, hc⟩ := hr
      cases observed with
      | error original =>
        refine staged_restored hp hu ?_ (by simp)
        rintro _ ⟨⟩ _ _
        exact hs
      | ok verified =>
        refine staged_restored hp hu ?_ (by simp)
        rintro _ ⟨⟩ _ _
        exact hs
    | ok u =>
      obtain ⟨hc, hu', hl'⟩ := hr
      cases observed with
      | error failure =>
        refine staged_restored hp hu ?_ (by simp)
        rintro _ ⟨⟩ h _
        simp [hc] at h
      | ok verified =>
        obtain ⟨rfl, hp', hl''⟩ := ho
        refine staged_restored hp hu (by simp) ?_
        rintro _ ⟨⟩
        exact ⟨hc, hl'.trans hl'', hp', hu', rfl⟩
  · exact staged_refused (by simp [entry])

def succeeded (P : Provider σ) (request : ChangeRequest) (experiment : ℤ) (snapshot : StateSnapshot)
    (preview : String) : List Record :=
  staged P request experiment snapshot preview ++
    [entry P experiment .completed
      (.object [("rolled_back", toValue true), ("verified", toValue true)])]

structure Closed (P : Provider σ) (request : ChangeRequest) (experiment : ℤ)
    (snapshot : StateSnapshot) (r : Except ControlPlaneError LifecycleResult) (m : Progress) :
    Prop where
  began : m.experiment = some experiment
  captured : m.captured = some snapshot
  rollbacks : m.rollbacks = if m.applied then [snapshot] else []
  ok : ∀ result, r = .ok result → m.applied = true ∧ m.confirmed = true ∧ m.lost = false ∧
    ∃ preview, result = ⟨P.manifest.id, preview, true, true⟩ ∧
      m.written = succeeded P request experiment snapshot preview
  failed : ∀ error, r = .error error → .completed ∉ m.stages ∧ (m.lost = false →
    ∃ failure body, failure.error = error ∧
      (m.applied = true → m.confirmed = false →
        failure.stage = .rollback ∨ failure.stage = .rollbackVerify) ∧
      m.written = body ++ [entry P experiment .failed (ControlPlane.failedPayload failure)])

lemma failedPayload_own (failure : StageFailure) :
    (entry P experiment .failed (ControlPlane.failedPayload failure)).byWatchdog = false := by
  obtain ⟨stage, error, suppressed⟩ := failure
  cases suppressed <;> cases error <;> rfl

lemma recordOutcome_obeys {outcome : Except StageFailure LifecycleResult}
    (h : Staged P request experiment snapshot outcome m) :
    (P.plane.recordOutcome experiment outcome).run.Obeys (monitor P request) m
      (Closed P request experiment snapshot) := by
  have hn : .completed ∉ m.stages := fun hm => absurd (h.order.subset hm) (by decide)
  cases outcome with
  | ok result =>
    obtain ⟨ha, hc, hl, preview, rfl, hw⟩ := h.ok result rfl
    simp only [ControlPlane.recordOutcome, Program.obeys_run_bind, Program.obeys_mapErr]
    refine record_obeys (mayRecord h.began h.order (by simp) (by simp) rfl) ?_ (fun e => ?_)
    · refine ⟨h.began, h.captured, h.rollbacks, ?_, by simp⟩
      rintro _ ⟨⟩
      exact ⟨ha, hc, hl, preview, rfl, by simp [succeeded, ← hw, Progress.wrote]; rfl⟩
    · refine ⟨h.began, h.captured, h.rollbacks, by simp, ?_⟩
      rintro _ ⟨⟩
      exact ⟨by simpa using hn, by simp⟩
  | error failure =>
    rw [ControlPlane.recordOutcome, Program.obeys_run_lift_bind]
    refine record_obeys
      (mayRecord h.began h.order (by simp) (by simp) (failedPayload_own _)) ?_ (fun e => ?_)
    · refine ⟨h.began, h.captured, h.rollbacks, by simp, ?_⟩
      rintro _ ⟨⟩
      refine ⟨by simpa [entry] using hn, fun hl => ⟨failure, m.written, rfl, fun ha hc => ?_, rfl⟩⟩
      exact h.unconfirmed failure rfl ha hc hl
    · refine ⟨h.began, h.captured, h.rollbacks, by simp, ?_⟩
      rintro _ ⟨⟩
      exact ⟨by simpa using hn, by simp⟩

def Finished (P : Provider σ) (request : ChangeRequest)
    (r : Except ControlPlaneError LifecycleResult) (m : Progress) : Prop :=
  (∃ experiment snapshot, Closed P request experiment snapshot r m) ∨
    (∃ error, r = .error error) ∧ m.experiment = none ∧ m.applied = false ∧ m.rollbacks = [] ∧
      m.written = []

lemma runLifecycle_obeys :
    (P.plane.runLifecycle request).run.Obeys (monitor P request) .start (Finished P request) := by
  rw [ControlPlane.runLifecycle, Program.obeys_run_bind]
  cases hv : P.plane.validate request with
  | error e => exact .inr ⟨⟨e, rfl⟩, rfl, rfl, rfl, rfl⟩
  | ok u =>
    simp only [ExceptT.run_mk, Program.pure_eq, Program.obeys_done]
    rw [Program.obeys_run_bind, Program.obeys_mapErr]
    refine ⟨.inl ⟨rfl, rfl⟩, ?_⟩
    show ∀ r : Except ProviderError StateSnapshot, _
    rintro (e | snapshot)
    · exact .inr ⟨⟨_, rfl⟩, rfl, rfl, rfl, rfl⟩
    simp only [Program.obeys_done, Except.mapError]
    rw [Program.obeys_run_bind, Program.obeys_mapErr]
    refine ⟨⟨rfl, rfl, hv, snapshot, rfl, rfl⟩, ?_⟩
    show ∀ r : Except SqlError ℤ, _
    rintro (e | experiment)
    · exact .inr ⟨⟨_, rfl⟩, rfl, rfl, rfl, rfl⟩
    simp only [Program.obeys_done, Except.mapError]
    rw [Program.obeys_run_lift_bind]
    refine runStages_obeys.mono fun outcome m h => ?_
    exact (recordOutcome_obeys h).mono fun r m' h' => .inl ⟨experiment, snapshot, h'⟩

structure Orderly (P : Provider σ) (request : ChangeRequest) (m : Progress) : Prop where
  idle : m.experiment = none → m.written = [] ∧ m.applied = false
  opened : ∀ experiment, m.experiment = some experiment → ∃ snapshot rest,
    m.captured = some snapshot ∧ P.plane.validate request = .ok () ∧
      m.written = entry P experiment .snapshot (toValue snapshot) :: rest ∧
      ∀ record ∈ rest, record.experimentId = experiment ∧ record.providerId = P.manifest.id ∧
        (record.stage ≠ .snapshot ∧ record.stage ≠ .watchdogRestore) ∧
        (record.stage = .applyIntent → record = .intent P request experiment) ∧
        record.byWatchdog = false
  order : ∃ stage : Stage, m.stages.Sublist (stage.before ++ [stage])
  applied : m.applied = true → ∃ experiment, m.experiment = some experiment ∧
    .intent P request experiment ∈ m.written
  rollbacks : m.rollbacks = [] ∨ m.applied = true ∧
    ∃ snapshot, m.captured = some snapshot ∧ m.rollbacks = [snapshot]

lemma orderly_start : Orderly P request .start where
  idle _ := ⟨rfl, rfl⟩
  opened _ h := by simp [Progress.start] at h
  order := ⟨.snapshot, by simp [Progress.stages, Progress.start]⟩
  applied h := by simp [Progress.start] at h
  rollbacks := .inl rfl

namespace Orderly

variable (h : Orderly P request m)

include h

lemma write {record : Record} (hr : m.MayRecord P request record) :
    Orderly P request (m.write [record]) where
  idle he := by simp [Progress.write, hr.experiment] at he
  opened e he := by
    obtain ⟨s, rest, hc, hv, hw, ho⟩ := h.opened e he
    refine ⟨s, rest ++ [record], hc, hv, by simp [Progress.write, hw], ?_⟩
    intro r hm
    rcases List.mem_append.mp hm with hm | hm
    · exact ho r hm
    · obtain rfl := List.mem_singleton.mp hm
      have hi : some r.experimentId = some e := hr.experiment.symm.trans he
      cases hi
      exact ⟨rfl, hr.providerId, hr.later, hr.intent, hr.own⟩
  order := ⟨record.stage, by
    have ho := hr.order.append (List.Sublist.refl [record.stage])
    simpa [Progress.stages, Progress.write] using ho⟩
  applied ha := by
    obtain ⟨e, he, hm⟩ := h.applied ha
    exact ⟨e, he, List.mem_append_left _ hm⟩
  rollbacks := h.rollbacks

lemma next {o : Op} (ha : m.lifecycleAllows P request o) (r : o.Res) :
    Orderly P request (m.next o r) := by
  cases o with
  | provider method =>
    cases method with
    | snapshot =>
      rcases r with e | s
      · exact h
      · rw [Progress.next_snapshot_ok]
        split_ifs with hn
        · have he : m.experiment = none := (ha.resolve_right (not_not_intro hn)).2
          exact ⟨h.idle, by simp [he], h.order, h.applied, .inl hn⟩
        · exact ⟨h.idle, h.opened, h.order, h.applied, h.rollbacks⟩
    | preview asked => exact h
    | verify asked => exact h
    | apply asked =>
      obtain ⟨rfl, -, hn, e, he, hm⟩ := ha
      rw [Progress.next_apply]
      exact ⟨by simp [he], h.opened, h.order, fun _ => ⟨e, he, hm⟩, .inl hn⟩
    | rollback s =>
      obtain ⟨hp, hn, hc⟩ := ha
      rw [Progress.next_rollback]
      exact ⟨h.idle, h.opened, h.order, h.applied, .inr ⟨hp, s, hc, by simp [hn]⟩⟩
  | journal statement =>
    rcases r with e | x
    · rw [Progress.next_error]
      exact ⟨h.idle, h.opened, h.order, h.applied, h.rollbacks⟩
    cases statement with
    | beginExperiment providerId payload =>
      obtain ⟨he, rfl, hv, s, hc, rfl⟩ := ha
      obtain ⟨hw, hp⟩ := h.idle he
      have hn : m.rollbacks = [] := h.rollbacks.resolve_right (by simp [hp])
      rw [Progress.next_begin_ok]
      refine ⟨by simp [Progress.write], ?_, ⟨.snapshot, ?_⟩, by simp [Progress.write, hp], .inl hn⟩
      · rintro _ ⟨⟩
        exact ⟨s, [], hc, hv, by simp [Progress.write, hw, entry], by simp⟩
      · simp [Progress.stages, Progress.write, hw, Stage.before]
    | insert records =>
      obtain ⟨record, rfl, hr⟩ := ha
      exact h.write hr
    | _ => cases ha

end Orderly

end Lifecycle

end FpsMaxxing
