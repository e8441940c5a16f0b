import FpsMaxxing.Host.LifecycleEffect
import FpsMaxxing.Host.Play

/-! Which failures of a lifecycle its failed row and its caller hear of. -/

namespace FpsMaxxing

open Effects Serde

variable {σ : Type}

def rowFailure (record : Record) : Except SqlError Unit → Option StageFailure
  | .error e => some ⟨record.stage, .journal e, none⟩
  | .ok () =>
    if record.stage = .verify ∧ record.payload.get "verified" = some (.bool false) then
      some ⟨.verify, .verificationFailed, none⟩
    else if record.stage = .rollbackVerify ∧ record.payload.get "restored" = some (.bool false) then
      some ⟨.rollbackVerify, .rollbackVerificationFailed, none⟩
    else none

def stageFailure : (o : Op) → o.Res → Option StageFailure
  | .provider (.preview _), .error e => some ⟨.preview, .provider e, none⟩
  | .provider (.apply _), .error e => some ⟨.apply, .provider e, none⟩
  | .provider (.verify _), .error e => some ⟨.verify, .provider e, none⟩
  | .provider (.rollback _), .error e => some ⟨.rollback, .provider e, none⟩
  | .provider .snapshot, .error e => some ⟨.rollbackVerify, .provider e, none⟩
  | .journal (.insert [record]), r => rowFailure record r
  | _, _ => none

def failuresOf (log : List Calls.Event) : List StageFailure :=
  log.filterMap fun event => stageFailure event.1 event.2

structure Phases (request : ChangeRequest) (snapshot : StateSnapshot)
    (prepare observe restore : List Calls.Event) : Prop where
  unapplied : ∀ event ∈ prepare, event.1.isApply = false
  unrestored : ∀ event ∈ prepare ++ observe, event.1.rollback? = none
  begun : observe = [] ∧ restore = [] ∨
    (∃ answer rest, observe = ⟨.provider (.apply request), answer⟩ :: rest) ∧
      ∃ answer rest, restore = ⟨.provider (.rollback snapshot), answer⟩ :: rest

inductive Reported : List StageFailure → List StageFailure → List StageFailure → StageFailure → Prop
  | prepare (failure : StageFailure) : Reported [failure] [] [] failure
  | observe (failure : StageFailure) : Reported [] [failure] [] failure
  | restore (failure : StageFailure) : Reported [] [] [failure] failure
  | both (original failure : StageFailure) :
    Reported [] [original] [failure] (failure.suppressing original)

def returnedFailure {α : Type} : Except StageFailure α → List StageFailure
  | .ok _ => []
  | .error failure => [failure]

namespace ControlPlane

variable (plane : ControlPlane) (experiment : ℤ) (request : ChangeRequest)
  (snapshot : StateSnapshot)

lemma logs_record (stage : Stage) (payload : Value)
    (lang : List Calls.Event → Except StageFailure Unit → Prop) :
    (plane.recordStage experiment stage payload).run.Logs anyAnswer lang ↔
      ∀ r, lang [⟨.journal (.insert [⟨experiment, stage, plane.manifest.id, payload⟩]), r⟩]
        (r.mapError fun error => ⟨stage, .journal error, none⟩) := by
  rw [recordStage, Program.logs_mapErr, record, logs_execute]

lemma observe_logs :
    (ExceptT.run do
      inStage .apply (invoke (.apply request))
      plane.observeApplied experiment request).Logs anyAnswer fun log r =>
        failuresOf log = returnedFailure r ∧ (∀ event ∈ log, event.1.rollback? = none) ∧
          ∃ answer rest, log = ⟨.provider (.apply request), answer⟩ :: rest := by
  rw [Program.logs_run_bind, inStage, Program.logs_mapErr, logs_invoke]
  rintro (e | u)
  · exact ⟨rfl, by simp [Op.rollback?], _, [], rfl⟩
  dsimp only [Except.mapError]
  rw [observeApplied, Program.logs_run_bind, logs_record]
  rintro (e | u)
  · exact ⟨rfl, by simp [Op.rollback?], _, _, rfl⟩
  dsimp only [Except.mapError]
  rw [Program.logs_run_bind, inStage, Program.logs_mapErr, logs_invoke]
  rintro (e | verified)
  · exact ⟨rfl, by simp [Op.rollback?], _, _, rfl⟩
  dsimp only [Except.mapError]
  rw [Program.logs_run_bind, logs_record]
  rintro (e | u)
  · exact ⟨rfl, by simp [Op.rollback?], _, _, rfl⟩
  cases verified with
  | false => exact ⟨rfl, by simp [Op.rollback?], _, _, rfl⟩
  | true => exact ⟨rfl, by simp [Op.rollback?], _, _, rfl⟩

lemma restore_logs :
    (plane.restore experiment snapshot).run.Logs anyAnswer fun log r =>
      failuresOf log = returnedFailure r ∧
        ∃ answer rest, log = ⟨.provider (.rollback snapshot), answer⟩ :: rest := by
  rw [restore, Program.logs_run_bind, inStage, Program.logs_mapErr, logs_invoke]
  rintro (e | u)
  · exact ⟨rfl, _, [], rfl⟩
  dsimp only [Except.mapError]
  rw [Program.logs_run_bind, logs_record]
  rintro (e | u)
  · exact ⟨rfl, _, _, rfl⟩
  dsimp only [Except.mapError]
  rw [Program.logs_run_bind, inStage, Program.logs_mapErr, logs_invoke]
  rintro (e | restored)
  · exact ⟨rfl, _, _, rfl⟩
  dsimp only [Except.mapError]
  rw [Program.logs_run_bind, logs_record]
  rintro (e | u)
  · exact ⟨rfl, _, _, rfl⟩
  cases hr : decide (restored = snapshot) with
  | false => exact ⟨rfl, _, _, rfl⟩
  | true => exact ⟨rfl, _, _, rfl⟩

def Staged (log : List Calls.Event) (r : Except StageFailure LifecycleResult) : Prop :=
  ∃ prepare observe restore, log = prepare ++ observe ++ restore ∧
    Phases request snapshot prepare observe restore ∧
    match r with
    | .ok _ => failuresOf prepare = [] ∧ failuresOf observe = [] ∧ failuresOf restore = []
    | .error failure =>
      Reported (failuresOf prepare) (failuresOf observe) (failuresOf restore) failure

lemma staged_prepare {log : List Calls.Event} {failure : StageFailure}
    (hf : failuresOf log = [failure])
    (hl : ∀ event ∈ log, event.1.isApply = false ∧ event.1.rollback? = none) :
    Staged request snapshot log (.error failure) := by
  refine ⟨log, [], [], by simp, ⟨fun event hm => (hl event hm).1, ?_, .inl ⟨rfl, rfl⟩⟩, ?_⟩
  · rw [List.append_nil]
    exact fun event hm => (hl event hm).2
  · dsimp only
    rw [hf]
    exact .prepare failure

lemma runStages_logs :
    (plane.runStages experiment request snapshot).run.Logs anyAnswer
      (Staged request snapshot) := by
  rw [runStages, Program.logs_run_bind, inStage, Program.logs_mapErr, logs_invoke]
  rintro (e | preview)
  · exact staged_prepare _ _ rfl (by simp [Op.isApply, Op.rollback?])
  dsimp only [Except.mapError]
  rw [Program.logs_run_bind, logs_record]
  rintro (e | u)
  · exact staged_prepare _ _ rfl (by simp [Op.isApply, Op.rollback?])
  dsimp only [Except.mapError]
  rw [Program.logs_run_bind, logs_record]
  rintro (e | u)
  · exact staged_prepare _ _ rfl (by simp [Op.isApply, Op.rollback?])
  dsimp only [Except.mapError]
  rw [Program.logs_run_lift_bind]
  refine (observe_logs plane experiment request).mono ?_
  rintro observe observed ⟨hof, hor, hob⟩
  rw [Program.logs_run_lift_bind]
  refine (restore_logs plane experiment snapshot).mono ?_
  rintro restore restored ⟨hrf, hrb⟩
  have hphases : Phases request snapshot
      [⟨.provider (.preview request), .ok preview⟩,
        ⟨.journal (.insert [⟨experiment, .preview, plane.manifest.id,
          .object [("description", toValue preview)]⟩]), .ok ()⟩,
        ⟨.journal (.insert [⟨experiment, .applyIntent, plane.manifest.id, toValue request⟩]),
          .ok ()⟩] observe restore := by
    refine ⟨by simp [Op.isApply], ?_, .inr ⟨hob, hrb⟩⟩
    rw [List.forall_mem_append]
    exact ⟨by simp [Op.rollback?], hor⟩
  have hfail : ∀ failure, Reported [] (returnedFailure observed) (returnedFailure restored)
      failure → Staged request snapshot _ (.error failure) := fun failure hr =>
    ⟨_, _, _, rfl, hphases, by dsimp only; rw [hof, hrf]; exact hr⟩
  cases restored with
  | error failure =>
    cases observed with
    | error original => simpa using hfail _ (.both original failure)
    | ok _ => simpa using hfail _ (.restore failure)
  | ok _ =>
    cases observed with
    | error failure => simpa using hfail _ (.observe failure)
    | ok verified =>
      have hdone : ∀ result, Staged request snapshot _ (.ok result) := fun result =>
        ⟨_, _, _, rfl, hphases, rfl, hof, hrf⟩
      simpa using hdone _

end ControlPlane

structure Names (payload : Value) (failure : StageFailure) : Prop where
  kind : payload.get "kind" = some (.string failure.error.kind)
  stage : payload.get "stage" = some (.string failure.stage.text)
  error : payload.get "error" = some (.string failure.error.text)

structure Tells (payload : Value) (failure : StageFailure) : Prop extends Names payload failure where
  alone : failure.suppressed = none → payload.get "suppressed" = none
  original : ∀ original, failure.suppressed = some original →
    ∃ entry, payload.get "suppressed" = some entry ∧ Names entry original

namespace ControlPlane

lemma failedPayload_tells (failure : StageFailure) : Tells (failedPayload failure) failure := by
  obtain ⟨stage, error, suppressed⟩ := failure
  cases suppressed with
  | none => exact ⟨⟨rfl, rfl, rfl⟩, fun _ => rfl, nofun⟩
  | some original =>
    refine ⟨⟨rfl, rfl, rfl⟩, nofun, ?_⟩
    rintro _ ⟨⟩
    exact ⟨_, rfl, rfl, rfl, rfl⟩

lemma recordOutcome_error (plane : ControlPlane) (experiment : ℤ) (failure : StageFailure) :
    (plane.recordOutcome experiment (.error failure)).run =
      .call (.journal (.insert [⟨experiment, .failed, plane.manifest.id, failedPayload failure⟩]) :
        Calls.Op) fun _ => .done (.error failure.error) := rfl

lemma begun_inv {P : Provider σ} {request : ChangeRequest} {w v : World σ} {tr : Trace σ}
    {answer : Except ControlPlaneError LifecycleResult}
    (hs : Steps (sem P) (P.plane.runLifecycle request).run w tr (.done answer) v)
    (hb : ∃ event ∈ tr.map Entry.event, ∃ providerId payload experiment,
      event = ⟨.journal (.beginExperiment providerId payload), .ok experiment⟩) :
    ∃ snapshot experiment before u outcome stages x rest, tr = before ++ stages ++ rest ∧
      before.map Entry.event = [⟨.provider .snapshot, .ok snapshot⟩,
        ⟨.journal (.beginExperiment P.manifest.id (toValue snapshot)), .ok experiment⟩] ∧
      Steps (sem P) (P.plane.runStages experiment request snapshot).run u stages
        (.done outcome) x ∧
      Steps (sem P) (P.plane.runLifecycle request).run w (before ++ stages)
        (P.plane.recordOutcome experiment outcome).run x ∧
      Steps (sem P) (P.plane.recordOutcome experiment outcome).run x rest (.done answer) v := by
  obtain ⟨event, hm, providerId, payload, experiment, rfl⟩ := hb
  rw [ControlPlane.runLifecycle] at hs ⊢
  obtain ⟨e, he, h₀⟩ | ⟨u, t₀, w₀, t, rfl, hval, h₀⟩ := hs.run_bind_inv
  · obtain ⟨rfl, _⟩ := h₀.done_inv
    cases hm
  obtain ⟨rfl, hvalid, rfl⟩ := hval.done_inv
  obtain ⟨e, he, h₁⟩ | ⟨snapshot, t₁, w₁, t, rfl, hsnap, h₁⟩ := h₀.run_bind_inv
  · obtain ⟨r, hr, hcall⟩ := h₁.mapErr_inv
    obtain ⟨rfl, _⟩ := hcall.perform_inv
    cases List.mem_singleton.mp hm
  obtain ⟨r, hr, hcall⟩ := hsnap.mapErr_inv
  obtain ⟨rfl, _⟩ := hcall.perform_inv
  obtain ⟨e, he, h₂⟩ | ⟨experiment', t₂, w₂, t, rfl, hbegin, h₂⟩ := h₁.run_bind_inv
  · obtain ⟨r', hr', hcall'⟩ := h₂.mapErr_inv
    obtain ⟨rfl, _⟩ := hcall'.perform_inv
    cases r' with
    | error _ => simp [Entry.event] at hm
    | ok _ => cases hr'
  obtain ⟨r', hr', hcall'⟩ := hbegin.mapErr_inv
  obtain ⟨rfl, _⟩ := hcall'.perform_inv
  obtain rfl := mapError_eq_ok.mp hr.symm
  obtain rfl := mapError_eq_ok.mp hr'.symm
  obtain ⟨outcome, t₃, w₃, t, rfl, hstages, h₃⟩ := h₂.run_lift_bind_inv
  refine ⟨snapshot, experiment', [⟨w₀, .provider .snapshot, .ok snapshot⟩,
    ⟨w₁, .journal (.beginExperiment P.manifest.id (toValue snapshot)), .ok experiment'⟩], w₂, outcome,
    t₃, w₃, t, ?_, rfl, hstages, ?_, h₃⟩
  · rw [List.append_assoc]
    rfl
  · exact hval.run_bind.trans
      (hsnap.run_bind.trans (hbegin.run_bind.trans hstages.run_lift_bind))

end ControlPlane

structure Accounted (P : Provider σ) (request : ChangeRequest) (w : World σ) (tr : Trace σ)
    (error : ControlPlaneError) (snapshot : StateSnapshot) (experiment : ℤ)
    (prepare observe restore : List Calls.Event) (failure : StageFailure) : Prop where
  phases : Phases request snapshot prepare observe restore
  reported : Reported (failuresOf prepare) (failuresOf observe) (failuresOf restore) failure
  returned : failure.error = error
  calls : ∃ payload before u r, Tells payload failure ∧
    before.map Entry.event = ⟨.provider .snapshot, .ok snapshot⟩ ::
      ⟨.journal (.beginExperiment P.manifest.id (toValue snapshot)), .ok experiment⟩ ::
        (prepare ++ observe ++ restore) ∧
    tr = before ++ [⟨u, .journal (.insert [Lifecycle.entry P experiment .failed payload]), r⟩] ∧
    Steps (sem P) (P.plane.runLifecycle request).run w before
      (.call (.journal (.insert [Lifecycle.entry P experiment .failed payload]) : Calls.Op)
        fun _ => .done (.error error)) u

theorem failures_accounted {P : Provider σ} {request : ChangeRequest} {w v : World σ}
    {tr : Trace σ} {error : ControlPlaneError}
    (hs : Steps (sem P) (P.plane.runLifecycle request).run w tr (.done (.error error)) v)
    (hb : ∃ event ∈ tr.map Entry.event, ∃ providerId payload experiment,
      event = ⟨.journal (.beginExperiment providerId payload), .ok experiment⟩) :
    (∃ body e payload, failuresOf body = [] ∧ tr.map Entry.event = body ++
        [⟨.journal (.insert [payload]), .error e⟩] ∧ payload.stage = .completed ∧
          error = .journal e) ∨
      ∃ snapshot experiment prepare observe restore failure,
        Accounted P request w tr error snapshot experiment prepare observe restore failure := by
  obtain ⟨snapshot, experiment, before, u, outcome, stages, x, rest, rfl, hbefore, hstages, hreach,
    hrest⟩ := ControlPlane.begun_inv hs hb
  obtain ⟨prepare, observe, restore, hlog, hphases, hreported⟩ :=
    ((P.plane.runStages_logs experiment request snapshot).returned hstages fun _ _ => trivial).1
  cases outcome with
  | ok result =>
    obtain ⟨e, he, h⟩ | ⟨_, _, _, _, _, _, h⟩ := hrest.run_bind_inv
    · obtain ⟨r, hr, hcall⟩ := h.mapErr_inv
      obtain ⟨rfl, _⟩ := hcall.perform_inv
      cases r with
      | ok _ => cases hr
      | error e' =>
        cases hr
        refine .inl ⟨before.map Entry.event ++ stages.map Entry.event, e',
          Lifecycle.entry P experiment .completed (ControlPlane.completedPayload result), ?_,
          by simp only [List.map_append]; rfl, rfl, Except.error.inj he⟩
        obtain ⟨hp, ho, hre⟩ := hreported
        rw [hbefore, hlog]
        simp only [failuresOf, List.filterMap_cons, List.filterMap_append] at hp ho hre ⊢
        rw [hp, ho, hre]
        rfl
    · cases h.done_inv.2.1
  | error failure =>
    rw [ControlPlane.recordOutcome_error] at hrest hreach
    obtain ⟨_, hq, _⟩ | ⟨r, y, t, rfl, _, h⟩ := hrest.call_inv
    · cases hq
    obtain ⟨rfl, hq, rfl⟩ := h.done_inv
    cases hq
    refine .inr ⟨snapshot, experiment, prepare, observe, restore, failure, hphases, hreported, rfl,
      _, _, x, r, ControlPlane.failedPayload_tells failure, ?_, rfl, hreach⟩
    rw [List.map_append, hbefore, hlog]
    rfl

def deafProvider : Device UInt64 where
  __ := mockProvider "linux"
  apply _ current := (.error (.unavailable "busy"), current)
  rollback _ current := (.error (.unavailable "gone"), current)

theorem failures_accounted_deaf : ∃ tr snapshot experiment prepare observe restore failure,
    Accounted deafProvider.provider (mockRequest 42) ⟨⟨true, [], []⟩, 7⟩ tr
      (.provider (.unavailable "gone")) snapshot experiment prepare observe restore failure := by
  have hs := Program.advance_done (n := 20) (a := .error (.provider (.unavailable "gone")))
    deafProvider.answer_sem
    (p := (deafProvider.provider.plane.runLifecycle (mockRequest 42)).run)
    (w := ⟨⟨true, [], []⟩, 7⟩) rfl
  refine ⟨_, (failures_accounted hs ⟨_, List.mem_cons_of_mem _ List.mem_cons_self, _, _, _,
    rfl⟩).resolve_left ?_⟩
  rintro ⟨body, e, payload, _, htr, _⟩
  have hlast := congrArg List.getLast? htr
  rw [List.getLast?_concat] at hlast
  cases hlast

end FpsMaxxing
