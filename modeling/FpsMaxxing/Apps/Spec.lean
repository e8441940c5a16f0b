import FpsMaxxing.Apps.Processes
import FpsMaxxing.Host.PassSpec

/-! What each program does, whatever its provider, its journal and its input: the lifecycle's own
specification carried over to the programs that run lifecycles. -/

namespace FpsMaxxing

open Effects Serde

variable {σ : Type}

namespace App

def monitor (app : App σ) : Monitor Calls Standing := ⟨Standing.next, app.Allows⟩

structure Follows (P : Provider σ) (request : ChangeRequest) (trials : List Trial)
    (m : Progress) (n : Standing) : Prop where
  orderly : Lifecycle.Orderly P request m
  experiment : ∀ experiment, m.experiment = some experiment →
    n.experiment = some experiment ∧ n.written = m.written
  trials : n.trials = trials

namespace Follows

variable {app : App σ} {request : ChangeRequest} {trials : List Trial} {m : Progress}
  {n : Standing} {o : Op}

lemma start (n : Standing) : Follows app.provider request n.trials .start n :=
  ⟨Lifecycle.orderly_start, nofun, rfl⟩

lemma allows (h : Follows app.provider request trials m n) (hr : app.Admits request)
    (ha : m.lifecycleAllows app.provider request o) : app.Allows n o := by
  match o, ha with
  | .provider (.apply asked), ⟨hasked, _, _, experiment, he, hw⟩ =>
    obtain rfl := hasked
    obtain ⟨_, _, _, hv, _, _⟩ := h.orderly.opened experiment he
    obtain ⟨hn, hwn⟩ := h.experiment experiment he
    exact ⟨hr, hv, experiment, hn, hwn ▸ hw⟩
  | .journal (.insert _), ⟨record, hrec, hmay⟩ =>
    obtain rfl := hrec
    obtain ⟨_, _, _, hv, _, _⟩ := h.orderly.opened _ hmay.experiment
    intro record hm hs
    obtain rfl := List.mem_singleton.mp hm
    exact ⟨request, hr, hv, hmay.intent hs⟩
  | .provider .snapshot, _ => trivial
  | .provider (.preview _), _ => trivial
  | .provider (.verify _), _ => trivial
  | .provider (.rollback _), _ => trivial
  | .journal (.beginExperiment _ _), _ => trivial

lemma next (h : Follows app.provider request trials m n)
    (ha : m.lifecycleAllows app.provider request o) (r : o.Res) :
    Follows app.provider request trials (m.next o r) (n.next o r) := by
  refine ⟨h.orderly.next ha r, ?_, ?_⟩
  · cases o with
    | provider method =>
      cases method with
      | snapshot =>
        rcases r with e | s
        · exact h.experiment
        · rw [Progress.next_snapshot_ok]
          split_ifs <;> exact h.experiment
      | _ => exact h.experiment
    | journal statement =>
      rcases r with e | x
      · rw [Progress.next_error]
        cases statement <;> exact h.experiment
      cases statement with
      | beginExperiment providerId payload =>
        obtain ⟨hw, _⟩ := h.orderly.idle ha.1
        rintro _ ⟨⟩
        exact ⟨rfl, by simp [Standing.next, Progress.next, Progress.write, hw]⟩
      | insert records =>
        intro e he
        obtain ⟨hn, hw⟩ := h.experiment e he
        exact ⟨hn, by simp [Standing.next, Progress.next, Progress.write, hw]⟩
      | _ => cases ha
  · cases o with
    | provider method => exact h.trials
    | journal statement =>
      rcases r with e | x
      · cases statement <;> exact h.trials
      cases statement with
      | beginExperiment providerId payload => exact h.trials
      | insert records => exact h.trials
      | _ => cases ha

end Follows

variable (app : App σ)

lemma runLifecycle_obeys {request : ChangeRequest} (hr : app.Admits request) (m : Standing) :
    (app.provider.plane.runLifecycle request).run.Obeys app.monitor m fun r m' =>
      (∀ result, r = .ok result → result.verified = true ∧ result.rolledBack = true) ∧
        m'.trials = m.trials := by
  refine Lifecycle.runLifecycle_obeys.simulate (R := Follows app.provider request m.trials)
    (Follows.start m) (fun p n o h ha => h.allows hr ha) (fun p n o r h ha => h.next ha r)
    fun r p n h hp => ⟨fun result he => ?_, h.trials⟩
  rcases hp with ⟨experiment, snapshot, hc⟩ | ⟨⟨e, rfl⟩, _⟩
  · obtain ⟨_, _, _, _, rfl, _⟩ := hc.ok result he
    exact ⟨rfl, rfl⟩
  · cases he

end App

structure TrialMemory where
  outcome : Option (Except ControlPlaneError LifecycleResult)
  trials : List Trial

namespace TrialMemory

def next (m : TrialMemory) : (o : PlaneOp) → o.Res → TrialMemory
  | .runLifecycle _, r => { m with outcome := some r }
  | .recordTrial payload, .ok id => { m with trials := m.trials ++ [⟨id, payload⟩] }
  | _, _ => m

def Builds (spec : ExperimentSpec) (m : TrialMemory) (record : TrialRecord) : Prop :=
  ∃ baseline candidate, spec.Legal candidate ∧ baseline ≤ maxMockValue ∧
    record = recordOf spec baseline candidate
      (measure baseline spec.warmupSamples spec.baselineSamples.val)
      (measure candidate spec.warmupSamples spec.candidateSamples.val) m.outcome ∧
    (record.verdict.decision = .promote ↔ m.outcome.isSome = true)

def monitor (spec : ExperimentSpec) : Monitor PlaneCalls TrialMemory where
  next := next
  allows m
    | .snapshot => True
    | .runLifecycle request => request = spec.target ∧ ∃ value, spec.Legal value
    | .recordTrial payload => m.trials = [] ∧ ∃ record, m.Builds spec record ∧
        payload = toValue record
    | .readTrial _ => False

def Told (spec : ExperimentSpec) (result : Except RunnerError StoredTrial) (m : TrialMemory) :
    Prop :=
  ∀ trial ∈ m.trials, ∃ record, m.Builds spec record ∧
    trial.payload = toValue record ∧ result = report record m.outcome (.ok trial.id)

lemma journal_obeys {spec : ExperimentSpec} {m : TrialMemory} {record : TrialRecord}
    (hm : m.trials = []) (hr : m.Builds spec record) :
    (ExceptT.run do
      let journaled ← ExceptT.lift (ask (.recordTrial (toValue record)))
      ExceptT.mk (pure (report record m.outcome journaled))).Obeys (monitor spec) m
        (Told spec) := by
  rw [Program.obeys_run_lift_bind, obeys_ask]
  refine ⟨⟨hm, record, hr, rfl⟩, ?_⟩
  rintro (e | id) trial h
  · simp [monitor, next, hm] at h
  · obtain rfl : trial = ⟨id, toValue record⟩ := by
      simpa [monitor, next, hm] using h
    exact ⟨record, hr, rfl, rfl⟩

lemma runTrial_obeys (plane : ControlPlane) (spec : ExperimentSpec) :
    (runTrial plane spec).run.Obeys (monitor spec) ⟨none, []⟩ (Told spec) := by
  have hnone : ∀ e, Told spec (.error e) ⟨none, []⟩ := fun e trial h => by cases h
  rw [runTrial, Program.obeys_run_bind, ExceptT.run_mk]
  cases hv : validate plane.manifest spec with
  | error e => exact hnone e
  | ok candidate =>
    have hs := (validate_eq_ok.mp hv).2
    simp only [Program.pure_eq, Program.obeys_done]
    rw [baselineValue, Program.obeys_run_bind, Program.obeys_run_bind, Program.obeys_mapErr,
      obeys_ask]
    refine ⟨trivial, ?_⟩
    rintro (e | snapshot)
    · exact hnone _
    simp only [Except.mapError, ExceptT.run_mk, Program.pure_eq, Program.obeys_done]
    cases hb : checkBaseline snapshot with
    | error e => exact hnone e
    | ok baseline =>
      obtain ⟨_, hbl⟩ := checkBaseline_eq_ok.mp hb
      dsimp only
      rw [Program.obeys_run_lift_bind]
      cases hd : (evaluate (measure baseline spec.warmupSamples spec.baselineSamples.val)
          (measure candidate spec.warmupSamples spec.candidateSamples.val) spec.bounds).decision with
      | promote =>
        rw [Program.obeys_map, obeys_ask]
        refine ⟨⟨rfl, candidate, hs⟩, fun outcome => ?_⟩
        exact journal_obeys (m := ⟨some outcome, []⟩) rfl
          ⟨baseline, candidate, hs, hbl, rfl, by simp [recordOf, hd]⟩
      | reject =>
        exact journal_obeys (m := ⟨none, []⟩) rfl
          ⟨baseline, candidate, hs, hbl, rfl, by simp [recordOf, hd]⟩

structure Carried (m : TrialMemory) (n : Standing) : Prop where
  trials : n.trials = m.trials
  outcome : ∀ result, m.outcome = some (.ok result) →
    result.verified = true ∧ result.rolledBack = true

lemma Builds.honest {spec : ExperimentSpec} {m : TrialMemory} {record : TrialRecord}
    (h : m.Builds spec record) (ho : ∀ result, m.outcome = some (.ok result) →
      result.verified = true ∧ result.rolledBack = true) :
    ∃ baseline candidate, Honest spec baseline candidate m.outcome record := by
  obtain ⟨baseline, candidate, hs, hb, hr, hd⟩ := h
  refine ⟨baseline, candidate, hs, hb, hr, ?_⟩
  cases hv : record.verdict.decision with
  | promote =>
    match hm : m.outcome with
    | none => simp [hv, hm] at hd
    | some (.error _) => trivial
    | some (.ok result) => exact ho result hm
  | reject =>
    have hm : m.outcome = none := by simpa [hv] using hd
    exact hm

end TrialMemory

namespace App

variable {P : Provider σ}

lemma opens_obeys {app : App σ} {os : String} {m : Standing} {post : _ → Standing → Prop}
    (h : ∀ r, post r m) : (P.plane.opens os).run.Obeys app.monitor m post := by
  rw [ControlPlane.opens]
  split_ifs with ht
  · exact ⟨trivial, fun r => by cases r <;> exact h _⟩
  · exact h _

lemma handle_obeys {os : String} {spec : ExperimentSpec} {m : TrialMemory} {n : Standing}
    {o : PlaneOp} (h : m.Carried n) (ha : (TrialMemory.monitor spec).allows m o) :
    (P.plane.handle o).Obeys (trial P os spec).monitor n fun r n' => (m.next o r).Carried n' := by
  cases o with
  | snapshot =>
    rw [ControlPlane.handle, ControlPlane.snapshot, Program.obeys_mapErr]
    exact ⟨trivial, fun _ => h⟩
  | runLifecycle request =>
    refine (runLifecycle_obeys (trial P os spec) ha n).mono ?_
    rintro r n' ⟨hr, ht⟩
    exact ⟨ht.trans h.trials, fun result hres => hr result (Option.some.inj hres)⟩
  | recordTrial payload =>
    obtain ⟨_, record, hb, rfl⟩ := ha
    obtain ⟨baseline, candidate, hh⟩ := hb.honest h.outcome
    rw [ControlPlane.handle, ControlPlane.recordTrial, Program.obeys_mapErr]
    refine ⟨⟨baseline, candidate, m.outcome, record, hh, rfl⟩, ?_⟩
    show ∀ r : Except SqlError ℤ, _
    rintro (e | id)
    · exact ⟨h.trials, h.outcome⟩
    · exact ⟨congrArg (· ++ [(⟨id, toValue record⟩ : Trial)]) h.trials, h.outcome⟩
  | readTrial id => exact ha.elim

lemma trial_obeys (os : String) (spec : ExperimentSpec) :
    (trial P os spec).start.Obeys (trial P os spec).monitor .start (trial P os spec).Post := by
  rw [start, opened, Program.obeys_map, Program.obeys_bind]
  refine opens_obeys ?_
  rintro (e | u)
  · rintro trial ⟨⟩
  · refine (TrialMemory.runTrial_obeys P.plane spec).interpret ⟨rfl, nofun⟩
      (fun m n o h ha => handle_obeys h ha) ?_
    intro result m n h ht trial hm
    rw [h.trials] at hm
    obtain ⟨record, hb, hp, hr⟩ := ht trial hm
    obtain ⟨baseline, candidate, hh⟩ := hb.honest h.outcome
    exact ⟨baseline, candidate, m.outcome, record, hh, hp, hr⟩

lemma replay_obeys (os : String) (decodeError : Value → String) (id : ℤ) :
    (replay P os decodeError id).start.Obeys (replay P os decodeError id).monitor .start
      (replay P os decodeError id).Post := by
  rw [start, opened, Program.obeys_map, Program.obeys_bind]
  refine opens_obeys ?_
  rintro (e | u)
  · trivial
  · dsimp only
    rw [replayTrial_eq, Program.obeys_map]
    exact ⟨trivial, fun _ => trivial⟩

lemma watchdog_obeys (policy : ReclaimPolicy) :
    (watchdog P policy).start.Obeys (watchdog P policy).monitor .start (watchdog P policy).Post := by
  rw [start, Program.obeys_map]
  refine Pass.reclaim_obeys.simulate (R := fun _ _ => True) trivial ?_ (fun _ _ _ _ _ _ => trivial)
    fun _ _ _ _ _ => trivial
  intro m n o _ ha
  match o, ha with
  | .provider .snapshot, _ => trivial
  | .provider (.rollback _), _ => trivial
  | .journal .ready, _ => trivial
  | .journal (.unclosed _), _ => trivial
  | .journal (.lastRestore _), _ => trivial
  | .journal (.insert records), ⟨experiment, _, h⟩ =>
    intro record hm hs
    rcases h with ⟨_, rfl⟩ | ⟨error, rfl⟩
    · rcases List.mem_pair.mp hm with rfl | rfl <;> cases hs
    · rcases List.mem_singleton.mp hm with rfl
      cases hs

section

variable {os : String} {texts : Texts} {lines : List Line}

lemma admits_lifecycleRequest {arguments : Value} {request : ChangeRequest}
    (h : fromValue (Gateway.lifecycleRequest arguments) = some request) :
    (gateway P os texts lines).Admits request := by
  simp [fromValue, Gateway.lifecycleRequest, structFields, required, objectParameters,
    List.lookup_cons, Value.asStr, Value.isObject, Option.bind_eq_some_iff] at h
  obtain ⟨lease, _, _, rfl⟩ := h
  exact ⟨rfl, _, rfl⟩

lemma runMockLifecycle_obeys (arguments : Value) (m : Standing) :
    (Gateway.runMockLifecycle texts P.plane arguments).Obeys
      (gateway P os texts lines).monitor m fun _ _ => True := by
  rw [Gateway.runMockLifecycle]
  split
  · trivial
  · rename_i request h
    rw [Program.obeys_bind]
    refine (runLifecycle_obeys (gateway P os texts lines) (admits_lifecycleRequest h) m).mono ?_
    rintro (e | result) _ _ <;> trivial

lemma callMethod_obeys (request : Value) (m : Standing) :
    (Gateway.callMethod texts P.plane request).Obeys (gateway P os texts lines).monitor m
      fun _ _ => True := by
  rw [Gateway.callMethod]
  split
  case h_3 =>
    rw [Gateway.callTool]
    split
    case h_2 =>
      split
      · trivial
      · exact runMockLifecycle_obeys _ m
    all_goals trivial
  all_goals trivial

lemma serve_obeys (served : List Line) (m : Standing) :
    (Gateway.serve texts P.plane served).Obeys (gateway P os texts lines).monitor m
      fun _ _ => True := by
  induction served generalizing m with
  | nil => trivial
  | cons line served ih =>
    cases line with
    | unreadable error => trivial
    | malformed error =>
      rw [Gateway.serve, Program.obeys_bind]
      exact (ih m).mono fun _ _ _ => trivial
    | json request =>
      rw [Gateway.serve, Program.obeys_bind, Gateway.dispatch]
      cases request.get "id" with
      | none =>
        rw [Program.pure_eq, Program.obeys_done, Program.obeys_bind]
        exact (ih m).mono fun _ _ _ => trivial
      | some id =>
        dsimp only
        rw [Program.obeys_map]
        refine (callMethod_obeys request m).mono fun _ m' _ => ?_
        rw [Program.obeys_bind]
        exact (ih m').mono fun _ _ _ => trivial

lemma gateway_obeys : (gateway P os texts lines).start.Obeys (gateway P os texts lines).monitor
    .start (gateway P os texts lines).Post := by
  rw [start, Program.obeys_map, Gateway.run, Program.obeys_bind]
  refine opens_obeys ?_
  rintro (e | u)
  · trivial
  · exact (serve_obeys lines _).mono fun _ _ _ => trivial

end

section

variable {os : String} {requests : List BrokerRequest}

lemma brokerRunLifecycle_obeys {request : BrokerRequest} (hm : request ∈ requests)
    (ho : request.op = .runLifecycle) (ledger : OwnershipLedger) (m : Standing) :
    ((BrokerService.new P.plane).runLifecycle ledger request.owner request.change).Obeys
      (broker P os requests).monitor m fun _ _ => True := by
  rw [BrokerService.runLifecycle]
  split
  · trivial
  rename_i owner howner
  split
  · trivial
  rename_i change hchange
  split_ifs with hc
  · split
    · trivial
    · obtain ⟨hown, hblank⟩ := Option.filter_eq_some_iff.mp howner
      have ha : (broker P os requests).Admits change :=
        ⟨request, hm, ho, ⟨owner, hown, by simpa using hblank⟩, hchange, hc⟩
      rw [Program.obeys_bind]
      exact (runLifecycle_obeys (broker P os requests) ha m).mono fun _ _ _ => trivial
  · trivial

lemma handleAll_obeys (served : List BrokerRequest) (hs : ∀ request ∈ served, request ∈ requests)
    (ledger : OwnershipLedger) (m : Standing) :
    ((BrokerService.new P.plane).handleAll ledger served).Obeys (broker P os requests).monitor m
      fun _ _ => True := by
  induction served generalizing ledger m with
  | nil => trivial
  | cons request served ih =>
    rw [List.forall_mem_cons] at hs
    rw [BrokerService.handleAll, Program.obeys_bind, BrokerService.handle]
    cases ho : request.op with
    | discover =>
      rw [Program.pure_eq, Program.obeys_done, Program.obeys_bind]
      exact (ih hs.2 _ m).mono fun _ _ _ => trivial
    | runLifecycle =>
      refine (brokerRunLifecycle_obeys hs.1 ho ledger m).mono ?_
      rintro ⟨response, ledger'⟩ m' _
      rw [Program.obeys_bind]
      exact (ih hs.2 ledger' m').mono fun _ _ _ => trivial

lemma broker_obeys : (broker P os requests).start.Obeys (broker P os requests).monitor .start
    (broker P os requests).Post := by
  rw [start, Program.obeys_map, serveBroker, Program.obeys_bind]
  refine opens_obeys ?_
  rintro (e | u)
  · trivial
  · rw [Program.obeys_bind]
    exact (handleAll_obeys requests (fun _ h => h) _ _).mono fun _ _ _ => trivial

end

end App

def appsContract (σ : Type) : Contract (apps σ) Standing where
  next := Standing.next
  start := .start
  allows := App.Allows
  post := App.Post
  obeys
    | .gateway _ _ _ _ => App.gateway_obeys
    | .broker _ _ _ => App.broker_obeys
    | .trial _ os spec => App.trial_obeys os spec
    | .replay _ os decodeError id => App.replay_obeys os decodeError id
    | .watchdog _ policy => App.watchdog_obeys policy

abbrev Apps (σ : Type) := Pool Calls (World σ) (App σ) Returned

abbrev AppProc (σ : Type) := Process Calls (World σ) (App σ) Returned

def Effects.Process.standing (p : AppProc σ) : Standing := (appsContract σ).memory p

def Device.launch (d : Device σ) (app : App σ) (n : ℕ) (w : World σ) : Apps σ :=
  ((Pool.init w).set 0 (.fresh (apps σ) app) w).advance d.answer 0 (.fresh (apps σ) app) n

def Device.join (d : Device σ) (app : App σ) (i n : ℕ) (s : Apps σ) : Apps σ :=
  (s.set i (.fresh (apps σ) app) s.world).advance d.answer i (.fresh (apps σ) app) n

lemma Device.join_run {d : Device σ} {app : App σ} (ha : app.provider = d.provider)
    {guard : Apps σ → Label (App σ) → Prop} {s : Apps σ} {i : ℕ} (hi : s.procs i = none) (n : ℕ)
    (hs : guard s (.spawn i app)) (hc : ∀ a, guard a (.call i)) :
    (apps σ).Run guard s (d.join app i n s) := by
  have hspawn : (apps σ).Run guard s (s.set i (.fresh (apps σ) app) s.world) :=
    .single ⟨_, hs, .spawn app hi⟩
  have hsem : (apps σ).sem app = sem d.provider := congrArg sem ha
  refine hspawn.trans (System.run_of_advance (Pool.set_procs_self _ _ _ _) rfl ?_ fun _ _ => hc _)
  exact fun w o => hsem ▸ d.answer_sem w o

lemma Device.launch_run {d : Device σ} {app : App σ} (ha : app.provider = d.provider)
    {guard : Apps σ → Label (App σ) → Prop} (w : World σ) (n : ℕ)
    (hs : guard (Pool.init w) (.spawn 0 app)) (hc : ∀ a, guard a (.call 0)) :
    (apps σ).Run guard (Pool.init w) (d.launch app n w) :=
  Device.join_run ha rfl n hs hc

end FpsMaxxing
