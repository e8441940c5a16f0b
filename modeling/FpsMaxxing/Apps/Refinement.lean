import FpsMaxxing.Apps.Spec
import FpsMaxxing.Effects.Composed
import FpsMaxxing.Host.Scan
import FpsMaxxing.Host.Trials

/-! The programs as they are started are put together from openings, lifecycles and passes. Every run
of them is a run of these, but for the trial table. -/

namespace FpsMaxxing

open Effects Serde

variable {σ : Type}

def Database.bare (db : Database) : Database := { db with trials := [] }

def World.bare (w : World σ) : World σ := { w with db := w.db.bare }

@[simp] lemma Database.bare_records (db : Database) : db.bare.records = db.records := rfl

@[simp] lemma World.bare_host (w : World σ) : w.bare.host = w.host := rfl

@[simp] lemma World.bare_db (w : World σ) : w.bare.db = w.db.bare := rfl

lemma Ledger.of_bare {c : Host σ} {w : World σ} (h : Ledger c) (hw : c.world = w.bare) :
    Ledger (⟨w, c.procs⟩ : Host σ) := by
  obtain ⟨v, procs⟩ := c
  cases hw
  exact ⟨h.orderly, h.owned, h.unique, h.recorded, h.allocated, h.listed⟩

def Op.untried : Op → Prop
  | .journal (.recordTrial _) | .journal (.readTrial _) => False
  | _ => True

lemma Statement.run_bare {now : ℤ} {statement : Statement} {db db' : Database}
    {b : statement.Res} (ho : (Op.journal statement).untried)
    (h : statement.run now db = some (b, db')) :
    statement.run now db.bare = some (b, db'.bare) := by
  cases statement with
  | createTables | ready =>
    cases h
    rfl
  | recordTrial payload | readTrial id => exact ho.elim
  | _ =>
    simp only [run, Option.ite_none_right_eq_some] at h
    obtain ⟨hr, h⟩ := h
    cases h
    exact if_pos hr

lemma sem_bare {P : Provider σ} {w w' : World σ} {o : Op} {r : o.Res} (ho : o.untried)
    (h : sem P w o r w') : sem P w.bare o r w'.bare := by
  cases o with
  | provider method => exact ⟨h.1, congrArg Database.bare h.2⟩
  | journal statement =>
    rcases h with ⟨e, rfl, rfl⟩ | ⟨now, b, db, hr, rfl, rfl⟩
    · exact .inl ⟨e, rfl, rfl⟩
    · exact .inr ⟨now, b, db.bare, Statement.run_bare ho hr, rfl, rfl⟩

lemma torn_bare {w w' : World σ} {o : Op} (h : torn w o w') : torn w.bare o w'.bare := by
  match o, h with
  | .provider (.apply _), h | .provider (.rollback _), h => exact congrArg Database.bare h
  | .provider .snapshot, h | .provider (.preview _), h | .provider (.verify _), h
  | .journal _, h => exact congrArg World.bare h

lemma Task.allows.untried {t : Task σ} {m : Progress} {o : Op} (h : t.allows m o) :
    o.untried := by
  cases t with
  | opens P os =>
    cases h
    trivial
  | lifecycle P request =>
    cases o with
    | provider method => trivial
    | journal statement => cases statement <;> trivial
  | pass P policy =>
    cases o with
    | provider method => trivial
    | journal statement => cases statement <;> trivial

namespace App

def Runs (app : App σ) : Task σ → Prop
  | .opens P _ => P = app.provider
  | .lifecycle P request => P = app.provider ∧ app.Admits request
  | .pass P policy => app = .watchdog P policy

def Asks (_ : App σ) : Op → Prop
  | .provider .snapshot | .journal (.recordTrial _) | .journal (.readTrial _) => True
  | _ => False

abbrev Composed {β : Type} (app : App σ) (p : Program Calls β) : Prop :=
  Effects.Composed (system σ) app.Runs app.Asks p

lemma Runs.provider {app : App σ} {t : Task σ} (h : app.Runs t) : t.provider = app.provider := by
  cases t with
  | opens P os => exact h
  | lifecycle P request => exact h.1
  | pass P policy =>
    cases h
    rfl

variable {P : Provider σ} {os : String}

lemma opens_composed {app : App σ} (h : app.provider = P) :
    app.Composed (P.plane.opens os).run :=
  .of_task (t := .opens P os) h.symm rfl

lemma lifecycle_composed {app : App σ} {request : ChangeRequest} (h : app.provider = P)
    (hr : app.Admits request) : app.Composed (P.plane.runLifecycle request).run :=
  .of_task (t := .lifecycle P request) ⟨h.symm, hr⟩ rfl

lemma invoke_composed {app : App σ} (method : Method) (h : app.Asks (.provider method)) :
    app.Composed (invoke method) :=
  Composed.perform (S := Calls) (o := Op.provider method) h

lemma execute_composed {app : App σ} (statement : Statement)
    (h : app.Asks (.journal statement)) :
    app.Composed (execute statement) :=
  Composed.perform (S := Calls) (o := Op.journal statement) h

lemma gateway_composed (texts : Texts) (lines : List Line) :
    (gateway P os texts lines).Composed (gateway P os texts lines).start := by
  have hcall : ∀ request, (gateway P os texts lines).Composed
      (Gateway.callMethod texts P.plane request) := by
    intro request
    rw [Gateway.callMethod]
    split
    case h_3 =>
      rw [Gateway.callTool]
      split
      case h_2 =>
        split
        · exact .done _
        · rw [Gateway.runMockLifecycle]
          split
          · exact .done _
          · rename_i asked h
            apply Composed.bind (lifecycle_composed rfl (admits_lifecycleRequest h))
            rintro (e | result) <;> exact .done _
      all_goals exact .done _
    all_goals exact .done _
  have hserve : ∀ served, (gateway P os texts lines).Composed
      (Gateway.serve texts P.plane served) := by
    intro served
    induction served with
    | nil => exact .done _
    | cons line served ih =>
      cases line with
      | unreadable error => exact .done _
      | malformed error => exact ih.bind fun _ => .done _
      | json request =>
        rw [Gateway.serve, Gateway.dispatch]
        cases request.get "id" with
        | none => exact ih.bind fun _ => .done _
        | some id => exact ((hcall request).map _).bind fun _ => ih.bind fun _ => .done _
  apply Composed.map
  rw [Gateway.run]
  apply (opens_composed rfl).bind
  rintro (e | u)
  · exact .done _
  · exact hserve lines

lemma handle_composed {requests : List BrokerRequest} {request : BrokerRequest}
    (hm : request ∈ requests) (ledger : OwnershipLedger) :
    (broker P os requests).Composed ((BrokerService.new P.plane).handle ledger request) := by
  rw [BrokerService.handle]
  cases ho : request.op with
  | discover => exact .done _
  | runLifecycle =>
    dsimp only
    rw [BrokerService.runLifecycle]
    split
    · exact .done _
    rename_i owner howner
    split
    · exact .done _
    rename_i change hchange
    split_ifs with hc
    · split
      · exact .done _
      · obtain ⟨hown, hblank⟩ := Option.filter_eq_some_iff.mp howner
        have ha : (broker P os requests).Admits change :=
          ⟨request, hm, ho, ⟨owner, hown, by simpa using hblank⟩, hchange, hc⟩
        exact (lifecycle_composed rfl ha).bind fun _ => .done _
    · exact .done _

lemma handleAll_composed {requests served : List BrokerRequest}
    (hs : ∀ request ∈ served, request ∈ requests) (ledger : OwnershipLedger) :
    (broker P os requests).Composed ((BrokerService.new P.plane).handleAll ledger served) := by
  induction served generalizing ledger with
  | nil => exact .done _
  | cons request served ih =>
    rw [List.forall_mem_cons] at hs
    exact (handle_composed hs.1 ledger).bind fun answer =>
      (ih hs.2 answer.2).bind fun _ => .done _

lemma trial_composed (spec : ExperimentSpec) :
    (trial P os spec).Composed (trial P os spec).start := by
  apply Composed.map
  rw [opened]
  apply (opens_composed rfl).bind
  rintro (e | u)
  · exact .done _
  · apply Composed.interpret (TrialMemory.runTrial_obeys P.plane spec)
    intro m o ha
    cases o with
    | snapshot => exact (invoke_composed .snapshot trivial).map _
    | runLifecycle request => exact lifecycle_composed rfl ha
    | recordTrial payload => exact (execute_composed (.recordTrial payload) trivial).map _
    | readTrial id => exact ha.elim

lemma replay_composed (decodeError : Value → String) (id : ℤ) :
    (replay P os decodeError id).Composed (replay P os decodeError id).start := by
  apply Composed.map
  rw [opened]
  apply (opens_composed rfl).bind
  rintro (e | u)
  · exact .done _
  · dsimp only
    rw [replayTrial_eq]
    exact (execute_composed (.readTrial id) trivial).map _

lemma start_composed (app : App σ) : app.Composed app.start := by
  cases app with
  | gateway P os texts lines => exact gateway_composed texts lines
  | broker P os requests =>
    apply Composed.map
    rw [serveBroker]
    apply (opens_composed rfl).bind
    rintro (e | u)
    · exact .done _
    · exact (handleAll_composed (fun _ h => h) _).bind fun _ => .done _
  | trial P os spec => exact trial_composed spec
  | replay P os decodeError id => exact replay_composed decodeError id
  | watchdog P policy =>
    apply Composed.map
    exact .of_task (t := .pass P policy) rfl rfl

end App

lemma App.Asks.sem {app : App σ} {P : Provider σ} {w w' : World σ} {o : Op} {r : o.Res}
    (h : app.Asks o) (hs : sem P w o r w') : w'.bare = w.bare := by
  match o, h with
  | .provider .snapshot, _ =>
    obtain ⟨⟨_, hy⟩, hdb⟩ := hs
    rw [World.bare, World.bare, hdb, hy]
  | .journal (.recordTrial payload), _ | .journal (.readTrial id), _ =>
    rcases hs with ⟨e, _, rfl⟩ | ⟨now, b, db, hr, _, rfl⟩
    · rfl
    · simp only [Statement.run, Option.ite_none_right_eq_some] at hr
      obtain ⟨_, hr⟩ := hr
      cases hr
      rfl

lemma App.Asks.torn {app : App σ} {w w' : World σ} {o : Op} (h : app.Asks o)
    (ht : torn w o w') : w'.bare = w.bare := by
  match o, h, ht with
  | .provider .snapshot, _, ht | .journal (.recordTrial _), _, ht | .journal (.readTrial _), _, ht =>
    exact congrArg World.bare ht

def appsLayer (σ : Type) : Layer (apps σ) (system σ) Progress where
  contract := contract σ
  view := World.bare
  may := App.Runs
  aside := App.Asks
  composed := App.start_composed
  task_sem hm ha hs := by
    rw [show (apps σ).sem _ = sem _ from congrArg sem hm.provider.symm] at hs
    exact sem_bare ha.untried hs
  task_torn _ _ ht := torn_bare ht
  aside_sem ho hs := App.Asks.sem ho hs
  aside_torn ho ht := App.Asks.torn ho ht

/-- The programs refine the openings, lifecycles and passes they run: the journal and the host of
every reachable state are those of a reachable state of these, each run by a program that may. -/
theorem apps_refine {x : σ} {s : Apps σ} {guard : Apps σ → Label (App σ) → Prop}
    (h : (apps σ).Run guard (Pool.init (World.initial x)) s) :
    ∃ c : Host σ, (system σ).Reach (Pool.init (World.initial x)) c ∧ c.world = s.world.bare ∧
      ∀ k r, c.procs k = some r → ∃ i p, s.procs i = some p ∧ p.task.Runs r.task := by
  obtain ⟨c, inside, hrun, hsim⟩ := (appsLayer σ).refines h
  exact ⟨c, hrun, hsim.world, hsim.owned⟩

def appliedByBroker : Apps UInt64 :=
  (mockProvider "linux").launch (.broker (mockProvider "linux").provider "linux"
    [⟨.runLifecycle, some "owner", some (mockRequest 42)⟩]) 7 (World.initial 7)

lemma appliedByBroker_run {guard : Apps UInt64 → Label (App UInt64) → Prop}
    (hs : ∀ app, guard (Pool.init (World.initial 7)) (.spawn 0 app)) (hc : ∀ a, guard a (.call 0)) :
    (apps UInt64).Run guard (Pool.init (World.initial 7)) appliedByBroker :=
  Device.launch_run rfl _ _ (hs _) hc

theorem apps_refine_broker : appliedByBroker.world.host = 42 ∧ ∃ c : Host UInt64,
    (system UInt64).Reach (Pool.init (World.initial 7)) c ∧ c.world = appliedByBroker.world.bare := by
  obtain ⟨c, hrun, hw, _⟩ :=
    apps_refine (appliedByBroker_run (fun _ => trivial) (fun _ => trivial) : (apps UInt64).Reach _ _)
  exact ⟨rfl, c, hrun, hw⟩

end FpsMaxxing
