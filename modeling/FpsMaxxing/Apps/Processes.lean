import FpsMaxxing.Broker.Service
import FpsMaxxing.Gateway.Server
import FpsMaxxing.Host.LifecycleSpec
import FpsMaxxing.Runner.Honest

/-! The programs as they are started: the gateway, the worker of the broker, the experiment runner
and the watchdog, any number of each over one journal and one host. -/

namespace FpsMaxxing

open Effects Serde

variable {σ : Type}

inductive App (σ : Type)
  | gateway (P : Provider σ) (os : String) (texts : Texts) (lines : List Line)
  | broker (P : Provider σ) (os : String) (requests : List BrokerRequest)
  | trial (P : Provider σ) (os : String) (spec : ExperimentSpec)
  | replay (P : Provider σ) (os : String) (decodeError : Value → String) (id : ℤ)
  | watchdog (P : Provider σ) (policy : ReclaimPolicy)

inductive Returned
  | gateway (responses : List Value) (result : Except GatewayError Unit)
  | broker (result : Except ControlPlaneError (List BrokerResponse))
  | trial (result : Except RunnerError StoredTrial)
  | replay (result : Except RunnerError ReplayOutcome)
  | watchdog (result : Except WatchdogError (List Restoration))

namespace App

def provider : App σ → Provider σ
  | gateway P _ _ _ | broker P _ _ | trial P _ _ | replay P _ _ _ | watchdog P _ => P

def opened {α : Type} (P : Provider σ) (os : String)
    (program : ExceptT RunnerError (Program PlaneCalls) α) :
    Program Calls (Except RunnerError α) := do
  match ← (P.plane.opens os).run with
  | .error error => return .error (.controlPlane error)
  | .ok () => program.run.interpret P.plane.handle

def serveBroker (P : Provider σ) (os : String) (requests : List BrokerRequest) :
    Program Calls (Except ControlPlaneError (List BrokerResponse)) := do
  match ← (P.plane.opens os).run with
  | .error error => return .error error
  | .ok () =>
    let (responses, _) ← (BrokerService.new P.plane).handleAll .new requests
    return .ok responses

def start : App σ → Program Calls Returned
  | gateway P os texts lines =>
    (fun (responses, result) => .gateway responses result) <$> Gateway.run texts P.plane os lines
  | broker P os requests => .broker <$> serveBroker P os requests
  | trial P os spec => .trial <$> opened P os (runTrial P.plane spec)
  | replay P os decodeError id => .replay <$> opened P os (replayTrial decodeError id)
  | watchdog P policy => .watchdog <$> (P.watchdog.reclaim policy).run

end App

def apps (σ : Type) : System Calls (World σ) (App σ) Returned where
  start := App.start
  sem app := sem app.provider
  torn _ o w w' := torn w o w'

structure Standing where
  experiment : Option ℤ
  written : List Record
  trials : List Trial

namespace Standing

def start : Standing := ⟨none, [], []⟩

def next (m : Standing) : (o : Op) → o.Res → Standing
  | .journal (.beginExperiment providerId payload), .ok experiment =>
    { m with
      experiment := some experiment
      written := [⟨experiment, .snapshot, providerId, payload⟩] }
  | .journal (.insert records), .ok _ => { m with written := m.written ++ records }
  | .journal (.recordTrial payload), .ok id => { m with trials := m.trials ++ [⟨id, payload⟩] }
  | _, _ => m

end Standing

namespace BrokerRequest

def Passes (request : BrokerRequest) (plane : ControlPlane) (asked : ChangeRequest) : Prop :=
  request.op = .runLifecycle ∧ (∃ owner, request.owner = some owner ∧ isBlank owner = false) ∧
    request.change = some asked ∧ (BrokerService.new plane).catalog.contains asked.capabilityId

end BrokerRequest

namespace App

def Admits : App σ → ChangeRequest → Prop
  | gateway _ _ _ _, asked => asked.capabilityId = "mock.value" ∧
      ∃ value, asked.parameters = .object [("value", value)]
  | broker P _ requests, asked => ∃ request ∈ requests, request.Passes P.plane asked
  | trial _ _ spec, asked => asked = spec.target ∧ ∃ value, spec.Legal value
  | replay _ _ _ _, _ | watchdog _ _, _ => False

def Journals : App σ → Value → Prop
  | trial _ _ spec, payload => ∃ baseline candidate outcome record,
      Honest spec baseline candidate outcome record ∧ payload = toValue record
  | _, _ => False

def Allows (app : App σ) (m : Standing) : Op → Prop
  | .provider (.apply asked) =>
    app.Admits asked ∧ app.provider.plane.validate asked = .ok () ∧
      ∃ experiment, m.experiment = some experiment ∧
        .intent app.provider asked experiment ∈ m.written
  | .journal (.insert records) => ∀ record ∈ records, record.stage = .applyIntent →
      ∃ asked, app.Admits asked ∧ app.provider.plane.validate asked = .ok () ∧
        record = .intent app.provider asked record.experimentId
  | .journal (.recordTrial payload) => app.Journals payload
  | _ => True

def Post : App σ → Returned → Standing → Prop
  | trial _ _ spec, .trial result, m => ∀ trial ∈ m.trials,
      ∃ baseline candidate outcome record, Honest spec baseline candidate outcome record ∧
        trial.payload = toValue record ∧ result = report record outcome (.ok trial.id)
  | _, _, _ => True

end App

end FpsMaxxing
