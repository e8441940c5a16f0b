import FpsMaxxing.Effects.Checks
import FpsMaxxing.Host.ControlPlane

/-! The watchdog: it reads unclosed experiments from the journal and rolls each one back. -/

namespace FpsMaxxing

open Effects Serde

inductive WatchdogError
  | journal (error : SqlError)
  | serialization
  deriving DecidableEq

inductive ReclaimPolicy
  | allUnclosed
  | expiredLeasesOnly
  deriving DecidableEq

inductive ReclaimReason
  | leaseExpired
  | crashRecovery
  deriving DecidableEq

namespace ReclaimReason

def text : ReclaimReason → String
  | leaseExpired => "lease-expired"
  | crashRecovery => "crash-recovery"

def terminalMessage : ReclaimReason → String
  | leaseExpired => "watchdog restored prior state after the TTL lease expired"
  | crashRecovery => "watchdog restored prior state after detecting an unclosed experiment"

end ReclaimReason

structure UnclosedExperiment where
  experimentId : ℤ
  providerId : String
  snapshot : StateSnapshot
  request : ChangeRequest
  leaseExpired : Bool
  deriving DecidableEq

namespace UnclosedExperiment

def reason (experiment : UnclosedExperiment) : ReclaimReason :=
  if experiment.leaseExpired then .leaseExpired else .crashRecovery

def selectedBy (policy : ReclaimPolicy) (experiment : UnclosedExperiment) : Bool :=
  match policy with
  | .allUnclosed => true
  | .expiredLeasesOnly => experiment.leaseExpired

end UnclosedExperiment

structure Restoration where
  experimentId : ℤ
  reason : ReclaimReason
  leaseSeconds : UInt64
  restored : Bool
  error : Option String
  deriving DecidableEq

/-- An age that is not negative fits `u64`, so the comparison is one of numbers. -/
def leaseExpired (ageSeconds : Option ℤ) (leaseSeconds : UInt64) : Bool :=
  match ageSeconds with
  | some age => decide (0 ≤ age ∧ leaseSeconds.toNat ≤ age)
  | none => false

structure Watchdog where
  providerId : String

def Provider.watchdog {σ : Type} (P : Provider σ) : Watchdog := ⟨P.manifest.id⟩

namespace Watchdog

variable (watchdog : Watchdog) (experiment : UnclosedExperiment)

def decode (candidate : Database.Candidate) : Except WatchdogError UnclosedExperiment :=
  match candidate with
  | (experimentId, snapshotPayload, intentPayload, ageSeconds) =>
    match fromValue snapshotPayload, fromValue intentPayload with
    | some (snapshot : StateSnapshot), some (request : ChangeRequest) =>
      .ok ⟨experimentId, snapshot.providerId, snapshot, request,
        FpsMaxxing.leaseExpired ageSeconds request.leaseSeconds⟩
    | _, _ => .error .serialization

lemma decode_id {row : Database.Candidate} {experiment : UnclosedExperiment}
    (h : decode row = .ok experiment) : row.1 = experiment.experimentId := by
  obtain ⟨e, snapshotPayload, intentPayload, age⟩ := row
  rw [decode] at h
  split at h
  · cases h
    rfl
  · cases h

def scan : ExceptT WatchdogError (Program Calls) (List UnclosedExperiment) := do
  let ready ← mapErr .journal (execute .ready)
  if ready then
    let rows ← mapErr .journal (execute (.unclosed watchdog.providerId))
    ExceptT.mk (pure (rows.mapM decode))
  else
    return []

def restoreState (snapshot : StateSnapshot) : Program Calls (Except ProviderError Unit) :=
  ExceptT.run do
    ExceptT.mk (invoke (.rollback snapshot))
    let restored ← ExceptT.mk (invoke .snapshot)
    if restored = snapshot then
      return
    else
      throw (.rollbackFailed "post-rollback snapshot did not match the journaled snapshot")

def restoredPayload : Value := .object
  [("reason", .string experiment.reason.text), ("restored", toValue true),
    ("snapshot", toValue experiment.snapshot)]

def reclaimedPayload : Value := .object
  [("error", .string experiment.reason.terminalMessage), ("kind", .string "watchdog-reclaimed"),
    ("reason", .string experiment.reason.text), ("stage", .string "watchdog")]

def unrestoredPayload (error : String) : Value := .object
  [("error", .string error), ("reason", .string experiment.reason.text),
    ("restored", toValue false), ("snapshot", toValue experiment.snapshot)]

def successRecords : List Record :=
  [⟨experiment.experimentId, .watchdogRestore, watchdog.providerId, restoredPayload experiment⟩,
    ⟨experiment.experimentId, .failed, watchdog.providerId, reclaimedPayload experiment⟩]

def failureRecords (error : String) : List Record :=
  [⟨experiment.experimentId, .watchdogRestore, watchdog.providerId,
    unrestoredPayload experiment error⟩]

def recordSuccess : ExceptT WatchdogError (Program Calls) Unit :=
  mapErr .journal (execute (.insert (watchdog.successRecords experiment)))

def failureMatches (error : String) (payload : Value) : Bool :=
  (payload.get "restored" >>= Value.asBool) == some false &&
    (payload.get "error" >>= Value.asStr) == some error

def lastFailureMatches (error : String) : ExceptT WatchdogError (Program Calls) Bool := do
  let latest ← mapErr .journal (execute (.lastRestore experiment.experimentId))
  match latest with
  | none => return false
  | some payload => return failureMatches error payload

def recordFailure (error : String) : ExceptT WatchdogError (Program Calls) Unit := do
  if ← lastFailureMatches experiment error then
    return
  else
    mapErr .journal (execute (.insert (watchdog.failureRecords experiment error)))

def reclaimOne : ExceptT WatchdogError (Program Calls) Restoration := do
  match ← ExceptT.lift (restoreState experiment.snapshot) with
  | .ok () =>
    watchdog.recordSuccess experiment
    return ⟨experiment.experimentId, experiment.reason, experiment.request.leaseSeconds,
      true, none⟩
  | .error error =>
    watchdog.recordFailure experiment error.text
    return ⟨experiment.experimentId, experiment.reason, experiment.request.leaseSeconds,
      false, some error.text⟩

def reclaimAll : List UnclosedExperiment →
    ExceptT WatchdogError (Program Calls) (List Restoration)
  | [] => return []
  | experiment :: rest => do
    let restoration ← watchdog.reclaimOne experiment
    let restorations ← reclaimAll rest
    return restoration :: restorations

def reclaim (policy : ReclaimPolicy) : ExceptT WatchdogError (Program Calls) (List Restoration) := do
  let candidates ← watchdog.scan
  watchdog.reclaimAll (candidates.filter (UnclosedExperiment.selectedBy policy))

end Watchdog

end FpsMaxxing
