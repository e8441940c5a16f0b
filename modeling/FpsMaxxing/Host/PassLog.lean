import FpsMaxxing.Effects.Log
import FpsMaxxing.Host.Watchdog

/-! The calls of a watchdog pass in order, whatever is answered to them. -/

namespace FpsMaxxing

open Effects Serde

inductive Attempt
  | refused (error : ProviderError)
  | unread (error : ProviderError)
  | read (restored : StateSnapshot)

namespace Attempt

variable (snapshot : StateSnapshot)

def log : Attempt → List Calls.Event
  | refused error => [⟨.provider (.rollback snapshot), .error error⟩]
  | unread error =>
    [⟨.provider (.rollback snapshot), .ok ()⟩, ⟨.provider .snapshot, .error error⟩]
  | read restored =>
    [⟨.provider (.rollback snapshot), .ok ()⟩, ⟨.provider .snapshot, .ok restored⟩]

def result : Attempt → Except ProviderError Unit
  | refused error | unread error => .error error
  | read restored =>
    if restored = snapshot then .ok ()
    else .error (.rollbackFailed
      "post-rollback snapshot did not match the journaled snapshot")

lemma result_eq_ok {a : Attempt} : a.result snapshot = .ok () ↔ a = read snapshot := by
  cases a with
  | read restored =>
    rw [result]
    split_ifs with h <;> simp [h]
  | _ => simp [result]

end Attempt

namespace Watchdog

variable (watchdog : Watchdog) (x : UnclosedExperiment)

def restoration (a : Attempt) : Restoration :=
  match a.result x.snapshot with
  | .ok () => ⟨x.experimentId, x.reason, x.request.leaseSeconds, true, none⟩
  | .error error =>
    ⟨x.experimentId, x.reason, x.request.leaseSeconds, false, some error.text⟩

inductive Turned (a : Attempt) : List Calls.Event → Except WatchdogError Restoration → Prop
  | restored (h : a.result x.snapshot = .ok ()) (r : Except SqlError Unit) :
    Turned a (a.log x.snapshot ++ [⟨.journal (.insert (watchdog.successRecords x)), r⟩])
      ((fun _ => restoration x a) <$> r.mapError .journal)
  | unread {error : ProviderError} (h : a.result x.snapshot = .error error) (e : SqlError) :
    Turned a (a.log x.snapshot ++ [⟨.journal (.lastRestore x.experimentId), .error e⟩])
      (.error (.journal e))
  | repeated {error : ProviderError} (h : a.result x.snapshot = .error error) {latest : Option Value}
    (hl : latest.any (failureMatches error.text) = true) :
    Turned a (a.log x.snapshot ++ [⟨.journal (.lastRestore x.experimentId), .ok latest⟩])
      (.ok (restoration x a))
  | failed {error : ProviderError} (h : a.result x.snapshot = .error error) {latest : Option Value}
    (hl : latest.any (failureMatches error.text) = false) (r : Except SqlError Unit) :
    Turned a (a.log x.snapshot ++ [⟨.journal (.lastRestore x.experimentId), .ok latest⟩,
        ⟨.journal (.insert (watchdog.failureRecords x error.text)), r⟩])
      ((fun _ => restoration x a) <$> r.mapError .journal)

inductive Turns : List UnclosedExperiment → List Attempt → List Calls.Event →
    Except WatchdogError (List Restoration) → Prop
  | nil : Turns [] [] [] (.ok [])
  | cons {x xs a as log log' r} (h : watchdog.Turned x a log (.ok (restoration x a)))
    (hs : Turns xs as log' r) :
    Turns (x :: xs) (a :: as) (log ++ log') ((restoration x a :: ·) <$> r)
  | stop {x xs a log e} (h : watchdog.Turned x a log (.error e)) : Turns (x :: xs) [] log (.error e)

inductive Scanned : List Calls.Event → Except WatchdogError (List UnclosedExperiment) → Prop
  | down (e : SqlError) : Scanned [⟨.journal .ready, .error e⟩] (.error (.journal e))
  | absent : Scanned [⟨.journal .ready, .ok false⟩] (.ok [])
  | unlisted (e : SqlError) : Scanned [⟨.journal .ready, .ok true⟩,
      ⟨.journal (.unclosed watchdog.providerId), .error e⟩] (.error (.journal e))
  | listed (rows : List Database.Candidate) : Scanned [⟨.journal .ready, .ok true⟩,
      ⟨.journal (.unclosed watchdog.providerId), .ok rows⟩] (rows.mapM decode)

inductive Passed (policy : ReclaimPolicy) : List UnclosedExperiment → List Attempt →
    List Calls.Event → Except WatchdogError (List Restoration) → Prop
  | unlisted {log e} (h : watchdog.Scanned log (.error e)) : Passed policy [] [] log (.error e)
  | listed {log log' candidates as r} (h : watchdog.Scanned log (.ok candidates))
    (ht : watchdog.Turns (candidates.filter (UnclosedExperiment.selectedBy policy)) as log' r) :
    Passed policy (candidates.filter (UnclosedExperiment.selectedBy policy)) as (log ++ log') r

lemma restoreState_logs (snapshot : StateSnapshot) :
    (restoreState snapshot).Logs anyAnswer fun log r =>
      ∃ a : Attempt, log = a.log snapshot ∧ r = a.result snapshot := by
  rw [restoreState, Program.logs_run_bind, ExceptT.run_mk, logs_invoke]
  rintro (e | u)
  · exact ⟨.refused e, rfl, rfl⟩
  dsimp only
  rw [Program.logs_run_bind, ExceptT.run_mk, logs_invoke]
  rintro (e | restored)
  · exact ⟨.unread e, rfl, rfl⟩
  dsimp only
  split_ifs with h
  · exact ⟨.read restored, rfl, by simp [Attempt.result, h]⟩
  · exact ⟨.read restored, rfl, by simp [Attempt.result, h]⟩

variable {watchdog x}

lemma turned_restored {a : Attempt} (h : a.result x.snapshot = .ok ()) :
    (mapErr WatchdogError.journal (execute (.insert (watchdog.successRecords x)))).run.Logs anyAnswer
      fun log r => watchdog.Turned x a (a.log x.snapshot ++ log)
        ((fun _ => restoration x a) <$> r) := by
  rw [Program.logs_mapErr, logs_execute]
  exact fun r => .restored h r

lemma turned_failed {a : Attempt} {error : ProviderError} (h : a.result x.snapshot = .error error) :
    (watchdog.recordFailure x error.text).run.Logs anyAnswer fun log r =>
      watchdog.Turned x a (a.log x.snapshot ++ log) ((fun _ => restoration x a) <$> r) := by
  rw [recordFailure, Program.logs_run_bind, lastFailureMatches, Program.logs_run_bind,
    Program.logs_mapErr, logs_execute]
  rintro (e | latest)
  · exact .unread h e
  have hi : latest.any (failureMatches error.text) = false →
      (mapErr WatchdogError.journal (execute (.insert (watchdog.failureRecords x
        error.text)))).run.Logs anyAnswer fun log r =>
          watchdog.Turned x a (a.log x.snapshot ++
            ([⟨.journal (.lastRestore x.experimentId), .ok latest⟩] ++ log))
            ((fun _ => restoration x a) <$> r) := by
    intro hl
    rw [Program.logs_mapErr, logs_execute]
    exact fun r => .failed h hl r
  cases latest with
  | none => exact hi rfl
  | some payload =>
    have hlist : (some payload).any (failureMatches error.text) = failureMatches error.text payload :=
      rfl
    cases hf : failureMatches error.text payload with
    | true => simpa [Except.mapError, hf] using Turned.repeated h (hlist.trans hf)
    | false => simpa [Except.mapError, hf] using hi (hlist.trans hf)

lemma restoration_of_ok {a : Attempt} (h : a.result x.snapshot = .ok ()) :
    restoration x a = ⟨x.experimentId, x.reason, x.request.leaseSeconds, true, none⟩ := by
  rw [restoration, h]

lemma restoration_of_error {a : Attempt} {error : ProviderError}
    (h : a.result x.snapshot = .error error) : restoration x a =
      ⟨x.experimentId, x.reason, x.request.leaseSeconds, false, some error.text⟩ := by
  rw [restoration, h]

lemma reclaimOne_logs : (watchdog.reclaimOne x).run.Logs anyAnswer fun log r =>
    ∃ a, watchdog.Turned x a log r := by
  rw [reclaimOne, Program.logs_run_lift_bind]
  refine (restoreState_logs x.snapshot).mono ?_
  rintro log r ⟨a, rfl, hr⟩
  cases r with
  | ok u =>
    dsimp only
    rw [Program.logs_run_bind, recordSuccess]
    refine (turned_restored hr.symm).mono ?_
    rintro log (e | u) ht
    · exact ⟨a, ht⟩
    · refine ⟨a, ?_⟩
      rw [List.append_nil, ← restoration_of_ok hr.symm]
      exact ht
  | error error =>
    dsimp only
    rw [Program.logs_run_bind]
    refine (turned_failed hr.symm).mono ?_
    rintro log (e | u) ht
    · exact ⟨a, ht⟩
    · refine ⟨a, ?_⟩
      rw [List.append_nil, ← restoration_of_error hr.symm]
      exact ht

lemma Turned.ok {a : Attempt} {log : List Calls.Event} {r : Restoration}
    (h : watchdog.Turned x a log (.ok r)) : r = restoration x a := by
  generalize hr : (Except.ok r : Except WatchdogError Restoration) = r' at h
  cases h with
  | unread _ _ => cases hr
  | repeated _ _ => exact Except.ok.inj hr
  | restored _ r | failed _ _ r =>
    cases r with
    | error e => cases hr
    | ok u => exact Except.ok.inj hr

lemma reclaimAll_logs (xs : List UnclosedExperiment) :
    (watchdog.reclaimAll xs).run.Logs anyAnswer fun log r => ∃ as, watchdog.Turns xs as log r := by
  induction xs with
  | nil => exact ⟨[], .nil⟩
  | cons x xs ih =>
    rw [reclaimAll, Program.logs_run_bind]
    refine reclaimOne_logs.mono ?_
    rintro log (e | restoration) ⟨a, ht⟩
    · exact ⟨[], .stop ht⟩
    obtain rfl := ht.ok
    dsimp only
    rw [Program.logs_run_bind]
    refine ih.mono ?_
    rintro log' (e | restorations) ⟨as, hs⟩
    · exact ⟨_, .cons ht hs⟩
    · refine ⟨a :: as, ?_⟩
      rw [List.append_nil]
      exact .cons ht hs

lemma scan_logs : watchdog.scan.run.Logs anyAnswer fun log r => watchdog.Scanned log r := by
  rw [scan, Program.logs_run_bind, Program.logs_mapErr, logs_execute]
  rintro (e | ready)
  · exact .down e
  cases ready with
  | false => exact .absent
  | true =>
    simp only [Except.mapError, if_true]
    rw [Program.logs_run_bind, Program.logs_mapErr, logs_execute]
    rintro (e | rows)
    · exact .unlisted e
    · exact .listed rows

lemma reclaim_logs (policy : ReclaimPolicy) : (watchdog.reclaim policy).run.Logs anyAnswer
    fun log r => ∃ xs as, watchdog.Passed policy xs as log r := by
  rw [reclaim, Program.logs_run_bind]
  refine scan_logs.mono ?_
  rintro log (e | candidates) h
  · exact ⟨_, _, .unlisted h⟩
  · refine (reclaimAll_logs _).mono ?_
    rintro log' r ⟨as, ht⟩
    exact ⟨_, as, .listed h ht⟩

end Watchdog

end FpsMaxxing
