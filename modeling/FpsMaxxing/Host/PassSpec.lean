import FpsMaxxing.Host.LifecycleSpec

/-! What a watchdog pass does, whatever its provider and its journal answer. -/

namespace FpsMaxxing

open Effects Serde

variable {σ : Type}

namespace Progress

variable {policy : ReclaimPolicy} {m m' : Progress} {experiment : UnclosedExperiment}
  {rest : List UnclosedExperiment}

lemma selected_congr (h : m'.listed = m.listed) : m'.selected policy = m.selected policy := by
  simp [selected, h]

lemma current_of_pending (h : m.pending policy = experiment :: rest) (hl : m'.listed = m.listed)
    (hr : m'.rollbacks.length = m.rollbacks.length + 1) :
    m'.current policy = some experiment ∧ m'.pending policy = rest := by
  have hg : (m.selected policy)[m.rollbacks.length]? = some experiment := by
    have h0 := congrArg (·[0]?) h
    simpa [pending] using h0
  constructor
  · rw [current, selected_congr hl, hr, List.take_add_one, hg]
    simp
  · rw [pending, selected_congr hl, hr, ← List.drop_drop]
    have ht := congrArg (List.drop 1) h
    simpa [pending] using ht

end Progress

namespace Pass

variable (P : Provider σ) (policy : ReclaimPolicy)

def monitor : Monitor Calls Progress := ⟨Progress.next, Progress.passAllows P policy⟩

variable {P policy} {m : Progress} {experiment : UnclosedExperiment}
  {rest : List UnclosedExperiment}

def Handled (m : Progress) (experiments : List UnclosedExperiment)
    (r : Except WatchdogError (List Restoration)) (m' : Progress) : Prop :=
  m'.listed = m.listed ∧ ∀ restorations, r = .ok restorations →
    m'.rollbacks = m.rollbacks ++ experiments.map UnclosedExperiment.snapshot ∧
      restorations.map Restoration.experimentId =
        experiments.map UnclosedExperiment.experimentId ∧ m'.lost = m.lost

def Recorded (m : Progress) (r : Except WatchdogError Unit) (m' : Progress) : Prop :=
  m'.listed = m.listed ∧ m'.rollbacks = m.rollbacks ∧ (r = .ok () → m'.lost = m.lost)

lemma recordSuccess_obeys (hc : m.current policy = some experiment) (hm : m.confirmed = true) :
    (P.watchdog.recordSuccess experiment).run.Obeys (monitor P policy) m
      (Recorded m) := by
  rw [Watchdog.recordSuccess, Program.obeys_mapErr]
  refine ⟨⟨experiment, hc, .inl ⟨hm, rfl⟩⟩, ?_⟩
  rintro (e | u)
  · exact ⟨rfl, rfl, by simp [Except.mapError]⟩
  · exact ⟨rfl, rfl, fun _ => rfl⟩

lemma recordFailure_obeys (hc : m.current policy = some experiment) (error : String) :
    (P.watchdog.recordFailure experiment error).run.Obeys (monitor P policy) m
      (Recorded m) := by
  have hi : ∀ m', m'.listed = m.listed → m'.rollbacks = m.rollbacks → m'.lost = m.lost →
      (mapErr WatchdogError.journal (execute (.insert (P.watchdog.failureRecords experiment
        error)))).run.Obeys (monitor P policy) m' (Recorded m) := by
    intro m' hl hr hlost
    have hc' : m'.current policy = some experiment := by
      rw [← hc, Progress.current, Progress.current, Progress.selected_congr hl, hr]
    rw [Program.obeys_mapErr]
    refine ⟨⟨experiment, hc', .inr ⟨error, rfl⟩⟩, ?_⟩
    rintro (e | u)
    · exact ⟨hl, hr, by simp [Except.mapError]⟩
    · exact ⟨hl, hr, fun _ => hlost⟩
  rw [Watchdog.recordFailure, Program.obeys_run_bind, Watchdog.lastFailureMatches,
    Program.obeys_run_bind, Program.obeys_mapErr]
  refine ⟨trivial, ?_⟩
  show ∀ r : Except SqlError (Option Value), _
  rintro (e | _ | payload)
  · exact ⟨rfl, rfl, by simp⟩
  · exact hi m rfl rfl rfl
  · have hn := hi ((monitor P policy).next m (.journal (.lastRestore experiment.experimentId))
      (.ok (some payload))) rfl rfl rfl
    cases hf : Watchdog.failureMatches error payload with
    | true => simpa [Except.mapError, hf] using ⟨rfl, rfl, fun _ => rfl⟩
    | false => simpa [Except.mapError, hf] using hn

lemma restoreState_obeys (h : m.pending policy = experiment :: rest) :
    (Watchdog.restoreState experiment.snapshot).Obeys (monitor P policy) m fun r m' =>
      m'.listed = m.listed ∧ m'.rollbacks = m.rollbacks ++ [experiment.snapshot] ∧
        m'.lost = m.lost ∧ (r = .ok () → m'.confirmed = true) := by
  rw [Watchdog.restoreState, Program.obeys_run_bind]
  refine ⟨⟨experiment, rest, h, rfl⟩, ?_⟩
  show ∀ r : Except ProviderError Unit, _
  rintro (e | u)
  · exact ⟨rfl, rfl, rfl, by simp⟩
  simp only [Program.obeys_done]
  rw [Program.obeys_run_bind]
  have hn : m.rollbacks ++ [experiment.snapshot] ≠ [] := by simp
  refine ⟨hn, ?_⟩
  show ∀ r : Except ProviderError StateSnapshot, _
  rintro (e | restored)
  · exact ⟨rfl, rfl, rfl, by simp⟩
  simp only [Program.obeys_done, monitor, Progress.next_rollback, Progress.next_snapshot_ok, hn,
    if_false]
  split_ifs with hr
  · exact ⟨rfl, rfl, rfl, fun _ => by simp [hr]⟩
  · exact ⟨rfl, rfl, rfl, by simp⟩

lemma reclaimOne_obeys (h : m.pending policy = experiment :: rest) :
    (P.watchdog.reclaimOne experiment).run.Obeys (monitor P policy) m fun r m' =>
      m'.listed = m.listed ∧ m'.rollbacks = m.rollbacks ++ [experiment.snapshot] ∧
        ∀ restoration, r = .ok restoration →
          restoration.experimentId = experiment.experimentId ∧ m'.lost = m.lost := by
  rw [Watchdog.reclaimOne, Program.obeys_run_lift_bind]
  refine (restoreState_obeys h).mono ?_
  rintro (e | u) m' ⟨hl, hr, hlost, hc⟩
  all_goals
    have hm : m'.current policy = some experiment :=
      (Progress.current_of_pending h hl (by simp [hr])).1
    dsimp only
    rw [Program.obeys_run_bind]
  · refine (recordFailure_obeys hm e.text).mono ?_
    rintro (e | u) m'' ⟨hl', hr', hlost'⟩
    · exact ⟨hl'.trans hl, hr'.trans hr, by simp⟩
    · refine ⟨hl'.trans hl, hr'.trans hr, ?_⟩
      rintro _ ⟨⟩
      exact ⟨rfl, (hlost' rfl).trans hlost⟩
  · refine (recordSuccess_obeys hm (hc rfl)).mono ?_
    rintro (e | u) m'' ⟨hl', hr', hlost'⟩
    · exact ⟨hl'.trans hl, hr'.trans hr, by simp⟩
    · refine ⟨hl'.trans hl, hr'.trans hr, ?_⟩
      rintro _ ⟨⟩
      exact ⟨rfl, (hlost' rfl).trans hlost⟩

lemma reclaimAll_obeys {experiments : List UnclosedExperiment}
    (h : m.pending policy = experiments) :
    (P.watchdog.reclaimAll experiments).run.Obeys (monitor P policy) m (Handled m experiments) := by
  induction experiments generalizing m with
  | nil => exact ⟨rfl, by rintro _ ⟨⟩; simp⟩
  | cons experiment rest ih =>
    rw [Watchdog.reclaimAll, Program.obeys_run_bind]
    refine (reclaimOne_obeys h).mono ?_
    rintro (e | restoration) m' ⟨hl, hr, hid⟩
    · exact ⟨hl, by simp⟩
    have hp := (Progress.current_of_pending h hl (by simp [hr])).2
    dsimp only
    rw [Program.obeys_run_bind]
    refine (ih hp).mono ?_
    rintro (e | restorations) m'' ⟨hl', hh⟩
    · exact ⟨hl'.trans hl, by simp⟩
    refine ⟨hl'.trans hl, ?_⟩
    rintro _ ⟨⟩
    obtain ⟨hr', hids, hlost'⟩ := hh restorations rfl
    obtain ⟨hid, hlost⟩ := hid restoration rfl
    exact ⟨by simp [hr', hr], by simp [hids, hid], hlost'.trans hlost⟩

def Passed (policy : ReclaimPolicy) (r : Except WatchdogError (List Restoration)) (m : Progress) :
    Prop :=
  ∀ restorations, r = .ok restorations →
    m.rollbacks = (m.selected policy).map UnclosedExperiment.snapshot ∧
      restorations.map Restoration.experimentId =
        (m.selected policy).map UnclosedExperiment.experimentId ∧ m.lost = false

lemma scan_obeys :
    P.watchdog.scan.run.Obeys (monitor P policy) .start fun r m =>
      m.rollbacks = [] ∧ ∀ candidates, r = .ok candidates →
        m.listed.mapM Watchdog.decode = .ok candidates ∧ m.lost = false := by
  rw [Watchdog.scan, Program.obeys_run_bind, Program.obeys_mapErr]
  refine ⟨trivial, ?_⟩
  show ∀ r : Except SqlError Bool, _
  rintro (e | ready)
  · exact ⟨rfl, by simp⟩
  cases ready with
  | false => exact ⟨rfl, by rintro _ ⟨⟩; exact ⟨rfl, rfl⟩⟩
  | true =>
    simp only [Program.obeys_done, Except.mapError, if_true]
    rw [Program.obeys_run_bind, Program.obeys_mapErr]
    refine ⟨⟨rfl, rfl, rfl⟩, ?_⟩
    show ∀ r : Except SqlError (List Database.Candidate), _
    rintro (e | rows)
    · exact ⟨rfl, by simp⟩
    · exact ⟨rfl, fun _ h => ⟨h, rfl⟩⟩

lemma reclaim_obeys :
    (P.watchdog.reclaim policy).run.Obeys (monitor P policy) .start (Passed policy) := by
  rw [Watchdog.reclaim, Program.obeys_run_bind]
  refine scan_obeys.mono ?_
  rintro (e | candidates) m ⟨hr, hc⟩
  · simp [Passed]
  obtain ⟨hd, hlost⟩ := hc candidates rfl
  have hp : m.pending policy = candidates.filter (UnclosedExperiment.selectedBy policy) := by
    simp [Progress.pending, Progress.selected, hd, hr]
  refine (reclaimAll_obeys hp).mono ?_
  rintro r m' ⟨hl, hh⟩ restorations hres
  obtain ⟨hr', hids, hlost'⟩ := hh restorations hres
  have hs : m'.selected policy = candidates.filter (UnclosedExperiment.selectedBy policy) := by
    simp [Progress.selected, hl, hd]
  rw [hs]
  exact ⟨by simpa [hr] using hr', hids, hlost'.trans hlost⟩

end Pass

end FpsMaxxing
