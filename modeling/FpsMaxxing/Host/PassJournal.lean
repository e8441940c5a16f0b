import FpsMaxxing.Host.PassLog
import FpsMaxxing.Host.Trials
import FpsMaxxing.Safety.LeaseExpiry

/-! What the calls of a pass add to the journal. -/

namespace FpsMaxxing

open Effects Serde

variable {σ : Type}

def Database.rowsOf (db : Database) (experiment : ℤ) : List Row :=
  db.rows.filter fun row => row.experimentId = experiment

def recordsOf (experiment : ℤ) (log : List Calls.Event) : List Record :=
  (log.flatMap fun event => committed event.1 event.2).filter fun record =>
    record.experimentId = experiment

@[simp] lemma recordsOf_append (experiment : ℤ) (log log' : List Calls.Event) :
    recordsOf experiment (log ++ log') = recordsOf experiment log ++ recordsOf experiment log' := by
  simp [recordsOf]

section

variable {P : Provider σ} {w v : World σ} {log : List Calls.Event}

lemma chain_rows (h : Chain (sem P) w log v) : ∃ rows, v.db.rows = w.db.rows ++ rows ∧
    rows.map Row.toRecord = log.flatMap fun event => committed event.1 event.2 := by
  induction h with
  | nil => exact ⟨[], (List.append_nil _).symm, rfl⟩
  | cons hs _ ih =>
    obtain ⟨first, hf, hfr⟩ := sem_rows hs
    obtain ⟨rows, hr, hrr⟩ := ih
    exact ⟨first ++ rows, by rw [hr, hf, List.append_assoc], by simp [hfr, hrr]⟩

lemma chain_rowsOf (h : Chain (sem P) w log v) (experiment : ℤ) : ∃ added,
    v.db.rowsOf experiment = w.db.rowsOf experiment ++ added ∧
      added.map Row.toRecord = recordsOf experiment log := by
  obtain ⟨rows, hr, hrr⟩ := chain_rows h
  refine ⟨rows.filter fun row => row.experimentId = experiment, ?_, ?_⟩
  · rw [Database.rowsOf, hr, List.filter_append]
    rfl
  · rw [recordsOf, ← hrr, List.filter_map]
    rfl

lemma chain_trials (h : Chain (sem P) w log v) :
    v.db.trials = w.db.trials ++ log.flatMap fun event => journaled event.1 event.2 := by
  induction h with
  | nil => simp
  | cons hs _ ih => rw [ih, sem_trials hs, List.flatMap_cons, List.append_assoc]

end

namespace Watchdog

def selectedAt (watchdog : Watchdog) (db : Database) (policy : ReclaimPolicy) (now : ℤ) :
    Except WatchdogError (List UnclosedExperiment) :=
  List.filter (UnclosedExperiment.selectedBy policy) <$> unclosedAt db watchdog.providerId now

variable (watchdog : Watchdog) {x : UnclosedExperiment} {a : Attempt}

def Adds (x : UnclosedExperiment) (a : Attempt) (added : List Record) : Prop :=
  match a.result x.snapshot with
  | .ok () => added = watchdog.successRecords x
  | .error error => added = [] ∨ added = watchdog.failureRecords x error.text

variable {watchdog} {log : List Calls.Event} {policy : ReclaimPolicy}

@[simp] lemma recordsOf_attempt (e : ℤ) (a : Attempt) (snapshot : StateSnapshot) :
    recordsOf e (a.log snapshot) = [] := by
  cases a <;> rfl

lemma successRecords_id {record : Record} (h : record ∈ watchdog.successRecords x) :
    record.experimentId = x.experimentId := by
  simp only [successRecords, List.mem_cons, List.not_mem_nil, or_false] at h
  rcases h with rfl | rfl <;> rfl

lemma failureRecords_id {error : String} {record : Record}
    (h : record ∈ watchdog.failureRecords x error) : record.experimentId = x.experimentId := by
  rw [List.mem_singleton.mp h]

lemma recordsOf_insert (e : ℤ) {records : List Record}
    (hr : ∀ record ∈ records, record.experimentId = x.experimentId) :
    recordsOf e [⟨.journal (.insert records), .ok ()⟩] =
      if e = x.experimentId then records else [] := by
  have hl : recordsOf e [⟨.journal (.insert records), .ok ()⟩] =
      records.filter fun record => record.experimentId = e := by
    simp [recordsOf, committed]
  rw [hl]
  split_ifs with he
  · exact List.filter_eq_self.mpr fun record hm => by simp [he, hr record hm]
  · exact List.filter_eq_nil_iff.mpr fun record hm => by simpa [hr record hm] using Ne.symm he

lemma Turned.recordsOf_ne {r : Except WatchdogError Restoration} {e : ℤ}
    (h : watchdog.Turned x a log r) (he : e ≠ x.experimentId) : recordsOf e log = [] := by
  cases h with
  | restored _ r =>
    rw [recordsOf_append, recordsOf_attempt]
    cases r with
    | error _ => rfl
    | ok u => exact (recordsOf_insert e fun _ => successRecords_id).trans (if_neg he)
  | unread _ _ | repeated _ _ => rw [recordsOf_append, recordsOf_attempt]; rfl
  | failed _ _ r =>
    rw [recordsOf_append, recordsOf_attempt]
    cases r with
    | error _ => rfl
    | ok u => exact (recordsOf_insert e fun _ => failureRecords_id).trans (if_neg he)

lemma Turned.adds {restoration : Restoration} (h : watchdog.Turned x a log (.ok restoration)) :
    watchdog.Adds x a (recordsOf x.experimentId log) := by
  generalize hr : (Except.ok restoration : Except WatchdogError Restoration) = r' at h
  rw [Adds]
  cases h with
  | unread _ _ => cases hr
  | repeated h _ =>
    rw [h, recordsOf_append, recordsOf_attempt]
    exact .inl rfl
  | restored h r =>
    cases r with
    | error _ => cases hr
    | ok u =>
      rw [h, recordsOf_append, recordsOf_attempt]
      exact (recordsOf_insert _ fun _ => successRecords_id).trans (if_pos rfl)
  | failed h _ r =>
    cases r with
    | error _ => cases hr
    | ok u =>
      rw [h, recordsOf_append, recordsOf_attempt]
      exact .inr ((recordsOf_insert _ fun _ => failureRecords_id).trans (if_pos rfl))

lemma Turns.recordsOf_notMem {xs : List UnclosedExperiment} {as : List Attempt}
    {r : Except WatchdogError (List Restoration)} {e : ℤ} (h : watchdog.Turns xs as log r)
    (he : e ∉ xs.map UnclosedExperiment.experimentId) : recordsOf e log = [] := by
  induction h with
  | nil => rfl
  | cons h _ ih =>
    rw [List.map_cons, List.mem_cons, not_or] at he
    rw [recordsOf_append, h.recordsOf_ne he.1, ih he.2]
    rfl
  | stop h =>
    rw [List.map_cons, List.mem_cons, not_or] at he
    exact h.recordsOf_ne he.1

lemma Turns.adds {xs : List UnclosedExperiment} {as : List Attempt}
    {r : Except WatchdogError (List Restoration)} (h : watchdog.Turns xs as log r)
    (hn : (xs.map UnclosedExperiment.experimentId).Nodup) :
    ∀ taken ∈ xs.zip as,
      watchdog.Adds taken.1 taken.2 (recordsOf taken.1.experimentId log) := by
  induction h with
  | nil | stop _ => simp
  | @cons x xs a as log log' r h hs ih =>
    rw [List.map_cons, List.nodup_cons] at hn
    rw [List.zip_cons_cons, List.forall_mem_cons]
    constructor
    · rw [recordsOf_append, hs.recordsOf_notMem hn.1, List.append_nil]
      exact h.adds
    · intro taken ht
      have hm : taken.1.experimentId ∈ xs.map UnclosedExperiment.experimentId :=
        List.mem_map_of_mem (List.of_mem_zip ht).1
      have hne : taken.1.experimentId ≠ x.experimentId := fun he => hn.1 (he ▸ hm)
      rw [recordsOf_append, h.recordsOf_ne hne]
      exact ih hn.2 taken ht

lemma Turned.opens_nothing {r : Except WatchdogError Restoration} (h : watchdog.Turned x a log r) :
    ∀ record ∈ log.flatMap fun event => committed event.1 event.2,
      record.stage ≠ .snapshot ∧ record.stage ≠ .applyIntent := by
  cases h with
  | restored _ r | failed _ _ r =>
    cases a <;> cases r <;>
      simp [Attempt.log, committed, successRecords, failureRecords]
  | unread _ _ | repeated _ _ => cases a <;> simp [Attempt.log, committed]

lemma Turns.opens_nothing {xs : List UnclosedExperiment} {as : List Attempt}
    {r : Except WatchdogError (List Restoration)} (h : watchdog.Turns xs as log r) :
    ∀ record ∈ log.flatMap fun event => committed event.1 event.2,
      record.stage ≠ .snapshot ∧ record.stage ≠ .applyIntent := by
  induction h with
  | nil => simp
  | cons h _ ih =>
    rw [List.flatMap_append, List.forall_mem_append]
    exact ⟨h.opens_nothing, ih⟩
  | stop h => exact h.opens_nothing

lemma Turned.not_error {e : WatchdogError} (h : watchdog.Turned x a log (.error e)) :
    ∃ event ∈ log, ¬ JournalWorks event.1 event.2 := by
  generalize hr : (Except.error e : Except WatchdogError Restoration) = r' at h
  have hlast : ∀ {statement : Statement} {error : SqlError} {rest : List Calls.Event},
      ∃ event ∈ rest ++ [(⟨.journal statement, .error error⟩ : Calls.Event)],
        ¬ JournalWorks event.1 event.2 :=
    ⟨_, List.mem_append_right _ (List.mem_singleton_self _), by rintro ⟨b, hb⟩; cases hb⟩
  cases h with
  | unread _ _ => exact hlast
  | repeated _ _ => cases hr
  | restored _ r =>
    cases r with
    | error _ => exact hlast
    | ok u => cases hr
  | failed _ _ r =>
    cases r with
    | error _ =>
      rw [List.append_cons]
      exact hlast
    | ok u => cases hr

lemma Turns.all {xs : List UnclosedExperiment} {as : List Attempt}
    {r : Except WatchdogError (List Restoration)} (h : watchdog.Turns xs as log r)
    (hg : ∀ event ∈ log, JournalWorks event.1 event.2) :
    as.length = xs.length ∧ r = .ok (List.zipWith restoration xs as) := by
  induction h with
  | nil => exact ⟨rfl, rfl⟩
  | @cons x xs a as log log' r h hs ih =>
    obtain ⟨hl, rfl⟩ := ih fun event hm => hg event (List.mem_append_right _ hm)
    exact ⟨by simp [hl], rfl⟩
  | stop h =>
    obtain ⟨event, hm, hn⟩ := h.not_error
    exact absurd (hg event hm) hn

def providerCalls (log : List Calls.Event) : List Calls.Event :=
  log.filter fun event => match event.1 with
    | .provider _ => true
    | .journal _ => false

lemma providerCalls_attempt (a : Attempt) (snapshot : StateSnapshot) :
    providerCalls (a.log snapshot) = a.log snapshot := by
  cases a <;> rfl

lemma Turned.providerCalls {r : Except WatchdogError Restoration}
    (h : watchdog.Turned x a log r) : providerCalls log = a.log x.snapshot := by
  have ha := providerCalls_attempt a x.snapshot
  cases h <;>
  · rw [Watchdog.providerCalls] at ha ⊢
    rw [List.filter_append, ha]
    exact List.append_nil _

lemma Turns.providerCalls {xs : List UnclosedExperiment} {as : List Attempt}
    {r : Except WatchdogError (List Restoration)} (h : watchdog.Turns xs as log r)
    (hg : ∀ event ∈ log, JournalWorks event.1 event.2) : providerCalls log =
      (List.zipWith (fun x a => Attempt.log x.snapshot a) xs as).flatten := by
  induction h with
  | nil => rfl
  | @cons x xs a as log log' r h _ ih =>
    rw [Watchdog.providerCalls, List.filter_append]
    exact congrArg₂ _ h.providerCalls (ih fun event hm => hg event (List.mem_append_right _ hm))
  | stop h =>
    obtain ⟨event, hm, hn⟩ := h.not_error
    exact absurd (hg event hm) hn

lemma Turned.journaled {r : Except WatchdogError Restoration}
    (h : watchdog.Turned x a log r) : (log.flatMap fun event => journaled event.1 event.2) = [] := by
  cases h with
  | restored _ r | failed _ _ r => cases a <;> cases r <;> rfl
  | unread _ _ | repeated _ _ => cases a <;> rfl

lemma Turns.journaled {xs : List UnclosedExperiment} {as : List Attempt}
    {r : Except WatchdogError (List Restoration)} (h : watchdog.Turns xs as log r) :
    (log.flatMap fun event => journaled event.1 event.2) = [] := by
  induction h with
  | nil => rfl
  | cons h _ ih => rw [List.flatMap_append, h.journaled, ih, List.append_nil]
  | stop h => exact h.journaled

section

variable {P : Provider σ} {w u : World σ} {candidates : List UnclosedExperiment}

lemma sem_ready_read {r : Except SqlError Bool} (h : sem P w (.journal .ready) r u) :
    u = w ∧ ∀ b, r = .ok b → b = w.db.ready := by
  obtain ⟨e, rfl, rfl⟩ | ⟨now, b, db, hr, rfl, rfl⟩ := h
  · exact ⟨rfl, by simp⟩
  · cases hr
    exact ⟨rfl, by simp⟩

lemma Scanned.read {r : Except WatchdogError (List UnclosedExperiment)}
    (h : watchdog.Scanned log r) (hc : Chain (sem P) w log u) : u = w ∧
      ((∃ event ∈ log, ¬ JournalWorks event.1 event.2) ∧ (∃ e, r = .error e) ∨
        w.db.ready = false ∧ r = .ok [] ∨
        ∃ now, unclosedAt w.db watchdog.providerId now = r) := by
  cases h with
  | down e =>
    obtain ⟨_, hs, ⟨⟩⟩ := chain_cons.mp hc
    refine ⟨(sem_ready_read hs).1, .inl ⟨⟨_, List.mem_singleton_self _, ?_⟩, _, rfl⟩⟩
    rintro ⟨b, ⟨⟩⟩
  | absent =>
    obtain ⟨_, hs, ⟨⟩⟩ := chain_cons.mp hc
    obtain ⟨hu, hb⟩ := sem_ready_read hs
    exact ⟨hu, .inr (.inl ⟨(hb false rfl).symm, rfl⟩)⟩
  | unlisted e =>
    obtain ⟨_, hs, hc⟩ := chain_cons.mp hc
    obtain ⟨_, hs', ⟨⟩⟩ := chain_cons.mp hc
    obtain ⟨rfl, _⟩ := sem_ready_read hs
    refine ⟨(sem_unclosed_read hs').1, .inl ⟨⟨_, List.mem_cons_of_mem _ (List.mem_singleton_self _),
      ?_⟩, _, rfl⟩⟩
    rintro ⟨b, ⟨⟩⟩
  | listed rows =>
    obtain ⟨_, hs, hc⟩ := chain_cons.mp hc
    obtain ⟨_, hs', ⟨⟩⟩ := chain_cons.mp hc
    obtain ⟨rfl, _⟩ := sem_ready_read hs
    obtain ⟨hu, hrows⟩ := sem_unclosed_read hs'
    obtain ⟨now, rfl⟩ := hrows rows rfl
    exact ⟨hu, .inr (.inr ⟨now, rfl⟩)⟩

lemma Scanned.recordsOf {r : Except WatchdogError (List UnclosedExperiment)}
    (h : watchdog.Scanned log r) (e : ℤ) : recordsOf e log = [] := by
  cases h <;> rfl

lemma Scanned.committed {r : Except WatchdogError (List UnclosedExperiment)}
    (h : watchdog.Scanned log r) : (log.flatMap fun event => committed event.1 event.2) = [] := by
  cases h <;> rfl

lemma Scanned.providerCalls {r : Except WatchdogError (List UnclosedExperiment)}
    (h : watchdog.Scanned log r) : providerCalls log = [] := by
  cases h <;> rfl

lemma Scanned.journaled {r : Except WatchdogError (List UnclosedExperiment)}
    (h : watchdog.Scanned log r) :
    (log.flatMap fun event => journaled event.1 event.2) = [] := by
  cases h <;> rfl

end

end Watchdog

end FpsMaxxing
