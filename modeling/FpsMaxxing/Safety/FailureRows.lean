import FpsMaxxing.Safety.Reclaim
import Mathlib.Data.List.Destutter

/-! The failures a watchdog has on record, over any number of its passes. -/

namespace FpsMaxxing

open Effects Serde

section

variable {α : Type} [DecidableEq α]

lemma destutter'_concat (l : List α) (a t : α) :
    (l ++ [t]).destutter' (· ≠ ·) a =
      if (a :: l).getLast? = some t then l.destutter' (· ≠ ·) a
      else l.destutter' (· ≠ ·) a ++ [t] := by
  induction l generalizing a with
  | nil => by_cases h : a = t <;> simp [h]
  | cons b l ih =>
    rw [List.getLast?_cons_cons, List.cons_append, List.destutter'_cons, List.destutter'_cons, ih]
    by_cases h : a = b
    · subst h
      simp [ih]
    · simp only [ne_eq, h, not_false_eq_true, if_true]
      split_ifs <;> rfl

lemma destutter_concat (l : List α) (t : α) :
    (l ++ [t]).destutter (· ≠ ·) =
      if l.getLast? = some t then l.destutter (· ≠ ·) else l.destutter (· ≠ ·) ++ [t] := by
  cases l with
  | nil => rfl
  | cons a l => exact destutter'_concat l a t

lemma getLast?_destutter' (l : List α) (a : α) :
    (l.destutter' (· ≠ ·) a).getLast? = (a :: l).getLast? := by
  induction l generalizing a with
  | nil => rfl
  | cons b l ih =>
    rw [List.destutter'_cons, List.getLast?_cons_cons]
    split_ifs with h
    · rw [List.getLast?_cons, ih, ← List.getLast?_cons, List.getLast?_cons_cons]
    · obtain rfl : a = b := not_not.mp h
      exact ih a

lemma getLast?_destutter (l : List α) : (l.destutter (· ≠ ·)).getLast? = l.getLast? := by
  cases l with
  | nil => rfl
  | cons a l => exact getLast?_destutter' l a

end

variable {σ : Type}

namespace Database

def restores (db : Database) (experiment : ℤ) : List Value :=
  ((db.rowsOf experiment).filter fun row => row.stage = .watchdogRestore).map fun row => row.payload

end Database

def isUnrestored (payload : Value) : Bool :=
  (payload.get "restored" >>= Value.asBool) == some false

def errorOf (payload : Value) : Option String := payload.get "error" >>= Value.asStr

def Database.failures (db : Database) (experiment : ℤ) : List (Option String) :=
  ((db.restores experiment).filter isUnrestored).map errorOf

/-- What other processes do to the journal: they add rows, none of them about a restore, and no
experiment gets a second snapshot or a second intent. -/
structure Elsewhere (w w' : World σ) : Prop where
  rows : ∃ added, w'.db.rows = w.db.rows ++ added ∧ ∀ row ∈ added, row.stage ≠ .watchdogRestore
  single : w'.db.Single

/-- Passes of one watchdog, one after the other, with what each of them has restored and failed to
restore; between any two of its calls other processes act on the journal and on the host. A pass
that the journal has broken off reports what it had recorded. -/
inductive Passes (P : Provider σ) (w : World σ) : List (List Restoration) → World σ → Prop
  | start : Passes P w [] w
  | other {reports v u} (h : Passes P w reports v) (he : Elsewhere v u) : Passes P w reports u
  | pass {reports v u policy tr restorations} (h : Passes P w reports v)
    (hs : Steps (Semantics.among Elsewhere (sem P)) (P.watchdog.reclaim policy).run v tr
      (.done (.ok restorations)) u) : Passes P w (reports ++ [restorations]) u
  | broken {reports v u policy tr e xs as} (h : Passes P w reports v)
    (hs : Steps (Semantics.among Elsewhere (sem P)) (P.watchdog.reclaim policy).run v tr
      (.done (.error e)) u)
    (hp : P.watchdog.Passed policy xs as (tr.map Entry.event) (.error e)) :
    Passes P w (reports ++ [List.zipWith Watchdog.restoration xs as]) u

section

variable {db db' : Database} {rows : List Row} {e : ℤ}

lemma Database.restores_append (h : db'.rows = db.rows ++ rows) (e : ℤ) : db'.restores e =
    db.restores e ++ ((rows.filter fun row => row.experimentId = e).filter
      fun row => row.stage = .watchdogRestore).map fun row => row.payload := by
  simp only [restores, rowsOf, h, List.filter_append, List.map_append]

lemma Database.restores_eq_nil (h : ∀ row ∈ db.rows, row.stage ≠ .watchdogRestore) (e : ℤ) :
    db.restores e = [] := by
  rw [restores, List.map_eq_nil_iff, List.filter_eq_nil_iff]
  intro row hm
  simpa using h row (List.mem_of_mem_filter hm)

lemma Database.lastRestore_eq (db : Database) (e : ℤ) :
    db.lastRestore e = (db.restores e).getLast? := by
  rw [lastRestore, restores, rowsOf, List.filter_filter, List.getLast?_map, ← List.head?_filter,
    List.filter_reverse, List.head?_reverse]
  refine congrArg (fun rows : List Row => rows.getLast?.map fun row => row.payload)
    (List.filter_congr fun row _ => ?_)
  simp [Bool.and_comm]

end

def restoresOf (experiment : ℤ) (log : List Calls.Event) : List Value :=
  ((recordsOf experiment log).filter fun record => record.stage = .watchdogRestore).map
    Record.payload

lemma restoresOf_append (experiment : ℤ) (log log' : List Calls.Event) :
    restoresOf experiment (log ++ log') =
      restoresOf experiment log ++ restoresOf experiment log' := by
  simp [restoresOf]

section

variable {P : Provider σ} {w u v : World σ} {log : List Calls.Event} {o : Op} {r : o.Res}

lemma Elsewhere.restores (h : Elsewhere w u) (e : ℤ) : u.db.restores e = w.db.restores e := by
  obtain ⟨added, hr, hs⟩ := h.rows
  rw [Database.restores_append hr, List.append_right_eq_self, List.map_eq_nil_iff,
    List.filter_eq_nil_iff]
  intro row hm
  simpa using hs row (List.mem_of_mem_filter hm)

lemma among_restores (h : Semantics.among Elsewhere (sem P) w o r v) (e : ℤ) :
    v.db.restores e = w.db.restores e ++ restoresOf e [⟨o, r⟩] := by
  obtain ⟨u, hu, hs⟩ := h
  obtain ⟨rows, hr, hc⟩ := sem_rows hs
  rw [Database.restores_append hr, hu.restores, restoresOf, recordsOf, List.flatMap_singleton, ← hc,
    List.filter_map, List.filter_map, List.map_map]
  rfl

lemma among_rows (h : Semantics.among Elsewhere (sem P) w o r v) :
    ∃ rows, v.db.rows = w.db.rows ++ rows := by
  obtain ⟨u, hu, hs⟩ := h
  obtain ⟨added, ha, _⟩ := hu.rows
  obtain ⟨rows, hr, _⟩ := sem_rows hs
  exact ⟨added ++ rows, by rw [hr, ha, List.append_assoc]⟩

lemma chain_keeps (h : Chain (Semantics.among Elsewhere (sem P)) w log v) {record : Record}
    (hm : record ∈ w.db.records) : record ∈ v.db.records := by
  induction h with
  | nil => exact hm
  | cons hs _ ih =>
    obtain ⟨rows, hr⟩ := among_rows hs
    refine ih ?_
    rw [Database.records, hr, List.map_append]
    exact List.mem_append_left _ hm

lemma chain_restores (h : Chain (Semantics.among Elsewhere (sem P)) w log v) (e : ℤ) :
    v.db.restores e = w.db.restores e ++ restoresOf e log := by
  induction h with
  | nil => exact (List.append_nil _).symm
  | @cons w o r u log v hs _ ih =>
    rw [ih, among_restores hs, List.append_assoc, ← restoresOf_append]
    rfl

lemma chain_committed (h : Chain (Semantics.among Elsewhere (sem P)) w log v) :
    ∀ record ∈ log.flatMap fun event => committed event.1 event.2, record ∈ v.db.records := by
  induction h with
  | nil => simp
  | @cons w o r u log v hs hc ih =>
    intro record hm
    rw [List.flatMap_cons, List.mem_append] at hm
    rcases hm with hm | hm
    · obtain ⟨m, _, hs⟩ := hs
      have hu : record ∈ u.db.records := by
        rw [sem_records hs]
        exact List.mem_append_right _ hm
      exact chain_keeps hc hu
    · exact ih record hm

lemma chain_closed (h : Chain (Semantics.among Elsewhere (sem P)) w log v) {e : ℤ}
    (hc : w.db.closed e = true) : v.db.closed e = true := by
  obtain ⟨record, hm, hid, ht⟩ := Database.closed_iff.mp hc
  exact Database.closed_iff.mpr ⟨record, chain_keeps h hm, hid, ht⟩

end

def Database.Records (db : Database) (e : ℤ) (texts : List String) : Prop :=
  db.failures e = (texts.destutter (· ≠ ·)).map some

def Database.Unrestored (db : Database) (e : ℤ) : Prop :=
  ∀ payload ∈ db.restores e, isUnrestored payload = true

section

variable {db db' : Database} {e : ℤ} {texts : List String}

lemma Database.Unrestored.failures (h : db.Unrestored e) :
    db.failures e = (db.restores e).map errorOf := by
  rw [Database.failures, List.filter_eq_self.mpr h]

lemma Database.Records.matches (h : db.Records e texts) (hu : db.Unrestored e) (text : String) :
    (db.lastRestore e).any (Watchdog.failureMatches text) = true ↔ texts.getLast? = some text := by
  have hlast : ((db.restores e).getLast?).map errorOf = texts.getLast?.map some := by
    rw [← List.getLast?_map, ← hu.failures, h, List.getLast?_map, getLast?_destutter]
  rw [Database.lastRestore_eq]
  cases hp : (db.restores e).getLast? with
  | none =>
    rw [hp, Option.map_none, eq_comm, Option.map_eq_none_iff] at hlast
    simp [hlast]
  | some payload =>
    rw [hp, Option.map_some, eq_comm, Option.map_eq_some_iff] at hlast
    obtain ⟨last, hl, he⟩ := hlast
    have hun : ((payload.get "restored" >>= Value.asBool) == some false) = true :=
      hu payload (List.mem_of_getLast? hp)
    have herr : (payload.get "error" >>= Value.asStr) = some last := he.symm
    rw [hl, Option.any_some, Watchdog.failureMatches, hun, herr]
    simp

lemma Database.Records.congr (h : db.Records e texts) (hr : db'.restores e = db.restores e) :
    db'.Records e texts := by
  rwa [Database.Records, Database.failures, hr]

lemma Database.Unrestored.congr (h : db.Unrestored e) (hr : db'.restores e = db.restores e) :
    db'.Unrestored e := by
  rwa [Database.Unrestored, hr]

end

namespace Watchdog

variable {watchdog : Watchdog} {x : UnclosedExperiment} {a : Attempt} {log : List Calls.Event}
  {P : Provider σ} {v u : World σ} {texts : List String}

lemma restoresOf_failure (error : String) : restoresOf x.experimentId
    [⟨.journal (.insert (watchdog.failureRecords x error)), .ok ()⟩] =
      [unrestoredPayload x error] := by
  rw [restoresOf, recordsOf_insert _ fun _ => failureRecords_id, if_pos rfl]
  rfl

lemma lastRestore_read {rest : List Calls.Event} {latest : Option Value}
    (hc : Chain (Semantics.among Elsewhere (sem P)) v (a.log x.snapshot ++
      ⟨.journal (.lastRestore x.experimentId), .ok latest⟩ :: rest) u) :
    latest = v.db.lastRestore x.experimentId := by
  obtain ⟨m, hm, hc⟩ := chain_append.mp hc
  obtain ⟨_, ⟨m', he, hs⟩, _⟩ := chain_cons.mp hc
  have hr : m'.db.restores x.experimentId = v.db.restores x.experimentId := by
    rw [he.restores, chain_restores hm, restoresOf, recordsOf_attempt]
    exact List.append_nil _
  obtain ⟨_, ⟨⟩, _⟩ | ⟨now, b, db, hrun, ⟨⟩, _⟩ := hs
  simp only [Statement.run, Option.ite_none_right_eq_some] at hrun
  obtain ⟨_, hrun⟩ := hrun
  cases hrun
  rw [Database.lastRestore_eq, Database.lastRestore_eq, hr]

lemma Turned.restored_row {restoration : Restoration}
    (h : watchdog.Turned x a log (.ok restoration)) (ha : a.result x.snapshot = .ok ()) :
    restoresOf x.experimentId log = [restoredPayload x] ∧
      ∃ terminal ∈ log.flatMap fun event => committed event.1 event.2,
        terminal.experimentId = x.experimentId ∧ terminal.stage.terminal = true := by
  have hadd := h.adds
  rw [Adds, ha] at hadd
  refine ⟨by rw [restoresOf, hadd]; rfl, ?_⟩
  have hm : (⟨x.experimentId, .failed, watchdog.providerId, reclaimedPayload x⟩ : Record) ∈
      recordsOf x.experimentId log := by
    rw [hadd]
    exact List.mem_cons_of_mem _ (List.mem_singleton_self _)
  exact ⟨_, (List.mem_filter.mp hm).1, rfl, rfl⟩

lemma Turned.failure_row {restoration : Restoration} {error : ProviderError}
    (h : watchdog.Turned x a log (.ok restoration)) (ha : a.result x.snapshot = .error error)
    (hc : Chain (Semantics.among Elsewhere (sem P)) v log u) :
    restoresOf x.experimentId log =
      if (v.db.lastRestore x.experimentId).any (failureMatches error.text) then []
      else [unrestoredPayload x error.text] := by
  generalize hres : (Except.ok restoration : Except WatchdogError Restoration) = r' at h
  cases h with
  | restored h _ => cases ha.symm.trans h
  | unread _ _ => cases hres
  | repeated h hm =>
    cases ha.symm.trans h
    rw [← lastRestore_read hc, hm, if_pos rfl, restoresOf_append, restoresOf, recordsOf_attempt]
    rfl
  | failed h hm r =>
    cases ha.symm.trans h
    cases r with
    | error _ => cases hres
    | ok _ =>
      rw [← lastRestore_read hc, hm, restoresOf_append, restoresOf, recordsOf_attempt]
      exact restoresOf_failure error.text

lemma Turned.records {restoration : Restoration}
    (h : watchdog.Turned x a log (.ok restoration))
    (hc : Chain (Semantics.among Elsewhere (sem P)) v log u)
    (hu : v.db.Unrestored x.experimentId) (hl : v.db.Records x.experimentId texts) :
    u.db.Records x.experimentId (texts ++ restoration.error.toList) ∧
      (u.db.Unrestored x.experimentId ∨ u.db.closed x.experimentId = true) := by
  have hrows := chain_restores hc x.experimentId
  have hr := h.ok
  cases ha : a.result x.snapshot with
  | ok _ =>
    obtain ⟨hrestored, terminal, hm, hid, ht⟩ := h.restored_row ha
    rw [hrestored] at hrows
    refine ⟨?_, .inr (Database.closed_iff.mpr ⟨terminal, chain_committed hc _ hm, hid, ht⟩)⟩
    rw [hr, restoration_of_ok ha, Option.toList_none, List.append_nil, Database.Records,
      Database.failures, hrows, List.filter_append, List.map_append]
    exact (List.append_nil _).trans hl
  | error error =>
    rw [h.failure_row ha hc] at hrows
    rw [hr, restoration_of_error ha, Option.toList_some, Database.Records, destutter_concat]
    have hmatch := hl.matches hu error.text
    split_ifs at hrows with hlast
    · rw [List.append_nil] at hrows
      rw [if_pos (hmatch.mp hlast)]
      exact ⟨hl.congr hrows, .inl (hu.congr hrows)⟩
    · rw [if_neg fun h => hlast (hmatch.mpr h)]
      have hu' : u.db.Unrestored x.experimentId := by
        rw [Database.Unrestored, hrows, List.forall_mem_append, List.forall_mem_singleton]
        exact ⟨hu, rfl⟩
      refine ⟨?_, .inl hu'⟩
      rw [hu'.failures, hrows, List.map_append, ← hu.failures, hl, List.map_append]
      rfl

lemma Turned.restoresOf_error {e : ℤ} {error : WatchdogError}
    (h : watchdog.Turned x a log (.error error)) : restoresOf e log = [] := by
  generalize hres : (Except.error error : Except WatchdogError Restoration) = r' at h
  cases h with
  | unread _ _ | repeated _ _ => rw [restoresOf, recordsOf_append, recordsOf_attempt]; rfl
  | restored _ r | failed _ _ r =>
    cases r with
    | ok _ => cases hres
    | error _ => rw [restoresOf, recordsOf_append, recordsOf_attempt]; rfl

lemma Turned.restoresOf_ne {e : ℤ} {r : Except WatchdogError Restoration}
    (h : watchdog.Turned x a log r) (he : e ≠ x.experimentId) : restoresOf e log = [] := by
  rw [restoresOf, h.recordsOf_ne he]
  rfl

end Watchdog

def reportedTexts (experiment : ℤ) (report : List Restoration) : List String :=
  report.filterMap fun restoration =>
    if restoration.experimentId = experiment then restoration.error else none

lemma reportedTexts_singleton (e : ℤ) (restoration : Restoration) :
    reportedTexts e [restoration] =
      if restoration.experimentId = e then restoration.error.toList else [] := by
  rw [reportedTexts, List.filterMap_cons, List.filterMap_nil]
  split_ifs
  · cases restoration.error <;> rfl
  · rfl

lemma reportedTexts_cons (e : ℤ) (restoration : Restoration) (report : List Restoration) :
    reportedTexts e (restoration :: report) =
      reportedTexts e [restoration] ++ reportedTexts e report := by
  simp [reportedTexts, ← List.filterMap_append]

structure Told (db : Database) (texts : ℤ → List String) : Prop where
  records : ∀ e, db.Records e (texts e)
  closed : ∀ e, db.Unrestored e ∨ db.closed e = true

section

variable {watchdog : Watchdog} {x : UnclosedExperiment} {a : Attempt} {log : List Calls.Event}
  {P : Provider σ} {v u : World σ} {texts : ℤ → List String}

lemma Told.congr (h : Told v.db texts) (hr : ∀ e, u.db.restores e = v.db.restores e)
    (hc : ∀ e, v.db.closed e = true → u.db.closed e = true) : Told u.db texts where
  records e := (h.records e).congr (hr e)
  closed e := (h.closed e).imp (fun hu => hu.congr (hr e)) (hc e)

lemma Told.turned (h : Told v.db texts) {restoration : Restoration}
    (ht : watchdog.Turned x a log (.ok restoration))
    (hc : Chain (Semantics.among Elsewhere (sem P)) v log u)
    (hu : v.db.Unrestored x.experimentId) :
    Told u.db fun e => texts e ++ reportedTexts e [restoration] := by
  have hid : restoration.experimentId = x.experimentId := by
    rw [ht.ok, Watchdog.restoration]
    split <;> rfl
  have hkeep : ∀ e, e ≠ x.experimentId → u.db.restores e = v.db.restores e := by
    intro e he
    rw [chain_restores hc, ht.restoresOf_ne he, List.append_nil]
  have hself := ht.records hc hu (h.records x.experimentId)
  constructor
  · intro e
    rw [reportedTexts_singleton, hid]
    split_ifs with he
    · exact he ▸ hself.1
    · rw [List.append_nil]
      exact (h.records e).congr (hkeep e (Ne.symm he))
  · intro e
    by_cases he : e = x.experimentId
    · exact he ▸ hself.2
    · exact (h.closed e).imp (fun hu => hu.congr (hkeep e he)) (chain_closed hc)

lemma Told.turns (h : Told v.db texts) {xs : List UnclosedExperiment} {as : List Attempt}
    {r : Except WatchdogError (List Restoration)} (ht : watchdog.Turns xs as log r)
    (hn : (xs.map UnclosedExperiment.experimentId).Nodup)
    (hc : Chain (Semantics.among Elsewhere (sem P)) v log u)
    (hu : ∀ x ∈ xs, v.db.Unrestored x.experimentId) :
    Told u.db fun e => texts e ++ reportedTexts e (List.zipWith Watchdog.restoration xs as) := by
  induction ht generalizing v texts with
  | nil =>
    cases hc
    simpa [reportedTexts] using h
  | @cons x xs a as log log' r ht _ ih =>
    obtain ⟨m, hc, hc'⟩ := chain_append.mp hc
    rw [List.map_cons, List.nodup_cons] at hn
    rw [List.forall_mem_cons] at hu
    have hm := ih (h.turned ht hc hu.1) hn.2 hc' fun y hy => ?_
    · simpa only [List.append_assoc, List.zipWith_cons_cons, ← reportedTexts_cons] using hm
    · have hne : y.experimentId ≠ x.experimentId :=
        fun he => hn.1 (he ▸ List.mem_map_of_mem hy)
      refine (hu.2 y hy).congr ?_
      rw [chain_restores hc, ht.restoresOf_ne hne, List.append_nil]
  | stop ht =>
    have hkeep := h.congr (fun e => by rw [chain_restores hc, ht.restoresOf_error, List.append_nil])
      fun e => chain_closed hc
    simpa [reportedTexts] using hkeep

lemma Watchdog.Scanned.open {candidates : List UnclosedExperiment}
    (h : watchdog.Scanned log (.ok candidates))
    (hc : Chain (Semantics.among Elsewhere (sem P)) v log u) :
    (candidates.map UnclosedExperiment.experimentId).Nodup ∧
      ∀ x ∈ candidates, v.db.closed x.experimentId = false := by
  generalize hr : (Except.ok candidates : Except WatchdogError _) = r at h
  cases h with
  | down _ | unlisted _ => cases hr
  | absent =>
    cases hr
    simp
  | listed rows =>
    obtain ⟨m, hs, hc⟩ := chain_cons.mp hc
    obtain ⟨_, ⟨m', he, hs'⟩, _⟩ := chain_cons.mp hc
    obtain ⟨now, rfl⟩ := (sem_unclosed_read hs').2 rows rfl
    have hids := map_of_mapM (fun _ _ => Watchdog.decode_id) hr.symm
    constructor
    · rw [hids]
      exact (he.single.unclosed_sorted _ _).imp fun hlt => hlt.ne
    · intro x hx
      obtain ⟨intent, hread⟩ := exists_readFrom hr.symm hx
      obtain ⟨candidate, hcand, hd⟩ := hread.decoded
      have hopen : m'.db.closed x.experimentId = false := by
        rw [← Watchdog.decode_id hd, Database.candidatesOf_id hcand]
        exact hread.unclosed
      by_contra hclosed
      rw [Bool.not_eq_false] at hclosed
      obtain ⟨added, hadd, _⟩ := he.rows
      have hm := chain_closed (.cons hs .nil) hclosed
      rw [Database.closed_mono hadd hm] at hopen
      cases hopen

lemma Told.passed (h : Told v.db texts) {policy : ReclaimPolicy} {xs : List UnclosedExperiment}
    {as : List Attempt} {r : Except WatchdogError (List Restoration)}
    (hp : watchdog.Passed policy xs as log r)
    (hc : Chain (Semantics.among Elsewhere (sem P)) v log u) :
    Told u.db fun e => texts e ++ reportedTexts e (List.zipWith Watchdog.restoration xs as) := by
  have hscan : ∀ {log : List Calls.Event} {r u},
      watchdog.Scanned log r → Chain (Semantics.among Elsewhere (sem P)) v log u →
        (∀ e, u.db.restores e = v.db.restores e) ∧ Told u.db texts := by
    intro log r u hs hc
    have hr : ∀ e, u.db.restores e = v.db.restores e := by
      intro e
      rw [chain_restores hc, restoresOf, hs.recordsOf]
      exact List.append_nil _
    exact ⟨hr, h.congr hr fun e => chain_closed hc⟩
  cases hp with
  | unlisted hs => simpa [reportedTexts] using (hscan hs hc).2
  | listed hs ht =>
    obtain ⟨m, hc, hc'⟩ := chain_append.mp hc
    obtain ⟨hn, hopen⟩ := hs.open hc
    obtain ⟨hr, htold⟩ := hscan hs hc
    refine htold.turns ht (hn.sublist (List.filter_sublist.map _)) hc' fun x hx => ?_
    have hclosed := hopen x (List.mem_of_mem_filter hx)
    exact ((h.closed x.experimentId).resolve_right (by simp [hclosed])).congr (hr _)

end

lemma Watchdog.Turns.report {watchdog : Watchdog} {xs : List UnclosedExperiment} {as : List Attempt}
    {log : List Calls.Event} {restorations : List Restoration}
    (h : watchdog.Turns xs as log (.ok restorations)) :
    restorations = List.zipWith restoration xs as := by
  generalize hr : (Except.ok restorations : Except WatchdogError _) = r at h
  induction h generalizing restorations with
  | nil => exact Except.ok.inj hr
  | @cons x xs a as log log' r _ _ ih =>
    cases r with
    | error _ => cases hr
    | ok rest =>
      rw [List.zipWith_cons_cons, ← ih rfl]
      exact Except.ok.inj hr
  | stop _ => cases hr

lemma Watchdog.Passed.report {watchdog : Watchdog} {policy : ReclaimPolicy}
    {xs : List UnclosedExperiment} {as : List Attempt} {log : List Calls.Event}
    {restorations : List Restoration} (h : watchdog.Passed policy xs as log (.ok restorations)) :
    restorations = List.zipWith restoration xs as := by
  generalize hr : (Except.ok restorations : Except WatchdogError _) = r at h
  cases h with
  | unlisted _ => cases hr
  | listed _ ht => exact Watchdog.Turns.report (hr ▸ ht)

def failureTexts (experiment : ℤ) (reports : List (List Restoration)) : List String :=
  reports.flatMap (reportedTexts experiment)

lemma Passes.told {P : Provider σ} {w v : World σ} {reports : List (List Restoration)}
    (h : Passes P w reports v) (hw : ∀ e, w.db.restores e = []) :
    Told v.db fun e => failureTexts e reports := by
  induction h with
  | start =>
    constructor <;> intro e
    · rw [Database.Records, Database.failures, hw]
      rfl
    · refine .inl fun payload hm => ?_
      rw [hw] at hm
      cases hm
  | other _ he ih =>
    obtain ⟨added, hr, _⟩ := he.rows
    exact ih.congr he.restores fun e => Database.closed_mono hr
  | @pass reports v u policy tr restorations _ hs ih =>
    obtain ⟨⟨xs, as, hp⟩, hc⟩ := (P.watchdog.reclaim_logs policy).returned hs fun _ _ => trivial
    rw [hp.report]
    simpa [failureTexts] using ih.passed hp hc
  | broken _ hs hp ih => simpa [failureTexts] using ih.passed hp hs.chain

theorem failure_rows {P : Provider σ} {w v : World σ} {reports : List (List Restoration)}
    (h : Passes P w reports v) (hw : ∀ e, w.db.restores e = []) (e : ℤ) :
    v.db.failures e = ((failureTexts e reports).destutter (· ≠ ·)).map some :=
  (h.told hw).records e

lemma Reachable.among {s : Host σ} (h : Reachable s) {P : Provider σ} {policy : ReclaimPolicy}
    {tr : Trace σ} {q : Program Calls (Except WatchdogError (List Restoration))} {v : World σ}
    (hs : Steps (sem P) (P.watchdog.reclaim policy).run s.world tr q v) :
    Steps (Semantics.among Elsewhere (sem P)) (P.watchdog.reclaim policy).run s.world tr q v := by
  induction hs with
  | start => exact .start
  | @call tr o next v r u hp hc ih =>
    obtain ⟨s', _, _, hr, rfl, _⟩ := h.task (t := .pass P policy) (hp.map Outcome.pass)
    exact ih.call ⟨_, ⟨⟨[], (List.append_nil _).symm, by simp⟩, hr.ledger.single⟩, hc⟩

def stuckProvider : Device UInt64 where
  __ := mockProvider "linux"
  rollback _ current := (.error (.unavailable "stuck"), current)

def stuck : Host UInt64 :=
  stuckProvider.play (Pool.init (World.initial 7))
    (stuckProvider.opened ++
      [.spawn 1 (.lifecycle stuckProvider.provider (mockRequest 42)), .go 1 6, .crash 1])

lemma stuck_reachable : Reachable stuck :=
  Device.play_reachable 7 (by simp [Device.opened, Device.Plays, Task.provider])

def stuckReport : List Restoration :=
  [⟨1, .crashRecovery, 30, false, some "provider unavailable: stuck"⟩]

theorem failure_rows_stuck : ∃ v, Passes stuckProvider.provider stuck.world
    [stuckReport, stuckReport] v ∧ v.db.failures 1 = [some "provider unavailable: stuck"] := by
  have hs := Program.advance_done (n := 20) (a := .ok stuckReport) stuckProvider.answer_sem
    (p := (stuckProvider.provider.watchdog.reclaim .allUnclosed).run) (w := stuck.world) rfl
  obtain ⟨s', _, _, hr, hw, _⟩ := stuck_reachable.task
    (t := .pass stuckProvider.provider .allUnclosed) (hs.map Outcome.pass)
  have hs' := Program.advance_done (n := 20) (a := .ok stuckReport) stuckProvider.answer_sem
    (p := (stuckProvider.provider.watchdog.reclaim .allUnclosed).run) (w := s'.world)
    (by rw [hw]; rfl)
  have hp := (Passes.start.pass (stuck_reachable.among hs)).pass (hw ▸ hr.among hs')
  refine ⟨_, hp, ?_⟩
  exact failure_rows hp (fun e => Database.restores_eq_nil (by decide) e) 1

end FpsMaxxing
