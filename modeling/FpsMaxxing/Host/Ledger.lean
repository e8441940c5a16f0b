import FpsMaxxing.Host.PassSpec

/-! The shared journal along every run: each experiment belongs to one lifecycle, whose records it
holds in the order they were written, beside those of the watchdog. -/

namespace FpsMaxxing

open Effects Serde

variable {σ : Type}

def Task.post : Task σ → Outcome → Progress → Prop
  | .opens _ _ => fun _ _ => True
  | .lifecycle P request => fun o m => ∃ r, o = .lifecycle r ∧ Lifecycle.Finished P request r m
  | .pass _ policy => fun o m => ∃ r, o = .pass r ∧ Pass.Passed policy r m

def contract (σ : Type) : Contract (system σ) Progress where
  next := Progress.next
  start := .start
  allows := Task.allows
  post := Task.post
  obeys t := by
    cases t with
    | opens P os =>
      refine (Program.obeys_map _ _).mpr ?_
      rw [ControlPlane.opens]
      split_ifs with h
      · refine ⟨rfl, ?_⟩
        rintro (e | u) <;> trivial
      · trivial
    | lifecycle P request =>
      refine (Program.obeys_map _ _).mpr (Lifecycle.runLifecycle_obeys.mono ?_)
      exact fun r m h => ⟨r, rfl, h⟩
    | pass P policy =>
      refine (Program.obeys_map _ _).mpr (Pass.reclaim_obeys.mono ?_)
      exact fun r m h => ⟨r, rfl, h⟩

abbrev Proc (σ : Type) := Process Calls (World σ) (Task σ) Outcome

def Effects.Process.progress (p : Proc σ) : Progress := (contract σ).memory p

@[simp] lemma progress_fresh (t : Task σ) : (Process.fresh (system σ) t).progress = .start := rfl

@[simp] lemma progress_dead (p : Proc σ) : p.dead.progress = p.progress := rfl

@[simp] lemma progress_after (p : Proc σ) (w : World σ) (o : Op) (r : o.Res)
    (q : Program Calls Outcome) :
    Process.progress (p.after w (o : Calls.Op) r q) = p.progress.next o r := by
  exact (contract σ).memory_after p w o r q

def committed : (o : Op) → o.Res → List Record
  | .journal (.beginExperiment providerId payload), .ok experiment =>
    [⟨experiment, .snapshot, providerId, payload⟩]
  | .journal (.insert records), .ok _ => records
  | _, _ => []

lemma mem_committed {o : Op} {r : o.Res} {record : Record} (hm : record ∈ committed o r) :
    (∃ experiment providerId payload, o = .journal (.beginExperiment providerId payload) ∧
        record = ⟨experiment, .snapshot, providerId, payload⟩) ∨
      ∃ records, o = .journal (.insert records) ∧ committed o r = records := by
  cases o with
  | provider method => cases hm
  | journal statement =>
    rcases r with e | x
    · cases statement <;> cases hm
    · cases statement with
      | beginExperiment providerId payload =>
        exact .inl ⟨x, providerId, payload, rfl, List.mem_singleton.mp hm⟩
      | insert records => exact .inr ⟨records, rfl, rfl⟩
      | _ => cases hm

lemma Task.allows.insert {t : Task σ} {m : Progress} {records : List Record}
    (ha : t.allows m (.journal (.insert records))) :
    (∃ P request record, t = .lifecycle P request ∧ records = [record] ∧
        m.MayRecord P request record) ∨
      ∃ P policy experiment, t = .pass P policy ∧ m.current policy = some experiment ∧
        (records = P.watchdog.successRecords experiment ∨
          ∃ error, records = P.watchdog.failureRecords experiment error) := by
  cases t with
  | opens P os => cases ha
  | lifecycle P request =>
    obtain ⟨record, hrec, hmay⟩ := ha
    exact .inl ⟨P, request, record, rfl, hrec, hmay⟩
  | pass P policy =>
    obtain ⟨experiment, hc, hrec⟩ := ha
    exact .inr ⟨P, policy, experiment, rfl, hc, hrec.imp_left And.right⟩

lemma Progress.next_written (m : Progress) (o : Op) (r : o.Res) :
    (m.next o r).written = m.written ++ committed o r := by
  match o, r with
  | .provider .snapshot, .ok s =>
    rw [Progress.next_snapshot_ok]
    split_ifs <;> exact (List.append_nil _).symm
  | .provider .snapshot, .error _ | .provider (.preview _), _ | .provider (.apply _), _
  | .provider (.verify _), _ | .provider (.rollback _), _ => exact (List.append_nil _).symm
  | .journal statement, .error _ => cases statement <;> exact (List.append_nil _).symm
  | .journal (.beginExperiment _ _), .ok _ | .journal (.insert _), .ok _ => rfl
  | .journal .createTables, .ok _ | .journal .ready, .ok _ | .journal (.unclosed _), .ok _
  | .journal (.lastRestore _), .ok _ | .journal (.recordTrial _), .ok _
  | .journal (.readTrial _), .ok _ => exact (List.append_nil _).symm

@[simp] lemma Database.records_insert (db : Database) (now : ℤ) (records : List Record) :
    (db.insert now records).records = db.records ++ records := by
  simp [Database.insert, Database.records, Function.comp_def]

lemma Statement.run_rows {now : ℤ} {statement : Statement} {db db' : Database}
    {b : statement.Res} (h : statement.run now db = some (b, db')) : ∃ rows,
      db'.rows = db.rows ++ rows ∧
        rows.map Row.toRecord = committed (.journal statement) (.ok b) := by
  cases statement with
  | createTables | ready =>
    cases h
    exact ⟨[], (List.append_nil _).symm, rfl⟩
  | beginExperiment _ _ | insert _ =>
    simp only [Statement.run, Option.ite_none_right_eq_some] at h
    obtain ⟨_, h⟩ := h
    cases h
    exact ⟨_, rfl, by simp [committed, Function.comp_def]⟩
  | _ =>
    simp only [Statement.run, Option.ite_none_right_eq_some] at h
    obtain ⟨_, h⟩ := h
    cases h
    exact ⟨[], (List.append_nil _).symm, rfl⟩

lemma sem_rows {P : Provider σ} {w w' : World σ} {o : Op} {r : o.Res} (h : sem P w o r w') :
    ∃ rows, w'.db.rows = w.db.rows ++ rows ∧ rows.map Row.toRecord = committed o r := by
  cases o with
  | provider method =>
    rw [h.2]
    cases method <;> exact ⟨[], (List.append_nil _).symm, rfl⟩
  | journal statement =>
    obtain ⟨e, rfl, rfl⟩ | ⟨now, b, db, hr, rfl, rfl⟩ := h
    · cases statement <;> exact ⟨[], (List.append_nil _).symm, rfl⟩
    · exact Statement.run_rows hr

lemma sem_records {P : Provider σ} {w w' : World σ} {o : Op} {r : o.Res} (h : sem P w o r w') :
    w'.db.records = w.db.records ++ committed o r := by
  obtain ⟨rows, hrows, hcommitted⟩ := sem_rows h
  rw [Database.records, hrows, List.map_append, hcommitted]
  rfl

lemma Task.allows.snapshot {t : Task σ} {m : Progress} (ha : t.allows m (.provider .snapshot))
    (he : m.experiment ≠ none) : m.rollbacks ≠ [] := by
  cases t with
  | opens P os => cases ha
  | lifecycle P request => exact ha.resolve_left fun h => he h.2
  | pass P policy => exact ha

lemma Task.allows.begin {t : Task σ} {m : Progress} {providerId : String} {payload : Value}
    (ha : t.allows m (.journal (.beginExperiment providerId payload))) : m.experiment = none := by
  cases t with
  | opens P os => cases ha
  | lifecycle P request => exact ha.1
  | pass P policy => cases ha

lemma Task.allows.keeps {t : Task σ} {m : Progress} {o : Op} {experiment : ℤ}
    (ha : t.allows m o) (he : m.experiment = some experiment) (r : o.Res) :
    (m.next o r).experiment = some experiment ∧ (m.next o r).captured = m.captured := by
  cases o with
  | provider method =>
    cases method with
    | snapshot =>
      have hn : m.rollbacks ≠ [] := ha.snapshot (by simp [he])
      rcases r with e | s
      · exact ⟨he, rfl⟩
      · rw [Progress.next_snapshot_ok, if_neg hn]
        exact ⟨he, rfl⟩
    | _ => exact ⟨he, rfl⟩
  | journal statement =>
    rcases r with e | x
    · cases statement <;> exact ⟨he, rfl⟩
    · cases statement with
      | beginExperiment providerId payload =>
        have hn : m.experiment = none := ha.begin
        simp [he] at hn
      | _ => exact ⟨he, rfl⟩

namespace Effects.Pool

def Owns (s : Host σ) (i : ℕ) (p : Proc σ) (experiment : ℤ) : Prop :=
  s.procs i = some p ∧ p.progress.experiment = some experiment

variable {s s' : Host σ} {i j : ℕ} {p q : Proc σ} {experiment : ℤ} {w : World σ}

lemma owns_set : (s.set i q w).Owns j p experiment ↔
    j = i ∧ p = q ∧ q.progress.experiment = some experiment ∨
      j ≠ i ∧ s.Owns j p experiment := by
  unfold Pool.Owns
  rw [Pool.set_procs]
  split_ifs with hj
  · simp only [hj, true_and, Option.some.injEq, not_true_eq_false, ne_eq, false_and, or_false]
    constructor
    · rintro ⟨rfl, he⟩
      exact ⟨rfl, he⟩
    · rintro ⟨rfl, he⟩
      exact ⟨rfl, he⟩
  · simp [hj]

def Genuine (s : Host σ) (row : Database.Candidate) : Prop :=
  ∃ i p P request snapshot, s.Owns i p row.1 ∧ p.task = .lifecycle P request ∧
    p.progress.captured = some snapshot ∧ row.2.1 = toValue snapshot ∧ row.2.2.1 = toValue request

end Effects.Pool

def Database.written (db : Database) (experiment : ℤ) : List Record :=
  db.records.filter fun record => record.experimentId = experiment && !record.byWatchdog

def Task.Orderly : Task σ → Progress → Prop
  | .lifecycle P request, m => Lifecycle.Orderly P request m
  | .opens _ _, m | .pass _ _, m => m.experiment = none

structure Ledger (s : Host σ) : Prop where
  orderly : ∀ i p, s.procs i = some p → p.task.Orderly p.progress
  owned : ∀ record ∈ s.world.db.records, ∃ i p, s.Owns i p record.experimentId
  unique : ∀ experiment i p j q, s.Owns i p experiment → s.Owns j q experiment → i = j
  recorded : ∀ experiment i p, s.Owns i p experiment →
    s.world.db.written experiment = p.progress.written
  allocated : ∀ experiment i p, s.Owns i p experiment → ∃ earlier first later,
    s.world.db.records = earlier ++ first :: later ∧ p.progress.written.head? = some first ∧
      ∀ record ∈ earlier, record.experimentId < experiment
  listed : ∀ i p, s.procs i = some p → ∀ row ∈ p.progress.listed, s.Genuine row

namespace Ledger

variable {s s' : Host σ} {i j : ℕ} {p q : Proc σ} {experiment : ℤ} {w : World σ}

lemma init (w : World σ) (hw : w.db.records = []) : Ledger (Pool.init w : Host σ) where
  orderly i p hp := by simp [Pool.init] at hp
  owned r hr := by simp [Pool.init, hw] at hr
  unique e i p j q hi := by simp [Pool.Owns, Pool.init] at hi
  recorded e i p hi := by simp [Pool.Owns, Pool.init] at hi
  allocated e i p hi := by simp [Pool.Owns, Pool.init] at hi
  listed i p hp := by simp [Pool.init] at hp

variable (h : Ledger s)

include h

lemma owner (ho : s.Owns i p experiment) : ∃ P request snapshot rest,
    p.task = .lifecycle P request ∧ Lifecycle.Orderly P request p.progress ∧
      p.progress.captured = some snapshot ∧ P.plane.validate request = .ok () ∧
      p.progress.written = Lifecycle.entry P experiment .snapshot (toValue snapshot) :: rest ∧
      ∀ record ∈ rest, record.experimentId = experiment ∧ record.providerId = P.manifest.id ∧
        (record.stage ≠ .snapshot ∧ record.stage ≠ .watchdogRestore) ∧
        (record.stage = .applyIntent → record = .intent P request experiment) ∧
        record.byWatchdog = false := by
  obtain ⟨hp, he⟩ := ho
  have hord := h.orderly i p hp
  cases ht : p.task with
  | lifecycle P request =>
    rw [ht] at hord
    obtain ⟨snapshot, rest, hc, hv, hw, hr⟩ := hord.opened experiment he
    exact ⟨P, request, snapshot, rest, rfl, hord, hc, hv, hw, hr⟩
  | opens P os =>
    rw [ht] at hord
    have hn : p.progress.experiment = none := hord
    simp [hn] at he
  | pass P policy =>
    rw [ht] at hord
    have hn : p.progress.experiment = none := hord
    simp [hn] at he

lemma mem_written {record : Record} (hm : record ∈ s.world.db.records)
    (hw : record.byWatchdog = false) : ∃ i p, s.Owns i p record.experimentId ∧
      record ∈ p.progress.written := by
  obtain ⟨i, p, ho⟩ := h.owned record hm
  refine ⟨i, p, ho, ?_⟩
  rw [← h.recorded _ i p ho]
  simp [Database.written, hm, hw]

lemma snapshot_row {record : Record} (hm : record ∈ s.world.db.records)
    (hs : record.stage = .snapshot) : ∃ i p P request snapshot,
      s.Owns i p record.experimentId ∧ p.task = .lifecycle P request ∧
        p.progress.captured = some snapshot ∧
        record = Lifecycle.entry P record.experimentId .snapshot (toValue snapshot) := by
  obtain ⟨i, p, ho, hm'⟩ := h.mem_written hm (by simp [Record.byWatchdog, hs])
  obtain ⟨P, request, snapshot, rest, ht, _, hc, _, hw, hr⟩ := h.owner ho
  refine ⟨i, p, P, request, snapshot, ho, ht, hc, ?_⟩
  rw [hw, List.mem_cons] at hm'
  rcases hm' with he | hm'
  · exact he
  · exact absurd hs (hr record hm').2.2.1.1

lemma intent_row {record : Record} (hm : record ∈ s.world.db.records)
    (hs : record.stage = .applyIntent) : ∃ i p P request,
      s.Owns i p record.experimentId ∧ p.task = .lifecycle P request ∧
        record ∈ p.progress.written ∧ record = .intent P request record.experimentId := by
  obtain ⟨i, p, ho, hm'⟩ := h.mem_written hm (by simp [Record.byWatchdog, hs])
  obtain ⟨P, request, snapshot, rest, ht, _, _, _, hw, hr⟩ := h.owner ho
  refine ⟨i, p, P, request, ho, ht, hm', ?_⟩
  rw [hw, List.mem_cons] at hm'
  rcases hm' with he | hm'
  · rw [he] at hs
    cases hs
  · exact (hr record hm').2.2.2.1 hs

lemma genuine {row : Database.Candidate} {providerId : String} {now : ℤ}
    (hr : row ∈ s.world.db.unclosed providerId now) : s.Genuine row := by
  simp only [Database.unclosed, List.mem_insertionSort, List.mem_flatMap, List.mem_filter,
    Database.candidatesOf, List.mem_map, Bool.and_eq_true, decide_eq_true_eq] at hr
  obtain ⟨intent, ⟨hi, ⟨hst, _⟩, _⟩, snap, ⟨hs, hid, hst'⟩, rfl⟩ := hr
  obtain ⟨i, p, P, request, ho, ht, _, hrec⟩ :=
    h.intent_row (List.mem_map_of_mem hi) hst
  obtain ⟨j, q, P', request', snapshot, ho', ht', hc, hrec'⟩ :=
    h.snapshot_row (List.mem_map_of_mem hs) hst'
  rw [hid] at ho'
  obtain rfl := h.unique _ i p j q ho ho'
  obtain rfl : p = q := Option.some.inj (ho.1.symm.trans ho'.1)
  exact ⟨i, p, P, request, snapshot, ho, ht, hc, congrArg Record.payload hrec',
    congrArg Record.payload hrec⟩

end Ledger

section

variable {s : Host σ} {i : ℕ} {p q : Proc σ} {w : World σ}

lemma owns_of_set (hp : s.procs i = some p)
    (he : q.progress.experiment = p.progress.experiment) {experiment : ℤ} {j : ℕ} {p' : Proc σ}
    (ho : (s.set i q w).Owns j p' experiment) :
    ∃ p₀, s.Owns j p₀ experiment ∧ (j = i ∧ p₀ = p ∧ p' = q ∨ j ≠ i ∧ p₀ = p') := by
  rcases Pool.owns_set.mp ho with ⟨rfl, rfl, hq⟩ | ⟨hj, ho⟩
  · exact ⟨p, ⟨hp, he.symm.trans hq⟩, .inl ⟨rfl, rfl, rfl⟩⟩
  · exact ⟨p', ho, .inr ⟨hj, rfl⟩⟩

lemma owns_to_set (hp : s.procs i = some p)
    (he : ∀ experiment, p.progress.experiment = some experiment →
      q.progress.experiment = some experiment ∧ q.progress.captured = p.progress.captured)
    (ht : q.task = p.task) {experiment : ℤ} {j : ℕ} {p₀ : Proc σ} (ho : s.Owns j p₀ experiment) :
    ∃ p', (s.set i q w).Owns j p' experiment ∧ p'.task = p₀.task ∧
      p'.progress.captured = p₀.progress.captured := by
  by_cases hj : j = i
  · subst hj
    obtain rfl : p = p₀ := Option.some.inj (hp.symm.trans ho.1)
    obtain ⟨hq, hc⟩ := he experiment ho.2
    exact ⟨q, Pool.owns_set.mpr (.inl ⟨rfl, rfl, hq⟩), ht, hc⟩
  · exact ⟨p₀, Pool.owns_set.mpr (.inr ⟨hj, ho⟩), rfl, rfl⟩

lemma Effects.Pool.Genuine.set {row : Database.Candidate} (hp : s.procs i = some p)
    (he : ∀ experiment, p.progress.experiment = some experiment →
      q.progress.experiment = some experiment ∧ q.progress.captured = p.progress.captured)
    (ht : q.task = p.task) (hg : s.Genuine row) : (s.set i q w).Genuine row := by
  obtain ⟨j, p₀, P, request, snapshot, ho, ht', hc, hs, hr⟩ := hg
  obtain ⟨p', ho', ht'', hc'⟩ := owns_to_set hp he ht ho
  exact ⟨j, p', P, request, snapshot, ho', ht''.trans ht', hc'.trans hc, hs, hr⟩

end

lemma Database.lt_nextExperiment {db : Database} {record : Record} (hr : record ∈ db.records) :
    record.experimentId < db.nextExperiment := by
  obtain ⟨row, hrow, rfl⟩ := List.mem_map.mp hr
  have hm : row.experimentId ∈ db.rows.map fun row => row.experimentId := List.mem_map_of_mem hrow
  obtain ⟨e, hx⟩ := Option.isSome_iff_exists.mp (List.isSome_max?_of_mem hm)
  have hle : row.experimentId ≤ e := (List.max?_le_iff hx).mp le_rfl _ hm
  rw [Database.nextExperiment, hx, Option.getD_some]
  omega

namespace Ledger

variable {s s' : Host σ} {i : ℕ} {p q : Proc σ} {w : World σ} {records : List Record}

lemma extend (h : Ledger s) (hp : s.procs i = some p) (ht : q.task = p.task)
    (hq : q.task.Orderly q.progress)
    (he : q.progress.experiment = p.progress.experiment)
    (hc : ∀ e, p.progress.experiment = some e → q.progress.captured = p.progress.captured)
    (hw : w.db.records = s.world.db.records ++ records)
    (ho : ∀ record ∈ records, ∃ j p', s.Owns j p' record.experimentId)
    (hmine : ∀ e, p.progress.experiment = some e → q.progress.written = p.progress.written ++ records ∧
      ∀ record ∈ records, record.experimentId = e ∧ record.byWatchdog = false)
    (hother : p.progress.experiment = none → ∀ record ∈ records, record.byWatchdog = true)
    (hl : ∀ row ∈ q.progress.listed, row ∈ p.progress.listed ∨ s.Genuine row) :
    Ledger (s.set i q w) := by
  have hkeep : ∀ e, p.progress.experiment = some e →
      q.progress.experiment = some e ∧ q.progress.captured = p.progress.captured :=
    fun e h' => ⟨he.trans h', hc e h'⟩
  refine ⟨Pool.forall_set hq fun j p _ => h.orderly j p, ?_, ?_, ?_, ?_, ?_⟩
  · intro record hr
    rw [Pool.set_world, hw, List.mem_append] at hr
    obtain ⟨j, p₀, hown⟩ := hr.elim (h.owned record) (ho record)
    obtain ⟨p', hown', _⟩ := owns_to_set hp hkeep ht hown
    exact ⟨j, p', hown'⟩
  · intro e j p₁ k p₂ h₁ h₂
    obtain ⟨_, h₁, _⟩ := owns_of_set hp he h₁
    obtain ⟨_, h₂, _⟩ := owns_of_set hp he h₂
    exact h.unique e j _ k _ h₁ h₂
  · intro e j p' hown
    rw [Database.written, Pool.set_world, hw, List.filter_append]
    obtain ⟨p₀, hown₀, ⟨rfl, rfl, rfl⟩ | ⟨hj, rfl⟩⟩ := owns_of_set hp he hown
    · obtain ⟨hwr, hr⟩ := hmine e hown₀.2
      rw [hwr, ← h.recorded e j p₀ hown₀, Database.written, List.append_cancel_left_eq,
        List.filter_eq_self]
      intro record hm
      simp [hr record hm]
    · rw [← h.recorded e j p₀ hown₀, Database.written, List.append_right_eq_self,
        List.filter_eq_nil_iff]
      intro record hm
      cases hx : p.progress.experiment with
      | none => simp [hother hx record hm]
      | some e' =>
        have hne : e' ≠ e := by
          rintro rfl
          exact hj (h.unique e' j p₀ i p hown₀ ⟨hp, hx⟩)
        simp [((hmine e' hx).2 record hm).1, hne]
  · intro e j p' hown
    obtain ⟨p₀, hown₀, hcase⟩ := owns_of_set hp he hown
    obtain ⟨earlier, first, later, hrec, hf, hlt⟩ := h.allocated e j p₀ hown₀
    refine ⟨earlier, first, later ++ records, by simp [hw, hrec], ?_, hlt⟩
    rcases hcase with ⟨rfl, rfl, rfl⟩ | ⟨_, rfl⟩
    · rw [(hmine e hown₀.2).1, List.head?_append, hf]
      rfl
    · exact hf
  · refine Pool.forall_set (fun row hrow => ?_) fun j p' _ hp' row hrow => ?_
    · exact ((hl row hrow).elim (h.listed i p hp row) id).set hp hkeep ht
    · exact (h.listed j p' hp' row hrow).set hp hkeep ht

lemma spawn (h : Ledger s) (t : Task σ) (hi : s.procs i = none) :
    Ledger (s.set i (.fresh (system σ) t) s.world) := by
  have hown : ∀ {e j p'}, (s.set i (.fresh (system σ) t) s.world).Owns j p' e ↔ s.Owns j p' e := by
    intro e j p'
    rw [Pool.owns_set]
    constructor
    · rintro (⟨_, _, he⟩ | ⟨_, ho⟩)
      · cases he
      · exact ho
    · refine fun ho => .inr ⟨?_, ho⟩
      rintro rfl
      have hp := hi.symm.trans ho.1
      cases hp
  have hg : ∀ {row}, s.Genuine row → (s.set i (.fresh (system σ) t) s.world).Genuine row := by
    rintro row ⟨j, p', P, request, snapshot, ho, hrest⟩
    exact ⟨j, p', P, request, snapshot, hown.mpr ho, hrest⟩
  refine ⟨?_, ?_, ?_, ?_, ?_, ?_⟩
  · refine Pool.forall_set ?_ fun j p _ => h.orderly j p
    cases t with
    | lifecycle P request => exact Lifecycle.orderly_start
    | opens P os => rfl
    | pass P policy => rfl
  · intro record hr
    obtain ⟨j, p', ho⟩ := h.owned record hr
    exact ⟨j, p', hown.mpr ho⟩
  · exact fun e j p' k q' h₁ h₂ => h.unique e j p' k q' (hown.mp h₁) (hown.mp h₂)
  · exact fun e j p' ho => h.recorded e j p' (hown.mp ho)
  · exact fun e j p' ho => h.allocated e j p' (hown.mp ho)
  · exact Pool.forall_set nofun fun j p' _ hp' row hrow => hg (h.listed j p' hp' row hrow)

lemma lt_nextExperiment (h : Ledger s) {e : ℤ} (ho : s.Owns i p e) :
    e < s.world.db.nextExperiment := by
  obtain ⟨earlier, first, later, hrec, hf, _⟩ := h.allocated e i p ho
  have hm : first ∈ s.world.db.written e := by
    rw [h.recorded e i p ho]
    exact List.mem_of_head? hf
  simp only [Database.written, List.mem_filter, Bool.and_eq_true, decide_eq_true_eq] at hm
  rw [← hm.2.1]
  exact Database.lt_nextExperiment hm.1

lemma begin {record : Record} (h : Ledger s) (hp : s.procs i = some p) (ht : q.task = p.task)
    (hq : q.task.Orderly q.progress) (hn : p.progress.experiment = none)
    (hw : w.db.records = s.world.db.records ++ [record])
    (he : q.progress.experiment = some s.world.db.nextExperiment)
    (hid : record.experimentId = s.world.db.nextExperiment) (hb : record.byWatchdog = false)
    (hqw : q.progress.written = [record]) (hl : q.progress.listed = p.progress.listed) :
    Ledger (s.set i q w) := by
  have hown : ∀ {e j p'}, (s.set i q w).Owns j p' e →
      j = i ∧ p' = q ∧ e = s.world.db.nextExperiment ∨ s.Owns j p' e := by
    intro e j p' ho
    rcases Pool.owns_set.mp ho with ⟨rfl, rfl, hq'⟩ | ⟨_, ho⟩
    · exact .inl ⟨rfl, rfl, Option.some.inj (hq'.symm.trans he)⟩
    · exact .inr ho
  have hkeep : ∀ {e j p'}, s.Owns j p' e → j ≠ i ∧ (s.set i q w).Owns j p' e := by
    intro e j p' ho
    have hj : j ≠ i := by
      rintro rfl
      obtain rfl : p' = p := Option.some.inj (ho.1.symm.trans hp)
      simpa [hn] using ho.2
    exact ⟨hj, Pool.owns_set.mpr (.inr ⟨hj, ho⟩)⟩
  have hself : (s.set i q w).Owns i q s.world.db.nextExperiment :=
    Pool.owns_set.mpr (.inl ⟨rfl, rfl, he⟩)
  refine ⟨Pool.forall_set hq fun j p _ => h.orderly j p, ?_, ?_, ?_, ?_, ?_⟩
  · intro r hr
    rw [Pool.set_world, hw, List.mem_append] at hr
    rcases hr with hr | hr
    · obtain ⟨j, p', ho⟩ := h.owned r hr
      exact ⟨j, p', (hkeep ho).2⟩
    · rw [List.mem_singleton.mp hr, hid]
      exact ⟨i, q, hself⟩
  · intro e j p₁ k p₂ h₁ h₂
    rcases hown h₁ with ⟨rfl, _, he₁⟩ | ho₁
    · rcases hown h₂ with ⟨rfl, _, _⟩ | ho₂
      · rfl
      · exact absurd (h.lt_nextExperiment ho₂) (by simp [he₁])
    · rcases hown h₂ with ⟨rfl, _, he₂⟩ | ho₂
      · exact absurd (h.lt_nextExperiment ho₁) (by simp [he₂])
      · exact h.unique e j p₁ k p₂ ho₁ ho₂
  · intro e j p' ho
    rw [Database.written, Pool.set_world, hw, List.filter_append]
    rcases hown ho with ⟨rfl, rfl, rfl⟩ | ho
    · have hnil : s.world.db.records.filter
          (fun r => r.experimentId = s.world.db.nextExperiment && !r.byWatchdog) = [] := by
        rw [List.filter_eq_nil_iff]
        intro r hr
        simp [(Database.lt_nextExperiment hr).ne]
      rw [hnil, hqw]
      simp [hid, hb]
    · rw [← h.recorded e j p' ho, Database.written, List.append_right_eq_self]
      simp [hid, (h.lt_nextExperiment ho).ne']
  · intro e j p' ho
    rcases hown ho with ⟨rfl, rfl, rfl⟩ | ho
    · exact ⟨_, record, [], hw, by simp [hqw], fun r hr => Database.lt_nextExperiment hr⟩
    · obtain ⟨earlier, first, later, hrec, hf, hlt'⟩ := h.allocated e j p' ho
      exact ⟨earlier, first, later ++ [record], by simp [hw, hrec], hf, hlt'⟩
  · have hg : ∀ {row}, s.Genuine row → (s.set i q w).Genuine row := by
      rintro row ⟨k, p₀, P, request, snapshot, ho, hrest⟩
      exact ⟨k, p₀, P, request, snapshot, (hkeep ho).2, hrest⟩
    refine Pool.forall_set (fun row hrow => ?_) fun j p' _ hp' row hrow => ?_
    · exact hg (h.listed i p hp row (hl ▸ hrow))
    · exact hg (h.listed j p' hp' row hrow)

lemma quiet (h : Ledger s) (hp : s.procs i = some p) (ht : q.task = p.task)
    (hq : q.task.Orderly q.progress) (hw : w.db.records = s.world.db.records)
    (he : q.progress.experiment = p.progress.experiment)
    (hc : ∀ e, p.progress.experiment = some e → q.progress.captured = p.progress.captured)
    (hwr : q.progress.written = p.progress.written)
    (hl : q.progress.listed = p.progress.listed) : Ledger (s.set i q w) :=
  h.extend hp ht hq he hc (hw.trans (List.append_nil _).symm) (by simp)
    (fun e _ => ⟨by simpa using hwr, by simp⟩) (by simp) (fun row hr => .inl (hl ▸ hr))

end Ledger

lemma Task.Orderly.next {t : Task σ} {m : Progress} {o : Op} (h : t.Orderly m)
    (ha : t.allows m o) (r : o.Res) : t.Orderly (m.next o r) := by
  cases t with
  | lifecycle P request => exact Lifecycle.Orderly.next h ha r
  | opens P os =>
    obtain rfl : o = .journal .createTables := ha
    rcases r with e | u <;> exact h
  | pass P policy =>
    cases o with
    | provider method =>
      cases method with
      | snapshot =>
        have hn : m.rollbacks ≠ [] := ha
        show (m.next (.provider .snapshot) r).experiment = none
        rcases r with e | s
        · exact h
        · rw [Progress.next_snapshot_ok, if_neg hn]
          exact h
      | _ => exact h
    | journal statement =>
      rcases r with e | x
      · cases statement <;> exact h
      · cases statement with
        | beginExperiment providerId payload => cases ha
        | _ => exact h

lemma Progress.decoded {m : Progress} {policy : ReclaimPolicy} {experiment : UnclosedExperiment}
    (h : experiment ∈ m.selected policy) : ∃ row ∈ m.listed,
      Watchdog.decode row = .ok experiment ∧ row.1 = experiment.experimentId := by
  rw [Progress.selected] at h
  split at h
  next experiments hd =>
    obtain ⟨row, hrow, hx⟩ := exists_of_mem_mapM hd (List.mem_filter.mp h).1
    exact ⟨row, hrow, hx, Watchdog.decode_id hx⟩
  · cases h

lemma Progress.mem_of_current {m : Progress} {policy : ReclaimPolicy}
    {experiment : UnclosedExperiment} (h : m.current policy = some experiment) :
    experiment ∈ m.selected policy :=
  List.mem_of_mem_take (List.mem_of_getLast? h)

lemma sem_begin {P : Provider σ} {w w' : World σ} {providerId : String} {payload : Value} {e : ℤ}
    (h : sem P w (.journal (.beginExperiment providerId payload)) (.ok e) w') :
    e = w.db.nextExperiment := by
  obtain ⟨_, he, _⟩ | ⟨now, b, db, hr, hb, _⟩ := h
  · cases he
  · cases hb
    simp only [Statement.run, Option.ite_none_right_eq_some] at hr
    obtain ⟨_, hr⟩ := hr
    cases hr
    rfl

lemma sem_unclosed_read {P : Provider σ} {w w' : World σ} {providerId : String}
    {r : Except SqlError (List Database.Candidate)}
    (h : sem P w (.journal (.unclosed providerId)) r w') :
    w' = w ∧ ∀ rows, r = .ok rows → ∃ now, rows = w.db.unclosed providerId now := by
  obtain ⟨e, rfl, rfl⟩ | ⟨now, b, db, hr, rfl, rfl⟩ := h
  · exact ⟨rfl, by simp⟩
  · simp only [Statement.run, Option.ite_none_right_eq_some] at hr
    obtain ⟨_, hr⟩ := hr
    cases hr
    exact ⟨rfl, fun rows hb => ⟨now, (Except.ok.inj hb).symm⟩⟩

lemma sem_unclosed {P : Provider σ} {w w' : World σ} {providerId : String}
    {rows : List Database.Candidate}
    (h : sem P w (.journal (.unclosed providerId)) (.ok rows) w') :
    ∃ now, rows = w.db.unclosed providerId now :=
  (sem_unclosed_read h).2 rows rfl

lemma listed_cases {P : Provider σ} {m : Progress} {o : Op} {r : o.Res} {w w' : World σ}
    (hs : sem P w o r w') : (m.next o r).listed = m.listed ∨
      committed o r = [] ∧ ∃ providerId now,
        (m.next o r).listed = w.db.unclosed providerId now := by
  obtain hm | ⟨providerId, rows, he, hm⟩ := m.next_listed o r
  · exact .inl hm
  · cases he
    obtain ⟨now, rfl⟩ := sem_unclosed hs
    exact .inr ⟨rfl, providerId, now, hm⟩

namespace Ledger

variable {s s' : Host σ} {i : ℕ} {p : Proc σ} {w : World σ} {o : Op}

lemma inserts {records : List Record} (h : Ledger s) (hp : s.procs i = some p)
    (ha : p.task.allows p.progress (.journal (.insert records))) :
    (∃ P request record, p.task = .lifecycle P request ∧ records = [record] ∧
        p.progress.MayRecord P request record) ∨
      ∃ P policy experiment, p.task = .pass P policy ∧ p.progress.experiment = none ∧
        p.progress.current policy = some experiment ∧
        (∃ j q, s.Owns j q experiment.experimentId) ∧
        ∀ record ∈ records, record.experimentId = experiment.experimentId ∧
          record.byWatchdog = true := by
  obtain hl | ⟨P, policy, experiment, ht, hc, hrec⟩ := ha.insert
  · exact .inl hl
  have hord := h.orderly i p hp
  rw [ht] at hord
  obtain ⟨row, hrow, _, hid⟩ := Progress.decoded (Progress.mem_of_current hc)
  obtain ⟨j, q, _, _, _, ho, _⟩ := h.listed i p hp row hrow
  refine .inr ⟨P, policy, experiment, ht, hord, hc, ⟨j, q, hid ▸ ho⟩, ?_⟩
  rcases hrec with rfl | ⟨error, rfl⟩
  · simp [Watchdog.successRecords, Record.byWatchdog, Watchdog.reclaimedPayload, Value.get,
      List.lookup_cons]
  · simp [Watchdog.failureRecords, Record.byWatchdog]

section Call

variable {q : Proc σ} (h : Ledger s) (hp : s.procs i = some p) (ht : q.task = p.task)
  (hq : q.task.Orderly q.progress)

include h hp ht hq

lemma call_begin {providerId : String} {payload : Value} {e : ℤ}
    (ha : p.task.allows p.progress (.journal (.beginExperiment providerId payload)))
    (hs : sem p.task.provider s.world (.journal (.beginExperiment providerId payload)) (.ok e) w)
    (hprog : q.progress = p.progress.next (.journal (.beginExperiment providerId payload)) (.ok e)) :
    Ledger (s.set i q w) := by
  have he := sem_begin hs
  cases htask : p.task with
  | lifecycle P request =>
    rw [htask] at ha
    have hord := h.orderly i p hp
    rw [htask] at hord
    rw [Progress.next_begin_ok] at hprog
    have hwr : q.progress.written = [⟨e, .snapshot, providerId, payload⟩] := by
      simp [hprog, Progress.write, (hord.idle ha.1).1]
    exact h.begin hp ht hq ha.1 (sem_records hs) (by rw [hprog, ← he]; rfl) he rfl hwr
      (by rw [hprog]; rfl)
  | opens P os =>
    rw [htask] at ha
    cases ha
  | pass P policy =>
    rw [htask] at ha
    cases ha

lemma call_insert {records : List Record} {u : Unit}
    (ha : p.task.allows p.progress (.journal (.insert records)))
    (hs : sem p.task.provider s.world (.journal (.insert records)) (.ok u) w)
    (hprog : q.progress = p.progress.next (.journal (.insert records)) (.ok u)) :
    Ledger (s.set i q w) := by
  rw [Progress.next_insert_ok] at hprog
  have hw : w.db.records = s.world.db.records ++ records := sem_records hs
  have hwr : q.progress.written = p.progress.written ++ records := by rw [hprog]; rfl
  have hl : q.progress.listed = p.progress.listed := by rw [hprog]; rfl
  rcases h.inserts hp ha with ⟨P, request, record, _, rfl, hr⟩ |
    ⟨P, policy, experiment, _, hn, _, ⟨j, p', ho⟩, hr⟩
  · refine h.extend hp ht hq (by rw [hprog]; rfl) (fun e _ => by rw [hprog]; rfl) hw ?_
      (fun e he => ⟨hwr, ?_⟩) ?_ (fun row hrow => .inl (hl ▸ hrow))
    · intro _ hm
      rw [List.mem_singleton.mp hm]
      exact ⟨i, p, hp, hr.experiment⟩
    · have hid := hr.experiment.symm.trans he
      simpa [hr.own] using hid
    · simp [hr.experiment]
  · refine h.extend hp ht hq (by rw [hprog]; rfl) (fun e _ => by rw [hprog]; rfl) hw ?_
      (fun e he => ?_) (fun _ record hm => (hr record hm).2) (fun row hrow => .inl (hl ▸ hrow))
    · exact fun record hm => ⟨j, p', (hr record hm).1 ▸ ho⟩
    · simp [hn] at he

lemma call_unclosed {providerId : String} {rows : List Database.Candidate}
    (hs : sem p.task.provider s.world (.journal (.unclosed providerId)) (.ok rows) w)
    (hprog : q.progress = p.progress.next (.journal (.unclosed providerId)) (.ok rows)) :
    Ledger (s.set i q w) := by
  rw [Progress.next_unclosed_ok] at hprog
  obtain ⟨now, hrows⟩ := sem_unclosed hs
  have hw : w.db.records = s.world.db.records ++ [] := sem_records hs
  refine h.extend hp ht hq (by rw [hprog]) (fun e _ => by rw [hprog]) hw (by simp)
    (fun e _ => ⟨by simp [hprog], by simp⟩) (by simp) fun row hrow => .inr ?_
  rw [hprog] at hrow
  exact h.genuine (hrows ▸ hrow)

end Call

lemma call (h : Ledger s) (hp : s.procs i = some p) (ha : p.task.allows p.progress o) {r : o.Res}
    (hs : sem p.task.provider s.world o r w) (next : Program Calls Outcome) :
    Ledger (s.set i (p.after s.world (o : Calls.Op) r next) w) := by
  have hq := (h.orderly i p hp).next ha r
  have hw := sem_records hs
  have hkeep : ∀ e, p.progress.experiment = some e →
      (p.progress.next o r).experiment = p.progress.experiment ∧
        (p.progress.next o r).captured = p.progress.captured := by
    intro e he
    rw [he]
    exact ha.keeps he r
  generalize hq' : p.after s.world (o : Calls.Op) r next = q
  have ht : q.task = p.task := by rw [← hq']; rfl
  have hprog : q.progress = p.progress.next o r := by rw [← hq', progress_after]
  rw [← hprog, ← ht] at hq
  rw [← hprog] at hkeep
  have hquiet : q.progress.experiment = p.progress.experiment → committed o r = [] →
      q.progress.listed = p.progress.listed → Ledger (s.set i q w) := by
    intro he hn hl
    refine h.quiet hp ht hq (by simpa [hn] using hw) he (fun e h' => (hkeep e h').2) ?_ hl
    rw [hprog, Progress.next_written, hn, List.append_nil]
  match o, r, ha, hs, hprog, hquiet with
  | .journal (.beginExperiment providerId payload), .ok e, ha, hs, hprog, _ =>
    exact h.call_begin hp ht hq ha hs hprog
  | .journal (.insert records), .ok u, ha, hs, hprog, _ =>
    exact h.call_insert hp ht hq ha hs hprog
  | .journal (.unclosed providerId), .ok rows, _, hs, hprog, _ =>
    exact h.call_unclosed hp ht hq hs hprog
  | .provider .snapshot, .ok snapshot, _, _, hprog, hquiet =>
    rw [Progress.next_snapshot_ok] at hprog
    refine hquiet ?_ rfl ?_ <;> rw [hprog] <;> split_ifs <;> rfl
  | .journal statement, .error _, _, _, hprog, hquiet =>
    rw [Progress.next_error] at hprog
    refine hquiet ?_ (by cases statement <;> rfl) ?_ <;> rw [hprog]
  | .provider .snapshot, .error _, _, _, hprog, hquiet
  | .provider (.preview _), _, _, _, hprog, hquiet
  | .provider (.apply _), _, _, _, hprog, hquiet
  | .provider (.verify _), _, _, _, hprog, hquiet
  | .provider (.rollback _), _, _, _, hprog, hquiet
  | .journal .createTables, .ok _, _, _, hprog, hquiet
  | .journal .ready, .ok _, _, _, hprog, hquiet
  | .journal (.lastRestore _), .ok _, _, _, hprog, hquiet
  | .journal (.recordTrial _), .ok _, _, _, hprog, hquiet
  | .journal (.readTrial _), .ok _, _, _, hprog, hquiet =>
    exact hquiet (by rw [hprog]; rfl) rfl (by rw [hprog]; rfl)

end Ledger

lemma torn_db {w w' : World σ} {o : Op} (h : torn w o w') : w'.db = w.db := by
  match o, h with
  | .provider (.apply _), h | .provider (.rollback _), h => exact h
  | .provider .snapshot, h | .provider (.preview _), h | .provider (.verify _), h
  | .journal _, h => exact congrArg World.db h

lemma Ledger.step {s s' : Host σ} {l : Label (Task σ)} (h : Ledger s) (hh : (contract σ).Honest s)
    (hs : (system σ).Step s l s') : Ledger s' := by
  cases hs with
  | spawn t hi => exact h.spawn t hi
  | call hp _ hr hs => exact h.call hp (hh.allows hp hr) hs _
  | crash hp _ =>
    have hord := h.orderly _ _ hp
    exact h.quiet hp rfl hord rfl rfl (fun _ _ => rfl) rfl rfl
  | torn hp _ _ ht =>
    have hord := h.orderly _ _ hp
    exact h.quiet hp rfl hord (congrArg Database.records (torn_db ht)) rfl
      (fun _ _ => rfl) rfl rfl

def Reachable (s : Host σ) : Prop :=
  ∃ x, (system σ).Reach (Pool.init (World.initial x)) s

lemma Reachable.task {s : Host σ} (h : Reachable s) {t : Task σ}
    {tr : List (Entry Calls (World σ))} {q : Program Calls Outcome} {v : World σ}
    (hs : Steps (sem t.provider) t.start s.world tr q v) :
    ∃ (s' : Host σ) (i : ℕ) (p : Proc σ), Reachable s' ∧ s'.world = v ∧ s.procs i = none ∧
      s'.procs i = some p ∧ p.task = t ∧ p.trace = tr ∧ ∀ j, j ≠ i → s'.procs j = s.procs j := by
  obtain ⟨x, hrun⟩ := h
  obtain ⟨i, hi⟩ := hrun.room
  let a := s.set i (.fresh (system σ) t) s.world
  have ha : a.procs i = some (.fresh (system σ) t) := Pool.set_procs_self _ _ _ _
  have hgo : (system σ).Reach a _ := System.run_of_steps ha rfl (fun _ => trivial) hs
  refine ⟨_, i, _, ⟨x, (hrun.tail ⟨_, trivial, .spawn t hi⟩).trans hgo⟩, rfl, hi,
    Pool.set_procs_self _ _ _ _, rfl, rfl, fun j hj => ?_⟩
  rw [Pool.set_procs_ne _ hj, Pool.set_procs_ne _ hj]

lemma Reachable.honest {s : Host σ} (h : Reachable s) : (contract σ).Honest s := by
  obtain ⟨x, h⟩ := h
  exact (Contract.honest_init _).run h

theorem Reachable.ledger {s : Host σ} (h : Reachable s) : Ledger s := by
  obtain ⟨x, h⟩ := h
  exact (contract σ).invariant h (Contract.honest_init _) (Ledger.init _ rfl)
    fun _ _ _ hh hl _ hs => hl.step hh hs

lemma sem_ready {P : Provider σ} {w w' : World σ} {o : Op} {r : o.Res} (h : sem P w o r w')
    (hw : w.db.ready = true ∨ w.db.records = []) :
    w'.db.ready = true ∨ w'.db.records = [] := by
  cases o with
  | provider method => rwa [h.2]
  | journal statement =>
    obtain ⟨e, rfl, rfl⟩ | ⟨now, b, db, hr, rfl, rfl⟩ := h
    · exact hw
    · cases statement with
      | createTables =>
        cases hr
        exact .inl rfl
      | ready =>
        cases hr
        exact hw
      | _ =>
        simp only [Statement.run, Option.ite_none_right_eq_some] at hr
        obtain ⟨ht, hr⟩ := hr
        cases hr
        exact .inl ht

lemma Reachable.ready {s : Host σ} (h : Reachable s) :
    s.world.db.ready = true ∨ s.world.db.records = [] := by
  obtain ⟨x, h⟩ := h
  refine (contract σ).invariant (I := fun s => s.world.db.ready = true ∨ s.world.db.records = [])
    h (Contract.honest_init _) (.inr rfl) fun a l b _ ha _ hs => ?_
  cases hs with
  | spawn t _ => exact ha
  | call _ _ _ hs => exact sem_ready hs ha
  | crash _ _ => exact ha
  | torn _ _ _ ht => rwa [Pool.set_world, torn_db ht]

end FpsMaxxing
