import FpsMaxxing.Host.PassEffect
import FpsMaxxing.Safety.CrashRecovery

/-! Crash after crash on one setting: to which baseline a pass brings it back. -/

namespace FpsMaxxing

open Effects Serde

variable {σ : Type}

structure Life (σ : Type) where
  task : Task σ
  before : World σ
  trace : Trace σ

def Life.progress (life : Life σ) : Progress := Progress.start.run life.trace

/-- Processes of one provider, each started when the one before it has returned or died. -/
inductive History (P : Provider σ) (x : σ) : List (Life σ) → World σ → Prop
  | start : History P x [] (World.initial x)
  | live {lives w t tr q v u} : History P x lives w → Task.provider t = P →
      Steps (sem P) (Task.start t) w tr q v →
      (u = v ∨ ∃ o next, q = .call (o : Calls.Op) next ∧ torn v o u) →
      History P x (lives ++ [⟨t, w, tr⟩]) u

def Life.Left (P : Provider σ) (w : World σ) (life : Life σ) (e : ℤ) : Prop :=
  life.progress.experiment = some e ∧ w.db.Leaks P.manifest.id e

lemma Progress.lifecycleAllows.unapplied {P : Provider σ} {request : ChangeRequest} {m : Progress}
    {o : Op} (h : m.lifecycleAllows P request o) (ho : o.isApply = true) : m.applied = false := by
  match o, ho, h with
  | .provider (.apply asked), _, h => exact h.2.1

lemma progress_eq_run (p : Proc σ) : p.progress = Progress.start.run p.trace := rfl

namespace History

variable {P : Provider σ} {x : σ} {lives : List (Life σ)} {w : World σ}

lemma pool (h : History P x lives w) : ∃ s : Host σ,
    (system σ).Reach (Pool.init (World.initial x)) s ∧ s.world = w ∧
      ∀ life ∈ lives, ∃ i p, s.procs i = some p ∧ p.task = life.task ∧ p.trace = life.trace := by
  induction h with
  | start => exact ⟨_, .refl, rfl, by simp⟩
  | @live lives w t tr q v u _ ht hs hu ih =>
    obtain ⟨s, hrun, rfl, hlives⟩ := ih
    obtain ⟨i, hi⟩ := hrun.room
    let a := s.set i (.fresh (system σ) t) s.world
    have ha : a.procs i = some (.fresh (system σ) t) := Pool.set_procs_self _ _ _ _
    have hsteps : Steps ((system σ).sem t) (Task.start t) a.world tr q v := by
      rwa [show (system σ).sem t = sem P from congrArg sem ht]
    have hgo : (system σ).Reach a _ := System.run_of_steps ha rfl (fun _ => trivial) hsteps
    have hreach := (hrun.tail ⟨_, trivial, .spawn t hi⟩).trans hgo
    have hold : ∀ (b : Host σ) (p : Proc σ), p.task = t → p.trace = tr → b.procs i = some p →
        (∀ j, j ≠ i → b.procs j = s.procs j) → ∀ life ∈ lives ++ [⟨t, s.world, tr⟩],
          ∃ i p, b.procs i = some p ∧ p.task = life.task ∧ p.trace = life.trace := by
      intro b p htask htrace hp hne life hm
      rcases List.mem_append.mp hm with hm | hm
      · obtain ⟨j, p', hp', hrest⟩ := hlives life hm
        have hj : j ≠ i := by
          rintro rfl
          cases hi.symm.trans hp'
        exact ⟨j, p', (hne j hj).trans hp', hrest⟩
      · rw [List.mem_singleton.mp hm]
        exact ⟨i, p, hp, htask, htrace⟩
    rcases hu with rfl | ⟨o, next, rfl, htorn⟩
    · refine ⟨_, hreach, rfl, hold _ _ rfl rfl (Pool.set_procs_self _ _ _ _) fun j hj => ?_⟩
      rw [Pool.set_procs_ne _ hj, Pool.set_procs_ne _ hj]
    · refine ⟨_, hreach.tail ⟨_, trivial, .torn (Pool.set_procs_self _ _ _ _) rfl rfl htorn⟩, rfl,
        hold _ _ rfl rfl (Pool.set_procs_self _ _ _ _) fun j hj => ?_⟩
      rw [Pool.set_procs_ne _ hj, Pool.set_procs_ne _ hj, Pool.set_procs_ne _ hj]

lemma provider (h : History P x lives w) {life : Life σ} (hm : life ∈ lives) :
    life.task.provider = P := by
  induction h with
  | start => cases hm
  | live _ ht _ _ ih =>
    rcases List.mem_append.mp hm with hm | hm
    · exact ih hm
    · rw [List.mem_singleton.mp hm]
      exact ht

lemma captured (h : History P x lives w) {life : Life σ} (hm : life ∈ lives)
    {request : ChangeRequest} (ht : life.task = .lifecycle P request) :
    (∀ snapshot, life.progress.captured = some snapshot →
      P.snapshot life.before.host (.ok snapshot)) ∧
    ∀ entry ∈ life.trace, entry.op.isApply = true → entry.before.host = life.before.host := by
  induction h with
  | start => cases hm
  | @live lives w t tr q v u _ _ hs _ ih =>
    rcases List.mem_append.mp hm with hm | hm
    · exact ih hm
    obtain rfl := List.mem_singleton.mp hm
    have ht : t = .lifecycle P request := ht
    subst ht
    obtain ⟨q', _, hs₀⟩ := Steps.of_map hs
    refine ⟨(Lifecycle.baseline hs₀).captured, fun entry he hap => ?_⟩
    obtain ⟨tr', next, hs'⟩ := hs₀.of_mem he
    have hb := Lifecycle.baseline hs'
    have ha := (hs'.obeys Lifecycle.runLifecycle_obeys).1
    exact hb.untouched (ha.unapplied hap)

end History

lemma getLast_of_ascending {xs : List UnclosedExperiment} {e : ℤ}
    (h : (xs.map UnclosedExperiment.experimentId).Pairwise (· < ·))
    (he : e ∈ xs.map UnclosedExperiment.experimentId)
    (hle : ∀ y ∈ xs, y.experimentId ≤ e) : ∃ y, xs.getLast? = some y ∧ y.experimentId = e := by
  obtain ⟨x, hx, rfl⟩ := List.mem_map.mp he
  obtain ⟨y, hy⟩ : ∃ y, xs.getLast? = some y :=
    ⟨_, List.getLast?_eq_some_getLast (List.ne_nil_of_mem hx)⟩
  refine ⟨y, hy, ?_⟩
  obtain ⟨ys, rfl⟩ := List.getLast?_eq_some_iff.mp hy
  have hxy : x.experimentId ≤ y.experimentId := by
    rw [List.map_append, List.pairwise_append] at h
    rcases List.mem_append.mp hx with hx | hx
    · exact (h.2.2 _ (List.mem_map_of_mem hx) _ (by simp)).le
    · rw [List.mem_singleton.mp hx]
  exact le_antisymm (hle y (by simp)) hxy

lemma Ledger.reclaim_last {s : Host σ} (h : Ledger s)
    (hr : s.world.db.ready = true) (P : Provider σ) :
    (P.watchdog.reclaim .allUnclosed).run.Ensures ((sem P).only JournalWorks) s.world fun _ u =>
      ∃ list, Exact s P.manifest.id list ∧ ∀ y, list.getLast? = some y →
        ∃ z r, P.rollback y.snapshot z r u.host := by
  rw [Watchdog.reclaim, Program.ensures_run_bind]
  refine (h.scan_ensures (.inl hr) P rfl).mono ?_
  rintro _ _ ⟨rfl, list, rfl, hlist⟩
  have hf : list.filter (UnclosedExperiment.selectedBy .allUnclosed) = list :=
    List.filter_eq_self.mpr fun _ _ => rfl
  dsimp only
  rw [hf]
  exact (Pass.reclaimAll_ensures hr).mono fun _ u hu => ⟨list, hlist, hu⟩

lemma Pass.journalWorks {P : Provider σ} {policy : ReclaimPolicy} {w v : World σ} {tr : Trace σ}
    {restorations : List Restoration}
    (h : Steps (sem P) (P.watchdog.reclaim policy).run w tr (.done (.ok restorations)) v) :
    ∀ entry ∈ tr, JournalWorks entry.op entry.res := by
  have hp : Passed policy (.ok restorations) (Progress.start.run tr) := h.obeys reclaim_obeys
  exact (Progress.run_lost.mp (hp restorations rfl).2.2).2

theorem reclaim_newest {P : Provider σ} (hP : P.Faithful) {x : σ} {lives : List (Life σ)}
    {w v : World σ} (h : History P x lives w) {tr : Trace σ} {restorations : List Restoration}
    (hpass : Steps (sem P) (P.watchdog.reclaim .allUnclosed).run w tr
      (.done (.ok restorations)) v)
    {oldest newest : Life σ} {e e' : ℤ} (ho : oldest ∈ lives) (hn : newest ∈ lives)
    (hoe : oldest.Left P w e) (hne : newest.Left P w e')
    (hb : ∀ d, w.db.Leaks P.manifest.id d → e ≤ d ∧ d ≤ e') :
    (∀ entry ∈ oldest.trace, entry.op.isApply = true →
      entry.before.host = oldest.before.host) ∧
    (v.host = oldest.before.host ↔ newest.before.host = oldest.before.host) := by
  obtain ⟨s, hrun, rfl, hlives⟩ := h.pool
  have hr : Reachable s := ⟨x, hrun⟩
  have hl := hr.ledger
  have hlife : ∀ life ∈ lives, ∀ d, life.Left P s.world d → ∃ i p request, s.Owns i p d ∧
      p.task = .lifecycle P request ∧ p.progress = life.progress ∧
        life.task = .lifecycle P request := by
    rintro life hm d ⟨hd, _⟩
    obtain ⟨i, p, hp, htask, htrace⟩ := hlives life hm
    have hprog : p.progress = life.progress := by
      rw [progress_eq_run, htrace]
      rfl
    have hown : s.Owns i p d := ⟨hp, hprog ▸ hd⟩
    obtain ⟨Q, request, _, _, ht, _⟩ := hl.owner hown
    have hQ : Q = P := by
      have hprovider := h.provider hm
      rwa [← htask, ht] at hprovider
    subst hQ
    exact ⟨i, p, request, hown, ht, hprog, htask ▸ ht⟩
  obtain ⟨_, _, _, _, _, _, hold⟩ := hlife oldest ho e hoe
  obtain ⟨i, p, request, hown, ht, hprog, hnew⟩ := hlife newest hn e' hne
  refine ⟨(h.captured ho hold).2, ?_⟩
  have hready : s.world.db.ready = true := by
    obtain ⟨record, hm, _⟩ := hne.2.1
    refine hr.ready.resolve_right fun hnil => ?_
    rw [hnil] at hm
    cases hm
  have hworks := hpass.only (Pass.journalWorks hpass)
  obtain ⟨list, hlist, hroll⟩ := (hl.reclaim_last hready P).steps hworks
  obtain ⟨y, hlast, rfl⟩ := getLast_of_ascending hlist.ascending ((hlist.complete e').mpr hne.2)
    fun y hy => (hb _ ((hlist.complete _).mp (List.mem_map_of_mem hy))).2
  obtain ⟨z, r, hz⟩ := hroll y hlast
  have hcap := (hl.describes hown ht (hlist.faithful y (List.mem_of_getLast? hlast))).1
  rw [hprog] at hcap
  have hsnap := (h.captured hn hnew).1 _ hcap
  rw [(hP _ _ hsnap _ _ _ hz).2]

def Device.live (d : Device σ) (t : Task σ) (n : ℕ) (w : World σ) : Life σ × World σ :=
  let run := (Task.start t).advance d.answer n w
  (⟨t, w, run.1⟩, run.2.2)

lemma History.extend {d : Device σ} {x : σ} {lives : List (Life σ)} {w : World σ}
    (h : History d.provider x lives w) {t : Task σ} (ht : t.provider = d.provider) (n : ℕ) :
    History d.provider x (lives ++ [(d.live t n w).1]) (d.live t n w).2 :=
  h.live ht (Program.advance_steps d.answer_sem n _ _) (.inl rfl)

def crashedOnce : Life UInt64 × World UInt64 :=
  (mockProvider "linux").live (.lifecycle (mockProvider "linux").provider (mockRequest 42)) 6
    ((mockProvider "linux").live (.opens (mockProvider "linux").provider "linux") 1
      (World.initial 7)).2

def crashedTwice : Life UInt64 × World UInt64 :=
  (mockProvider "linux").live (.lifecycle (mockProvider "linux").provider (mockRequest 50)) 6
    crashedOnce.2

lemma crashedOnce_history : ∃ lives,
    History (mockProvider "linux").provider 7 (lives ++ [crashedOnce.1]) crashedOnce.2 :=
  ⟨_, (History.start.extend rfl 1).extend rfl 6⟩

lemma crashedTwice_history : ∃ lives,
    History (mockProvider "linux").provider 7 (lives ++ [crashedOnce.1] ++ [crashedTwice.1])
      crashedTwice.2 := by
  obtain ⟨lives, h⟩ := crashedOnce_history
  exact ⟨lives, h.extend rfl 6⟩

def brokenOff : Life UInt64 × World UInt64 :=
  (mockProvider "linux").live (.lifecycle (mockProvider "linux").provider (mockRequest 42)) 5
    ((mockProvider "linux").live (.opens (mockProvider "linux").provider "linux") 1
      (World.initial 7)).2

def brokenOffTwice : Life UInt64 × World UInt64 :=
  (mockProvider "linux").live (.lifecycle (mockProvider "linux").provider (mockRequest 50)) 6
    brokenOff.2

theorem reclaim_newest_twice : ∃ tr restorations v,
    Steps (sem (mockProvider "linux").provider)
      ((mockProvider "linux").provider.watchdog.reclaim .allUnclosed).run brokenOffTwice.2 tr
      (.done (.ok restorations)) v ∧ restorations.map Restoration.experimentId = [1, 2] ∧
        brokenOffTwice.2.host = 50 ∧ v.host = 7 := by
  have h : History (mockProvider "linux").provider 7 _ brokenOffTwice.2 :=
    ((History.start.extend rfl 1).extend rfl 5).extend rfl 6
  have hs := Program.advance_done (n := 20) (mockProvider "linux").answer_sem
    (p := ((mockProvider "linux").provider.watchdog.reclaim .allUnclosed).run)
    (w := brokenOffTwice.2) rfl
  have hids : ∀ record ∈ brokenOffTwice.2.db.records, 1 ≤ record.experimentId ∧
      record.experimentId ≤ 2 := by decide
  have hoe : brokenOff.1.Left (mockProvider "linux").provider brokenOffTwice.2 1 :=
    ⟨rfl, by decide⟩
  have hne : brokenOffTwice.1.Left (mockProvider "linux").provider brokenOffTwice.2 2 :=
    ⟨rfl, by decide⟩
  have hnewest := reclaim_newest (mockProvider_faithful "linux") h hs
    (List.mem_append_left _ (List.mem_append_right _ (List.mem_singleton_self _)))
    (List.mem_append_right _ (List.mem_singleton_self _)) hoe hne (by
      rintro d ⟨⟨record, hr, _, rfl, _⟩, _⟩
      exact hids record hr)
  exact ⟨_, _, _, hs, rfl, rfl, hnewest.2.mpr rfl⟩

theorem reclaim_not_oldest : ¬ ∀ (P : Provider UInt64) (x : UInt64) (lives : List (Life UInt64))
    (w v : World UInt64) (tr : Trace UInt64) (restorations : List Restoration)
    (oldest : Life UInt64) (e : ℤ), P.Faithful → History P x lives w →
      Steps (sem P) (P.watchdog.reclaim .allUnclosed).run w tr (.done (.ok restorations)) v →
      (∀ restoration ∈ restorations, restoration.restored = true) → oldest ∈ lives →
      oldest.Left P w e → (∀ d, w.db.Leaks P.manifest.id d → e ≤ d) →
      v.host = oldest.before.host := by
  intro hall
  obtain ⟨lives, h⟩ := crashedTwice_history
  have hs := Program.advance_done (n := 20) (mockProvider "linux").answer_sem
    (p := ((mockProvider "linux").provider.watchdog.reclaim .allUnclosed).run)
    (w := crashedTwice.2) rfl
  have hids : ∀ record ∈ crashedTwice.2.db.records, 1 ≤ record.experimentId := by decide
  have hx := hall _ _ _ _ _ _ _ crashedOnce.1 1 (mockProvider_faithful "linux") h hs (by decide)
    (by simp) ⟨rfl, by decide⟩ (by
      rintro d ⟨⟨record, hr, _, rfl, _⟩, _⟩
      exact hids record hr)
  exact absurd hx (by decide)

end FpsMaxxing
