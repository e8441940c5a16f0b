import FpsMaxxing.Host.PassJournal
import FpsMaxxing.Recovery.Baseline

/-! What a pass does to an anchored setting, wherever it stops, and what a whole one brings back. -/

namespace FpsMaxxing

open Effects Serde

variable {σ : Type}

lemma sem_snapshot {P : Provider σ} {w w' : World σ} {r : Except ProviderError StateSnapshot}
    (h : sem P w (.provider .snapshot) r w') : w' = w := by
  obtain ⟨⟨_, hy⟩, hdb⟩ := h
  cases w'
  exact congrArg₂ World.mk hdb hy

def Statement.queries : Statement → Prop
  | .ready | .unclosed _ | .lastRestore _ => True
  | _ => False

lemma sem_queries {P : Provider σ} {w w' : World σ} (statement : Statement)
    {r : Except SqlError statement.Res} (hq : statement.queries)
    (h : sem P w (.journal statement) r w') : w' = w := by
  obtain ⟨e, _, rfl⟩ | ⟨now, b, db, hr, _, rfl⟩ := h
  · rfl
  · cases statement with
    | ready =>
      cases hr
      rfl
    | unclosed providerId | lastRestore experiment =>
      simp only [Statement.run, Option.ite_none_right_eq_some] at hr
      obtain ⟨_, hr⟩ := hr
      cases hr
      rfl
    | _ => exact hq.elim

structure Found (P : Provider σ) (x : σ) (db : Database) (rows : List Database.Candidate) : Prop where
  nodup : (rows.map (·.1)).Nodup
  leaks : ∀ row ∈ rows, db.Leaks P.manifest.id row.1
  snapshot : ∀ row ∈ rows, ∀ y, Watchdog.decode row = .ok y → P.snapshot x (.ok y.snapshot)

namespace Anchored

variable {P : Provider σ} {x : σ} {w v u : World σ}

lemma found (h : Anchored P x w) (now : ℤ) : Found P x w.db (w.db.unclosed P.manifest.id now) := by
  obtain ⟨s, hr, rfl, hroot⟩ := h.rooted
  have hl := hr.ledger
  refine ⟨(hl.unclosed_sorted _ _).imp fun hab => hab.ne, fun row hrow => ?_, fun row hrow y hy => ?_⟩
  · exact (hl.unclosed_mem _ _).mp (List.mem_map_of_mem (f := (·.1)) hrow)
  · obtain ⟨y', hy', hd⟩ := hl.decodes (hl.genuine hrow)
    cases hy.symm.trans hy'
    exact hroot.snapshot hd

end Anchored

structure Sweeping (P : Provider σ) (policy : ReclaimPolicy) (x : σ) (w₀ : World σ) (m : Progress)
    (w : World σ) : Prop where
  early : m.rollbacks = [] → w = w₀
  late : m.rollbacks ≠ [] → w.host = x
  nodup : (m.listed.map (·.1)).Nodup
  snapshot : ∀ y ∈ m.selected policy, P.snapshot x (.ok y.snapshot)
  pending : ∀ y ∈ m.pending policy, w.db.Leaks P.manifest.id y.experimentId

namespace Sweeping

variable {P : Provider σ} {policy : ReclaimPolicy} {x : σ} {w₀ w w' : World σ} {m : Progress}

lemma start : Sweeping P policy x w₀ .start w₀ where
  early _ := rfl
  late h := absurd rfl h
  nodup := List.nodup_nil
  snapshot y hy := by cases hy
  pending y hy := by cases List.mem_of_mem_drop hy

lemma quiet {m' : Progress} (h : Sweeping P policy x w₀ m w) (hr : m'.rollbacks = m.rollbacks)
    (hl : m'.listed = m.listed) : Sweeping P policy x w₀ m' w where
  early hn := h.early (hr ▸ hn)
  late hn := h.late (hr ▸ hn)
  nodup := hl ▸ h.nodup
  snapshot y hy := h.snapshot y (Progress.selected_congr hl ▸ hy)
  pending y hy := h.pending y (Progress.pending_congr hl hr ▸ hy)

lemma query (hf : ∀ now, Found P x w₀.db (w₀.db.unclosed P.manifest.id now))
    (h : Sweeping P policy x w₀ m w) (hn : m.rollbacks = []) (now : ℤ) :
    Sweeping P policy x w₀ { m with listed := w.db.unclosed P.manifest.id now } w := by
  obtain rfl := h.early hn
  have hrow : ∀ y ∈ ({ m with listed := w.db.unclosed P.manifest.id now } : Progress).selected policy,
      P.snapshot x (.ok y.snapshot) ∧ w.db.Leaks P.manifest.id y.experimentId := by
    intro y hy
    obtain ⟨row, hm, hd, hid⟩ := Progress.decoded hy
    exact ⟨(hf now).snapshot row hm y hd, hid ▸ (hf now).leaks row hm⟩
  exact ⟨fun _ => rfl, fun hr => absurd hn hr, (hf now).nodup, fun y hy => (hrow y hy).1,
    fun y hy => (hrow y (List.mem_of_mem_drop hy)).2⟩

lemma insert (h : Sweeping P policy x w₀ m w) {records : List Record} {y : UnclosedExperiment}
    (hc : m.current policy = some y) (hid : ∀ record ∈ records, record.experimentId = y.experimentId)
    (hw : w'.db.records = w.db.records ++ records) (hh : w'.host = w.host) :
    Sweeping P policy x w₀ (m.write records) w' := by
  have hn : m.rollbacks ≠ [] := by
    intro hr
    rw [Progress.current, hr] at hc
    cases hc
  refine ⟨fun hr => absurd hr hn, fun _ => hh.trans (h.late hn), h.nodup, h.snapshot, ?_⟩
  intro z hz
  apply (h.pending z hz).append hw
  intro record hm he
  exact absurd (he.symm.trans (hid record hm)) (Progress.current_ne_pending h.nodup hc hz)

lemma next (hP : P.Faithful) (hf : ∀ now, Found P x w₀.db (w₀.db.unclosed P.manifest.id now))
    (h : Sweeping P policy x w₀ m w) {o : Op} {r : o.Res} (ha : m.passAllows P policy o)
    (hs : sem P w o r w') : Sweeping P policy x w₀ (m.next o r) w' := by
  match o, r, ha, hs with
  | .provider (.rollback snapshot), r, ⟨y, rest, hp, hsnap⟩, ⟨hr, hdb⟩ =>
    have hy : y ∈ m.selected policy := List.mem_of_mem_drop (hp ▸ List.mem_cons_self)
    have hx : w'.host = x := (hP x _ (hsnap ▸ h.snapshot y hy) _ _ _ hr).2
    have hlisted : (m.next (.provider (.rollback snapshot)) r).listed = m.listed := rfl
    obtain ⟨_, hpend⟩ := Progress.current_of_pending hp hlisted (by simp)
    refine ⟨fun hn => ?_, fun _ => hx, h.nodup, h.snapshot, fun z hz => ?_⟩
    · simp at hn
    · rw [hdb]
      exact h.pending z (hp ▸ List.mem_cons_of_mem _ (hpend ▸ hz))
  | .provider .snapshot, .ok s, hn, hs =>
    rw [sem_snapshot hs, Progress.next_snapshot_ok, if_neg hn]
    exact h.quiet rfl rfl
  | .provider .snapshot, .error e, _, hs =>
    rw [sem_snapshot hs]
    exact h.quiet rfl rfl
  | .journal statement, .error e, _, hs =>
    obtain ⟨_, _, rfl⟩ | ⟨_, _, _, _, he, _⟩ := hs
    · rw [Progress.next_error]
      exact h.quiet rfl rfl
    · cases he
  | .journal .ready, .ok b, _, hs =>
    rw [sem_queries .ready trivial hs]
    exact h.quiet rfl rfl
  | .journal (.lastRestore e), .ok b, _, hs =>
    rw [sem_queries (.lastRestore e) trivial hs]
    exact h.quiet rfl rfl
  | .journal (.unclosed providerId), .ok rows, ⟨hid, _, hn⟩, hs =>
    obtain rfl := hid
    obtain ⟨now, rfl⟩ := sem_unclosed hs
    rw [sem_queries (.unclosed _) trivial hs]
    exact h.query hf hn now
  | .journal (.insert records), .ok u, ⟨y, hc, hrec⟩, hs =>
    apply h.insert hc _ (sem_records hs) (sem_journal_host hs)
    rcases hrec with ⟨_, rfl⟩ | ⟨error, rfl⟩
    · exact fun record hm => Watchdog.successRecords_id hm
    · exact fun record hm => by rw [List.mem_singleton.mp hm]

end Sweeping

namespace Anchored

variable {P : Provider σ} {policy : ReclaimPolicy} {x : σ} {w v u : World σ} {tr : Trace σ}
  {q : Program Calls (Except WatchdogError (List Restoration))}

lemma pass (hP : P.Faithful) (h : Anchored P x w)
    (hs : Steps (sem P) (P.watchdog.reclaim policy).run w tr q v) (hu : Halts q v u) :
    Anchored P x u := by
  have hi : Sweeping P policy x w (Progress.start.run tr) v :=
    hs.invariant Pass.reclaim_obeys .start fun m w' o r w'' hm ha hc => hm.next hP h.found ha hc
  refine ⟨?_, ?_⟩
  · exact h.rooted_halt (t := .pass P policy) rfl (hs.map Outcome.pass) (hu.map _) nofun
  have hv : v.host = x ∨ ∃ e, v.db.Leaks P.manifest.id e := by
    by_cases hn : (Progress.start.run tr).rollbacks = []
    · rw [hi.early hn]
      exact h.baseline
    · exact .inl (hi.late hn)
  rw [hu.db]
  rcases hu with rfl | ⟨o, next, rfl, ht⟩
  · exact hv
  have ha := (hs.obeys Pass.reclaim_obeys).1
  match o, ha, ht with
  | .provider (.rollback snapshot), ⟨y, rest, hp, _⟩, _ =>
    exact .inr ⟨_, hi.pending y (hp ▸ List.mem_cons_self)⟩
  | .provider .snapshot, _, ht | .journal _, _, ht =>
    rw [show u = v from ht]
    exact hv

end Anchored

end FpsMaxxing
