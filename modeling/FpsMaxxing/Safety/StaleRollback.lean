import FpsMaxxing.Safety.JournalRows
import FpsMaxxing.Safety.Terminal

/-! A pass acts on a list it has read once: when what it rolls back is still unclosed. -/

namespace FpsMaxxing

open Effects Serde

variable {σ : Type}

def Effects.Process.Pending (p : Proc σ) (e : ℤ) : Prop :=
  p.alive = true ∧ ∃ P policy x, p.task = .pass P policy ∧ x ∈ p.progress.pending policy ∧
    x.experimentId = e

/-- An experiment is closed only when no other pass is about to roll it back. -/
def Unhurried (s : Host σ) (l : Label (Task σ)) : Prop :=
  ∀ i p e, l = .call i → s.procs i = some p → p.Closing e →
    ∀ j q, j ≠ i → s.procs j = some q → ¬ q.Pending e

def OneByOne (s : Host σ) (l : Label (Task σ)) : Prop :=
  ∀ i P request, l = .spawn i (.lifecycle P request) → ∀ j q Q request', s.procs j = some q →
    q.task = .lifecycle Q request' → q.Over

/-- No experiment is begun while another one is unclosed. -/
def Cleared (s : Host σ) (l : Label (Task σ)) : Prop :=
  ∀ i p providerId payload, l = .call i → s.procs i = some p →
    p.residual.nextOp = some (.journal (.beginExperiment providerId payload)) →
      ∀ q e, ¬ s.world.db.Leaks q e

section

variable {s : Host σ} {i : ℕ} {t : Task σ}

lemma Unhurried.spawn : Unhurried s (.spawn i t) := by
  rintro _ _ _ ⟨⟩

lemma Unhurried.crash : Unhurried s (.crash i) := by
  rintro _ _ _ ⟨⟩

lemma OneByOne.opens {P : Provider σ} {os : String} : OneByOne s (.spawn i (.opens P os)) := by
  rintro _ _ _ ⟨⟩

lemma OneByOne.pass {P : Provider σ} {policy : ReclaimPolicy} :
    OneByOne s (.spawn i (.pass P policy)) := by
  rintro _ _ _ ⟨⟩

lemma OneByOne.call : OneByOne s (.call i) := by
  rintro _ _ _ ⟨⟩

lemma OneByOne.crash : OneByOne s (.crash i) := by
  rintro _ _ _ ⟨⟩

lemma Cleared.spawn : Cleared s (.spawn i t) := by
  rintro _ _ _ _ ⟨⟩

lemma Cleared.crash : Cleared s (.crash i) := by
  rintro _ _ _ _ ⟨⟩

end

namespace Progress

variable {policy : ReclaimPolicy} {m : Progress} {P : Provider σ}

lemma pending_congr {m' : Progress} (hl : m'.listed = m.listed) (hr : m'.rollbacks = m.rollbacks) :
    m'.pending policy = m.pending policy := by
  rw [pending, pending, selected_congr hl, hr]

lemma pending_next {o : Op} (ha : m.passAllows P policy o) {r : o.Res}
    (hl : (m.next o r).listed = m.listed) {x : UnclosedExperiment}
    (hx : x ∈ (m.next o r).pending policy) : x ∈ m.pending policy := by
  match o, r, ha, hl, hx with
  | .provider (.rollback snapshot), r, ⟨y, rest, hp, _⟩, hl, hx =>
    have hrest : (m.next (.provider (.rollback snapshot)) r).pending policy = rest :=
      (current_of_pending hp hl (by simp)).2
    rw [hrest] at hx
    rw [hp]
    exact List.mem_cons_of_mem _ hx
  | .provider .snapshot, .ok s, hn, hl, hx =>
    have hn : m.rollbacks ≠ [] := hn
    rwa [pending_congr hl (by rw [next_snapshot_ok, if_neg hn])] at hx
  | .provider .snapshot, .error _, _, _, hx => exact hx
  | .journal (.unclosed _), .ok _, _, hl, hx => rwa [pending_congr hl rfl] at hx
  | .journal .ready, .ok _, _, _, hx | .journal (.lastRestore _), .ok _, _, _, hx
  | .journal (.insert _), .ok _, _, _, hx => exact hx
  | .journal statement, .error e, _, hl, hx =>
    rwa [pending_congr hl (by rw [next_error])] at hx

lemma current_ne_pending {x y : UnclosedExperiment}
    (hn : (m.listed.map (·.1)).Nodup) (hx : m.current policy = some x)
    (hy : y ∈ m.pending policy) : y.experimentId ≠ x.experimentId := by
  have hsel : ((m.selected policy).map UnclosedExperiment.experimentId).Nodup := by
    rw [selected]
    split
    next experiments hd =>
      have hid := map_of_mapM (fun _ _ => Watchdog.decode_id) hd
      exact (hid ▸ hn).sublist (List.filter_sublist.map _)
    · exact List.nodup_nil
  rw [← List.take_append_drop m.rollbacks.length (m.selected policy), List.map_append,
    List.nodup_append] at hsel
  have hx' := List.mem_map_of_mem (f := UnclosedExperiment.experimentId) (List.mem_of_getLast? hx)
  have hy' := List.mem_map_of_mem (f := UnclosedExperiment.experimentId) hy
  exact (hsel.2.2 _ hx' _ hy').symm

end Progress

structure Watched (s : Host σ) : Prop where
  nodup : ∀ i p, s.procs i = some p → (p.progress.listed.map (·.1)).Nodup
  unclosed : ∀ i p e, s.procs i = some p → p.Pending e → ∃ providerId, s.world.db.Leaks providerId e

namespace Watched

variable {s s' : Host σ} {i : ℕ} {p q : Proc σ} {w : World σ}

lemma init (w : World σ) : Watched (Pool.init w : Host σ) where
  nodup i p hp := by simp [Pool.init] at hp
  unclosed i p e hp := by simp [Pool.init] at hp

lemma set (h : Watched s) (hn : (q.progress.listed.map (·.1)).Nodup)
    (hq : ∀ e, q.Pending e → ∃ providerId, w.db.Leaks providerId e)
    (hw : ∀ j p e, j ≠ i → s.procs j = some p → p.Pending e → ∀ providerId,
      s.world.db.Leaks providerId e → w.db.Leaks providerId e) : Watched (s.set i q w) where
  nodup := Pool.forall_set hn fun j p _ => h.nodup j p
  unclosed j p' e hp' := by
    refine Pool.forall_set (I := fun _ p => p.Pending e → ∃ providerId, w.db.Leaks providerId e)
      (hq e) (fun j p hj hp he => ?_) j p' hp'
    obtain ⟨providerId, hl⟩ := h.unclosed j p e hp he
    exact ⟨providerId, hw j p e hj hp he providerId hl⟩

end Watched

lemma Database.Leaks.append {db db' : Database} {records : List Record} {providerId : String}
    {e : ℤ} (h : db.Leaks providerId e) (hr : db'.records = db.records ++ records)
    (hn : ∀ record ∈ records, record.experimentId = e → record.stage.terminal = false) :
    db'.Leaks providerId e := by
  obtain ⟨⟨intent, hm, hi⟩, hc⟩ := h
  refine ⟨⟨intent, hr ▸ List.mem_append_left _ hm, hi⟩, ?_⟩
  by_contra hcl
  rw [Bool.not_eq_false, Database.closed_iff, hr] at hcl
  obtain ⟨record, hm, hid, ht⟩ := hcl
  rcases List.mem_append.mp hm with hm | hm
  · have hcl := Database.closed_iff.mpr ⟨record, hm, hid, ht⟩
    simp [hc] at hcl
  · simp [hn record hm hid] at ht

lemma Watched.call {s : Host σ} {i : ℕ} {p : Proc σ} {w : World σ} (h : Watched s) (hl : Ledger s)
    (hp : s.procs i = some p) (hal : p.alive = true) {o : Op}
    {next : o.Res → Program Calls Outcome} (hr : p.residual = .call (o : Calls.Op) next)
    (ha : p.task.allows p.progress o) {r : o.Res} (hs : sem p.task.provider s.world o r w)
    (hg : Unhurried s (.call i)) :
    Watched (s.set i (p.after s.world (o : Calls.Op) r (next r)) w) := by
  have hrec := sem_records hs
  have hcases := committed_cases hl hp ha hs
  have hlisted := listed_cases (m := p.progress) hs
  refine h.set ?_ (fun e he => ?_) fun j q e hj hq he providerId hleak => ?_
  · rw [progress_after]
    obtain hlisted | ⟨_, providerId, now, hlisted⟩ := hlisted
    · rw [hlisted]
      exact h.nodup i p hp
    · rw [hlisted]
      exact (hl.unclosed_sorted providerId now).imp fun hab => hab.ne
  · obtain ⟨_, P, policy, x, ht, hx, rfl⟩ := he
    rw [progress_after] at hx
    have ht : p.task = .pass P policy := ht
    obtain hlisted | ⟨hnil, providerId, now, hlisted⟩ := hlisted
    · have hx' := Progress.pending_next (P := P) (by rw [ht] at ha; exact ha) hlisted hx
      obtain ⟨providerId, hleak⟩ := h.unclosed i p _ hp ⟨hal, P, policy, x, ht, hx', rfl⟩
      refine ⟨providerId, hleak.append hrec fun record hm hid => ?_⟩
      obtain hn | ⟨_, _, _, _, _, ⟨_, _, ht'⟩, _⟩ | ⟨_, _, _, ht', _⟩ |
        ⟨P', policy', y, ht', _, hc, _, hy, _⟩ := hcases
      · simp [hn] at hm
      · cases ht.symm.trans ht'
      · cases ht.symm.trans ht'
      · cases ht.symm.trans ht'
        exact absurd (hid.symm.trans (hy record hm))
          (Progress.current_ne_pending (h.nodup i p hp) hc hx')
    · obtain ⟨row, hrow, _, hid⟩ := Progress.decoded (List.mem_of_mem_drop hx)
      rw [hlisted] at hrow
      have hm := (hl.unclosed_mem providerId now).mp (List.mem_map_of_mem (f := (·.1)) hrow)
      refine ⟨providerId, ?_⟩
      rw [← hid]
      exact hm.append hrec (by simp [hnil])
  · refine hleak.append hrec fun record hm hid => ?_
    by_contra ht
    rw [Bool.not_eq_false] at ht
    exact hg i p e rfl hp (hid ▸ Process.closing_of_committed hr hm ht) j q hj hq he

lemma Watched.step {s s' : Host σ} {l : Label (Task σ)} (h : Watched s) (hl : Ledger s)
    (hh : (contract σ).Honest s) (hg : Unhurried s l) (hs : (system σ).Step s l s') :
    Watched s' := by
  cases hs with
  | spawn t hi =>
    refine h.set List.nodup_nil ?_ fun _ _ _ _ _ _ _ hleak => hleak
    rintro e ⟨_, P, policy, x, ht, hx, _⟩
    cases List.mem_of_mem_drop hx
  | call hp hal hr hsem => exact h.call hl hp hal hr (hh.allows hp hr) hsem hg
  | crash hp _ =>
    have hn := h.nodup _ _ hp
    refine h.set hn ?_ fun _ _ _ _ _ _ _ hleak => hleak
    rintro e ⟨hal, _⟩
    cases hal
  | torn hp _ _ ht =>
    have hn := h.nodup _ _ hp
    refine h.set hn ?_ fun _ _ _ _ _ _ _ hleak => ?_
    · rintro e ⟨hal, _⟩
      cases hal
    · rwa [torn_db ht]

lemma Ledger.exists_record {s : Host σ} (h : Ledger s) {i : ℕ} {p : Proc σ} {e : ℤ}
    (ho : s.Owns i p e) : ∃ record ∈ s.world.db.records, record.experimentId = e := by
  obtain ⟨_, _, _, _, _, _, _, _, hw, _⟩ := h.owner ho
  exact ⟨_, h.written_in_journal ho (hw ▸ List.mem_cons_self)⟩

structure Successive (s : Host σ) : Prop where
  alone : ∀ i p P request j q Q request', s.procs i = some p → p.task = .lifecycle P request →
    s.procs j = some q → q.task = .lifecycle Q request' → ¬ p.Over → ¬ q.Over → i = j
  latest : ∀ i p e, s.Owns i p e → ¬ p.Over →
    ∀ record ∈ s.world.db.records, record.experimentId ≤ e
  newest : ∀ providerId e, s.world.db.Leaks providerId e →
    ∀ record ∈ s.world.db.records, record.experimentId ≤ e

namespace Successive

variable {s s' : Host σ} {i : ℕ} {p q : Proc σ} {w : World σ}

lemma init (w : World σ) (hw : w.db.records = []) : Successive (Pool.init w : Host σ) where
  alone i p P request j q Q request' hp := by simp [Pool.init] at hp
  latest i p e ho := by simp [Pool.Owns, Pool.init] at ho
  newest providerId e hl record hr := by simp [Pool.init, hw] at hr

lemma set (h : Successive s)
    (ha : ∀ P request, q.task = .lifecycle P request → ¬ q.Over → ∀ j p Q request', j ≠ i →
      s.procs j = some p → p.task = .lifecycle Q request' → p.Over)
    (hq : ∀ e, q.progress.experiment = some e → ¬ q.Over →
      ∀ record ∈ w.db.records, record.experimentId ≤ e)
    (ho : ∀ j p e, j ≠ i → s.Owns j p e → ¬ p.Over →
      ∀ record ∈ w.db.records, record.experimentId ≤ e)
    (hl : ∀ providerId e, w.db.Leaks providerId e →
      ∀ record ∈ w.db.records, record.experimentId ≤ e) : Successive (s.set i q w) where
  alone j p P request k p' Q request' hp ht hp' ht' hj hk := by
    rw [Pool.set_procs] at hp hp'
    split_ifs at hp hp' with h₁ h₂ h₂
    · exact h₁.trans h₂.symm
    · cases hp
      exact absurd (ha P request ht hj k p' Q request' h₂ hp' ht') hk
    · cases hp'
      exact absurd (ha Q request' ht' hk j p P request h₁ hp ht) hj
    · exact h.alone j p P request k p' Q request' hp ht hp' ht' hj hk
  latest j p e hown hov := by
    rcases Pool.owns_set.mp hown with ⟨rfl, rfl, he⟩ | ⟨hj, hown⟩
    · exact hq e he hov
    · exact ho j p e hj hown hov
  newest := hl

lemma quiet (h : Successive s) (hw : w.db.records = s.world.db.records)
    (ha : ∀ P request, q.task = .lifecycle P request → ¬ q.Over → ∀ j p Q request', j ≠ i →
      s.procs j = some p → p.task = .lifecycle Q request' → p.Over)
    (hq : q.Over ∨ q.progress.experiment = none) : Successive (s.set i q w) := by
  refine h.set ha (fun e he hov => ?_) (fun j p e _ ho hov => ?_) fun providerId e hleak => ?_
  · simp [hq.resolve_left hov] at he
  · rw [hw]
    exact h.latest j p e ho hov
  · rw [hw]
    have hr : s.world.db.records = w.db.records ++ [] := by rw [List.append_nil, hw]
    exact h.newest providerId e (hleak.append hr (by simp))

inductive Added (s : Host σ) (i : ℕ) (p : Proc σ) (record : Record) : Prop
  | begins : p.progress.experiment = none →
      record.experimentId = s.world.db.nextExperiment →
      (∃ P request, p.task = .lifecycle P request) → record.stage ≠ .applyIntent →
      (∀ providerId e, ¬ s.world.db.Leaks providerId e) → Added s i p record
  | own : s.Owns i p record.experimentId → (∃ P request, p.task = .lifecycle P request) →
      Added s i p record
  | reclaims : (∃ j q, s.Owns j q record.experimentId) → p.progress.experiment = none →
      (∃ P policy, p.task = .pass P policy) → record.stage ≠ .applyIntent → Added s i p record

section

variable {o : Op} {r : o.Res} {next : o.Res → Program Calls Outcome}

lemma added (hl : Ledger s) (hp : s.procs i = some p) (hr : p.residual = .call (o : Calls.Op) next)
    (ha : p.task.allows p.progress o) (hs : sem p.task.provider s.world o r w)
    (hg : Cleared s (.call i)) : ∀ record ∈ committed o r, Added s i p record := by
  intro record hm
  obtain hn | ⟨row, hc, hst, hn, hrow, ht, providerId, payload, rfl⟩ |
    ⟨P, request, row, ht, _, hc, hmay⟩ | ⟨P, policy, x, ht, hn, _, hown, hx, hc⟩ :=
      committed_cases hl hp ha hs
  · simp [hn] at hm
  · rw [hc, List.mem_singleton] at hm
    subst hm
    refine .begins hn hrow ht (by simp [hst]) ?_
    exact hg i p providerId payload rfl hp (by rw [hr]; rfl)
  · rw [hc, List.mem_singleton] at hm
    subst hm
    exact .own ⟨hp, hmay.experiment⟩ ⟨P, request, ht⟩
  · refine .reclaims (by rwa [hx record hm]) hn ⟨P, policy, ht⟩ ?_
    rcases hc with ⟨_, hc⟩ | hc
    · rw [hc] at hm
      have hall : ∀ record ∈ P.watchdog.successRecords x, record.stage ≠ .applyIntent := by
        simp [Watchdog.successRecords]
      exact hall record hm
    · simp [hc record hm]

lemma Added.id_eq {record : Record} (h : Added s i p record) {e : ℤ}
    (he : p.progress.experiment = some e) : record.experimentId = e := by
  cases h with
  | begins hn => cases hn.symm.trans he
  | own ho => exact Option.some.inj (ho.2.symm.trans he)
  | reclaims _ hn => cases hn.symm.trans he

lemma Added.mem_of_leaks {record : Record} (h : Added s i p record) (hl : Ledger s)
    {providerId : String} {e : ℤ} (hleak : s.world.db.Leaks providerId e) :
    ∃ old ∈ s.world.db.records, old.experimentId = record.experimentId := by
  cases h with
  | begins _ _ _ _ hno => exact absurd hleak (hno _ _)
  | own ho => exact hl.exists_record ho
  | reclaims ho =>
    obtain ⟨j, q, ho⟩ := ho
    exact hl.exists_record ho

lemma begun_next (hl : Ledger s) (hp : s.procs i = some p) (ha : p.task.allows p.progress o)
    (hs : sem p.task.provider s.world o r w) (hadd : ∀ record ∈ committed o r, Added s i p record)
    (hx : p.progress.experiment = none) {e : ℤ}
    (hown : (s.set i (p.after s.world (o : Calls.Op) r (next r)) w).Owns i
      (p.after s.world (o : Calls.Op) r (next r)) e) :
    e = s.world.db.nextExperiment ∧
      ∀ record ∈ committed o r, record.experimentId = s.world.db.nextExperiment := by
  obtain ⟨P, request, snapshot, rest, ht, _, _, _, hw, _⟩ := (hl.call hp ha hs (next r)).owner hown
  have ht : p.task = .lifecycle P request := ht
  have hnew : ∀ record ∈ committed o r, record.experimentId = s.world.db.nextExperiment := by
    intro record hm
    cases hadd record hm with
    | begins _ hrow => exact hrow
    | own ho => cases hx.symm.trans ho.2
    | reclaims _ _ hpass =>
      obtain ⟨_, _, hpass⟩ := hpass
      cases hpass.symm.trans ht
  have hord := hl.orderly i p hp
  rw [ht] at hord
  rw [progress_after, Progress.next_written, (Lifecycle.Orderly.idle hord hx).1,
    List.nil_append] at hw
  exact ⟨hnew _ (hw ▸ List.mem_cons_self), hnew⟩

lemma latest_own (h : Successive s) (hl : Ledger s) (hp : s.procs i = some p) (hlive : ¬ p.Over)
    (ha : p.task.allows p.progress o) (hs : sem p.task.provider s.world o r w)
    (hadd : ∀ record ∈ committed o r, Added s i p record) {e : ℤ}
    (he : (p.after s.world (o : Calls.Op) r (next r)).progress.experiment = some e) :
    ∀ record ∈ w.db.records, record.experimentId ≤ e := by
  intro record hm
  rw [sem_records hs] at hm
  cases hx : p.progress.experiment with
  | some e' =>
    rw [progress_after, (ha.keeps hx r).1] at he
    cases he
    rcases List.mem_append.mp hm with hm | hm
    · exact h.latest i p e ⟨hp, hx⟩ hlive record hm
    · exact ((hadd record hm).id_eq hx).le
  | none =>
    obtain ⟨rfl, hnew⟩ := begun_next hl hp ha hs hadd hx ⟨Pool.set_procs_self _ _ _ _, he⟩
    rcases List.mem_append.mp hm with hm | hm
    · exact (Database.lt_nextExperiment hm).le
    · exact (hnew record hm).le

lemma latest_other (h : Successive s) (hl : Ledger s) (hp : s.procs i = some p) (hlive : ¬ p.Over)
    (hs : sem p.task.provider s.world o r w)
    (hadd : ∀ record ∈ committed o r, Added s i p record) {j : ℕ} {q : Proc σ} {e : ℤ} (hj : j ≠ i)
    (ho : s.Owns j q e) (hov : ¬ q.Over) : ∀ record ∈ w.db.records, record.experimentId ≤ e := by
  intro record hm
  obtain ⟨Q, request', _, _, ht', _⟩ := hl.owner ho
  have hnot : ∀ P request, p.task ≠ .lifecycle P request := fun P request ht =>
    hj (h.alone i p P request j q Q request' hp ht ho.1 ht' hlive hov).symm
  rw [sem_records hs] at hm
  rcases List.mem_append.mp hm with hm | hm
  · exact h.latest j q e ho hov record hm
  cases hadd record hm with
  | begins _ _ ht | own _ ht =>
    obtain ⟨P, request, ht⟩ := ht
    exact absurd ht (hnot P request)
  | reclaims hk =>
    obtain ⟨k, q', hk⟩ := hk
    obtain ⟨old, hold, heq⟩ := hl.exists_record hk
    rw [← heq]
    exact h.latest j q e ho hov old hold

lemma newest_call (h : Successive s) (hl : Ledger s) (hlive : ¬ p.Over)
    (hs : sem p.task.provider s.world o r w)
    (hadd : ∀ record ∈ committed o r, Added s i p record) {providerId : String} {e : ℤ}
    (hleak : w.db.Leaks providerId e) : ∀ record ∈ w.db.records, record.experimentId ≤ e := by
  have hrec := sem_records hs
  obtain ⟨⟨intent, hm, hst, rfl, hpid⟩, hc⟩ := hleak
  intro record hm'
  rw [hrec] at hm hm'
  rcases List.mem_append.mp hm with hm | hm
  · have hleak : s.world.db.Leaks providerId intent.experimentId := by
      refine ⟨⟨intent, hm, hst, rfl, hpid⟩, ?_⟩
      by_contra hcl
      rw [Bool.not_eq_false, Database.closed_iff] at hcl
      obtain ⟨row, hrow, heq⟩ := hcl
      rw [Bool.eq_false_iff, ne_eq, Database.closed_iff, hrec] at hc
      exact hc ⟨row, List.mem_append_left _ hrow, heq⟩
    rcases List.mem_append.mp hm' with hm' | hm'
    · exact h.newest _ _ hleak record hm'
    · obtain ⟨old, hold, heq⟩ := (hadd record hm').mem_of_leaks hl hleak
      rw [← heq]
      exact h.newest _ _ hleak old hold
  -- an intent that is new is that of the process itself
  cases hadd intent hm with
  | begins _ _ _ hne | reclaims _ _ _ hne => exact absurd hst hne
  | own ho =>
    rcases List.mem_append.mp hm' with hm' | hm'
    · exact h.latest i p _ ho hlive record hm'
    · exact ((hadd record hm').id_eq ho.2).le

lemma call (h : Successive s) (hl : Ledger s) (hp : s.procs i = some p) (hal : p.alive = true)
    (hr : p.residual = .call (o : Calls.Op) next) (ha : p.task.allows p.progress o)
    (hs : sem p.task.provider s.world o r w) (hg : Cleared s (.call i)) :
    Successive (s.set i (p.after s.world (o : Calls.Op) r (next r)) w) := by
  have hlive := Process.not_over hal hr
  have hadd := added hl hp hr ha hs hg
  refine h.set ?_ ?_ ?_ ?_
  · intro P request ht _ j p' Q request' hj hp' ht'
    by_contra hov
    exact hj (h.alone i p P request j p' Q request' hp ht hp' ht' hlive hov).symm
  · exact fun e he _ => h.latest_own hl hp hlive ha hs hadd he
  · exact fun j q e hj ho hov => h.latest_other hl hp hlive hs hadd hj ho hov
  · exact fun providerId e hleak => h.newest_call hl hlive hs hadd hleak

end

lemma step {l : Label (Task σ)} (h : Successive s) (hl : Ledger s) (hh : (contract σ).Honest s)
    (ho : OneByOne s l) (hc : Cleared s l) (hs : (system σ).Step s l s') : Successive s' := by
  cases hs with
  | spawn t hi =>
    refine h.quiet rfl (fun P request ht _ j p Q request' _ hp ht' => ?_) (.inr rfl)
    have ht : t = .lifecycle P request := ht
    exact ho _ P request (by rw [ht]) j p Q request' hp ht'
  | call hp hal hr hsem => exact h.call hl hp hal hr (hh.allows hp hr) hsem hc
  | crash hp _ =>
    exact h.quiet rfl (fun _ _ _ hov => absurd (.inl rfl) hov) (.inl (.inl rfl))
  | torn hp _ _ ht =>
    exact h.quiet (congrArg Database.records (torn_db ht))
      (fun _ _ _ hov => absurd (.inl rfl) hov) (.inl (.inl rfl))

end Successive

/-- A guard for runs of one control plane in which no experiment is begun or closed at the wrong
time for a pass. -/
def Considerate (s : Host σ) (l : Label (Task σ)) : Prop :=
  Unhurried s l ∧ OneByOne s l ∧ Cleared s l

theorem rollback_of_unclosed {x : σ} {s : Host σ}
    (hrun : (system σ).Run Unhurried (Pool.init (World.initial x)) s) {i : ℕ} {p : Proc σ}
    {P : Provider σ} {policy : ReclaimPolicy} {snapshot : StateSnapshot}
    (hp : s.procs i = some p) (hal : p.alive = true) (ht : p.task = .pass P policy)
    (hn : p.residual.nextOp = some (.provider (.rollback snapshot))) :
    ∃ y rest, p.progress.pending policy = y :: rest ∧ y.snapshot = snapshot ∧
      s.world.db.closed y.experimentId = false ∧
      ((system σ).Run Considerate (Pool.init (World.initial x)) s →
        ∀ record ∈ s.world.db.records, record.experimentId ≤ y.experimentId) := by
  have hinit : Ledger (Pool.init (World.initial x) : Host σ) := Ledger.init _ rfl
  have hw : Ledger s ∧ Watched s := by
    refine (contract σ).invariant (I := fun s => Ledger s ∧ Watched s) hrun
      (Contract.honest_init _) ⟨hinit, Watched.init _⟩ ?_
    exact fun a l b hh ⟨hl, hw⟩ hg hs => ⟨hl.step hh hs, hw.step hl hh hg hs⟩
  obtain ⟨next, hr⟩ := Program.eq_call_of_nextOp hn
  have ha := ((Contract.honest_init _).run hrun : (contract σ).Honest s).allows hp hr
  rw [ht] at ha
  obtain ⟨y, rest, hpend, hy⟩ := ha
  have hmem : p.Pending y.experimentId :=
    ⟨hal, P, policy, y, ht, hpend ▸ List.mem_cons_self, rfl⟩
  obtain ⟨providerId, hleak⟩ := hw.2.unclosed i p _ hp hmem
  refine ⟨y, rest, hpend, hy, hleak.2, fun hrun' => ?_⟩
  have hs : Ledger s ∧ Successive s := by
    refine (contract σ).invariant (I := fun s => Ledger s ∧ Successive s) hrun'
      (Contract.honest_init _) ⟨hinit, Successive.init _ rfl⟩ ?_
    exact fun a l b hh ⟨hl, hs⟩ hg hstep => ⟨hl.step hh hstep, hs.step hl hh hg.2.1 hg.2.2 hstep⟩
  exact hs.2.newest providerId _ hleak

def aboutToRestore : Host UInt64 := (mockProvider "linux").act abandoned (.go 2 2)

lemma aboutToRestore_run :
    (system UInt64).Run Considerate (Pool.init (World.initial 7)) aboutToRestore := by
  obtain ⟨h₀, hd⟩ : (system UInt64).Run Considerate (Pool.init (World.initial 7)) abandoned ∧ _ := by
    refine Device.play_run (Device.drives_init 7)
      (by simp [Device.opened, Device.Plays, Task.provider])
      ⟨⟨.spawn, .opens, .spawn⟩, fun k hk => ⟨?_, .call, ?_⟩, ⟨.spawn, ?_, .spawn⟩,
        fun k hk => ⟨?_, .call, ?_⟩, ⟨.crash, .crash, .crash⟩, ⟨.spawn, .pass, .spawn⟩, trivial⟩
    · rintro _ p e ⟨⟩ hp ⟨records, hn, _⟩
      cases hp
      obtain rfl : k = 0 := by omega
      cases hn
    · rintro _ p providerId payload ⟨⟩ hp hn
      cases hp
      obtain rfl : k = 0 := by omega
      cases hn
    · rintro _ P request ⟨⟩ j q Q request' hq ht
      rcases j with _ | j
      · cases hq
        cases ht
      · cases hq
    · rintro _ p e ⟨⟩ hp ⟨records, hn, record, hm, _, ht⟩
      cases hp
      obtain hk | rfl | rfl | rfl | rfl : (k = 3 ∨ k = 4) ∨ k = 0 ∨ k = 1 ∨ k = 2 ∨ k = 5 := by
        omega
      · obtain rfl | rfl := hk
        all_goals
          cases hn
          cases List.mem_singleton.mp hm
          cases ht
      all_goals cases hn
    · rintro _ p providerId payload ⟨⟩ hp hn q e ⟨⟨record, hm, _⟩, _⟩
      cases hp
      obtain rfl | rfl | rfl | rfl | rfl | rfl :
          k = 1 ∨ k = 0 ∨ k = 2 ∨ k = 3 ∨ k = 4 ∨ k = 5 := by omega
      · cases hm
      all_goals cases hn
  obtain ⟨h₁, _⟩ : (system UInt64).Run Considerate abandoned aboutToRestore ∧ _ := by
    refine Device.act_run hd trivial fun k hk => ⟨?_, .call, ?_⟩
    · rintro _ p e ⟨⟩ hp ⟨records, hn, _⟩
      cases hp
      obtain rfl | rfl : k = 0 ∨ k = 1 := by omega
      all_goals cases hn
    · rintro _ p providerId payload ⟨⟩ hp hn
      cases hp
      obtain rfl | rfl : k = 0 ∨ k = 1 := by omega
      all_goals cases hn
  exact h₀.trans h₁

theorem rollback_of_unclosed_abandoned : ∃ p y rest, aboutToRestore.procs 2 = some p ∧
    p.progress.pending .allUnclosed = y :: rest ∧
      aboutToRestore.world.db.closed y.experimentId = false ∧
      ∀ record ∈ aboutToRestore.world.db.records, record.experimentId ≤ y.experimentId := by
  have hrun := aboutToRestore_run
  obtain ⟨y, rest, hp, _, hc, hnew⟩ := rollback_of_unclosed (hrun.mono fun _ _ hg => hg.1)
    (show aboutToRestore.procs 2 = some _ from rfl) rfl rfl rfl
  exact ⟨_, y, rest, rfl, hp, hc, hnew hrun⟩

def overtaken : Host UInt64 :=
  (mockProvider "linux").play (Pool.init (World.initial 7))
    ((mockProvider "linux").opened ++
      [.spawn 1 (.lifecycle (mockProvider "linux").provider (mockRequest 42)), .go 1 6,
        .spawn 2 (.pass (mockProvider "linux").provider .allUnclosed), .go 2 2, .go 1 20,
        .spawn 3 (.lifecycle (mockProvider "linux").provider (mockRequest 9)), .go 3 6])

theorem rollback_of_closed : ¬ ∀ (x : UInt64) (s : Host UInt64) (i : ℕ) (p : Proc UInt64)
    (P : Provider UInt64) (policy : ReclaimPolicy) (snapshot : StateSnapshot)
    (y : UnclosedExperiment) (rest : List UnclosedExperiment),
    (system UInt64).Run OneByOne (Pool.init (World.initial x)) s → s.procs i = some p →
      p.alive = true → p.task = .pass P policy →
      p.residual.nextOp = some (.provider (.rollback snapshot)) →
      p.progress.pending policy = y :: rest → s.world.db.closed y.experimentId = false := by
  intro h
  obtain ⟨hrun, _⟩ : (system UInt64).Run OneByOne (Pool.init (World.initial 7)) overtaken ∧ _ := by
    refine Device.play_run (Device.drives_init 7)
      (by simp [Device.opened, Device.Plays, Task.provider])
      ⟨.opens, fun _ _ => .call, ?_, fun _ _ => .call, .pass, fun _ _ => .call, fun _ _ => .call, ?_,
        fun _ _ => .call, trivial⟩
    · rintro _ P request ⟨⟩ j q Q request' hq ht
      rcases j with _ | j
      · cases hq
        cases ht
      · cases hq
    · rintro _ P request ⟨⟩ j q Q request' hq ht
      rcases j with _ | _ | _ | j
      · cases hq
        cases ht
      · cases hq
        exact .inr ⟨_, rfl⟩
      · cases hq
        cases ht
      · cases hq
  have hc := h 7 overtaken 2 _ _ _ _ _ _ hrun rfl rfl rfl rfl rfl
  exact absurd hc (by decide)

end FpsMaxxing
