import FpsMaxxing.Host.PassEffect
import FpsMaxxing.Host.PassJournal
import FpsMaxxing.Safety.Terminal

/-! What a whole pass leaves behind, and what the next one finds to do. -/

namespace FpsMaxxing

open Effects Serde

variable {σ : Type}

lemma Database.closed_eq_any (db : Database) (experiment : ℤ) :
    db.closed experiment = (db.rowsOf experiment).any fun row => row.stage.terminal := by
  rw [Database.closed, Database.rowsOf, List.any_filter]

lemma flatMap_filter {α β : Type} {p : β → Bool} {q : α → Bool} {f : α → List β}
    (h : ∀ a, ∀ b ∈ f a, p b = q a) (as : List α) :
    (as.filter q).flatMap f = (as.flatMap f).filter p := by
  induction as with
  | nil => rfl
  | cons a as ih =>
    rw [List.flatMap_cons, List.filter_append, ← ih, List.filter_cons]
    split_ifs with ha
    · have hall : (f a).filter p = f a := List.filter_eq_self.mpr fun b hb => (h a b hb).trans ha
      rw [List.flatMap_cons, hall]
    · have hnone : (f a).filter p = [] :=
        List.filter_eq_nil_iff.mpr fun b hb => by rwa [h a b hb]
      rw [hnone, List.nil_append]

section

variable {db db' : Database} {rows : List Row}

lemma Database.closed_mono (h : db'.rows = db.rows ++ rows) {e : ℤ} (hc : db.closed e = true) :
    db'.closed e = true := by
  rw [Database.closed, h, List.any_append, Bool.or_eq_true]
  exact .inl hc

lemma Database.unclosed_append (h : db'.rows = db.rows ++ rows)
    (hs : ∀ row ∈ rows, row.stage ≠ .snapshot ∧ row.stage ≠ .applyIntent) {providerId : String}
    {now : ℤ} (hn : ((db.unclosed providerId now).map (·.1)).Pairwise (· < ·)) :
    db'.unclosed providerId now =
      (db.unclosed providerId now).filter fun candidate => !db'.closed candidate.1 := by
  have hcand : db'.candidatesOf now = db.candidatesOf now := by
    funext intent
    rw [candidatesOf, candidatesOf, h, List.filter_append, List.map_append]
    rw [List.append_right_eq_self, List.map_eq_nil_iff, List.filter_eq_nil_iff]
    intro row hr
    simp [(hs row hr).1]
  have hint : (db'.rows.filter fun intent => intent.stage = .applyIntent &&
      intent.providerId = providerId && !db'.closed intent.experimentId) =
      (db.rows.filter fun intent => intent.stage = .applyIntent &&
        intent.providerId = providerId && !db.closed intent.experimentId).filter
          fun intent => !db'.closed intent.experimentId := by
    have hnew : (rows.filter fun intent => intent.stage = .applyIntent &&
        intent.providerId = providerId && !db'.closed intent.experimentId) = [] :=
      List.filter_eq_nil_iff.mpr fun row hr => by simp [(hs row hr).2]
    rw [List.filter_filter, h, List.filter_append, hnew, List.append_nil]
    refine List.filter_congr fun row _ => ?_
    cases hc : db.closed row.experimentId with
    | true => simp [closed_mono h hc]
    | false => simp [Bool.and_comm]
  have hperm : (db'.unclosed providerId now).Perm
      ((db.unclosed providerId now).filter fun candidate => !db'.closed candidate.1) := by
    refine (List.perm_insertionSort _ _).trans (.trans (.of_eq ?_)
      ((List.perm_insertionSort _ _).filter _).symm)
    rw [hcand, hint]
    exact flatMap_filter (fun intent candidate hm => by rw [candidatesOf_id hm]) _
  refine hperm.eq_of_pairwise (fun a b ha hb (hab : a.1 ≤ b.1) (hba : b.1 ≤ a.1) => ?_)
    (List.pairwise_insertionSort _ _) ((List.pairwise_insertionSort _ _).filter _)
  have hinj := List.inj_on_of_nodup_map (hn.imp fun hlt => hlt.ne)
  exact hinj (List.mem_of_mem_filter (hperm.mem_iff.mp ha)) (List.mem_of_mem_filter hb)
    (le_antisymm hab hba)

end

lemma filter_eq_zip {α β : Type} {p : α → Bool} {q : α × β → Bool} {as : List α} {bs : List β}
    (hl : bs.length = as.length) (h : ∀ pair ∈ as.zip bs, p pair.1 = q pair) :
    as.filter p = ((as.zip bs).filter q).map Prod.fst := by
  rw [← List.filter_congr h]
  conv_lhs => rw [← List.map_fst_zip hl.ge, List.filter_map]
  rfl

namespace Watchdog

def unrestored (selected : List UnclosedExperiment) (attempts : List Attempt) :
    List UnclosedExperiment :=
  ((selected.zip attempts).filter fun taken => !(restoration taken.1 taken.2).restored).map Prod.fst

lemma restored_iff {x : UnclosedExperiment} {a : Attempt} :
    (restoration x a).restored = true ↔ a = .read x.snapshot := by
  rw [← Attempt.result_eq_ok, restoration]
  split <;> simp_all

lemma Adds.closes {watchdog : Watchdog} {x : UnclosedExperiment} {a : Attempt}
    {added : List Record} (h : watchdog.Adds x a added) :
    (added.any fun record => record.stage.terminal) = (restoration x a).restored := by
  rw [Adds] at h
  rw [restoration]
  cases hr : Attempt.result x.snapshot a with
  | ok u =>
    rw [hr] at h
    rw [h]
    rfl
  | error e =>
    rw [hr] at h
    rcases h with rfl | rfl <;> rfl

end Watchdog

/-- What a pass has done that read the journal at the clock `now`, selected `selected`, and met
`attempts` when it rolled them back. -/
structure Swept (P : Provider σ) (policy : ReclaimPolicy) (now : ℤ)
    (selected : List UnclosedExperiment) (attempts : List Attempt) (w v : World σ)
    (log : List Calls.Event) (r : Except WatchdogError (List Restoration)) : Prop where
  selects : P.watchdog.selectedAt w.db policy now = .ok selected
  ascending : (selected.map UnclosedExperiment.experimentId).Pairwise (· < ·)
  attempted : attempts.length = selected.length
  calls : Watchdog.providerCalls log =
    (List.zipWith (fun x a => Attempt.log x.snapshot a) selected attempts).flatten
  returned : r = .ok (List.zipWith Watchdog.restoration selected attempts)
  restored : ∀ taken ∈ selected.zip attempts,
    (Watchdog.restoration taken.1 taken.2).restored = true ↔ taken.2 = .read taken.1.snapshot
  rows : ∀ taken ∈ selected.zip attempts, ∃ added : List Row,
    v.db.rowsOf taken.1.experimentId = w.db.rowsOf taken.1.experimentId ++ added ∧
      P.watchdog.Adds taken.1 taken.2 (added.map Row.toRecord)
  kept : w.db.rows <+: v.db.rows
  others : ∀ e, e ∉ selected.map UnclosedExperiment.experimentId →
    v.db.rowsOf e = w.db.rowsOf e
  foreign : ∀ row ∈ w.db.rows, row.stage = .snapshot → row.providerId ≠ P.manifest.id →
    v.db.rowsOf row.experimentId = w.db.rowsOf row.experimentId
  trials : v.db.trials = w.db.trials
  again : P.watchdog.selectedAt v.db policy now = .ok (Watchdog.unrestored selected attempts)

lemma Exact.eq_nil {s : Host σ} {providerId : String} {list : List UnclosedExperiment}
    (h : Exact s providerId list) (hn : s.world.db.records = []) : list = [] := by
  rw [List.eq_nil_iff_forall_not_mem]
  intro x hx
  obtain ⟨⟨record, hr, _⟩, _⟩ := (h.complete _).mp (List.mem_map_of_mem hx)
  rw [hn] at hr
  cases hr

namespace Ledger

variable {s : Host σ} (h : Ledger s)

include h

lemma leaks_provider {providerId : String} {row : Row} (hr : row ∈ s.world.db.rows)
    (hs : row.stage = .snapshot) (hl : s.world.db.Leaks providerId row.experimentId) :
    row.providerId = providerId := by
  obtain ⟨⟨intent, hi, hst, hid, hp⟩, _⟩ := hl
  obtain ⟨i, p, P, request, ho, ht, _, hrec⟩ := h.intent_row hi hst
  obtain ⟨j, q, Q, request', _, ho', ht', _, hrec'⟩ :=
    h.snapshot_row (List.mem_map_of_mem hr) hs
  rw [hid] at ho
  obtain rfl := h.unique _ i p j q ho ho'
  obtain rfl : p = q := Option.some.inj (ho.1.symm.trans ho'.1)
  obtain ⟨rfl, rfl⟩ : P = Q ∧ request = request' := by simpa [ht] using ht'
  have hrow : row.providerId = P.manifest.id := congrArg Record.providerId hrec'
  rw [hrow, ← hp, hrec]
  rfl

lemma reselected (P : Provider σ) {policy : ReclaimPolicy} {now : ℤ}
    {selected candidates : List UnclosedExperiment} {attempts : List Attempt} {v : World σ}
    {rows : List Row}
    (hnow : Watchdog.unclosedAt s.world.db P.manifest.id now = .ok candidates)
    (hsel : selected = candidates.filter (UnclosedExperiment.selectedBy policy))
    (hlen : attempts.length = selected.length) (hrows : v.db.rows = s.world.db.rows ++ rows)
    (hunclosed : ∀ e ∈ selected.map UnclosedExperiment.experimentId,
      s.world.db.closed e = false)
    (htaken : ∀ taken ∈ selected.zip attempts, ∃ added : List Row,
      v.db.rowsOf taken.1.experimentId = s.world.db.rowsOf taken.1.experimentId ++ added ∧
        P.watchdog.Adds taken.1 taken.2 (added.map Row.toRecord))
    (hopen : ∀ row ∈ rows, row.stage ≠ .snapshot ∧ row.stage ≠ .applyIntent) :
    P.watchdog.selectedAt v.db policy now = .ok (Watchdog.unrestored selected attempts) := by
  have hclosed : ∀ taken ∈ selected.zip attempts,
      (!v.db.closed taken.1.experimentId) = !(Watchdog.restoration taken.1 taken.2).restored := by
    intro taken hm
    obtain ⟨added, hrow, hadd⟩ := htaken taken hm
    have hopened : s.world.db.closed taken.1.experimentId = false :=
      hunclosed _ (List.mem_map_of_mem (List.of_mem_zip hm).1)
    rw [Database.closed_eq_any] at hopened
    rw [Database.closed_eq_any, hrow, List.any_append, hopened, ← hadd.closes, List.any_map]
    rfl
  have hlisted := mapM_filter (p := fun candidate => !v.db.closed candidate.1)
    (q := fun x => !v.db.closed x.experimentId)
    (fun _ _ hd => by rw [Watchdog.decode_id hd]) hnow
  rw [← Database.unclosed_append hrows hopen (h.unclosed_sorted _ _)] at hlisted
  rw [Watchdog.selectedAt, show P.watchdog.providerId = P.manifest.id from rfl,
    Watchdog.unclosedAt, hlisted, Watchdog.unrestored,
    ← filter_eq_zip (p := fun x => !v.db.closed x.experimentId) hlen hclosed, hsel]
  exact congrArg Except.ok (List.filter_comm _ _ _)

lemma swept (P : Provider σ) {policy : ReclaimPolicy} {now : ℤ}
    {selected : List UnclosedExperiment} {attempts : List Attempt} {v : World σ}
    {log log' : List Calls.Event} {candidates : List UnclosedExperiment}
    {r : Except WatchdogError (List Restoration)}
    (hscan : P.watchdog.Scanned log (.ok candidates))
    (hnow : Watchdog.unclosedAt s.world.db P.manifest.id now = .ok candidates)
    (hsel : selected = candidates.filter (UnclosedExperiment.selectedBy policy))
    (ht : P.watchdog.Turns selected attempts log' r)
    (hc : Chain (sem P) s.world (log ++ log') v)
    (hg : ∀ event ∈ log', JournalWorks event.1 event.2) :
    Swept P policy now selected attempts s.world v (log ++ log') r := by
  obtain ⟨list, hlist, hexact⟩ := h.exact_of_unclosed P.manifest.id now
  obtain rfl : list = candidates := Except.ok.inj (hlist.symm.trans hnow)
  have hasc : (selected.map UnclosedExperiment.experimentId).Pairwise (· < ·) :=
    hsel ▸ hexact.ascending.sublist (List.filter_sublist.map _)
  have hleaks : ∀ e ∈ selected.map UnclosedExperiment.experimentId,
      s.world.db.Leaks P.manifest.id e := by
    intro e he
    rw [← hexact.complete]
    exact (List.filter_sublist.map _).subset (hsel ▸ he)
  obtain ⟨hlen, hret⟩ := ht.all hg
  have hrec : ∀ e, recordsOf e (log ++ log') = recordsOf e log' := by
    intro e
    rw [recordsOf_append, hscan.recordsOf, List.nil_append]
  have hothers : ∀ e, e ∉ selected.map UnclosedExperiment.experimentId →
      v.db.rowsOf e = s.world.db.rowsOf e := by
    intro e he
    obtain ⟨added, hrows, hadd⟩ := chain_rowsOf hc e
    rw [hrec, ht.recordsOf_notMem he, List.map_eq_nil_iff] at hadd
    rw [hrows, hadd, List.append_nil]
  have htaken : ∀ taken ∈ selected.zip attempts, ∃ added : List Row,
      v.db.rowsOf taken.1.experimentId = s.world.db.rowsOf taken.1.experimentId ++ added ∧
        P.watchdog.Adds taken.1 taken.2 (added.map Row.toRecord) := by
    intro taken hm
    obtain ⟨added, hrows, hadd⟩ := chain_rowsOf hc taken.1.experimentId
    refine ⟨added, hrows, ?_⟩
    rw [hadd, hrec]
    exact ht.adds (hasc.imp fun hlt => hlt.ne) taken hm
  obtain ⟨rows, hrows, hcommitted⟩ := chain_rows hc
  refine ⟨?_, hasc, hlen, ?_, hret, fun taken _ => Watchdog.restored_iff, htaken,
    ⟨rows, hrows.symm⟩, hothers, fun row hr hs hp => hothers _ fun hm => ?_, ?_, ?_⟩
  · rw [Watchdog.selectedAt, show P.watchdog.providerId = P.manifest.id from rfl, hnow, hsel]
    rfl
  · rw [Watchdog.providerCalls, List.filter_append]
    exact (congrArg₂ _ hscan.providerCalls (ht.providerCalls hg)).trans (List.nil_append _)
  · exact hp (h.leaks_provider hr hs (hleaks _ hm))
  · rw [chain_trials hc, List.flatMap_append, hscan.journaled, ht.journaled]
    simp
  · apply h.reselected P hnow hsel hlen hrows (fun e he => (hleaks e he).2) htaken
    intro row hr
    have hm := List.mem_map_of_mem (f := Row.toRecord) hr
    rw [hcommitted, List.flatMap_append, hscan.committed, List.nil_append] at hm
    exact ht.opens_nothing _ hm

lemma scanned (hr : s.world.db.ready = true ∨ s.world.db.records = []) {P : Provider σ}
    {v : World σ} {log : List Calls.Event} {r : Except WatchdogError (List UnclosedExperiment)}
    (hscan : P.watchdog.Scanned log r) (hc : Chain (sem P) s.world log v)
    (hg : ∀ event ∈ log, JournalWorks event.1 event.2) : ∃ now candidates,
      r = .ok candidates ∧ Watchdog.unclosedAt s.world.db P.manifest.id now = .ok candidates := by
  obtain ⟨⟨event, hm, hn⟩, _⟩ | ⟨hn, rfl⟩ | ⟨now, rfl⟩ := (hscan.read hc).2
  · exact absurd (hg event hm) hn
  · obtain ⟨list, hlist, hexact⟩ := h.exact_of_unclosed P.manifest.id 0
    obtain rfl := hexact.eq_nil (hr.resolve_left (by simp [hn]))
    exact ⟨0, [], rfl, hlist⟩
  · obtain ⟨list, hlist, _⟩ := h.exact_of_unclosed P.manifest.id now
    exact ⟨now, list, hlist, hlist⟩

end Ledger

def Record.restored (record : Record) : Bool :=
  record.stage = .watchdogRestore && record.payload.get "restored" == some (.bool true)

def Database.Paired (db : Database) : Prop :=
  ∀ record ∈ db.records, record.restored = true →
    ∃ terminal ∈ db.records, terminal.experimentId = record.experimentId ∧
      terminal.stage = .failed ∧ terminal.byWatchdog = true

lemma committed_paired {t : Task σ} {m : Progress} {o : Op} (ha : t.allows m o) (r : o.Res) :
    ∀ record ∈ committed o r, record.restored = true →
      ∃ terminal ∈ committed o r, terminal.experimentId = record.experimentId ∧
        terminal.stage = .failed ∧ terminal.byWatchdog = true := by
  intro record hm hr
  obtain ⟨_, _, _, rfl, rfl⟩ | ⟨records, rfl, hc⟩ := mem_committed hm
  · cases hr
  rw [hc] at hm ⊢
  obtain ⟨P, request, own, rfl, rfl, hmay⟩ | ⟨P, policy, x, rfl, _, rfl | ⟨error, rfl⟩⟩ := ha.insert
  · obtain rfl := List.mem_singleton.mp hm
    simp [Record.restored, hmay.later.2] at hr
  · refine ⟨_, List.mem_cons_of_mem _ (List.mem_singleton_self _), ?_, rfl, rfl⟩
    exact (Watchdog.successRecords_id hm).symm
  · obtain rfl := List.mem_singleton.mp hm
    cases hr

lemma Reachable.paired {s : Host σ} (h : Reachable s) : s.world.db.Paired := by
  obtain ⟨x, h⟩ := h
  refine (contract σ).invariant (I := fun s => s.world.db.Paired) h (Contract.honest_init _)
    (fun record hm => by cases hm) fun a l b hh ha _ hs => ?_
  cases hs with
  | spawn t _ | crash _ _ => exact ha
  | torn _ _ _ ht =>
    rw [Pool.set_world, torn_db ht]
    exact ha
  | call hp _ hr hs =>
    have hc := committed_paired (hh.allows hp hr)
    rw [Pool.set_world, Database.Paired, sem_records hs]
    intro record hm hrec
    rcases List.mem_append.mp hm with hm | hm
    · obtain ⟨terminal, ht, hrest⟩ := ha record hm hrec
      exact ⟨terminal, List.mem_append_left _ ht, hrest⟩
    · obtain ⟨terminal, ht, hrest⟩ := hc _ record hm hrec
      exact ⟨terminal, List.mem_append_right _ ht, hrest⟩

theorem reclaim_swept {s : Host σ} (h : Reachable s) (P : Provider σ) (policy : ReclaimPolicy) :
    (P.watchdog.reclaim policy).run.Ensures ((sem P).only JournalWorks) s.world
        (fun _ _ => True) ∧
    (∀ tr r v, Steps ((sem P).only JournalWorks) (P.watchdog.reclaim policy).run s.world tr
        (.done r) v →
      ∃ now selected attempts,
        Swept P policy now selected attempts s.world v (tr.map Entry.event) r) ∧
    ∀ tr q v, Steps (sem P) (P.watchdog.reclaim policy).run s.world tr q v → v.db.Paired := by
  have hl := h.ledger
  refine ⟨?_, fun tr r v hs => ?_, fun tr q v hs => ?_⟩
  · rw [Watchdog.reclaim, Program.ensures_run_bind]
    refine (hl.scan_ensures h.ready P rfl).mono ?_
    rintro _ _ ⟨rfl, list, rfl, hx⟩
    cases hready : s.world.db.ready with
    | true => exact (Pass.reclaimAll_ensures hready).mono fun _ _ _ => trivial
    | false =>
      obtain rfl := hx.eq_nil (h.ready.resolve_left (by simp [hready]))
      trivial
  · have hgood : ∀ event ∈ tr.map Entry.event, JournalWorks event.1 event.2 :=
      List.forall_mem_map.mpr hs.good
    obtain ⟨⟨selected, attempts, hpassed⟩, hc⟩ := (P.watchdog.reclaim_logs policy).returned
      (hs.mono fun _ _ _ _ hc => hc.1) fun _ _ => trivial
    generalize tr.map Entry.event = log at hgood hpassed hc
    cases hpassed with
    | unlisted hscan =>
      obtain ⟨_, _, hr, _⟩ := hl.scanned h.ready hscan hc hgood
      cases hr
    | listed hscan ht =>
      obtain ⟨u, hc', _⟩ := chain_append.mp hc
      rw [List.forall_mem_append] at hgood
      obtain ⟨now, _, hr, hnow⟩ := hl.scanned h.ready hscan hc' hgood.1
      cases hr
      exact ⟨now, _, attempts, hl.swept P hscan hnow rfl ht hc hgood.2⟩
  · obtain ⟨s', _, _, hr, rfl, _⟩ := h.task (t := .pass P policy) (hs.map Outcome.pass)
    exact hr.paired

def leakedTwice : Host UInt64 :=
  (mockProvider "linux").play (Pool.init (World.initial 7))
    ((mockProvider "linux").opened ++
      [.spawn 1 (.lifecycle (mockProvider "linux").provider (mockRequest 42)), .go 1 6, .crash 1,
        .spawn 2 (.lifecycle (mockProvider "linux").provider (mockRequest 50)), .go 2 6, .crash 2])

lemma leakedTwice_reachable : Reachable leakedTwice :=
  Device.play_reachable 7 (by simp [Device.opened, Device.Plays, Task.provider])

theorem reclaim_swept_twice : ∃ now selected attempts v log restorations,
    Swept (mockProvider "linux").provider .allUnclosed now selected attempts leakedTwice.world v log
        (.ok restorations) ∧
      restorations.map Restoration.experimentId = [1, 2] ∧
      restorations.map Restoration.restored = [true, true] ∧ v.host = 42 := by
  have hs := Program.advance_done (n := 30) (mockProvider "linux").answer_sem
    (p := ((mockProvider "linux").provider.watchdog.reclaim .allUnclosed).run)
    (w := leakedTwice.world) rfl
  obtain ⟨now, selected, attempts, h⟩ :=
    (reclaim_swept leakedTwice_reachable (mockProvider "linux").provider .allUnclosed).2.1 _ _ _
      (hs.only (by decide))
  exact ⟨now, selected, attempts, _, _, _, h, rfl, rfl, rfl⟩

end FpsMaxxing
