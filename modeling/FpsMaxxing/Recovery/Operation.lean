import FpsMaxxing.Broker.WorkerSpec
import FpsMaxxing.Recovery.Whole

/-! A machine in operation: programs one after another, each to its end or until it dies. Nothing in
the code keeps a program from changing settings while an earlier change is not undone: whoever
operates the machine has to ask `doctor` first. -/

namespace FpsMaxxing

open Effects Serde Dispatch

variable {σ : Type}

def Database.Clear (db : Database) : Prop := ∀ count, danglingCount db = some count → count = 0

def App.watches : App σ → Bool
  | .watchdog _ _ => true
  | _ => false

structure AtRest (P : Provider σ) (x : σ) (app : App σ) (w : World σ) : Prop where
  anchored : Anchored P x w
  baseline : app.watches = false → w.host = x

/-- What one program makes of the world it is started in. It leaves its world at its end or where it
dies, between two calls or inside one. -/
inductive Operation (P : Provider σ) (w : World σ) : Bool → World σ → Prop
  | run {v u : World σ} {app : App σ} {tr : Trace σ} {q : Program Calls Returned} :
      app.provider = P → Steps (sem P) app.start w tr q v → Halts q v u →
      Operation P w app.watches u
  -- the broker opens its journal and then serves whatever connects
  | serve {v u : World σ} {os : String} {tr : Trace σ} {codec : Codec}
      {authorizer : PeerAuthorizer} {s : Broker σ} :
      Steps (sem P) (P.plane.opens os).run w tr (.done (.ok ())) v →
      Broker.Reach P codec authorizer v s → u = s.world ∨ (∃ job o next,
        s.worker = .busy job (.call o next) ∧ torn s.world o u) →
      Operation P w false u

inductive Operated (P : Provider σ) (x : σ) (guard : World σ → Bool → Prop) : World σ → Prop
  | start : Operated P x guard (World.initial x)
  | next {w u : World σ} {watches : Bool} : Operated P x guard w → guard w watches →
      Operation P w watches u → Operated P x guard u

/-- Only a watchdog is started while `doctor` has something to report. -/
def DoctorFirst (w : World σ) (watches : Bool) : Prop := watches = false → w.db.Clear

namespace Anchored

variable {P : Provider σ} {x : σ} {w v u : World σ}

lemma opens (h : Anchored P x w) {os : String} {tr : Trace σ} {q : Program Calls Outcome}
    (hs : Steps (sem P) (Task.opens P os).start w tr q v) (hu : Halts q v u) :
    Anchored P x u ∧ u.host = w.host := by
  have hv : v.host = w.host ∧ v.db.records = w.db.records := by
    refine hs.invariant ((contract σ).obeys (.opens P os)) (I := fun _ v => v.host = w.host ∧
      v.db.records = w.db.records) ⟨rfl, rfl⟩ ?_
    rintro m v o r v' ⟨hh, hr⟩ ha hc
    cases ha
    refine ⟨(sem_journal_host hc).trans hh, ?_⟩
    rw [sem_records hc, hr]
    cases r <;> exact List.append_nil _
  have huv : u.host = v.host := by
    rcases hu with rfl | ⟨o, next, rfl, ht⟩
    · rfl
    · cases (hs.obeys ((contract σ).obeys (.opens P os))).1
      exact congrArg World.host ht
  have hleak : ∀ e, w.db.Leaks P.manifest.id e → u.db.Leaks P.manifest.id e := by
    intro e he
    rw [hu.db]
    exact he.append (by rw [hv.2, List.append_nil]) (List.forall_mem_nil _)
  refine ⟨⟨h.rooted_halt (t := .opens P os) rfl hs hu nofun, ?_⟩, huv.trans hv.1⟩
  rw [huv, hv.1]
  exact h.baseline.imp_right fun ⟨e, he⟩ => ⟨e, hleak e he⟩

end Anchored

namespace AtRest

variable {P : Provider σ} {x : σ} {app : App σ} {w v u : World σ}

lemma task (hP : P.Faithful) (h : AtRest P x app w) (hp : app.provider = P) {t : Task σ}
    (hm : app.Runs t) {tr : Trace σ} {q : Program Calls Outcome}
    (hs : Steps (sem t.provider) t.start w tr q v) (hu : Halts q v u) :
    Anchored P x u ∧ ∀ a, q = .done a → AtRest P x app u := by
  subst hp
  cases t with
  | opens Q os =>
    obtain rfl := hm
    obtain ⟨ha, hh⟩ := h.anchored.opens hs hu
    exact ⟨ha, fun _ _ => ⟨ha, fun hw => hh.trans (h.baseline hw)⟩⟩
  | lifecycle Q request =>
    obtain ⟨rfl, hadmits⟩ := hm
    have hw : app.watches = false := by
      cases app with
      | watchdog P policy => exact hadmits.elim
      | _ => rfl
    obtain ⟨q', rfl, hs'⟩ := hs.of_map
    obtain ⟨ha, hd⟩ := h.anchored.lifecycle hP (h.baseline hw) hs' hu.of_map
    refine ⟨ha, fun a hq => ⟨ha, fun _ => ?_⟩⟩
    cases q' with
    | done r => exact hd r rfl
    | call o next => cases hq
  | pass Q policy =>
    obtain rfl := hm
    obtain ⟨q', rfl, hs'⟩ := hs.of_map
    have ha := h.anchored.pass hP hs' hu.of_map
    exact ⟨ha, fun _ _ => ⟨ha, nofun⟩⟩

lemma turns (hP : P.Faithful) (hp : app.provider = P) (h : AtRest P x app w)
    (ht : Relation.ReflTransGen ((appsLayer σ).Turn app) w v) : AtRest P x app v := by
  induction ht with
  | refl => exact h
  | tail _ ht ih =>
    obtain ⟨t, tr, a, hm, hs⟩ := ht
    exact (ih.task hP hp hm hs (.inl rfl)).2 a rfl

lemma program (hP : P.Faithful) (hp : app.provider = P) (h : AtRest P x app w.bare) {β : Type}
    {p q : Program Calls β} (hc : app.Composed p) {tr : Trace σ} (hs : Steps (sem P) p w tr q v)
    (hu : Halts q v u) : Anchored P x u.bare ∧ ∀ b, q = .done b → AtRest P x app u.bare := by
  subst hp
  obtain ⟨y, hturns, hy⟩ := (appsLayer σ).alone (u := app) hc hs
  have hrest := h.turns hP rfl hturns
  constructor
  · obtain ⟨z, hmore, hz⟩ := hy.stop (z := u) hu
    have hz' := hrest.turns hP rfl hmore
    rcases hz with rfl | ⟨t, tr, r, e, hm, ht, he⟩
    · exact hz'.anchored
    · exact (hz'.task hP rfl hm ht he).1
  · rintro b rfl
    rw [hu.done]
    exact hrest.turns hP rfl hy.done

lemma serve (hP : P.Faithful) (h : Anchored P x w.bare) (hx : w.host = x) {codec : Codec}
    {authorizer : PeerAuthorizer} {s : Broker σ} (hs : Broker.Reach P codec authorizer w s)
    (hu : u = s.world ∨ ∃ job o next, s.worker = .busy job (.call o next) ∧ torn s.world o u) :
    Anchored P x u.bare := by
  obtain ⟨ledger, v, tr, hall, hwk⟩ := (Broker.Sound.reach hs).executed
  have hstart : ∀ requests, AtRest P x (.broker P "" requests) w.bare :=
    fun _ => ⟨h, fun _ => hx⟩
  have hdone := ((hstart _).program hP rfl (App.handleAll_composed (fun _ hm => hm) _) hall
    (.inl rfl)).2 _ rfl
  have hrest : ∀ requests, AtRest P x (.broker P "" requests) v.bare :=
    fun _ => ⟨hdone.anchored, hdone.baseline⟩
  have hhandle : ∀ {request tr residual z z'},
      Steps (sem P) ((BrokerService.new P.plane).handle ledger request) v tr residual z →
      Halts residual z z' → Anchored P x z'.bare := fun hsteps hz =>
    ((hrest [_]).program hP rfl (App.handle_composed (List.mem_singleton_self _) ledger) hsteps
      hz).1
  cases hw : s.worker with
  | idle now =>
    rw [hw] at hwk hu
    obtain ⟨_, rfl, _⟩ := hwk
    obtain rfl | ⟨_, _, _, hb, _⟩ := hu
    · exact hdone.anchored
    · cases hb
  | busy job residual =>
    rw [hw] at hwk hu
    obtain ⟨tr', hsteps, _⟩ := hwk
    apply hhandle hsteps
    obtain rfl | ⟨_, o, next, hb, ht⟩ := hu
    · exact .inl rfl
    · cases hb
      exact .inr ⟨o, next, rfl, ht⟩
  | stopped =>
    rw [hw] at hwk hu
    obtain rfl | ⟨_, _, _, hb, _⟩ := hu
    · by_cases hd : Down s.log
      · obtain ⟨job, tr', residual, z, _, _, hsteps, _, hz⟩ := hwk.2 hd
        exact hhandle hsteps hz
      · rw [← (hwk.1 hd).1]
        exact hdone.anchored
    · cases hb

end AtRest

namespace Operated

variable {P : Provider σ} {x : σ} {w : World σ}

lemma clear_host (h : Anchored P x w.bare) (hc : w.db.Clear) : w.host = x := by
  refine h.baseline.resolve_right ?_
  rintro ⟨e, he⟩
  obtain ⟨s, _, _, _, hready⟩ := h.ledger
  rcases hready with hready | hready
  · exact h.leaks_iff_dangling.mp (hc _ (if_pos hready)) e he
  · obtain ⟨record, hm, _⟩ := he.1
    rw [World.bare_db, Database.bare_records, hready] at hm
    cases hm

lemma anchored (hP : P.Faithful) (h : Operated P x DoctorFirst w) : Anchored P x w.bare := by
  induction h with
  | start => exact .initial P x
  | @next w u watches _ hclear hop ih =>
    cases hop with
    | run hp hs hu =>
      have hrest : AtRest P x _ _ := ⟨ih, fun hw => clear_host ih (hclear hw)⟩
      exact (hrest.program hP hp (App.start_composed _) hs hu).1
    | @serve v u os tr codec authorizer s hopen hreach hu =>
      have hrest : AtRest P x (.broker P os []) w.bare := ⟨ih, fun _ => clear_host ih (hclear rfl)⟩
      have hv := (hrest.program hP rfl (App.opens_composed rfl) hopen (.inl rfl)).2 _ rfl
      exact AtRest.serve hP hv.anchored (hv.baseline rfl) hreach hu

end Operated

/-- As long as `doctor` is asked first: when it has nothing to report the setting is the baseline, and
`--recover-all` with a working journal brings the baseline back and names all it recovered, whatever
was run before and wherever it died. -/
theorem operated_recovers {P : Provider σ} {x : σ} {w : World σ} (hP : P.Faithful)
    (h : Operated P x DoctorFirst w) :
    (w.db.Clear → w.host = x) ∧
      (P.watchdog.reclaim .allUnclosed).run.Ensures ((sem P).only JournalWorks) w fun r u =>
        u.host = x ∧ ∃ restorations, r = .ok restorations ∧
          (∀ e, e ∈ restorations.map Restoration.experimentId ↔ w.db.Leaks P.manifest.id e) ∧
          (P.Restores →
            (∀ restoration ∈ restorations, restoration.restored = true) ∧ u.db.Clear) := by
  have ha := h.anchored hP
  refine ⟨Operated.clear_host ha, ((ha.recover hP).from .start).mono ?_⟩
  rintro r u ⟨⟨hu, restorations, rfl, hids, hall⟩, tr, hs⟩
  refine ⟨hu, restorations, rfl, hids, fun hres => ⟨(hall hres).1, fun count hc => ?_⟩⟩
  have hsteps : Steps (sem P) (App.watchdog P .allUnclosed).start w tr _ u :=
    (hs.mono fun _ _ _ _ hc => hc.1).map Returned.watchdog
  have hop : Operation P w true u :=
    @Operation.run σ P w u u (.watchdog P .allUnclosed) tr _ rfl hsteps (.inl rfl)
  have hleft : Anchored P x u.bare :=
    (Operated.next h Bool.noConfusion hop).anchored hP
  rw [danglingCount, Option.ite_none_right_eq_some] at hc
  obtain ⟨_, hc⟩ := hc
  rw [← Option.some.inj hc]
  exact hleft.leaks_iff_dangling.mpr (hall hres).2

theorem operated_recovers_broker : appliedByBroker.world.host = 42 ∧
    danglingCount appliedByBroker.world.db = some 1 ∧
    ((mockProvider "linux").provider.watchdog.reclaim .allUnclosed).run.Ensures
      ((sem (mockProvider "linux").provider).only JournalWorks) appliedByBroker.world fun _ u =>
        u.host = 7 ∧ u.db.Clear := by
  have hf := mockProvider_faithful "linux"
  have hs := Program.advance_steps (mockProvider "linux").answer_sem 7
    (App.broker (mockProvider "linux").provider "linux"
      [⟨.runLifecycle, some "owner", some (mockRequest 42)⟩]).start (World.initial 7)
  have h : Operated (mockProvider "linux").provider 7 DoctorFirst appliedByBroker.world :=
    .next .start (fun _ => nofun) (.run rfl hs (.inl rfl))
  refine ⟨rfl, by decide +kernel, (operated_recovers hf h).2.mono ?_⟩
  rintro r u ⟨hu, restorations, _, _, hall⟩
  exact ⟨hu, (hall (Device.restores hf)).2⟩

end FpsMaxxing
