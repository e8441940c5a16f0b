import FpsMaxxing.Host.Ledger

/-! Schedules that can be computed, over a provider whose methods are functions. -/

namespace FpsMaxxing

open Effects Serde

variable {σ : Type}

inductive Act (σ : Type)
  | spawn (i : ℕ) (t : Task σ)
  | go (i n : ℕ)
  | crash (i : ℕ)

def Device.act (d : Device σ) (s : Host σ) : Act σ → Host σ
  | .spawn i t =>
    match s.procs i with
    | none => s.set i (.fresh (system σ) t) s.world
    | some _ => s
  | .go i n =>
    match s.procs i with
    | some p =>
      if p.alive then s.advance d.answer i p n else s
    | none => s
  | .crash i =>
    match s.procs i with
    | some p => if p.alive then s.set i p.dead s.world else s
    | none => s

def Device.play (d : Device σ) (s : Host σ) (acts : List (Act σ)) : Host σ := acts.foldl d.act s

def Device.Drives (d : Device σ) (s : Host σ) : Prop :=
  ∀ i p, s.procs i = some p → p.task.provider = d.provider

def Device.Plays (d : Device σ) : Act σ → Prop
  | .spawn _ t => t.provider = d.provider
  | _ => True

def Device.Checks (d : Device σ) (guard : Host σ → Label (Task σ) → Prop) (s : Host σ) :
    Act σ → Prop
  | .spawn i t => guard s (.spawn i t)
  | .go i n => ∀ k < n, guard (d.act s (.go i k)) (.call i)
  | .crash i => guard s (.crash i)

def Device.ChecksAll (d : Device σ) (guard : Host σ → Label (Task σ) → Prop) :
    Host σ → List (Act σ) → Prop
  | _, [] => True
  | s, a :: acts => d.Checks guard s a ∧ d.ChecksAll guard (d.act s a) acts

variable {d : Device σ} {s : Host σ}

lemma Device.checksAll {guard : Host σ → Label (Task σ) → Prop} {acts : List (Act σ)}
    (h : ∀ s, ∀ a ∈ acts, d.Checks guard s a) : d.ChecksAll guard s acts := by
  induction acts generalizing s with
  | nil => trivial
  | cons a acts ih =>
    exact ⟨h s a List.mem_cons_self, ih fun s a ha => h s a (List.mem_cons_of_mem _ ha)⟩

lemma Device.Drives.set (h : d.Drives s) {i : ℕ} {p : Proc σ} {w : World σ}
    (hp : p.task.provider = d.provider) : d.Drives (s.set i p w) :=
  Pool.forall_set hp fun j q _ => h j q

lemma Device.act_go_ne {i j n : ℕ} (hj : j ≠ i) :
    (d.act s (.go i n)).procs j = s.procs j := by
  rw [Device.act]
  cases s.procs i with
  | none => rfl
  | some p =>
    dsimp only
    split_ifs
    · exact Pool.set_procs_ne _ hj _ _
    · rfl

lemma Device.act_run {guard : Host σ → Label (Task σ) → Prop} (h : d.Drives s) {a : Act σ}
    (ha : d.Plays a) (hc : d.Checks guard s a) :
    (system σ).Run guard s (d.act s a) ∧ d.Drives (d.act s a) := by
  cases a with
  | spawn i t =>
    rw [Device.act]
    cases hi : s.procs i with
    | none => exact ⟨.single ⟨_, hc, .spawn t hi⟩, h.set ha⟩
    | some p => exact ⟨.refl, h⟩
  | go i n =>
    rw [Device.act]
    cases hi : s.procs i with
    | none => exact ⟨.refl, h⟩
    | some p =>
      dsimp only
      split_ifs with hal
      · have hsem : (system σ).sem p.task = sem d.provider := by
          rw [← h i p hi]
          rfl
        refine ⟨System.run_of_advance hi hal (fun w o => hsem ▸ d.answer_sem w o) fun k hk => ?_,
          h.set (h i p hi)⟩
        have hk := hc k hk
        simpa only [Device.act, hi, hal, if_true] using hk
      · exact ⟨.refl, h⟩
  | crash i =>
    rw [Device.act]
    cases hi : s.procs i with
    | none => exact ⟨.refl, h⟩
    | some p =>
      dsimp only
      split_ifs with hal
      · exact ⟨.single ⟨_, hc, .crash hi hal⟩, h.set (h i p hi)⟩
      · exact ⟨.refl, h⟩

lemma Device.play_run {guard : Host σ → Label (Task σ) → Prop} {acts : List (Act σ)}
    (h : d.Drives s) (ha : ∀ a ∈ acts, d.Plays a) (hc : d.ChecksAll guard s acts) :
    (system σ).Run guard s (d.play s acts) ∧ d.Drives (d.play s acts) := by
  induction acts generalizing s with
  | nil => exact ⟨.refl, h⟩
  | cons a acts ih =>
    obtain ⟨hrun, hd⟩ := Device.act_run h (ha a List.mem_cons_self) hc.1
    obtain ⟨hrun', hd'⟩ := ih hd (fun a h => ha a (List.mem_cons_of_mem _ h)) hc.2
    exact ⟨hrun.trans hrun', hd'⟩

lemma Device.drives_init (x : σ) : d.Drives (Pool.init (World.initial x)) := by
  intro i p hp
  cases hp

lemma Device.play_reachable {acts : List (Act σ)} (x : σ) (ha : ∀ a ∈ acts, d.Plays a) :
    Reachable (d.play (Pool.init (World.initial x)) acts) := by
  refine ⟨x, (Device.play_run (Device.drives_init x) ha ?_).1⟩
  refine Device.checksAll fun s a _ => ?_
  cases a
  all_goals simp [Device.Checks]

def Device.opened (d : Device σ) : List (Act σ) := [.spawn 0 (.opens d.provider "linux"), .go 0 1]

end FpsMaxxing
