import FpsMaxxing.Effects.Pool

/-! Programs put together from the tasks of a system. Such a program runs one task after another and
may make calls of its own between them, so that a pool of such programs is a pool of their tasks. -/

namespace FpsMaxxing.Effects

variable {S : Signature} {W V T U M α β γ : Type}

inductive Composed (sys : System S V T α) (may : T → Prop) (aside : S.Op → Prop) :
    Program S β → Prop
  | done (b : β) : Composed sys may aside (.done b)
  | aside {o : S.Op} {next : S.Res o → Program S β} : aside o →
      (∀ r, Composed sys may aside (next r)) → Composed sys may aside (.call o next)
  | task {γ : Type} {t : T} {p : Program S γ} {g : γ → α} {f : γ → Program S β} : may t →
      sys.start t = g <$> p → (∀ a, Composed sys may aside (f a)) →
      Composed sys may aside (p >>= f)

def Continues (sys : System S V T α) (may : T → Prop) (aside : S.Op → Prop) (r : Program S α)
    (q : Program S β) : Prop :=
  ∃ (γ : Type) (p : Program S γ) (g : γ → α) (f : γ → Program S β), r = g <$> p ∧ q = p >>= f ∧
    ∀ a, Composed sys may aside (f a)

section

variable {sys : System S V T α} {may : T → Prop} {aside : S.Op → Prop} {p : Program S γ}
  {o : S.Op} {next : S.Res o → Program S β}

lemma Continues.call {r : Program S α} (h : Continues sys may aside r (.call o next)) :
    (∃ a, r = .done a) ∧ Composed sys may aside (.call o next) ∨
      ∃ later : S.Res o → Program S α, r = .call o later ∧
        ∀ x, Continues sys may aside (later x) (next x) := by
  obtain ⟨γ, p, g, f, rfl, hq, hf⟩ := h
  cases p with
  | done a =>
    rw [Program.done_bind] at hq
    exact .inl ⟨⟨g a, rfl⟩, hq ▸ hf a⟩
  | call o' first =>
    rw [Program.call_bind] at hq
    cases hq
    exact .inr ⟨_, rfl, fun x => ⟨γ, first x, g, f, rfl, rfl, hf⟩⟩

lemma Continues.done {r : Program S α} {b : β} (h : Continues sys may aside r (.done b)) :
    ∃ a, r = .done a := by
  obtain ⟨γ, p, g, f, rfl, hq, _⟩ := h
  cases p with
  | done a => exact ⟨g a, rfl⟩
  | call o' first => cases hq

namespace Composed

lemma bind {f : γ → Program S β} (h : Composed sys may aside p)
    (hf : ∀ a, Composed sys may aside (f a)) : Composed sys may aside (p >>= f) := by
  induction h with
  | done a => exact hf a
  | aside ho _ ih => exact .aside ho ih
  | task ht hs _ ih =>
    rw [bind_assoc]
    exact .task ht hs ih

lemma map (f : γ → β) (h : Composed sys may aside p) : Composed sys may aside (f <$> p) := by
  rw [← bind_pure_comp]
  exact h.bind fun a => .done (f a)

lemma of_task {t : T} {g : γ → α} (ht : may t) (hs : sys.start t = g <$> p) :
    Composed sys may aside p := by
  rw [← bind_pure p]
  exact .task ht hs .done

lemma perform (ho : aside o) : Composed sys may aside (Program.perform o) :=
  .aside ho .done

lemma interpret {R : Signature} {mon : Monitor R M} {m : M} {post : β → M → Prop}
    {handle : (o : R.Op) → Program S (R.Res o)} {q : Program R β} (h : q.Obeys mon m post)
    (hh : ∀ m o, mon.allows m o → Composed sys may aside (handle o)) :
    Composed sys may aside (q.interpret handle) := by
  induction q generalizing m with
  | done b => exact .done b
  | call o next ih =>
    rw [Program.interpret]
    exact (hh m o h.1).bind fun r => ih r (h.2 r)

lemma call (h : Composed sys may aside (.call o next)) :
    aside o ∧ (∀ r, Composed sys may aside (next r)) ∨
      ∃ (t : T) (later : S.Res o → Program S α), may t ∧ sys.start t = .call o later ∧
        ∀ x, Continues sys may aside (later x) (next x) := by
  generalize hp : Program.call o next = p at h
  induction h with
  | done b => cases hp
  | aside ho hn _ =>
    cases hp
    exact .inl ⟨ho, hn⟩
  | @task γ t p g f ht hs hf ih =>
    cases p with
    | done a => exact ih a hp
    | call o' first =>
      rw [Program.call_bind] at hp
      cases hp
      exact .inr ⟨t, _, ht, hs, fun x => ⟨γ, first x, g, f, rfl, rfl, hf⟩⟩

end Composed

end

lemma Contract.allows_start {sys : System S V T α} (c : Contract sys M) {t : T} {o : S.Op}
    {next : S.Res o → Program S α} (h : sys.start t = .call o next) : c.allows t c.start o := by
  have ho := c.obeys t
  rw [h] at ho
  exact ho.1

/-- A system whose programs are composed from the tasks of another one. What the calls beside the
tasks change is not seen in the world of the tasks. -/
structure Layer (upper : System S W U β) (lower : System S V T α) (M : Type) where
  contract : Contract lower M
  view : W → V
  may : U → T → Prop
  aside : U → S.Op → Prop
  composed : ∀ u, Composed lower (may u) (aside u) (upper.start u)
  task_sem : ∀ {u t m w o r w'}, may u t → contract.allows t m o → upper.sem u w o r w' →
    lower.sem t (view w) o r (view w')
  task_torn : ∀ {u t m w o w'}, may u t → contract.allows t m o → upper.torn u o w w' →
    lower.torn t o (view w) (view w')
  aside_sem : ∀ {u w o r w'}, aside u o → upper.sem u w o r w' → view w' = view w
  aside_torn : ∀ {u w o w'}, aside u o → upper.torn u o w w' → view w' = view w

namespace Layer

variable {upper : System S W U β} {lower : System S V T α} (L : Layer upper lower M)

/-- `inside i` is the process that runs the task in which program `i` stands, if it is in one. -/
structure Simulates (s : Pool S W U β) (c : Pool S V T α) (inside : ℕ → Option ℕ) : Prop where
  world : c.world = L.view s.world
  resting : ∀ i p, s.procs i = some p → p.alive = true → inside i = none →
    Composed lower (L.may p.task) (L.aside p.task) p.residual
  within : ∀ i p k, s.procs i = some p → p.alive = true → inside i = some k →
    ∃ r, c.procs k = some r ∧ r.alive = true ∧ L.may p.task r.task ∧
      Continues lower (L.may p.task) (L.aside p.task) r.residual p.residual
  used : ∀ i k, inside i = some k → ∃ r, c.procs k = some r
  apart : ∀ i j k, inside i = some k → inside j = some k → i = j
  owned : ∀ k r, c.procs k = some r → ∃ i p, s.procs i = some p ∧ L.may p.task r.task

namespace Simulates

variable {L} {s s' : Pool S W U β} {c : Pool S V T α} {inside : ℕ → Option ℕ} {i k : ℕ}
  {p q : Process S W U β} {r : Process S V T α} {w : W}

lemma init (w : W) : L.Simulates (Pool.init w) (Pool.init (L.view w)) fun _ => none where
  world := rfl
  resting i p hp := by simp [Pool.init] at hp
  within i p k hp := by simp [Pool.init] at hp
  used i k hk := by cases hk
  apart i j k hk := by cases hk
  owned k r hr := by simp [Pool.init] at hr

lemma owned_set (h : L.Simulates s c inside) (hi : s.procs i = none ∨ s.procs i = some p)
    (ht : q.task = p.task) (k : ℕ) (r : Process S V T α) (hr : c.procs k = some r) :
    ∃ j p', (s.set i q w).procs j = some p' ∧ L.may p'.task r.task := by
  obtain ⟨j, p', hp', hm⟩ := h.owned k r hr
  by_cases hj : j = i
  · subst hj
    refine ⟨j, q, Pool.set_procs_self _ _ _ _, ?_⟩
    rcases hi with hi | hi
    · cases hi.symm.trans hp'
    · cases hi.symm.trans hp'
      rwa [ht]
  · exact ⟨j, p', (Pool.set_procs_ne _ hj _ _).trans hp', hm⟩

lemma still (h : L.Simulates s c inside) (hi : s.procs i = none ∨ s.procs i = some p)
    (ht : q.task = p.task) (hw : L.view w = L.view s.world)
    (hq : q.alive = true → Composed lower (L.may q.task) (L.aside q.task) q.residual) :
    L.Simulates (s.set i q w) c (Function.update inside i none) where
  world := h.world.trans hw.symm
  resting := by
    apply Pool.forall_set (I := fun j p' => p'.alive = true →
      Function.update inside i none j = none → Composed lower (L.may p'.task) (L.aside p'.task) p'.residual)
    · exact fun ha _ => hq ha
    · intro j p' hj hp' ha hn
      rw [Function.update_of_ne hj] at hn
      exact h.resting j p' hp' ha hn
  within j p' k hp' ha hk := by
    rw [Function.update_apply] at hk
    split_ifs at hk with hj
    rw [Pool.set_procs_ne _ hj] at hp'
    exact h.within j p' k hp' ha hk
  used j k hk := by
    rw [Function.update_apply] at hk
    split_ifs at hk with hj
    exact h.used j k hk
  apart j j' k hj hj' := by
    rw [Function.update_apply] at hj hj'
    split_ifs at hj hj'
    exact h.apart j j' k hj hj'
  owned := h.owned_set hi ht

lemma together (h : L.Simulates s c inside) (hi : s.procs i = some p) (ht : q.task = p.task)
    (hk : ∀ j, inside j = some k → j = i) (hm : L.may q.task r.task)
    (hq : q.alive = true → r.alive = true ∧
      Continues lower (L.may q.task) (L.aside q.task) r.residual q.residual) :
    L.Simulates (s.set i q w) (c.set k r (L.view w)) (Function.update inside i (some k)) where
  world := rfl
  resting j p' hp' ha' hn := by
    rw [Function.update_apply] at hn
    split_ifs at hn with hj
    rw [Pool.set_procs_ne _ hj] at hp'
    exact h.resting j p' hp' ha' hn
  within := by
    intro j p' k' hp' ha' hk'
    rw [Function.update_apply] at hk'
    split_ifs at hk' with hj
    · cases hk'
      subst hj
      cases (Pool.set_procs_self s j q w).symm.trans hp'
      obtain ⟨ha, hq⟩ := hq ha'
      exact ⟨r, Pool.set_procs_self _ _ _ _, ha, hm, hq⟩
    · rw [Pool.set_procs_ne _ hj] at hp'
      have hne : k' ≠ k := by
        rintro rfl
        exact hj (hk j hk')
      rw [Pool.set_procs_ne _ hne]
      exact h.within j p' k' hp' ha' hk'
  used j k' hk' := by
    by_cases hkk : k' = k
    · exact ⟨r, hkk ▸ Pool.set_procs_self _ _ _ _⟩
    · rw [Function.update_apply] at hk'
      split_ifs at hk' with hj
      · cases hk'
        exact absurd rfl hkk
      · rw [Pool.set_procs_ne _ hkk]
        exact h.used j k' hk'
  apart j j' k' hj hj' := by
    rw [Function.update_apply] at hj hj'
    split_ifs at hj hj' with h₁ h₂ h₂
    · exact h₁.trans h₂.symm
    · cases hj
      exact absurd (hk j' hj') h₂
    · cases hj'
      exact absurd (hk j hj) h₁
    · exact h.apart j j' k' hj hj'
  owned := by
    apply Pool.forall_set (I := fun _ r' => ∃ j p', (s.set i q w).procs j = some p' ∧ L.may p'.task r'.task)
    · exact ⟨i, q, Pool.set_procs_self _ _ _ _, hm⟩
    · exact fun k' r' _ hr' => h.owned_set (.inr hi) ht k' r' hr'

lemma free (h : L.Simulates s c inside) (hk : c.procs k = none) (j : ℕ) (hj : inside j = some k) :
    j = i := by
  obtain ⟨r, hr⟩ := h.used j k hj
  cases hk.symm.trans hr

lemma begin {t : T} {o : S.Op} {later : S.Res o → Program S α} {x : S.Res o}
    (h : L.Simulates s c inside) (hi : s.procs i = some p) (ht : q.task = p.task)
    (hk : c.procs k = none) (hm : L.may q.task t) (hs : lower.start t = .call o later)
    (hsem : upper.sem q.task s.world o x w)
    (hq : Continues lower (L.may q.task) (L.aside q.task) (later x) q.residual) :
    ∃ c' inside', lower.Reach c c' ∧ L.Simulates (s.set i q w) c' inside' := by
  have hcall : lower.sem t c.world o x (L.view w) := by
    rw [h.world]
    exact L.task_sem hm (L.contract.allows_start hs) hsem
  let r : Process S V T α := (Process.fresh lower t).after c.world o x (later x)
  have hset : (c.set k (.fresh lower t) c.world).set k r (L.view w) = c.set k r (L.view w) := by
    simp [Pool.set]
  refine ⟨c.set k r (L.view w), Function.update inside i (some k), ?_, ?_⟩
  · have hspawn : lower.Reach c (c.set k (.fresh lower t) c.world) :=
      .single ⟨_, trivial, .spawn t hk⟩
    refine hspawn.tail ⟨.call k, trivial, ?_⟩
    rw [← hset]
    exact .call (Pool.set_procs_self _ _ _ _) rfl hs hcall
  · exact h.together (r := r) hi ht (h.free hk) hm fun _ => ⟨rfl, hq⟩

lemma call {o : S.Op} {next : S.Res o → Program S β} {x : S.Res o}
    (h : L.Simulates s c inside) (hc : L.contract.Honest c) (hroom : ∃ k, c.procs k = none)
    (hi : s.procs i = some p) (ha : p.alive = true) (hr : p.residual = .call o next)
    (hs : upper.sem p.task s.world o x w) :
    ∃ c' inside', lower.Reach c c' ∧
      L.Simulates (s.set i (p.after s.world o x (next x)) w) c' inside' := by
  have hcomposed : Composed lower (L.may p.task) (L.aside p.task) (.call o next) →
      ∃ c' inside', lower.Reach c c' ∧
        L.Simulates (s.set i (p.after s.world o x (next x)) w) c' inside' := by
    intro hp
    rcases hp.call with ⟨ho, hn⟩ | ⟨t, later, hm, ht, hn⟩
    · exact ⟨c, _, .refl, h.still (.inr hi) rfl (L.aside_sem ho hs) fun _ => hn x⟩
    · obtain ⟨k, hk⟩ := hroom
      exact h.begin hi rfl hk hm ht hs (hn x)
  cases hk : inside i with
  | none => exact hcomposed (hr ▸ h.resting i p hi ha hk)
  | some k =>
    obtain ⟨r, hkr, har, hm, hq⟩ := h.within i p k hi ha hk
    rw [hr] at hq
    rcases hq.call with ⟨_, hp⟩ | ⟨later, hl, hn⟩
    · exact hcomposed hp
    · have hcall : lower.sem r.task c.world o x (L.view w) := by
        rw [h.world]
        exact L.task_sem hm (hc.allows hkr hl) hs
      refine ⟨_, Function.update inside i (some k),
        .single ⟨_, trivial, .call hkr har hl hcall⟩, ?_⟩
      exact h.together hi rfl (fun j hj => h.apart j i k hj hk) hm fun _ => ⟨har, hn x⟩

lemma torn {o : S.Op} {next : S.Res o → Program S β} (h : L.Simulates s c inside)
    (hc : L.contract.Honest c) (hroom : ∃ k, c.procs k = none) (hi : s.procs i = some p)
    (ha : p.alive = true) (hr : p.residual = .call o next)
    (ht : upper.torn p.task o s.world w) :
    ∃ c' inside', lower.Reach c c' ∧ L.Simulates (s.set i p.dead w) c' inside' := by
  have hcomposed : Composed lower (L.may p.task) (L.aside p.task) (.call o next) →
      ∃ c' inside', lower.Reach c c' ∧ L.Simulates (s.set i p.dead w) c' inside' := by
    intro hp
    rcases hp.call with ⟨ho, _⟩ | ⟨t, later, hm, hs, _⟩
    · exact ⟨c, _, .refl, h.still (.inr hi) rfl (L.aside_torn ho ht) nofun⟩
    · obtain ⟨k, hk⟩ := hroom
      have hspawn : lower.Reach c (c.set k (.fresh lower t) c.world) :=
        .single ⟨_, trivial, .spawn t hk⟩
      have htorn : lower.torn t o c.world (L.view w) := by
        rw [h.world]
        exact L.task_torn hm (L.contract.allows_start hs) ht
      have hset : (c.set k (.fresh lower t) c.world).set k (Process.fresh lower t).dead (L.view w) =
          c.set k (Process.fresh lower t).dead (L.view w) := by
        simp [Pool.set]
      refine ⟨_, Function.update inside i (some k), hspawn.tail ⟨.crash k, trivial,
        .torn (Pool.set_procs_self _ _ _ _) rfl hs htorn⟩, ?_⟩
      rw [hset]
      exact h.together (q := p.dead) hi rfl (h.free hk) hm nofun
  cases hk : inside i with
  | none => exact hcomposed (hr ▸ h.resting i p hi ha hk)
  | some k =>
    obtain ⟨r, hkr, har, hm, hq⟩ := h.within i p k hi ha hk
    rw [hr] at hq
    rcases hq.call with ⟨_, hp⟩ | ⟨later, hl, _⟩
    · exact hcomposed hp
    · have htorn : lower.torn r.task o c.world (L.view w) := by
        rw [h.world]
        exact L.task_torn hm (hc.allows hkr hl) ht
      refine ⟨_, Function.update inside i (some k),
        .single ⟨.crash k, trivial, .torn hkr har hl htorn⟩, ?_⟩
      exact h.together (q := p.dead) hi rfl (fun j hj => h.apart j i k hj hk) hm nofun

lemma step {l : Label U} (h : L.Simulates s c inside)
    (hc : L.contract.Honest c) (hroom : ∃ k, c.procs k = none) (hs : upper.Step s l s') :
    ∃ c' inside', lower.Reach c c' ∧ L.Simulates s' c' inside' := by
  cases hs with
  | spawn u hi => exact ⟨c, _, .refl, h.still (p := .fresh upper u) (.inl hi) rfl rfl fun _ => L.composed u⟩
  | call hi ha hr hs => exact h.call hc hroom hi ha hr hs
  | crash hi _ => exact ⟨c, _, .refl, h.still (.inr hi) rfl rfl nofun⟩
  | torn hi ha hr ht => exact h.torn hc hroom hi ha hr ht

lemma run {guard : Pool S W U β → Label U → Prop} (h : L.Simulates s c inside)
    (hrun : lower.Reach (Pool.init (L.view w)) c) (hs : upper.Run guard s s') :
    ∃ c' inside', lower.Reach c c' ∧ L.Simulates s' c' inside' := by
  induction hs with
  | refl => exact ⟨c, inside, .refl, h⟩
  | tail _ hs ih =>
    obtain ⟨c', inside', hmore, h'⟩ := ih
    obtain ⟨l, _, hs⟩ := hs
    have hrun' : lower.Reach (Pool.init (L.view w)) c' := hrun.trans hmore
    obtain ⟨c'', inside'', hlast, h''⟩ :=
      h'.step ((Contract.honest_init _).run hrun') hrun'.room hs
    exact ⟨c'', inside'', hmore.trans hlast, h''⟩

end Simulates

/-- Every run of the programs is a run of their tasks. -/
theorem refines {w : W} {s : Pool S W U β} {guard : Pool S W U β → Label U → Prop}
    (h : upper.Run guard (Pool.init w) s) : ∃ c inside,
      lower.Reach (Pool.init (L.view w)) c ∧ L.Simulates s c inside :=
  Simulates.run (.init w) .refl h

def Turn (u : U) (x y : V) : Prop :=
  ∃ t tr a, L.may u t ∧ Steps (lower.sem t) (lower.start t) x tr (.done a) y

def Stands (u : U) (x : V) (q : Program S γ) (v : W) : Prop :=
  (x = L.view v ∧ Composed lower (L.may u) (L.aside u) q) ∨
    ∃ t tr r, L.may u t ∧ Steps (lower.sem t) (lower.start t) x tr r (L.view v) ∧
      Continues lower (L.may u) (L.aside u) r q

section Alone

variable {L} {u : U} {x : V} {w v z : W} {tr : List (Entry S W)} {p q : Program S γ} {o : S.Op}
  {next : S.Res o → Program S γ}

lemma Stands.settle (h : L.Stands u x (.call o next) v) :
    ∃ y, Relation.ReflTransGen (L.Turn u) x y ∧
      (y = L.view v ∧ L.aside u o ∧ (∀ a, Composed lower (L.may u) (L.aside u) (next a)) ∨
        ∃ t tr later, L.may u t ∧
          Steps (lower.sem t) (lower.start t) y tr (.call o later) (L.view v) ∧
          ∀ a, Continues lower (L.may u) (L.aside u) (later a) (next a)) := by
  have hcomposed : ∀ y, y = L.view v → Composed lower (L.may u) (L.aside u) (.call o next) →
      (y = L.view v ∧ L.aside u o ∧ (∀ a, Composed lower (L.may u) (L.aside u) (next a)) ∨
        ∃ t tr later, L.may u t ∧
          Steps (lower.sem t) (lower.start t) y tr (.call o later) (L.view v) ∧
          ∀ a, Continues lower (L.may u) (L.aside u) (later a) (next a)) := by
    rintro y rfl hp
    rcases hp.call with ⟨ho, hn⟩ | ⟨t, later, hm, ht, hn⟩
    · exact .inl ⟨rfl, ho, hn⟩
    · exact .inr ⟨t, [], later, hm, ht ▸ .start, hn⟩
  rcases h with ⟨rfl, hp⟩ | ⟨t, tr, r, hm, hs, hq⟩
  · exact ⟨_, .refl, hcomposed _ rfl hp⟩
  · rcases hq.call with ⟨⟨a, rfl⟩, hp⟩ | ⟨later, rfl, hn⟩
    · exact ⟨_, .single ⟨t, tr, a, hm, hs⟩, hcomposed _ rfl hp⟩
    · exact ⟨x, .refl, .inr ⟨t, tr, later, hm, hs, hn⟩⟩

variable (L) in
lemma task_allows {t : T} {y : V} {tr : List (Entry S V)} {later : S.Res o → Program S α}
    (hs : Steps (lower.sem t) (lower.start t) x tr (.call o later) y) :
    ∃ m, L.contract.allows t m o :=
  ⟨_, (hs.obeys (L.contract.obeys t)).1⟩

lemma Stands.call {a : S.Res o} (h : L.Stands u x (.call o next) v)
    (hc : upper.sem u v o a z) :
    ∃ y, Relation.ReflTransGen (L.Turn u) x y ∧ L.Stands u y (next a) z := by
  obtain ⟨y, hturns, ⟨rfl, ho, hn⟩ | ⟨t, tr, later, hm, hs, hn⟩⟩ := h.settle
  · exact ⟨_, hturns, .inl ⟨(L.aside_sem ho hc).symm, hn a⟩⟩
  · obtain ⟨m, ha⟩ := L.task_allows hs
    exact ⟨y, hturns, .inr ⟨t, _, later a, hm, hs.call (L.task_sem hm ha hc), hn a⟩⟩

lemma alone (hp : Composed lower (L.may u) (L.aside u) p)
    (hs : Steps (upper.sem u) p w tr q v) :
    ∃ x, Relation.ReflTransGen (L.Turn u) (L.view w) x ∧ L.Stands u x q v := by
  induction hs with
  | start => exact ⟨_, .refl, .inl ⟨rfl, hp⟩⟩
  | call _ hc ih =>
    obtain ⟨x, hturns, hx⟩ := ih
    obtain ⟨y, hmore, hy⟩ := hx.call hc
    exact ⟨y, hturns.trans hmore, hy⟩

lemma Stands.done {b : γ} (h : L.Stands u x (.done b) v) :
    Relation.ReflTransGen (L.Turn u) x (L.view v) := by
  rcases h with ⟨rfl, _⟩ | ⟨t, tr, r, hm, hs, hq⟩
  · exact .refl
  · obtain ⟨a, rfl⟩ := hq.done
    exact .single ⟨t, tr, a, hm, hs⟩

lemma Stands.stop (h : L.Stands u x q v)
    (hz : z = v ∨ ∃ o next, q = .call o next ∧ upper.torn u o v z) :
    ∃ y, Relation.ReflTransGen (L.Turn u) x y ∧ (y = L.view z ∨
      ∃ t tr r e, L.may u t ∧ Steps (lower.sem t) (lower.start t) y tr r e ∧
        (L.view z = e ∨ ∃ o later, r = .call o later ∧ lower.torn t o e (L.view z))) := by
  rcases hz with rfl | ⟨o, next, rfl, ht⟩
  · rcases h with ⟨rfl, _⟩ | ⟨t, tr, r, hm, hs, _⟩
    · exact ⟨_, .refl, .inl rfl⟩
    · exact ⟨x, .refl, .inr ⟨t, tr, r, _, hm, hs, .inl rfl⟩⟩
  · obtain ⟨y, hturns, ⟨rfl, ho, _⟩ | ⟨t, tr, later, hm, hs, _⟩⟩ := h.settle
    · exact ⟨_, hturns, .inl (L.aside_torn ho ht).symm⟩
    · obtain ⟨m, ha⟩ := L.task_allows hs
      exact ⟨y, hturns, .inr ⟨t, tr, _, _, hm, hs, .inr ⟨o, later, rfl, L.task_torn hm ha ht⟩⟩⟩

end Alone

end Layer

end FpsMaxxing.Effects
