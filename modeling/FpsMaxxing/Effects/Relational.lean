import FpsMaxxing.Effects.Monitor

/-! Two programs side by side: while their calls are answered alike, they make the same calls and
return related values. -/

namespace FpsMaxxing.Effects

variable {S : Signature} {same : S.Op → S.Op → Prop} {alike : S.Event → S.Event → Prop}
  {α α' β β' ε ε' δ δ' : Type}

namespace Program

inductive Coupled (same : S.Op → S.Op → Prop) (alike : S.Event → S.Event → Prop)
    (post : α → β → Prop) : Program S α → Program S β → Prop
  | done {a b} : post a b → Coupled same alike post (.done a) (.done b)
  | call {o o' next next'} : same o o' →
      (∀ r r', alike ⟨o, r⟩ ⟨o', r'⟩ → Coupled same alike post (next r) (next' r')) →
      Coupled same alike post (.call o next) (.call o' next')

variable {p : Program S α} {q : Program S β} {post : α → β → Prop}

lemma Coupled.bind {f : α → Program S α'} {g : β → Program S β'} {post' : α' → β' → Prop}
    (h : Coupled same alike post p q)
    (hf : ∀ a b, post a b → Coupled same alike post' (f a) (g b)) :
    Coupled same alike post' (p >>= f) (q >>= g) := by
  induction h with
  | done hab => exact hf _ _ hab
  | call hs _ ih => exact .call hs ih

lemma Coupled.map {f : α → α'} {g : β → β'} {post' : α' → β' → Prop}
    (h : Coupled same alike post p q) (hf : ∀ a b, post a b → post' (f a) (g b)) :
    Coupled same alike post' (f <$> p) (g <$> q) := by
  rw [← bind_pure_comp, ← bind_pure_comp]
  apply h.bind
  intro a b hab
  exact .done (hf a b hab)

lemma coupled_perform {o o' : S.Op} {post : S.Res o → S.Res o' → Prop} (hs : same o o')
    (h : ∀ r r', alike ⟨o, r⟩ ⟨o', r'⟩ → post r r') :
    Coupled same alike post (perform o) (perform o') :=
  .call hs fun r r' ha => .done (h r r' ha)

end Program

inductive Agree (err : ε → ε' → Prop) (val : α → β → Prop) : Except ε α → Except ε' β → Prop
  | error {e e'} : err e e' → Agree err val (.error e) (.error e')
  | ok {a b} : val a b → Agree err val (.ok a) (.ok b)

section

open Program

variable {err : ε → ε' → Prop} {err' : δ → δ' → Prop} {val : α → β → Prop}
  {val' : α' → β' → Prop}

lemma coupled_mapErr {answer : Program S (Except ε α)} {answer' : Program S (Except ε' β)}
    {f : ε → δ} {g : ε' → δ'} (h : Coupled same alike (Agree err val) answer answer')
    (he : ∀ e e', err e e' → err' (f e) (g e')) :
    Coupled same alike (Agree err' val) (mapErr f answer).run (mapErr g answer').run := by
  rw [mapErr, mapErr, ExceptT.run_mk, ExceptT.run_mk]
  apply h.map
  rintro _ _ (hee | hab)
  · exact .error (he _ _ hee)
  · exact .ok hab

lemma coupled_run_bind {x : ExceptT ε (Program S) α} {y : ExceptT ε' (Program S) β}
    {f : α → ExceptT ε (Program S) α'} {g : β → ExceptT ε' (Program S) β'}
    (h : Coupled same alike (Agree err val) x.run y.run)
    (hf : ∀ a b, val a b → Coupled same alike (Agree err val') (f a).run (g b).run) :
    Coupled same alike (Agree err val') (x >>= f).run (y >>= g).run := by
  rw [ExceptT.run_bind, ExceptT.run_bind]
  apply h.bind
  rintro _ _ (hee | hab)
  · exact .done (.error hee)
  · exact hf _ _ hab

lemma coupled_lift_bind {p : Program S α} {q : Program S β} {post : α → β → Prop}
    {f : α → ExceptT ε (Program S) α'} {g : β → ExceptT ε' (Program S) β'}
    (h : Coupled same alike post p q)
    (hf : ∀ a b, post a b → Coupled same alike (Agree err val') (f a).run (g b).run) :
    Coupled same alike (Agree err val') (ExceptT.lift p >>= f).run (ExceptT.lift q >>= g).run := by
  rw [ExceptT.run_bind, ExceptT.run_bind, ExceptT.run_lift, ExceptT.run_lift, bind_map_left,
    bind_map_left]
  exact h.bind hf

end

section

variable {W W' : Type}

def AnsweredAlike (same : S.Op → S.Op → Prop) (alike : S.Event → S.Event → Prop)
    (tr : List (Entry S W)) (tr' : List (Entry S W')) : Prop :=
  ∀ (n : ℕ) e e', tr[n]? = some e → tr'[n]? = some e' → same e.op e'.op → alike e.event e'.event

variable {sem : Semantics S W} {sem' : Semantics S W'} {w v : W} {w' v' : W'}
  {tr : List (Entry S W)} {tr' : List (Entry S W')} {p : Program S α} {q : Program S β}
  {post : α → β → Prop}

lemma AnsweredAlike.of_forall₂ (h : List.Forall₂ (fun e e' => alike e.event e'.event) tr tr') :
    AnsweredAlike same alike tr tr' := by
  intro n e e' he he' _
  induction h generalizing n with
  | nil => cases he
  | cons hfirst _ ih =>
    cases n with
    | zero =>
      cases he
      cases he'
      exact hfirst
    | succ n => exact ih n he he'

lemma Program.Coupled.runs (h : Coupled same alike post p q) {a : α} {b : β}
    (hp : Steps sem p w tr (.done a) v) (hq : Steps sem' q w' tr' (.done b) v')
    (ha : AnsweredAlike same alike tr tr') :
    post a b ∧ List.Forall₂ (fun e e' => same e.op e'.op ∧ alike e.event e'.event) tr tr' := by
  induction h generalizing w w' tr tr' with
  | done hab =>
    obtain ⟨rfl, hdone, _⟩ := hp.done_inv
    cases hdone
    obtain ⟨rfl, hdone, _⟩ := hq.done_inv
    cases hdone
    exact ⟨hab, .nil⟩
  | call hs _ ih =>
    obtain ⟨_, hd, _⟩ | ⟨r, u, rest, rfl, _, hp⟩ := hp.call_inv
    · cases hd
    obtain ⟨_, hd, _⟩ | ⟨r', u', rest', rfl, _, hq⟩ := hq.call_inv
    · cases hd
    have hfirst := ha 0 _ _ rfl rfl hs
    obtain ⟨hab, hrest⟩ := ih r r' hfirst hp hq fun n e e' he he' => ha (n + 1) e e' he he'
    exact ⟨hab, .cons ⟨hs, hfirst⟩ hrest⟩

end

end FpsMaxxing.Effects
