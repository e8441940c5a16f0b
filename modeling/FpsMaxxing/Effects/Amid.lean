import FpsMaxxing.Effects.Program

/-! Programs in a world that others change between their calls. What a program relies on has to be
stable under the steps of the others; then it may be used at the next call. -/

namespace FpsMaxxing.Effects

variable {S : Signature} {W α β : Type}

structure Change (S : Signature) (W : Type) extends Entry S W where
  after : W

/-- A run in which the others take steps whenever they like. -/
inductive Amid (sem : Semantics S W) (others : W → W → Prop) (p : Program S α) (w : W) :
    List (Change S W) → Program S α → W → Prop
  | start : Amid sem others p w [] p w
  | call {tr o next v r u} : Amid sem others p w tr (.call o next) v → sem v o r u →
      Amid sem others p w (tr ++ [⟨⟨v, o, r⟩, u⟩]) (next r) u
  | other {tr q v u} : Amid sem others p w tr q v → others v u → Amid sem others p w tr q u

lemma Amid.steps {sem : Semantics S W} {others : W → W → Prop} {p q s : Program S α} {w v u : W}
    {tr : List (Change S W)} {tr' : List (Entry S W)} (h : Amid sem others p w tr q v)
    (hs : Steps sem q v tr' s u) : ∃ tr, Amid sem others p w tr s u := by
  induction hs with
  | start => exact ⟨tr, h⟩
  | call _ hc ih =>
    obtain ⟨tr, h⟩ := ih
    exact ⟨_, h.call hc⟩

def Stable (others : W → W → Prop) (I : W → Prop) : Prop := ∀ v u, I v → others v u → I u

lemma Stable.run {others : W → W → Prop} {I : W → Prop} {v u : W} (hi : Stable others I) (hv : I v)
    (h : Relation.ReflTransGen others v u) : I u := by
  induction h with
  | refl => exact hv
  | tail _ hs ih => exact hi _ _ ih hs

lemma Stable.imp {others : W → W → Prop} {I : W → Prop} (hi : Stable others I) (P : Prop) :
    Stable others fun w => P → I w :=
  fun v u h hs hp => hi v u (h hp) hs

namespace Program

variable (sem : Semantics S W) (others : W → W → Prop)

def Abides (good : Change S W → Prop) : Program S α → (α → W → Prop) → W → Prop
  | .done a, post, w => ∀ v, Relation.ReflTransGen others w v → post a v
  | .call o next, post, w => ∀ v, Relation.ReflTransGen others w v → ∀ r u, sem v o r u →
      good ⟨⟨v, o, r⟩, u⟩ ∧ (next r).Abides good post u

variable {sem others} {good : Change S W → Prop} {post post' : α → W → Prop}
  {p q : Program S α} {w v : W}

namespace Abides

lemma done {a : α} (hs : Stable others (post a)) (h : post a w) :
    (Program.done a : Program S α).Abides sem others good post w :=
  fun _ hv => hs.run h hv

lemma call {o : S.Op} {next : S.Res o → Program S α} {I : W → Prop} (hs : Stable others I)
    (hw : I w) (h : ∀ v r u, I v → sem v o r u →
      good ⟨⟨v, o, r⟩, u⟩ ∧ (next r).Abides sem others good post u) :
    (Program.call o next).Abides sem others good post w :=
  fun v hv r u hr => h v r u (hs.run hw hv) hr

lemma moved (h : p.Abides sem others good post w) (hv : Relation.ReflTransGen others w v) :
    p.Abides sem others good post v := by
  cases p with
  | done a => exact fun u hu => h u (hv.trans hu)
  | call o next => exact fun u hu => h u (hv.trans hu)

lemma mono (h : p.Abides sem others good post w) (hp : ∀ a v, post a v → post' a v) :
    p.Abides sem others good post' w := by
  induction p generalizing w with
  | done a => exact fun v hv => hp a v (h v hv)
  | call o next ih =>
    intro v hv r u hr
    obtain ⟨hgood, hrest⟩ := h v hv r u hr
    exact ⟨hgood, ih r hrest⟩

lemma bind {f : α → Program S β} {post : β → W → Prop}
    (h : p.Abides sem others good (fun a v => (f a).Abides sem others good post v) w) :
    (p >>= f).Abides sem others good post w := by
  induction p generalizing w with
  | done a => exact h w .refl
  | call o next ih =>
    intro v hv r u hr
    obtain ⟨hgood, hrest⟩ := h v hv r u hr
    exact ⟨hgood, ih r hrest⟩

lemma seq {f : α → Program S β} {post' : β → W → Prop} (h : p.Abides sem others good post w)
    (hf : ∀ a v, post a v → (f a).Abides sem others good post' v) :
    (p >>= f).Abides sem others good post' w :=
  (h.mono hf).bind

lemma amid {tr : List (Change S W)} (h : p.Abides sem others good post w)
    (hr : Amid sem others p w tr q v) :
    (∀ e ∈ tr, good e) ∧ q.Abides sem others good post v := by
  induction hr with
  | start => exact ⟨List.forall_mem_nil _, h⟩
  | call _ hs ih =>
    obtain ⟨htr, hq⟩ := ih
    obtain ⟨hgood, hrest⟩ := hq _ .refl _ _ hs
    refine ⟨fun e he => ?_, hrest⟩
    rcases List.mem_append.mp he with he | he
    · exact htr e he
    · rw [List.mem_singleton.mp he]
      exact hgood
  | other _ hs ih => exact ⟨ih.1, ih.2.moved (.single hs)⟩

lemma returned {tr : List (Change S W)} {a : α} (h : p.Abides sem others good post w)
    (hr : Amid sem others p w tr (.done a) v) : post a v :=
  (h.amid hr).2 v .refl

end Abides

end Program

end FpsMaxxing.Effects
