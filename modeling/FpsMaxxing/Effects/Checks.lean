import Mathlib.Data.List.Forall2
import Mathlib.Tactic.Common

/-! Checks: computations that let a value pass or refuse it with an error. -/

namespace FpsMaxxing.Effects

variable {α β ε : Type}

def rejectIf (c : Prop) [Decidable c] (e : ε) : Except ε Unit := if c then .error e else .ok ()

def okOr : Option α → ε → Except ε α
  | some a, _ => .ok a
  | none, e => .error e

@[simp] lemma rejectIf_eq_ok {c : Prop} [Decidable c] {e : ε} {u : Unit} :
    rejectIf c e = .ok u ↔ ¬ c := by
  rw [rejectIf]
  split_ifs with h <;> simp [h]

lemma rejectIf_pos {c : Prop} [Decidable c] {e : ε} (h : c) : rejectIf c e = .error e := if_pos h

lemma rejectIf_neg {c : Prop} [Decidable c] {e : ε} (h : ¬ c) : rejectIf c e = .ok () := if_neg h

lemma ok_bind (a : α) (f : α → Except ε β) : Except.ok a >>= f = f a := rfl

lemma error_bind (e : ε) (f : α → Except ε β) : Except.error e >>= f = .error e := rfl

@[simp] lemma okOr_eq_ok {o : Option α} {e : ε} {a : α} : okOr o e = .ok a ↔ o = some a := by
  cases o <;> simp [okOr]

@[simp] lemma pure_eq_ok {a b : α} : (pure a : Except ε α) = .ok b ↔ a = b := Except.ok.injEq a b ▸ .rfl

@[simp] lemma bind_eq_ok {x : Except ε α} {f : α → Except ε β} {b : β} :
    x >>= f = .ok b ↔ ∃ a, x = .ok a ∧ f a = .ok b := by
  cases x with
  | error e => exact ⟨nofun, nofun⟩
  | ok a => exact ⟨fun h => ⟨a, rfl, h⟩, fun ⟨_, h, hf⟩ => Except.ok.inj h ▸ hf⟩

lemma mapError_eq_ok {ε' : Type} {f : ε → ε'} {x : Except ε α} {a : α} :
    x.mapError f = .ok a ↔ x = .ok a := by
  cases x with
  | error e => exact ⟨nofun, nofun⟩
  | ok b => exact ⟨fun h => congrArg Except.ok (Except.ok.inj h),
      fun h => congrArg Except.ok (Except.ok.inj h)⟩

lemma forM_eq_ok {xs : List α} {f : α → Except ε Unit} {u : Unit} :
    forM xs f = .ok u ↔ ∀ x ∈ xs, f x = .ok () := by
  induction xs with
  | nil => simp
  | cons x xs ih =>
    rw [List.forM_cons, bind_eq_ok, List.forall_mem_cons, ih]
    exact ⟨fun ⟨_, hx, hs⟩ => ⟨hx, hs⟩, fun ⟨hx, hs⟩ => ⟨(), hx, hs⟩⟩

section

variable {f : α → Except ε β}

lemma mapM_eq_ok {as : List α} {bs : List β} :
    as.mapM f = .ok bs ↔ List.Forall₂ (fun a b => f a = .ok b) as bs := by
  induction as generalizing bs with
  | nil =>
    rw [List.mapM_nil, List.forall₂_nil_left_iff]
    exact ⟨fun h => (Except.ok.inj h).symm, fun h => h ▸ rfl⟩
  | cons a as ih =>
    rw [List.mapM_cons, List.forall₂_cons_left_iff]
    constructor
    · intro h
      cases ha : f a with
      | error e => simp [ha, bind, Except.bind] at h
      | ok b =>
        cases has : as.mapM f with
        | error e => simp [ha, has, bind, Except.bind] at h
        | ok bs' =>
          simp only [ha, has] at h
          exact ⟨b, bs', rfl, ih.mp has, (Except.ok.inj h).symm⟩
    · rintro ⟨b, bs', ha, has, rfl⟩
      rw [ha, ih.mpr has]
      rfl

lemma exists_mapM {as : List α} (h : ∀ a ∈ as, ∃ b, f a = .ok b) : ∃ bs, as.mapM f = .ok bs := by
  induction as with
  | nil => exact ⟨[], rfl⟩
  | cons a as ih =>
    obtain ⟨b, hb⟩ := h a List.mem_cons_self
    obtain ⟨bs, hbs⟩ := ih fun a ha => h a (List.mem_cons_of_mem _ ha)
    exact ⟨b :: bs, mapM_eq_ok.mpr (.cons hb (mapM_eq_ok.mp hbs))⟩

lemma map_of_mapM {γ : Type} {g : α → γ} {k : β → γ} (hk : ∀ a b, f a = .ok b → g a = k b)
    {as : List α} {bs : List β} (h : as.mapM f = .ok bs) : bs.map k = as.map g := by
  induction mapM_eq_ok.mp h with
  | nil => rfl
  | cons hab hf ih => simp [ih (mapM_eq_ok.mpr hf), hk _ _ hab]

lemma mem_of_mem_mapM {as : List α} {bs : List β} {a : α} {b : β} (h : as.mapM f = .ok bs)
    (ha : a ∈ as) (hb : f a = .ok b) : b ∈ bs := by
  have hf := mapM_eq_ok.mp h
  induction hf with
  | nil => cases ha
  | @cons a' b' as bs' hab hf ih =>
    rcases List.mem_cons.mp ha with rfl | ha
    · cases hb.symm.trans hab
      exact List.mem_cons_self
    · exact List.mem_cons_of_mem _ (ih (mapM_eq_ok.mpr hf) ha)

lemma mapM_filter {p : α → Bool} {q : β → Bool} (hp : ∀ a b, f a = .ok b → p a = q b) {as : List α}
    {bs : List β} (h : as.mapM f = .ok bs) : (as.filter p).mapM f = .ok (bs.filter q) := by
  rw [mapM_eq_ok]
  induction mapM_eq_ok.mp h with
  | nil => exact .nil
  | cons hab hf ih =>
    have ih := ih (mapM_eq_ok.mpr hf)
    rw [List.filter_cons, List.filter_cons, hp _ _ hab]
    split_ifs
    · exact .cons hab ih
    · exact ih

lemma exists_of_mem_mapM {as : List α} {bs : List β} {b : β} (h : as.mapM f = .ok bs)
    (hb : b ∈ bs) : ∃ a ∈ as, f a = .ok b := by
  have hf := mapM_eq_ok.mp h
  induction hf with
  | nil => cases hb
  | @cons a b' as bs' hab hf ih =>
    rcases List.mem_cons.mp hb with rfl | hb
    · exact ⟨a, List.mem_cons_self, hab⟩
    · obtain ⟨a', ha', hb'⟩ := ih (mapM_eq_ok.mpr hf) hb
      exact ⟨a', List.mem_cons_of_mem _ ha', hb'⟩

end

def Errs (p : ε → Prop) (x : Except ε α) : Prop := ∀ e, x = .error e → p e

section

variable {p : ε → Prop}

lemma errs_rejectIf {c : Prop} [Decidable c] {e : ε} (h : p e) : Errs p (rejectIf c e) := by
  rintro e' he
  rw [rejectIf] at he
  split_ifs at he
  cases he
  exact h

lemma errs_okOr {o : Option α} {e : ε} (h : p e) : Errs p (okOr o e) := by
  rintro e' he
  cases o <;> cases he
  exact h

lemma errs_pure (a : α) : Errs p (pure a : Except ε α) := fun _ he => nomatch he

lemma Errs.bind {x : Except ε α} {f : α → Except ε β} (h : Errs p x) (hf : ∀ a, Errs p (f a)) :
    Errs p (x >>= f) := by
  cases x with
  | error e =>
    rintro e' he
    cases he
    exact h e rfl
  | ok a => exact hf a

lemma errs_forM {xs : List α} {f : α → Except ε Unit} (h : ∀ x, Errs p (f x)) :
    Errs p (forM xs f) := by
  induction xs with
  | nil => exact errs_pure ()
  | cons x xs ih =>
    rw [List.forM_cons]
    exact (h x).bind fun _ => ih

end

end FpsMaxxing.Effects
