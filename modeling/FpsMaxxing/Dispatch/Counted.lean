import Mathlib.Logic.Relation
import Mathlib.Tactic.Common

/-! Runs in which one party's own steps are counted. What those steps use up bounds their number,
however many steps the others take in between. -/

namespace FpsMaxxing.Dispatch

variable {α : Type}

/-- A step is labelled with whether the party that is counted takes it. -/
inductive Counted (step : α → Bool → α → Prop) (a : α) : ℕ → α → Prop
  | start : Counted step a 0 a
  | own {n b c} : Counted step a n b → step b true c → Counted step a (n + 1) c
  | other {n b c} : Counted step a n b → step b false c → Counted step a n c

def Moves (step : α → Bool → α → Prop) (a b : α) : Prop := ∃ own, step a own b

namespace Counted

variable {step : α → Bool → α → Prop} {a b : α} {n : ℕ}

lemma reach (h : Counted step a n b) : Relation.ReflTransGen (Moves step) a b := by
  induction h with
  | start => exact .refl
  | own _ hs ih | other _ hs ih => exact ih.tail ⟨_, hs⟩

lemma runs {c : α} (h : Counted step a n b)
    (hr : Relation.ReflTransGen (fun b c => step b true c) b c) : ∃ m, Counted step a m c := by
  induction hr with
  | refl => exact ⟨n, h⟩
  | tail _ hs ih =>
    obtain ⟨m, hm⟩ := ih
    exact ⟨m + 1, hm.own hs⟩

lemma invariant {I : α → Prop} (h : Counted step a n b) (hi : I a)
    (hn : ∀ a own b, I a → step a own b → I b) : I b := by
  induction h with
  | start => exact hi
  | own _ hs ih | other _ hs ih => exact hn _ _ _ ih hs

lemma bounded {I : α → Prop} {fuel : α → ℕ} (h : Counted step a n b) (hi : I a)
    (hn : ∀ a own b, I a → step a own b → I b)
    (hown : ∀ a b, I a → step a true b → fuel b < fuel a)
    (hother : ∀ a b, I a → step a false b → fuel b ≤ fuel a) : n + fuel b ≤ fuel a := by
  induction h with
  | start => omega
  | own h hs ih =>
    have := hown _ _ (h.invariant hi hn) hs
    omega
  | other h hs ih =>
    have := hother _ _ (h.invariant hi hn) hs
    omega

/-- Amortised: an own step uses up fuel, and each step of another adds at most `price` to it and one
to the count. -/
lemma paid {I : ℕ → α → Prop} (count : α → ℕ) {m price : ℕ} (h : Counted step a n b) (hi : I m a)
    (hown : ∀ m a b, I m a → step a true b → ∃ k, k < m ∧ I k b ∧ count b = count a)
    (hother : ∀ m a b, I m a → step a false b →
      ∃ k, k ≤ m + price ∧ I k b ∧ count b = count a + 1) :
    ∃ k, I k b ∧ n + k + price * count a ≤ m + price * count b := by
  induction h with
  | start => exact ⟨m, hi, by omega⟩
  | own _ hs ih =>
    obtain ⟨k, hk, hle⟩ := ih
    obtain ⟨k', hlt, hk', hcount⟩ := hown _ _ _ hk hs
    rw [hcount]
    exact ⟨k', hk', by omega⟩
  | other _ hs ih =>
    obtain ⟨k, hk, hle⟩ := ih
    obtain ⟨k', hle', hk', hcount⟩ := hother _ _ _ hk hs
    rw [hcount, Nat.mul_succ]
    exact ⟨k', hk', by omega⟩

lemma guarded {G : α → Prop} (h : Counted step a n b) (hg : G b)
    (hback : ∀ a own b, step a own b → G b → G a) :
    Counted (fun a own b => step a own b ∧ G b) a n b := by
  induction h with
  | start => exact .start
  | own _ hs ih => exact (ih (hback _ _ _ hs hg)).own ⟨hs, hg⟩
  | other _ hs ih => exact (ih (hback _ _ _ hs hg)).other ⟨hs, hg⟩

end Counted

end FpsMaxxing.Dispatch
