import Mathlib.Logic.Relation
import Mathlib.Order.Lattice
import Mathlib.Tactic.Common

/-! A registry of keys that go one way: a key is begun once, may be intended, and is closed in the
end. -/

namespace FpsMaxxing.Effects.Registry

inductive Status
  | absent
  | captured
  | intended
  | closed
  deriving DecidableEq

def Status.rank : Status → ℕ
  | absent => 0
  | captured => 1
  | intended => 2
  | closed => 3

instance : Preorder Status := .lift Status.rank

variable {κ : Type} [DecidableEq κ] {r r' : κ → Status}

inductive Step (r : κ → Status) : (κ → Status) → Prop
  | capture {k} : r k = .absent → Step r (Function.update r k .captured)
  | intend {k} : r k = .captured → Step r (Function.update r k .intended)
  | close {k} : r k = .captured ∨ r k = .intended → Step r (Function.update r k .closed)

abbrev Run : (κ → Status) → (κ → Status) → Prop := Relation.ReflTransGen Step

lemma le_update {k : κ} {status : Status} (h : r k ≤ status) : r ≤ Function.update r k status := by
  intro j
  by_cases hj : j = k
  · rw [hj, Function.update_self]
    exact h
  · rw [Function.update_of_ne hj]

lemma Step.le (h : Step r r') : r ≤ r' := by
  cases h with
  | capture hk => exact le_update (hk ▸ Nat.zero_le 1)
  | intend hk => exact le_update (hk ▸ Nat.le_succ 1)
  | close hk =>
    apply le_update
    rcases hk with hk | hk
    · exact hk ▸ (by omega : 1 ≤ 3)
    · exact hk ▸ Nat.le_succ 2

lemma le_of_run (h : Run r r') : r ≤ r' := by
  induction h with
  | refl => exact le_rfl
  | tail _ hs ih => exact ih.trans hs.le

lemma closed_of_run (h : Run r r') {k : κ} (hk : r k = .closed) : r' k = .closed := by
  have hle : Status.rank (r k) ≤ Status.rank (r' k) := le_of_run h k
  rw [hk] at hle
  cases hr : r' k <;> rw [hr] at hle <;> simp [Status.rank] at hle

end FpsMaxxing.Effects.Registry
