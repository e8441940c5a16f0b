import Mathlib.Algebra.BigOperators.Group.List.Basic
import Mathlib.Algebra.GroupWithZero.Nat
import Mathlib.Algebra.Order.Ring.Rat
import Mathlib.Tactic.Common

/-! Machine numbers. The operations on floats give the exact result, with the infinities and NaN and
one zero; what a machine makes of that result is a parameter. -/

namespace FpsMaxxing.Numeric

inductive F64
  | nan
  | inf (negative : Bool)
  | finite (q : ℚ)
  deriving DecidableEq

namespace F64

def isFinite : F64 → Bool
  | finite _ => true
  | _ => false

def toRat : F64 → ℚ
  | finite q => q
  | _ => 0

def neg : F64 → F64
  | nan => nan
  | inf s => inf !s
  | finite q => finite (-q)

def add : F64 → F64 → F64
  | finite p, finite q => finite (p + q)
  | inf s, inf t => if s = t then inf s else nan
  | inf s, finite _ | finite _, inf s => inf s
  | nan, _ | _, nan => nan

def mul : F64 → F64 → F64
  | finite p, finite q => finite (p * q)
  | inf s, inf t => inf (s != t)
  | inf s, finite q | finite q, inf s => if q = 0 then nan else inf (s != decide (q < 0))
  | nan, _ | _, nan => nan

def div : F64 → F64 → F64
  | finite p, finite q =>
    if q ≠ 0 then finite (p / q) else if p = 0 then nan else inf (decide (p < 0))
  | inf s, finite q => inf (s != decide (q < 0))
  | finite _, inf _ => finite 0
  | inf _, inf _ => nan
  | nan, _ | _, nan => nan

def lt : F64 → F64 → Bool
  | finite p, finite q => decide (p < q)
  | inf s, inf t => s && !t
  | inf s, finite _ => s
  | finite _, inf t => !t
  | nan, _ | _, nan => false

def le : F64 → F64 → Bool
  | finite p, finite q => decide (p ≤ q)
  | inf s, inf t => s || !t
  | inf s, finite _ => s
  | finite _, inf t => !t
  | nan, _ | _, nan => false

def equals : F64 → F64 → Bool
  | finite p, finite q => decide (p = q)
  | inf s, inf t => s == t
  | _, _ => false

instance : Neg F64 := ⟨neg⟩
instance : Add F64 := ⟨add⟩
instance : Sub F64 := ⟨fun x y => x + -y⟩
instance : Mul F64 := ⟨mul⟩
instance : Div F64 := ⟨div⟩
instance (n : ℕ) : OfNat F64 n := ⟨finite n⟩
instance : LT F64 := ⟨fun x y => x.lt y = true⟩
instance : LE F64 := ⟨fun x y => x.le y = true⟩

instance (x y : F64) : Decidable (x < y) := inferInstanceAs (Decidable (x.lt y = true))
instance (x y : F64) : Decidable (x ≤ y) := inferInstanceAs (Decidable (x.le y = true))

def max : F64 → F64 → F64
  | nan, y => y
  | x, nan => x
  | x, y => if x < y then y else x

/-- The result of an operation on a machine that rounds so. -/
def round (rounding : ℚ → F64) : F64 → F64
  | finite q => rounding q
  | x => x

@[simp] lemma round_exact (x : F64) : x.round finite = x := by cases x <;> rfl

def places (q : ℚ) : ℕ :=
  ((List.range (q.den.log2 + 1)).find? fun k => 10 ^ k % q.den = 0).getD (q.den.log2 + 1)

def decimal (q : ℚ) : String :=
  let scale := 10 ^ places q
  let n := q.num.natAbs * scale / q.den
  let digits := toString (n % scale)
  (if q < 0 then "-" else "") ++ toString (n / scale) ++
    if places q = 0 then "" else
      "." ++ "".pushn '0' (places q - digits.length) ++ digits

def text : F64 → String
  | nan => "NaN"
  | inf s => if s then "-inf" else "inf"
  | finite q => decimal q

example : text (.finite (-5 / 4)) = "-1.25" := by decide +kernel

variable {x y : F64} {p q : ℚ}

@[simp] lemma ofNat_eq (n : ℕ) [n.AtLeastTwo] : (OfNat.ofNat n : F64) = finite (OfNat.ofNat n) := rfl
@[simp] lemma zero_eq : (0 : F64) = finite 0 := rfl
@[simp] lemma one_eq : (1 : F64) = finite 1 := rfl

@[simp] lemma add_finite (p q : ℚ) : finite p + finite q = finite (p + q) := rfl
@[simp] lemma mul_finite (p q : ℚ) : finite p * finite q = finite (p * q) := rfl

@[simp] lemma sub_finite (p q : ℚ) : finite p - finite q = finite (p - q) :=
  congrArg finite (sub_eq_add_neg p q).symm

lemma div_finite (p : ℚ) (h : q ≠ 0) : finite p / finite q = finite (p / q) := if_pos h

@[simp] lemma lt_finite : finite p < finite q ↔ p < q := decide_eq_true_iff
@[simp] lemma le_finite : finite p ≤ finite q ↔ p ≤ q := decide_eq_true_iff

lemma lt_iff : x < y ↔ x.lt y = true := Iff.rfl

@[simp] lemma not_lt_nan : ¬ x < nan := by cases x <;> nofun
@[simp] lemma not_nan_lt : ¬ nan < x := by cases x <;> nofun
@[simp] lemma not_lt_self : ¬ x < x := by cases x <;> simp [lt_iff, lt]
@[simp] lemma not_lt_negInf : ¬ x < inf true := by cases x <;> simp [lt_iff, lt]

@[simp] lemma isFinite_finite (q : ℚ) : (finite q).isFinite = true := rfl
@[simp] lemma toRat_finite (q : ℚ) : (finite q).toRat = q := rfl

lemma isFinite_iff : x.isFinite = true ↔ ∃ q, x = finite q := by cases x <;> simp [isFinite]

lemma finite_toRat (h : x.isFinite = true) : finite x.toRat = x := by
  obtain ⟨q, rfl⟩ := isFinite_iff.mp h
  rfl

lemma le_iff : x ≤ y ↔ x.le y = true := Iff.rfl

@[simp] lemma not_le_nan : ¬ x ≤ nan := by cases x <;> nofun
@[simp] lemma not_nan_le : ¬ nan ≤ x := by cases x <;> nofun

lemma not_lt_iff : ¬ x < y ↔ x = nan ∨ y = nan ∨ y ≤ x := by
  match x, y with
  | nan, y | inf s, nan | finite p, nan => simp
  | inf s, inf t => cases s <;> cases t <;> decide
  | inf s, finite q | finite p, inf s => cases s <;> simp [lt_iff, le_iff, lt, le]
  | finite p, finite q => simp

lemma le_trans {b : F64} (h : b ≤ x) (h' : x ≤ y) : b ≤ y := by
  match b, x, y with
  | nan, _, _ => exact absurd h not_nan_le
  | _, nan, _ => exact absurd h not_le_nan
  | _, _, nan => exact absurd h' not_le_nan
  | finite p, finite q, finite r => exact le_finite.mpr ((le_finite.mp h).trans (le_finite.mp h'))
  | inf s, inf t, inf u => cases s <;> cases t <;> cases u <;> simp_all [le_iff, le]
  | inf s, inf t, finite r => cases s <;> cases t <;> simp_all [le_iff, le]
  | inf s, finite q, inf u | finite p, inf s, inf u => cases s <;> cases u <;> simp_all [le_iff, le]
  | inf s, finite q, finite r | finite p, inf s, finite r | finite p, finite q, inf s =>
    cases s <;> simp_all [le_iff, le]

lemma lt_of_le_of_lt {b : F64} (h : b ≤ x) (h' : x < y) : b < y := by
  by_contra hn
  rcases not_lt_iff.mp hn with rfl | rfl | hle
  · exact not_nan_le h
  · exact not_lt_nan h'
  · exact (not_lt_iff.mpr (.inr (.inr (le_trans hle h)))) h'

lemma le_antisymm (h : x ≤ y) (h' : y ≤ x) : x = y := by
  match x, y with
  | nan, y => exact absurd h not_nan_le
  | x, nan => exact absurd h not_le_nan
  | inf s, inf t => cases s <;> cases t <;> simp_all [le_iff, le]
  | inf s, finite q | finite p, inf s => cases s <;> simp_all [le_iff, le]
  | finite p, finite q => exact congrArg finite ((le_finite.mp h).antisymm (le_finite.mp h'))

lemma lt_iff_toRat (hx : x.isFinite = true) (hy : y.isFinite = true) :
    x < y ↔ x.toRat < y.toRat := by
  rw [← finite_toRat hx, ← finite_toRat hy]
  exact lt_finite

lemma lt_trans {b : F64} (h : b < x) (h' : x < y) : b < y := by
  cases b <;> cases x <;> cases y <;> simp_all [lt_iff, lt]
  exact h.trans h'

lemma lt_of_not_lt {b : F64} (h : b < y) (h' : ¬ x < y) (hx : x ≠ nan) : b < x := by
  cases b <;> cases x <;> cases y <;> simp_all [lt_iff, lt]
  exact h.trans_le h'

lemma lt_max (b : F64) : b < max x y ↔ b < x ∨ b < y := by
  by_cases hx : x = nan
  · simp [hx, max]
  by_cases hy : y = nan
  · cases x <;> simp_all [max]
  have hm : max x y = if x < y then y else x := by cases x <;> cases y <;> simp_all [max]
  rw [hm]
  split_ifs with h
  · exact ⟨.inr, fun hb => hb.elim (fun hb => lt_trans hb h) id⟩
  · exact ⟨.inl, fun hb => hb.elim id fun hb => lt_of_not_lt hb h hx⟩

lemma lt_foldl_max (b : F64) (xs : List F64) (a : F64) :
    b < xs.foldl max a ↔ b < a ∨ ∃ x ∈ xs, b < x := by
  induction xs generalizing a with
  | nil => simp
  | cons x xs ih => simp [ih, lt_max, or_assoc]

lemma foldl_max_ne_nan {a : F64} (ha : a ≠ nan) (xs : List F64) : xs.foldl max a ≠ nan := by
  induction xs generalizing a with
  | nil => exact ha
  | cons x xs ih =>
    apply ih
    by_cases hx : x = nan
    · subst hx
      cases a <;> simp_all [max]
    · cases a <;> cases x <;> simp_all [max] <;> split_ifs <;> simp

lemma eq_of_forall_lt (hx : x ≠ nan) (hy : y ≠ nan) (h : ∀ b, b < x ↔ b < y) : x = y := by
  have hxy := not_lt_iff.mp fun hlt => not_lt_self ((h x).mpr hlt)
  have hyx := not_lt_iff.mp fun hlt => not_lt_self ((h y).mp hlt)
  simp only [hx, hy, false_or] at hxy hyx
  exact le_antisymm hyx hxy

lemma foldl_max_perm {xs ys : List F64} (h : xs.Perm ys) {a : F64} (ha : a ≠ nan) :
    xs.foldl max a = ys.foldl max a := by
  apply eq_of_forall_lt (foldl_max_ne_nan ha xs) (foldl_max_ne_nan ha ys)
  intro b
  simp only [lt_foldl_max, h.mem_iff]

lemma isFinite_max (hx : x.isFinite = true) (hy : y.isFinite = true) :
    (max x y).isFinite = true := by
  obtain ⟨p, rfl⟩ := isFinite_iff.mp hx
  obtain ⟨q, rfl⟩ := isFinite_iff.mp hy
  by_cases h : finite p < finite q <;> simp [max, h]

lemma isFinite_foldl_max {xs : List F64} (h : ∀ x ∈ xs, x.isFinite = true) {a : F64}
    (ha : a.isFinite = true) : (xs.foldl max a).isFinite = true := by
  induction xs generalizing a with
  | nil => exact ha
  | cons x xs ih =>
    exact ih (fun y hy => h y (List.mem_cons_of_mem _ hy))
      (isFinite_max ha (h x List.mem_cons_self))

lemma isFinite_maximum {xs : List F64} (hn : xs ≠ []) (h : ∀ x ∈ xs, x.isFinite = true) :
    (xs.foldl max (inf true)).isFinite = true := by
  cases xs with
  | nil => exact absurd rfl hn
  | cons x xs =>
    have hx := h x List.mem_cons_self
    have hm : max (inf true) x = x := by
      obtain ⟨q, rfl⟩ := isFinite_iff.mp hx
      rfl
    rw [List.foldl_cons, hm]
    exact isFinite_foldl_max (fun y hy => h y (List.mem_cons_of_mem _ hy)) hx

lemma foldl_add {xs : List F64} (h : ∀ x ∈ xs, x.isFinite = true) (a : ℚ) :
    xs.foldl (· + ·) (finite a) = finite (a + (xs.map toRat).sum) := by
  induction xs generalizing a with
  | nil => simp
  | cons x xs ih =>
    obtain ⟨q, rfl⟩ := isFinite_iff.mp (h x List.mem_cons_self)
    simp [ih (fun y hy => h y (List.mem_cons_of_mem _ hy)), add_assoc]

end F64

def maxU64 : UInt64 := 0xFFFFFFFFFFFFFFFF

def saturatingAdd (a b : UInt64) : UInt64 :=
  if a.toNat + b.toNat < 2 ^ 64 then a + b else maxU64

def saturatingSub (a b : UInt64) : UInt64 := if b ≤ a then a - b else 0

lemma toNat_saturatingAdd (a b : UInt64) :
    (saturatingAdd a b).toNat = min (a.toNat + b.toNat) (2 ^ 64 - 1) := by
  rw [saturatingAdd]
  split_ifs with h
  · rw [UInt64.toNat_add, Nat.mod_eq_of_lt h]
    omega
  · rw [min_eq_right (by omega)]
    rfl

lemma toNat_foldl_saturatingAdd (xs : List UInt64) (a : UInt64) :
    (xs.foldl saturatingAdd a).toNat =
      min (a.toNat + (xs.map UInt64.toNat).sum) (2 ^ 64 - 1) := by
  induction xs generalizing a with
  | nil =>
    have := a.toNat_lt
    simp
    omega
  | cons x xs ih =>
    simp only [List.foldl_cons, ih, toNat_saturatingAdd, List.map_cons, List.sum_cons]
    omega

end FpsMaxxing.Numeric
