import FpsMaxxing.Numeric.Machine

/-! Rounding to binary64: the nearest of its numbers, the even one of two that are as near. -/

namespace FpsMaxxing.Numeric

def nearest (n d : ℕ) : ℕ :=
  if 2 * (n % d) < d ∨ 2 * (n % d) = d ∧ n / d % 2 = 0 then n / d else n / d + 1

def lastPlace (n d : ℕ) : ℤ :=
  let e : ℤ := n.log2 - d.log2
  max (if n * 2 ^ (-e).toNat < d * 2 ^ e.toNat then e - 53 else e - 52) (-1074)

def binary64 (q : ℚ) : F64 :=
  let n := q.num.natAbs
  let u := lastPlace n q.den
  let digits := nearest (n * 2 ^ (-u).toNat) (q.den * 2 ^ u.toNat)
  let x : ℚ := digits * 2 ^ u.toNat / 2 ^ (-u).toNat
  if 2 ^ 1024 ≤ x then .inf (q < 0) else .finite (if q < 0 then -x else x)

example : binary64 (1 / 10) = .finite (3602879701896397 / 36028797018963968) := by decide +kernel

example : binary64 (2 ^ 53 + 1) = .finite (2 ^ 53) ∧ binary64 (2 ^ 53 + 3) = .finite (2 ^ 53 + 4) ∧
    binary64 (-2 ^ 1024 + 2 ^ 970) = .inf true := by decide +kernel

end FpsMaxxing.Numeric
