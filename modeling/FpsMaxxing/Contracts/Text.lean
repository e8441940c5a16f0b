import Mathlib.Data.String.Basic
import Mathlib.Tactic.Common

/-! JSON text of strings, and how much longer it is than they are. -/

namespace FpsMaxxing.Json

open String

lemma utf8ByteSize_append_le {s t : String} {m n : ℕ} (hs : s.utf8ByteSize ≤ m)
    (ht : t.utf8ByteSize ≤ n) : (s ++ t).utf8ByteSize ≤ m + n := by
  rw [utf8ByteSize_append]
  exact Nat.add_le_add hs ht

lemma utf8ByteSize_append_pos {s t : String} (ht : 0 < t.utf8ByteSize) :
    0 < (s ++ t).utf8ByteSize := by
  rw [utf8ByteSize_append]
  exact Nat.add_pos_right _ ht

lemma utf8Len_le_mul_length (cs : List Char) : utf8Len cs ≤ 4 * cs.length := by
  induction cs with
  | nil => exact le_rfl
  | cons c cs ih =>
    have hc := c.utf8Size_le_four
    rw [utf8Len_cons, List.length_cons]
    omega

lemma utf8ByteSize_repr_le {n k : ℕ} (hk : 0 < k) (h : n < 10 ^ k) :
    n.repr.utf8ByteSize ≤ 4 * k := by
  have hl : n.repr.length ≤ k := (Nat.length_repr_le_iff hk).mpr h
  have hs := utf8Len_le_mul_length n.repr.toList
  rw [utf8Len_toList, length_toList] at hs
  omega

/-- How a character stands in a string of compact JSON: quotes, backslashes and control characters
are escaped, all others are themselves. -/
def escape (c : Char) : List Char :=
  match c.toNat with
  | 0x08 => "\\b".toList
  | 0x09 => "\\t".toList
  | 0x0A => "\\n".toList
  | 0x0C => "\\f".toList
  | 0x0D => "\\r".toList
  | 0x22 => "\\\"".toList
  | 0x5C => "\\\\".toList
  | n =>
    if n < 0x20 then "\\u00".toList ++ [Nat.digitChar (n / 16), Nat.digitChar (n % 16)] else [c]

def quoted (text : String) : String := "\"" ++ .ofList (text.toList.flatMap escape) ++ "\""

lemma utf8Len_control {n : ℕ} (h : n < 0x20) :
    utf8Len ("\\u00".toList ++ [Nat.digitChar (n / 16), Nat.digitChar (n % 16)]) = 6 := by
  revert n
  decide

lemma utf8Len_escape_le (c : Char) : utf8Len (escape c) ≤ 6 * c.utf8Size := by
  have hpos := c.utf8Size_pos
  have hshort : ∀ cs : List Char, utf8Len cs ≤ 6 → utf8Len cs ≤ 6 * c.utf8Size := by
    intro cs h
    omega
  rw [escape]
  split
  case h_8 =>
    split_ifs with h
    · exact hshort _ (utf8Len_control h).le
    · simp only [utf8Len_cons, utf8Len_nil]
      omega
  all_goals exact hshort _ (by decide)

lemma utf8Len_flatMap_escape_le (cs : List Char) : utf8Len (cs.flatMap escape) ≤ 6 * utf8Len cs := by
  induction cs with
  | nil => exact le_rfl
  | cons c cs ih =>
    have hc := utf8Len_escape_le c
    rw [List.flatMap_cons, utf8Len_append, utf8Len_cons]
    omega

lemma utf8ByteSize_quoted_le (text : String) :
    (quoted text).utf8ByteSize ≤ 6 * text.utf8ByteSize + 2 := by
  have h := utf8Len_flatMap_escape_le text.toList
  have hs := utf8ByteSize_ofList (text.toList.flatMap escape)
  have hq : "\"".utf8ByteSize = 1 := rfl
  rw [utf8Len_toList] at h
  rw [quoted, utf8ByteSize_append, utf8ByteSize_append, hs, hq]
  omega

end FpsMaxxing.Json
