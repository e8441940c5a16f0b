import Mathlib.Data.List.Basic
import Mathlib.Tactic.Common

/-! Streams that arrive in pieces. A read gives at most what was asked for and at most one piece, so
that every way of splitting a content into short reads is the way some stream is cut. -/

namespace FpsMaxxing.Streams

variable {α : Type}

/-- What is still to come, in pieces none of which is empty; at the end nothing comes. -/
structure Chunked (α : Type) where
  pieces : List (List α)
  nonempty : ∀ piece ∈ pieces, piece ≠ []

def skipPieces : ℕ → List (List α) → List (List α)
  | _, [] => []
  | n, piece :: pieces =>
    if piece.length ≤ n then skipPieces (n - piece.length) pieces else piece.drop n :: pieces

lemma flatten_skipPieces (n : ℕ) (pieces : List (List α)) :
    (skipPieces n pieces).flatten = pieces.flatten.drop n := by
  induction pieces generalizing n with
  | nil => simp [skipPieces]
  | cons piece pieces ih =>
    rw [skipPieces]
    split_ifs with hn
    · simp [ih, List.drop_append, List.drop_eq_nil_of_le hn]
    · have hd : n - piece.length = 0 := by omega
      simp [List.drop_append, hd]

lemma ne_nil_of_mem_skipPieces {n : ℕ} {pieces : List (List α)}
    (h : ∀ piece ∈ pieces, piece ≠ []) : ∀ piece ∈ skipPieces n pieces, piece ≠ [] := by
  induction pieces generalizing n with
  | nil => exact h
  | cons piece pieces ih =>
    have hs : ∀ piece ∈ pieces, piece ≠ [] := fun p hp => h p (List.mem_cons_of_mem _ hp)
    rw [skipPieces]
    split_ifs with hn
    · exact ih hs
    · intro p hp
      rcases List.mem_cons.mp hp with rfl | hp
      · simpa using hn
      · exact hs p hp

namespace Chunked

def content (s : Chunked α) : List α := s.pieces.flatten

def ended : Chunked α := ⟨[], nofun⟩

def ofPieces (pieces : List (List α)) : Chunked α :=
  ⟨pieces.filter fun piece => !piece.isEmpty, by simp⟩

def skip (n : ℕ) (s : Chunked α) : Chunked α :=
  ⟨skipPieces n s.pieces, ne_nil_of_mem_skipPieces s.nonempty⟩

def read (n : ℕ) (s : Chunked α) : List α × Chunked α :=
  match s.pieces with
  | [] => ([], s)
  | piece :: _ => (piece.take n, s.skip (min n piece.length))

def readExact (n : ℕ) (s : Chunked α) : Option (List α) × Chunked α :=
  if s.content.length < n then (none, ended) else (some (s.content.take n), s.skip n)

@[simp] lemma content_ended : (ended : Chunked α).content = [] := rfl

@[simp] lemma content_ofPieces (pieces : List (List α)) :
    (ofPieces pieces).content = pieces.flatten := by
  induction pieces with
  | nil => rfl
  | cons piece pieces ih =>
    simp only [content, ofPieces] at ih ⊢
    cases piece <;> simp [ih]

@[simp] lemma content_skip (n : ℕ) (s : Chunked α) : (s.skip n).content = s.content.drop n :=
  flatten_skipPieces n s.pieces

lemma read_spec (n : ℕ) (s : Chunked α) : ∃ k ≤ n, k ≤ s.content.length ∧
    (s.read n).1 = s.content.take k ∧ (s.read n).2.content = s.content.drop k := by
  rw [read]
  cases hs : s.pieces with
  | nil => exact ⟨0, Nat.zero_le n, Nat.zero_le _, by simp, by simp⟩
  | cons piece pieces =>
    have hc : s.content = piece ++ pieces.flatten := by simp [content, hs]
    have hl : min n piece.length ≤ s.content.length := by
      rw [hc, List.length_append]
      omega
    refine ⟨min n piece.length, Nat.min_le_left _ _, hl, ?_, content_skip _ _⟩
    rw [hc, List.take_append_of_le_length (Nat.min_le_right _ _), List.take_eq_take_iff]
    simp

lemma read_eq_nil {n : ℕ} (hn : 0 < n) (s : Chunked α) :
    (s.read n).1 = [] ↔ s.content = [] := by
  rw [read]
  cases hs : s.pieces with
  | nil => simp [content, hs]
  | cons piece pieces =>
    have hp : piece ≠ [] := s.nonempty piece (hs ▸ List.mem_cons_self)
    have hn' : n ≠ 0 := Nat.pos_iff_ne_zero.mp hn
    simp [content, hs, hp, hn']

end Chunked

end FpsMaxxing.Streams
