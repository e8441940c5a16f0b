import Mathlib.Data.List.Basic
import Mathlib.Tactic.Common

/-! Lines of a byte stream, as a buffered reader cuts them. -/

namespace FpsMaxxing.Streams

def newline : UInt8 := 10
def carriageReturn : UInt8 := 13

/-- `read_line` up to the end of the input, with `piece` already read: a piece ends with its
newline, and what is left without one is the last piece. -/
def readLines (piece : List UInt8) : List UInt8 → List (List UInt8)
  | [] => if piece = [] then [] else [piece]
  | b :: rest =>
    if b = newline then (piece ++ [b]) :: readLines [] rest else readLines (piece ++ [b]) rest

def trimEnd (piece : List UInt8) : List UInt8 :=
  if piece.getLast? = some newline then
    let line := piece.dropLast
    if line.getLast? = some carriageReturn then line.dropLast else line
  else piece

def lines (input : List UInt8) : List (List UInt8) := (readLines [] input).map trimEnd

example : lines [65, 13, 10, 10, 66, 13] = [[65], [], [66, 13]] := by decide

lemma readLines_line {line : List UInt8} (h : newline ∉ line) (piece rest : List UInt8) :
    readLines piece (line ++ newline :: rest) = (piece ++ line ++ [newline]) :: readLines [] rest := by
  induction line generalizing piece with
  | nil => simp [readLines]
  | cons b line ih =>
    obtain ⟨hb, hl⟩ := List.ne_and_not_mem_of_not_mem_cons h
    rw [List.cons_append, readLines, if_neg hb.symm, ih hl]
    simp

lemma readLines_flatMap (written : List (List UInt8)) (h : ∀ line ∈ written, newline ∉ line) :
    readLines [] (written.flatMap fun line => line ++ [newline]) =
      written.map fun line => line ++ [newline] := by
  induction written with
  | nil => rfl
  | cons line written ih =>
    obtain ⟨hl, hw⟩ := List.forall_mem_cons.mp h
    rw [List.flatMap_cons, List.append_assoc, List.singleton_append, readLines_line hl, ih hw]
    rfl

end FpsMaxxing.Streams
