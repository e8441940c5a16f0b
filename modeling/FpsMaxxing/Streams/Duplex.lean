import FpsMaxxing.Effects.Program
import Mathlib.Logic.Relation

/-! The two directions of a stream as one end sees them, and the programs that send or receive one
message in whatever pieces it travels. -/

namespace FpsMaxxing.Streams

open Effects Relation

def attempt {S T : Signature} {α : Type} (ask : (o : S.Op) → Program T (Option (S.Res o))) :
    Program S α → Program T (Option α)
  | .done a => .done (some a)
  | .call o next => ask o >>= fun r => r.elim (.done none) fun r => attempt ask (next r)

lemma attempt_bind {S T : Signature} {α β : Type}
    {ask : (o : S.Op) → Program T (Option (S.Res o))} (p : Program S α) (f : α → Program S β) :
    attempt ask (p >>= f) = attempt ask p >>= fun r => r.elim (.done none) fun a =>
      attempt ask (f a) := by
  induction p with
  | done a => rfl
  | call o next ih =>
    rw [Program.call_bind, attempt, attempt, Program.bind_assoc]
    congr 1
    funext r
    cases r with
    | none => rfl
    | some r => exact ih r

variable {α ε β γ : Type}

inductive SocketOp (α : Type)
  | read (n : ℕ)
  | write (units : List α)

abbrev SocketOp.Res (ε : Type) : SocketOp α → Type
  | read _ => Except ε (List α)
  | write _ => Except ε ℕ

abbrev Socket (α ε : Type) : Signature := ⟨SocketOp α, SocketOp.Res ε⟩

def SocketOp.fail (e : ε) : (o : SocketOp α) → o.Res ε
  | read _ => .error e
  | write _ => .error e

/-- One call while either direction holds `capacity` at most and the other end is open or not. What
has been read leaves the first queue, what has been written joins the second. -/
inductive Transfers (capacity : ℕ) (peer : Bool) :
    List α → List α → (o : SocketOp α) → o.Res ε → List α → List α → Prop
  | read {n units inward outward} : units ≠ [] → units.length ≤ n →
      Transfers capacity peer (units ++ inward) outward (.read n) (.ok units) inward outward
  | ended {n outward} : peer = false →
      Transfers capacity peer [] outward (.read n) (.ok []) [] outward
  | write {units k inward outward} : peer = true → 0 < k → k ≤ units.length →
      outward.length + k ≤ capacity →
      Transfers capacity peer inward outward (.write units) (.ok k) inward (outward ++ units.take k)
  | refused {units inward outward} (e : ε) : peer = false →
      Transfers capacity peer inward outward (.write units) (.error e) inward outward

lemma Transfers.whole {capacity : ℕ} {peer : Bool} {units inward outward : List α}
    (hpeer : peer = true) (hu : units ≠ []) (hroom : outward.length + units.length ≤ capacity) :
    @Transfers α ε capacity peer inward outward (.write units) (.ok units.length) inward
      (outward ++ units) := by
  have h := @Transfers.write _ ε capacity peer units units.length inward outward hpeer
    (List.length_pos_iff.mpr hu) (Nat.le_refl _) hroom
  rwa [List.take_length] at h

def Ends (bad : β → Prop) (p : Program (Socket α ε) β) : Prop := ∃ b, p = .done b ∧ bad b

/-- From `p`, what is sent until `q` is reached is the message. -/
inductive Sends (bad : β → Prop) :
    Program (Socket α ε) β → List α → Program (Socket α ε) β → Prop
  | done (p) : Sends bad p [] p
  | write {units more next q} : units ≠ [] → (∀ e, Ends bad (next (.error e))) →
      (∀ k, 0 < k → k ≤ units.length → Sends bad (next (.ok k)) (units.drop k ++ more) q) →
      Sends bad (.call (.write units) next) (units ++ more) q

/-- Given the message and nothing beyond it, `p` returns `b`. -/
inductive Receives (bad : β → Prop) : Program (Socket α ε) β → List α → β → Prop
  | done (b) : Receives bad (.done b) [] b
  | read {n next message b} : 0 < n → n ≤ message.length → (∀ e, Ends bad (next (.error e))) →
      Ends bad (next (.ok [])) →
      (∀ units rest, message = units ++ rest → units ≠ [] → units.length ≤ n →
        Receives bad (next (.ok units)) rest b) →
      Receives bad (.call (.read n) next) message b

section

variable {bad : β → Prop} {bad' : γ → Prop} {f : β → Program (Socket α ε) γ}
  {p q : Program (Socket α ε) β} {message : List α} {b : β}

lemma Ends.bind (hf : ∀ b, bad b → Ends bad' (f b)) (h : Ends bad p) : Ends bad' (p >>= f) := by
  obtain ⟨b, rfl, hb⟩ := h
  exact hf b hb

namespace Sends

lemma bind (hf : ∀ b, bad b → Ends bad' (f b)) (h : Sends bad p message q) :
    Sends bad' (p >>= f) message (q >>= f) := by
  induction h with
  | done p => exact .done _
  | write hu he _ ih => exact .write hu (fun e => (he e).bind hf) ih

lemma trans {r : Program (Socket α ε) β} {message' : List α} (h : Sends bad p message q)
    (h' : Sends bad q message' r) : Sends bad p (message ++ message') r := by
  induction h with
  | done p => exact h'
  | write hu he _ ih =>
    rw [List.append_assoc]
    refine .write hu he fun k h0 hk => ?_
    rw [← List.append_assoc]
    exact ih k h0 hk h'

lemma of_nil (h : Sends bad p message q) (hm : message = []) : p = q := by
  induction h with
  | done p => rfl
  | write hu => exact absurd (List.append_eq_nil_iff.mp hm).1 hu

lemma exists_write (h : Sends bad p message q) (hm : message ≠ []) :
    ∃ units next, p = .call (.write units) next ∧ units ≠ [] := by
  cases h with
  | done => exact absurd rfl hm
  | write hu => exact ⟨_, _, rfl, hu⟩

/-- Where there is room for the message, `c` gets from one end of it to the other in whole pieces. -/
lemma runs {W : Type} {step : W → W → Prop} {c : Program (Socket α ε) β → List α → W} {capacity : ℕ}
    (hstep : ∀ {units next outward}, units ≠ [] → outward.length + units.length ≤ capacity →
      step (c (.call (.write units) next) outward) (c (next (.ok units.length)) (outward ++ units)))
    (h : Sends bad p message q) {outward : List α}
    (hroom : outward.length + message.length ≤ capacity) :
    ReflTransGen step (c p outward) (c q (outward ++ message)) := by
  induction h generalizing outward with
  | done p => rw [List.append_nil]
  | @write units more next q hu _ _ ih =>
    rw [List.length_append] at hroom
    have hfirst : step (c (.call (.write units) next) outward) _ := hstep hu (by omega)
    have hrest := @ih units.length (List.length_pos_iff.mpr hu) (Nat.le_refl _) (outward ++ units)
      (by simp; omega)
    rw [List.drop_length, List.nil_append, List.append_assoc] at hrest
    exact .head hfirst hrest

variable {o : SocketOp α} {next : o.Res ε → Program (Socket α ε) β}

lemma fail (h : Sends bad (.call o next) message q) (hm : message ≠ []) (e : ε) :
    Ends bad (next (o.fail e)) := by
  cases h with
  | done => exact absurd rfl hm
  | write _ he => exact he e

lemma transfers {capacity : ℕ} {peer : Bool} {inward outward inward' outward' : List α}
    {r : o.Res ε} (h : Sends bad (.call o next) message q) (hm : message ≠ [])
    (hp : Transfers capacity peer inward outward o r inward' outward') : inward' = inward ∧
      ((peer = false ∧ outward' = outward ∧ Ends bad (next r)) ∨
        peer = true ∧ ∃ sent rest, sent ≠ [] ∧ message = sent ++ rest ∧ outward' = outward ++ sent ∧
          Sends bad (next r) rest q) := by
  cases h with
  | done => exact absurd rfl hm
  | @write units more _ _ hu he hn =>
    cases hp with
    | refused e hpeer => exact ⟨rfl, .inl ⟨hpeer, rfl, he e⟩⟩
    | @write _ k _ _ hpeer h0 hk hroom =>
      have hsent : units.take k ≠ [] := by
        rw [Ne, List.take_eq_nil_iff, not_or]
        exact ⟨Nat.pos_iff_ne_zero.mp h0, hu⟩
      refine ⟨rfl, .inr ⟨hpeer, units.take k, units.drop k ++ more, hsent, ?_, rfl, hn k h0 hk⟩⟩
      rw [← List.append_assoc, List.take_append_drop]

end Sends

namespace Receives

lemma of_nil (h : Receives bad p message b) (hm : message = []) : p = .done b := by
  cases h with
  | done => rfl
  | read h0 hn =>
    rw [hm, List.length_nil] at hn
    omega

lemma ne_nil {o : SocketOp α} {next : o.Res ε → Program (Socket α ε) β}
    (h : Receives bad (.call o next) message b) : message ≠ [] := by
  intro hm
  cases h.of_nil hm

lemma exists_read (h : Receives bad p message b) (hm : message ≠ []) :
    ∃ n next, p = .call (.read n) next ∧ 0 < n := by
  cases h with
  | done => exact absurd rfl hm
  | read h0 => exact ⟨_, _, rfl, h0⟩

lemma seq {message' : List α} {c : γ} (hf : ∀ b, bad b → Ends bad' (f b))
    (h : Receives bad p message b) (h' : Receives bad' (f b) message' c) :
    Receives bad' (p >>= f) (message ++ message') c := by
  induction h with
  | done b => exact h'
  | @read n next message b h0 hn he hend _ ih =>
    have hn' : n ≤ (message ++ message').length := by
      rw [List.length_append]
      omega
    refine .read h0 hn' (fun e => (he e).bind hf) (hend.bind hf) fun units rest heq hu hlen => ?_
    rcases List.append_eq_append_iff.mp heq with ⟨taken, rfl, rfl⟩ | ⟨taken, rfl, rfl⟩
    · have hnil : taken = [] := by
        rw [List.length_append] at hlen
        exact List.eq_nil_of_length_eq_zero (by omega)
      subst hnil
      rw [List.append_nil] at hu hlen ⊢
      exact ih message [] (List.append_nil _).symm hu hlen h'
    · exact ih units taken rfl hu hlen h'

lemma bind {c : γ} (hf : ∀ b, bad b → Ends bad' (f b)) (hb : f b = .done c)
    (h : Receives bad p message b) : Receives bad' (p >>= f) message c := by
  have hd : Receives bad' (f b) [] c := by
    rw [hb]
    exact .done c
  simpa using h.seq hf hd

lemma runs {W : Type} {step : W → W → Prop} {c : Program (Socket α ε) β → List α → W}
    (hstep : ∀ {n next units rest}, units ≠ [] → units.length ≤ n →
      step (c (.call (.read n) next) (units ++ rest)) (c (next (.ok units)) rest))
    (h : Receives bad p message b) : ReflTransGen step (c p message) (c (.done b) []) := by
  induction h with
  | done b => exact .refl
  | @read n next message b h0 hn _ _ _ ih =>
    have hlen : (message.take n).length = n := by
      rw [List.length_take]
      omega
    have hne : message.take n ≠ [] := List.length_pos_iff.mp (by omega)
    have hfirst : step (c (.call (.read n) next) (message.take n ++ message.drop n)) _ :=
      hstep hne (Nat.le_of_eq hlen)
    rw [List.take_append_drop] at hfirst
    exact .head hfirst (ih _ _ (List.take_append_drop _ _).symm hne (Nat.le_of_eq hlen))

variable {o : SocketOp α} {next : o.Res ε → Program (Socket α ε) β}

lemma fail (h : Receives bad (.call o next) message b) (e : ε) : Ends bad (next (o.fail e)) := by
  cases h with
  | read _ _ he => exact he e

lemma transfers {capacity : ℕ} {peer : Bool} {inward outward inward' outward' left : List α}
    {r : o.Res ε} (h : Receives bad (.call o next) (inward ++ left) b)
    (hp : Transfers capacity peer inward outward o r inward' outward') : outward' = outward ∧
      ((peer = false ∧ inward = [] ∧ inward' = [] ∧ Ends bad (next r)) ∨
        ∃ units, units ≠ [] ∧ inward = units ++ inward' ∧
          Receives bad (next r) (inward' ++ left) b) := by
  cases h with
  | read _ _ _ hend hn =>
    cases hp with
    | ended hpeer => exact ⟨rfl, .inl ⟨hpeer, rfl, rfl, hend⟩⟩
    | read hu hlen => exact ⟨rfl, .inr ⟨_, hu, rfl, hn _ _ (List.append_assoc ..) hu hlen⟩⟩

end Receives

end

end FpsMaxxing.Streams
