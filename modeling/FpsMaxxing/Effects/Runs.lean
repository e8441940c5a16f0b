import FpsMaxxing.Effects.Monitor

/-! Runs that have come to their end, taken apart along the program that was run. -/

namespace FpsMaxxing.Effects

variable {S : Signature} {W α β : Type}

def Semantics.among (env : W → W → Prop) (sem : Semantics S W) : Semantics S W :=
  fun w o r w' => ∃ u, env w u ∧ sem u o r w'

namespace Steps

variable {sem : Semantics S W} {w v : W} {tr : List (Entry S W)} {ε ε' : Type}

lemma perform_inv {o : S.Op} {r : S.Res o} (h : Steps sem (Program.perform o) w tr (.done r) v) :
    tr = [⟨w, o, r⟩] ∧ sem w o r v := by
  obtain ⟨_, hq, _⟩ | ⟨r', u, tr', rfl, hs, h⟩ := call_inv h
  · cases hq
  · obtain ⟨rfl, hr, rfl⟩ := done_inv h
    cases hr
    exact ⟨rfl, hs⟩

lemma mapErr_inv {f : ε → ε'} {answer : Program S (Except ε α)} {r : Except ε' α}
    (h : Steps sem (mapErr f answer).run w tr (.done r) v) :
    ∃ r', r = r'.mapError f ∧ Steps sem answer w tr (.done r') v := by
  rw [mapErr, ExceptT.run_mk] at h
  obtain ⟨q, hq, ha⟩ := of_map h
  cases q with
  | done r' =>
    cases hq
    exact ⟨r', rfl, ha⟩
  | call o next => cases hq

variable {x : ExceptT ε (Program S) α} {f : α → ExceptT ε (Program S) β}

lemma run_bind_inv {b : Except ε β} (h : Steps sem (x >>= f).run w tr (.done b) v) :
    (∃ e, b = .error e ∧ Steps sem x.run w tr (.done (.error e)) v) ∨
      ∃ a tr₁ u tr₂, tr = tr₁ ++ tr₂ ∧ Steps sem x.run w tr₁ (.done (.ok a)) u ∧
        Steps sem (f a).run u tr₂ (.done b) v := by
  rw [ExceptT.run_bind] at h
  obtain ⟨tr₁, r, u, tr₂, rfl, hx, hf⟩ := bind_inv h
  cases r with
  | error e =>
    obtain ⟨rfl, hb, rfl⟩ := done_inv hf
    cases hb
    exact .inl ⟨e, rfl, by rwa [List.append_nil]⟩
  | ok a => exact .inr ⟨a, tr₁, u, tr₂, rfl, hx, hf⟩

lemma run_bind {a : α} (h : Steps sem x.run w tr (.done (.ok a)) v) :
    Steps sem (x >>= f).run w tr (f a).run v := by
  rw [ExceptT.run_bind]
  exact h.bind

lemma run_lift_bind_inv {p : Program S α} {b : Except ε β}
    (h : Steps sem (ExceptT.lift p >>= f).run w tr (.done b) v) :
    ∃ a tr₁ u tr₂, tr = tr₁ ++ tr₂ ∧ Steps sem p w tr₁ (.done a) u ∧
      Steps sem (f a).run u tr₂ (.done b) v := by
  rw [ExceptT.run_bind, ExceptT.run_lift, bind_map_left] at h
  obtain ⟨tr₁, a, u, tr₂, htr, hp, hf⟩ := bind_inv h
  exact ⟨a, tr₁, u, tr₂, htr, hp, hf⟩

lemma run_lift_bind {p : Program S α} {a : α} (h : Steps sem p w tr (.done a) v) :
    Steps sem (ExceptT.lift p >>= f).run w tr (f a).run v := by
  rw [ExceptT.run_bind, ExceptT.run_lift, bind_map_left]
  exact h.bind

section

variable {T : Signature} {handle : (o : S.Op) → Program T (S.Res o)} {sem : Semantics T W} {w v : W}
  {tr : List (Entry T W)} {x : ExceptT ε (Program S) α} {f : α → ExceptT ε (Program S) β}

lemma interpret_bind_inv {b : Except ε β}
    (h : Steps sem (Program.interpret handle (x >>= f).run) w tr (.done b) v) :
    (∃ e, b = .error e ∧ Steps sem (Program.interpret handle x.run) w tr (.done (.error e)) v) ∨
      ∃ a tr₁ u tr₂, tr = tr₁ ++ tr₂ ∧
        Steps sem (Program.interpret handle x.run) w tr₁ (.done (.ok a)) u ∧
        Steps sem (Program.interpret handle (f a).run) u tr₂ (.done b) v := by
  rw [ExceptT.run_bind, Program.interpret_bind] at h
  obtain ⟨tr₁, r, u, tr₂, rfl, hx, hf⟩ := bind_inv h
  cases r with
  | error e =>
    obtain ⟨rfl, hb, rfl⟩ := done_inv hf
    cases hb
    exact .inl ⟨e, rfl, by rwa [List.append_nil]⟩
  | ok a => exact .inr ⟨a, tr₁, u, tr₂, rfl, hx, hf⟩

lemma interpret_lift_bind_inv {p : Program S α} {b : Except ε β}
    (h : Steps sem (Program.interpret handle (ExceptT.lift p >>= f).run) w tr (.done b) v) :
    ∃ a tr₁ u tr₂, tr = tr₁ ++ tr₂ ∧ Steps sem (p.interpret handle) w tr₁ (.done a) u ∧
      Steps sem (Program.interpret handle (f a).run) u tr₂ (.done b) v := by
  rw [ExceptT.run_bind, ExceptT.run_lift, bind_map_left, Program.interpret_bind] at h
  obtain ⟨tr₁, a, u, tr₂, htr, hp, hf⟩ := bind_inv h
  exact ⟨a, tr₁, u, tr₂, htr, hp, hf⟩

end

end Steps

end FpsMaxxing.Effects
