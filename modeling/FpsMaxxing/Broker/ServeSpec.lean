import FpsMaxxing.Broker.Asking
import FpsMaxxing.Broker.Serve

/-! What holds of the accept loop, and how it ends. -/

namespace FpsMaxxing

open Effects Dispatch

variable {σ : Type} {P : Provider σ} {codec : Codec} {authorizer : PeerAuthorizer}
  {w : World σ}

namespace Broker

variable {s s' : Broker σ}

lemma live_eq (s : Broker σ) : s.live = (s.clients.map Client.alive).count true := by
  rw [live, ← List.countP_eq_length_filter, List.count, List.countP_map]
  exact List.countP_congr fun client _ => by simp

lemma live_of_alive (h : s'.clients.map Client.alive = s.clients.map Client.alive) :
    s'.live = s.live := by
  rw [live_eq, live_eq, h]

lemma live_leave {c : ℕ} {client : Client} (hc : s.clients[c]? = some client)
    (ha : client.alive = true) : (s.setClient c { client with alive := false }).live + 1 = s.live := by
  obtain ⟨hlt, hget⟩ := List.getElem?_eq_some_iff.mp hc
  have hmem : 0 < (s.clients.map Client.alive).count true :=
    List.count_pos_iff.mpr (List.mem_map.mpr ⟨client, List.mem_of_getElem? hc, ha⟩)
  rw [live_eq, live_eq, setClient, List.map_set, List.count_set (by simpa using hlt)]
  simp [hget, ha]
  omega

lemma Step.log (h : Step P codec authorizer s s') : s.log <+: s'.log := by
  cases h with
  | send | decline | receive | miss | take | answer | panic => exact List.prefix_append _ _
  | accept | proceed | leave | call | stop | retire => exact List.prefix_rfl

lemma Sound.down_of_serving {w : World σ} (h : Sound P w s) (hw : s.worker = .stopped)
    (hs : s.serving = true) : Down s.log := by
  have hp := h.placed
  rw [Placed, hw] at hp
  rcases hp.2.2 with hd | ⟨⟨hns, _⟩, _⟩
  · exact hd
  · rw [hs] at hns
    cases hns

end Broker

namespace Acceptor

variable {a : Acceptor}

lemma fuel_le (a : Acceptor) : a.fuel ≤ 4 := by
  cases a with
  | admitting slot => cases slot <;> simp [fuel]
  | selecting slot | sleeping | returned error => simp [fuel]

lemma room_le (a : Acceptor) : a.room ≤ 1 := by
  cases a <;> simp [room]

lemma fuel_pos (h : ∀ error, a ≠ .returned error) : 0 < a.fuel := by
  cases a with
  | admitting slot => cases slot <;> simp [fuel]
  | selecting slot | sleeping => simp [fuel]
  | returned error => exact absurd rfl (h error)

end Acceptor

namespace Serving

variable {s s' : Serving σ} {own : Bool}

namespace Sound

lemma init (w : World σ) : Sound P codec authorizer w (.init w) where
  refines := .refl
  slots := rfl
  serving := iff_of_true rfl nofun
  returned := nofun
  transient _ := nofun

lemma still_serving (h : Sound P codec authorizer w s) {a : Acceptor} (ha : s.acceptor = a)
    (hn : ∀ error, a ≠ .returned error) : s.broker.serving = true :=
  h.serving.mpr (ha ▸ hn)

lemma loop (h : Sound P codec authorizer w s) {a b : Acceptor} {connections : ℕ}
    {failures : List Transport.Error} (ha : s.acceptor = a) (hn : ∀ error, a ≠ .returned error)
    (hb : ∀ error, b ≠ .returned error) (hc : connections + b.slots = s.connections + a.slots)
    (hf : ∀ error ∈ failures, error ∈ s.failures ∨ isTransientAcceptError error = true) :
    Sound P codec authorizer w { s with
      acceptor := b, connections := connections, failures := failures } where
  refines := h.refines
  slots := by
    have hslots := h.slots
    rw [ha] at hslots
    dsimp only
    omega
  serving := iff_of_true (h.still_serving ha hn) hb
  returned error he := absurd he (hb error)
  transient _ error he := (hf error he).elim (h.transient (ha ▸ hn) error) id

lemma ends (h : Sound P codec authorizer w s) {a : Acceptor} {error : Transport.Error}
    {failures : List Transport.Error} (ha : s.acceptor = a)
    (he : error = workerStopped ∧ Down s.broker.log ∨
      error ∈ failures ∧ isTransientAcceptError error = false) :
    Sound P codec authorizer w { s with
      broker := { s.broker with serving := false }
      acceptor := .returned error
      connections := s.connections + a.slots
      failures := failures } where
  refines := h.refines.tail .stop
  slots := ha ▸ h.slots
  serving := iff_of_false nofun fun hn => hn _ rfl
  returned := by
    rintro _ ⟨⟩
    exact he
  transient hn := absurd rfl (hn error)

lemma accept (h : Sound P codec authorizer w s) (accepted : Transport.Accepted)
    (ha : s.acceptor = .admitting true) :
    Sound P codec authorizer w { s with
      broker := s.broker.joined codec authorizer accepted
      acceptor := .selecting false } := by
  have hserving := h.still_serving ha nofun
  have hslots := h.slots
  rw [ha] at hslots
  simp only [Acceptor.slots, Bool.toNat_true] at hslots
  constructor
  · refine h.refines.tail (.accept accepted hserving ?_)
    rw [Broker.live] at hslots
    omega
  · simp only [Acceptor.slots, Bool.toNat_false, Broker.live, Broker.joined, List.filter_append,
      List.length_append]
    rw [Broker.live] at hslots
    simp
    omega
  · exact iff_of_true hserving nofun
  · nofun
  · exact fun _ => h.transient (ha ▸ nofun)

lemma broker (h : Sound P codec authorizer w s) {b : Broker σ} {connections : ℕ}
    (hb : Broker.Step P codec authorizer s.broker b) (hserving : b.serving = s.broker.serving)
    (hc : connections + b.live = s.connections + s.broker.live) :
    Sound P codec authorizer w { s with broker := b, connections := connections } where
  refines := h.refines.tail hb
  slots := by
    have hslots := h.slots
    dsimp only
    omega
  serving := by
    rw [hserving]
    exact h.serving
  returned error he := by
    apply (h.returned error he).imp_left
    rintro ⟨he, hd⟩
    obtain ⟨log, hl⟩ := hb.log
    exact ⟨he, hl ▸ hd.append log⟩
  transient := h.transient

lemma step (h : Sound P codec authorizer w s) (hs : Step P codec authorizer s own s') :
    Sound P codec authorizer w s' := by
  have hsame : ∀ error ∈ s.failures, error ∈ s.failures ∨ isTransientAcceptError error = true :=
    fun _ => .inl
  cases hs with
  | poll ha _ => exact h.loop ha nofun nofun rfl hsame
  | halt ha hw =>
    apply h.ends ha
    exact .inl ⟨rfl, (Broker.Sound.reach h.refines).down_of_serving hw (h.still_serving ha nofun)⟩
  | acquire ha hc => exact h.loop ha nofun nofun (Nat.sub_add_cancel hc) hsame
  | pend ha => exact h.loop ha nofun nofun rfl hsame
  | accept accepted ha => exact h.accept accepted ha
  | retry error ha ht =>
    refine h.loop ha nofun nofun rfl fun e he => ?_
    rcases List.mem_append.mp he with he | he
    · exact .inl he
    · exact .inr (List.mem_singleton.mp he ▸ ht)
  | wake ha => exact h.loop ha nofun nofun rfl hsame
  | fail error ha ht =>
    exact h.ends ha (.inr ⟨List.mem_append_right _ (List.mem_singleton.mpr rfl), ht⟩)
  | within hb hserving halive =>
    exact h.broker hb hserving (congrArg (s.connections + ·) (Broker.live_of_alive halive))
  | leave hc ha =>
    apply h.broker (.leave hc) rfl
    have hl := Broker.live_leave hc ha
    omega

lemma reach (h : Reach P codec authorizer w s) : Sound P codec authorizer w s := by
  induction h with
  | refl => exact .init w
  | tail _ hs ih =>
    obtain ⟨own, hs⟩ := hs
    exact ih.step hs

end Sound

lemma Step.stopped (hw : s.broker.worker = .stopped) (hs : Step P codec authorizer s own s') :
    s'.broker.worker = .stopped := by
  cases hs with
  | within hb _ _ =>
    cases hb with
    | take h | call h | answer h | panic h | retire h => simp [hw] at h
    | _ => exact hw
  | _ => exact hw

lemma Step.fuel (hw : s.broker.worker = .stopped) (hs : Step P codec authorizer s true s') :
    s'.acceptor.fuel < s.acceptor.fuel := by
  cases hs with
  | poll _ hn => exact absurd hw hn
  | @pend slot ha => cases slot <;> simp [ha, Acceptor.fuel]
  | halt ha _ | acquire ha _ | accept _ ha | retry _ ha _ | wake ha | fail _ ha _ =>
    simp [ha, Acceptor.fuel]

lemma Step.fuel_other (hs : Step P codec authorizer s false s') :
    s'.acceptor.fuel ≤ s.acceptor.fuel := by
  cases hs <;> exact le_rfl

lemma Step.room (hw : s.broker.worker = .stopped) (hs : Step P codec authorizer s own s') :
    s'.broker.clients.length + s'.acceptor.room ≤ s.broker.clients.length + s.acceptor.room := by
  cases hs with
  | poll _ hn => exact absurd hw hn
  | within _ _ halive =>
    have hl := congrArg List.length halive
    rw [List.length_map, List.length_map] at hl
    dsimp only
    omega
  | leave _ _ => simp [Broker.setClient]
  | halt ha _ | acquire ha _ | pend ha | accept _ ha | retry _ ha _ | wake ha | fail _ ha _ =>
    simp [ha, Acceptor.room]

lemma exists_step (hw : s.broker.worker = .stopped) (hr : ∀ error, s.acceptor ≠ .returned error) :
    ∃ s', Step P codec authorizer s true s' := by
  cases ha : s.acceptor with
  | selecting slot => exact ⟨_, .halt ha hw⟩
  | admitting slot => exact ⟨_, .pend ha⟩
  | sleeping => exact ⟨_, .wake ha⟩
  | returned error => exact absurd ha (hr error)

lemma Reach.counted {n : ℕ} (h : Reach P codec authorizer w s)
    (hr : Counted (Step P codec authorizer) s n s') : Reach P codec authorizer w s' :=
  h.trans hr.reach

end Serving

/-- Once the worker has stopped the loop returns within four steps of its own, whatever else
happens meanwhile, and accepts one more peer at most. -/
theorem serve_stops {s s' : Serving σ} {n : ℕ} (h : Serving.Reach P codec authorizer w s)
    (hw : s.broker.worker = .stopped) (hr : Counted (Serving.Step P codec authorizer) s n s') :
    n ≤ 4 ∧ s'.broker.clients.length ≤ s.broker.clients.length + 1 ∧
      ((∃ error, s'.acceptor = .returned error ∧ (error = workerStopped ∧ Down s'.broker.log ∨
          error ∈ s'.failures ∧ isTransientAcceptError error = false)) ∨
        n < 4 ∧ ∃ s'', Serving.Step P codec authorizer s' true s'') := by
  have hkeep : ∀ a own b, a.broker.worker = .stopped → Serving.Step P codec authorizer a own b →
      b.broker.worker = .stopped := fun _ _ _ => Serving.Step.stopped
  have hbound : n + s'.acceptor.fuel ≤ s.acceptor.fuel :=
    hr.bounded hw hkeep (fun _ _ => Serving.Step.fuel) fun _ _ _ => Serving.Step.fuel_other
  have hroom := (hr.invariant (I := fun a => a.broker.worker = .stopped ∧
    a.broker.clients.length + a.acceptor.room ≤ s.broker.clients.length + s.acceptor.room)
    ⟨hw, le_rfl⟩ fun a own b ha hs => ⟨hs.stopped ha.1, (hs.room ha.1).trans ha.2⟩).2
  have hfuel := s.acceptor.fuel_le
  have hone := s.acceptor.room_le
  refine ⟨by omega, by omega, ?_⟩
  by_cases hret : ∃ error, s'.acceptor = .returned error
  · obtain ⟨error, he⟩ := hret
    exact .inl ⟨error, he, (Serving.Sound.reach (h.counted hr)).returned error he⟩
  · have hn : ∀ error, s'.acceptor ≠ .returned error := fun error he => hret ⟨error, he⟩
    refine .inr ⟨?_, Serving.exists_step (hr.invariant hw hkeep) hn⟩
    have hpos := Acceptor.fuel_pos hn
    omega

lemma Serving.Reach.within {s : Serving σ} {b : Broker σ} (h : Reach P codec authorizer w s)
    (hb : Relation.ReflTransGen (Broker.Stays P codec authorizer) s.broker b) :
    Reach P codec authorizer w { s with broker := b } := by
  induction hb with
  | refl => exact h
  | tail _ hs ih => exact ih.tail ⟨_, .within hs.1 hs.2.1 hs.2.2⟩

def interrupted : Transport.Error := ⟨.interrupted, "interrupted system call"⟩

lemma Serving.panics : ∃ s, Serving.Reach (mockProvider "linux").provider errorsCodec
    (sameUidAuthorizer 1000) ⟨⟨true, [], []⟩, 7⟩ s ∧ s.broker.worker = .stopped ∧
      s.acceptor = .admitting true ∧ s.broker.clients.length = 1 ∧ s.failures = [interrupted] := by
  have hd : errorsCodec.decode discovery = .ok ⟨.discover, none, none⟩ := by decide +kernel
  let peer : Transport.Accepted := ⟨.holding (frame discovery), 1000, none⟩
  let b : Broker UInt64 := (Broker.init ⟨⟨true, [], []⟩, 7⟩).joined errorsCodec
    (sameUidAuthorizer 1000) peer
  have h₁ : Serving.Reach (mockProvider "linux").provider errorsCodec (sameUidAuthorizer 1000)
      ⟨⟨true, [], []⟩, 7⟩ ⟨.init _, .selecting false, maxConnections, [interrupted]⟩ :=
    (((Relation.ReflTransGen.refl.tail ⟨_, .poll rfl nofun⟩).tail
      ⟨_, .acquire rfl (Nat.succ_pos 31)⟩).tail ⟨_, .retry interrupted rfl rfl⟩).tail ⟨_, .wake rfl⟩
  have h₂ : Serving.Reach (mockProvider "linux").provider errorsCodec (sameUidAuthorizer 1000)
      ⟨⟨true, [], []⟩, 7⟩ ⟨b, .selecting false, maxConnections - 1, [interrupted]⟩ :=
    ((h₁.tail ⟨_, .poll rfl nofun⟩).tail ⟨_, .acquire rfl (Nat.succ_pos 31)⟩).tail
      ⟨_, .accept peer rfl⟩
  have h₃ : Serving.Reach (mockProvider "linux").provider errorsCodec (sameUidAuthorizer 1000)
      ⟨⟨true, [], []⟩, 7⟩ ⟨b, .admitting true, maxConnections - 1 - 1, [interrupted]⟩ :=
    (h₂.tail ⟨_, .poll rfl nofun⟩).tail ⟨_, .acquire rfl (Nat.succ_pos 30)⟩
  obtain ⟨next, hasks⟩ := Broker.asks (P := (mockProvider "linux").provider) (s := b) (c := 0) rfl
    (by decide +kernel) hd nofun (Nat.succ_pos 63)
  have h₄ := (h₃.within hasks).tail ⟨_, .within (.take rfl rfl) rfl rfl⟩
  exact ⟨_, h₄.tail ⟨_, .within (.panic rfl (.inl rfl)) rfl rfl⟩, rfl, rfl, rfl, rfl⟩

theorem serve_stops_panic : ∃ s s' : Serving UInt64, s.broker.worker = .stopped ∧
    Counted (Serving.Step (mockProvider "linux").provider errorsCodec (sameUidAuthorizer 1000))
      s 2 s' ∧ s'.acceptor = .returned workerStopped ∧ s'.broker.clients.length ≤ 2 := by
  obtain ⟨s, h, hw, ha, hc, _⟩ := Serving.panics
  have h₁ : Counted (Serving.Step (mockProvider "linux").provider errorsCodec
      (sameUidAuthorizer 1000)) s 1 _ := .own .start (.pend ha)
  have h₂ := h₁.own (.halt rfl hw)
  refine ⟨s, _, hw, h₂, rfl, (serve_stops h hw h₂).2.1.trans ?_⟩
  rw [hc]

end FpsMaxxing
