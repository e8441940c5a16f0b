import FpsMaxxing.Broker.Asking
import FpsMaxxing.Broker.WorkerSpec

/-! However its connections interleave, the broker is one sequential service. -/

namespace FpsMaxxing

open Effects Dispatch

variable {σ : Type} {P : Provider σ} {codec : Codec} {authorizer : PeerAuthorizer}
  {w₀ : World σ} {s : Broker σ}

structure Broker.OneService (P : Provider σ) (codec : Codec) (authorizer : PeerAuthorizer)
    (w₀ : World σ) (s : Broker σ) : Prop where
  once : ((begun s.log).map Job.respond).Nodup
  ordered : ∀ c, ((begun s.log).filter fun job => job.respond.client = c) <+:
    (sent s.log).filter fun job => job.respond.client = c
  alone : ∀ pre job mid next post,
    s.log = pre ++ .begun job :: mid ++ .begun next :: post → ∃ r, .answered job r ∈ mid
  -- a connection gets the answer to its own outstanding request, and no other
  own : ∀ pre slot response post, s.log = pre ++ .delivered slot response :: post →
    ∃ job, outstanding slot.client pre = some job ∧ job.respond = slot ∧
      (.answered job response ∈ pre ∨
        Down pre ∧ (∀ r, .answered job r ∉ pre) ∧ response = brokerNotices.dropped)
  executed : s.Executed P w₀
  -- nothing that was sent is lost, and the answers are those of the requests in their order
  placed : s.Placed
  silent : ∀ pre job post, s.log = pre ++ .panicked job :: post →
    ∀ next, .sent next ∉ post ∧ .begun next ∉ post
  -- after a panic a request without an answer has the internal error
  dropped : Down s.log → ∀ c client job, s.clients[c]? = some client → client.alive = true →
    outstanding c s.log = some job → (∀ r, .answered job r ∉ s.log) →
      ∃ s', Step P codec authorizer s s' ∧
        s'.log = s.log ++ [.delivered job.respond brokerNotices.dropped]
  declined : Down s.log → ∀ c client request next, s.clients[c]? = some client →
    client.alive = true → client.awaiting = none → client.task = .call (.dispatch request) next →
      ∃ s', Step P codec authorizer s s' ∧
        s'.log = s.log ++ [.declined c request brokerNotices.stopped]

namespace Broker

lemma Sound.stopped (h : Sound P w₀ s) (hd : Down s.log) : s.worker = .stopped := by
  have hp := h.placed
  rw [Placed] at hp
  cases hw : s.worker with
  | idle ledger =>
    rw [hw] at hp
    exact absurd hd hp.2.1
  | busy job residual =>
    rw [hw] at hp
    exact absurd hd hp.2.1
  | stopped => rfl

lemma Sound.closed {job : BrokerJob} (h : Sound P w₀ s) (hd : Down s.log)
    (hm : job ∈ sent s.log) (hn : ∀ r, .answered job r ∉ s.log) :
    s.oneshots job.respond = .closed := by
  have hp := h.placed
  have hk := h.kept job hm
  rw [Placed, h.stopped hd] at hp
  rw [Kept] at hk
  cases ho : s.oneshots job.respond with
  | waiting =>
    rw [ho, hp.1, hp.2.1] at hk
    rcases hk with hk | hk <;> cases hk
  | sent response =>
    rw [ho] at hk
    exact absurd ((mem_answers _ _ _).mp hk) (hn response)
  | closed => rfl

end Broker

theorem one_service (h : Broker.Reach P codec authorizer w₀ s) :
    s.OneService P codec authorizer w₀ := by
  have hs := Broker.Sound.reach h
  constructor
  case once => exact hs.valid.begun_nodup
  case ordered => exact fun c => hs.valid.begun_prefix.filter _
  case alone =>
    intro pre job mid next post he
    exact (he ▸ hs.valid).alone
  case own =>
    intro pre slot response post he
    exact (he ▸ hs.valid).justified.2
  case executed => exact hs.executed
  case placed => exact hs.placed
  case silent =>
    intro pre job post he next
    exact (he ▸ hs.valid).after_panic
  case dropped =>
    intro hd c client job hc ha ho hn
    obtain ⟨hm, rfl⟩ := outstanding_mem ho
    have hw := hs.waits _ client hc ha
    have haw := hw.awaiting
    rw [ho] at haw
    obtain ⟨next, ht⟩ := hw.task job ho
    exact ⟨_, .miss hc ha haw ht (hs.closed hd hm hn), rfl⟩
  case declined =>
    intro hd c client request next hc ha haw ht
    exact ⟨_, .decline hc ha haw ht (hs.stopped hd), rfl⟩

theorem one_service_panicked : ∃ (s : Broker UInt64) (response : BrokerResponse),
    s.log = [.sent ⟨⟨.discover, none, none⟩, 0, 0⟩, .begun ⟨⟨.discover, none, none⟩, 0, 0⟩,
      .sent ⟨⟨.discover, none, none⟩, 1, 0⟩, .answered ⟨⟨.discover, none, none⟩, 0, 0⟩ response,
      .begun ⟨⟨.discover, none, none⟩, 1, 0⟩, .delivered ⟨0, 0⟩ response,
      .panicked ⟨⟨.discover, none, none⟩, 1, 0⟩, .delivered ⟨1, 0⟩ brokerNotices.dropped] ∧
    s.OneService (mockProvider "linux").provider errorsCodec (sameUidAuthorizer 1000)
      ⟨⟨true, [], []⟩, 7⟩ := by
  have hd : errorsCodec.decode discovery = .ok ⟨.discover, none, none⟩ := by decide +kernel
  have hsend : Sendable discovery := by decide +kernel
  let peer : Transport.Accepted := ⟨.holding (frame discovery), 1000, none⟩
  let s₁ : Broker UInt64 := (Broker.init ⟨⟨true, [], []⟩, 7⟩).joined errorsCodec
    (sameUidAuthorizer 1000) peer
  let s₂ : Broker UInt64 := s₁.joined errorsCodec (sameUidAuthorizer 1000) peer
  have h₁ : Broker.Reach (mockProvider "linux").provider errorsCodec (sameUidAuthorizer 1000)
      ⟨⟨true, [], []⟩, 7⟩ s₁ := Relation.ReflTransGen.refl.tail (.accept peer rfl (Nat.succ_pos 31))
  have h₂ : Broker.Reach (mockProvider "linux").provider errorsCodec (sameUidAuthorizer 1000)
      ⟨⟨true, [], []⟩, 7⟩ s₂ := h₁.tail (.accept peer rfl (by decide))
  obtain ⟨next₀, h₃⟩ := h₂.asks 0 rfl hsend hd nofun (Nat.succ_pos 63)
  obtain ⟨next₁, h₄⟩ := Broker.Reach.asks (h₃.tail (.take rfl rfl)) 1 rfl hsend hd nofun
    (Nat.succ_pos 63)
  have h₅ := (h₄.tail (.answer rfl)).tail (.take rfl rfl)
  have h₆ := h₅.tail (.receive (c := 0) rfl rfl rfl rfl rfl)
  have h₇ := h₆.tail (.panic rfl (.inl rfl))
  have h₈ := h₇.tail (.miss (c := 1) rfl rfl rfl rfl rfl)
  exact ⟨_, _, rfl, one_service h₈⟩

end FpsMaxxing
