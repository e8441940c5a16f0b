import FpsMaxxing.Broker.ConnectionSpec
import FpsMaxxing.Broker.Worker

/-! How a request gets from its connection to the worker, without anybody coming or going. -/

namespace FpsMaxxing

open Effects Dispatch

variable {σ : Type} {P : Provider σ} {codec : Codec} {authorizer : PeerAuthorizer}

def Reader.holding (bytes : Bytes) : Reader := ⟨.ofPieces [bytes], none⟩

lemma Reader.holding_at (body : Bytes) : (Reader.holding (frame body)).At none (frame body ++ []) :=
  ⟨rfl, by simp [Reader.holding, Reader.content]⟩

namespace Broker

variable (P codec authorizer) in
def Stays (s s' : Broker σ) : Prop :=
  Step P codec authorizer s s' ∧ s'.serving = s.serving ∧
    s'.clients.map Client.alive = s.clients.map Client.alive

def joined (codec : Codec) (authorizer : PeerAuthorizer) (s : Broker σ)
    (accepted : Transport.Accepted) : Broker σ :=
  { s with clients := s.clients ++ [⟨handleConnection codec authorizer accepted, none, 0, true⟩] }

def asked (s : Broker σ) (c : ℕ) (request : BrokerRequest)
    (next : BrokerResponse → Program ConnectionCalls (Except FrameError Unit)) : Broker σ :=
  { s with
    clients := s.clients.set c ⟨.call (.dispatch request) next, some ⟨c, 0⟩, 1, true⟩
    oneshots := Function.update s.oneshots ⟨c, 0⟩ .waiting
    queue := s.queue ++ [⟨request, c, 0⟩]
    log := s.log ++ [.sent ⟨request, c, 0⟩] }

variable {s s' : Broker σ}

lemma alive_set {c : ℕ} {client client' : Client} (hc : s.clients[c]? = some client)
    (ha : client'.alive = client.alive) :
    (s.clients.set c client').map Client.alive = s.clients.map Client.alive := by
  obtain ⟨hlt, hget⟩ := List.getElem?_eq_some_iff.mp hc
  rw [List.map_set, ha, ← hget, ← List.getElem_map Client.alive (h := by simpa using hlt)]
  exact List.set_getElem_self _

lemma asks {c : ℕ} {body : Bytes} {request : BrokerRequest}
    (hc : s.clients[c]? =
      some ⟨serveFrames codec (Reader.holding (frame body)), none, 0, true⟩)
    (hs : Sendable body) (hd : codec.decode body = .ok request) (hw : s.worker ≠ .stopped)
    (hq : s.queue.length < requestBacklog) : ∃ next,
      Relation.ReflTransGen (Stays P codec authorizer) s (s.asked c request next) := by
  obtain ⟨next, ht⟩ := serveFrames_dispatch (Reader.holding_at body) hs hd
  refine ⟨next, ?_⟩
  have hlt := (List.getElem?_eq_some_iff.mp hc).1
  let client : Client := ⟨.call (.dispatch request) next, none, 0, true⟩
  have halive : ∀ other : Client, other.alive = true →
      (s.clients.set c other).map Client.alive = s.clients.map Client.alive := fun _ ha =>
    alive_set hc ha
  have hproceed : Stays P codec authorizer s (s.setClient c client) :=
    ⟨.proceed (o := .expired) false hc rfl rfl ht nofun, rfl, halive client rfl⟩
  have hc' : (s.setClient c client).clients[c]? = some client := List.getElem?_set_self hlt
  have hsend : Stays P codec authorizer (s.setClient c client) (s.asked c request next) := by
    have h : Step P codec authorizer (s.setClient c client) _ := .send hc' rfl rfl rfl hw hq
    rw [setClient, List.set_set] at h
    exact ⟨h, rfl, (halive _ rfl).trans (halive client rfl).symm⟩
  exact (Relation.ReflTransGen.refl.tail hproceed).tail hsend

lemma Reach.asks {w : World σ} {body : Bytes} {request : BrokerRequest}
    (h : Reach P codec authorizer w s) (c : ℕ)
    (hc : s.clients[c]? =
      some ⟨serveFrames codec (Reader.holding (frame body)), none, 0, true⟩)
    (hs : Sendable body) (hd : codec.decode body = .ok request) (hw : s.worker ≠ .stopped)
    (hq : s.queue.length < requestBacklog) : ∃ next,
      Reach P codec authorizer w (s.asked c request next) := by
  obtain ⟨next, hasks⟩ := Broker.asks (P := P) hc hs hd hw hq
  exact ⟨next, h.trans (Relation.ReflTransGen.mono (fun _ _ hs => hs.1) _ _ hasks)⟩

end Broker

end FpsMaxxing
