import FpsMaxxing.Broker.Connection
import FpsMaxxing.Dispatch.Discipline

/-! The worker thread of the broker and the connections that dispatch to it. -/

namespace FpsMaxxing

open Effects Dispatch

variable {σ : Type}

def requestBacklog : ℕ := 64

def maxConnections : ℕ := 32

abbrev BrokerJob := Job BrokerRequest

abbrev BrokerEvent := Dispatch.Event BrokerRequest BrokerResponse

def brokerNotices : Notices BrokerResponse where
  dropped := .refused .internal "broker worker dropped the request"
  stopped := .refused .internal "broker worker has stopped"

inductive Oneshot
  | waiting
  | sent (response : BrokerResponse)
  | closed

structure Client where
  task : Program ConnectionCalls (Except FrameError Unit)
  awaiting : Option Slot
  dispatched : ℕ
  alive : Bool

inductive Worker
  | idle (ledger : OwnershipLedger)
  | busy (job : BrokerJob) (residual : Program Calls (BrokerResponse × OwnershipLedger))
  | stopped

structure Broker (σ : Type) where
  world : World σ
  worker : Worker
  queue : List BrokerJob
  oneshots : Slot → Oneshot
  clients : List Client
  serving : Bool
  log : List BrokerEvent
  calls : List (Entry Calls (World σ))

namespace Broker

def init (w : World σ) : Broker σ where
  world := w
  worker := .idle .new
  queue := []
  oneshots _ := .waiting
  clients := []
  serving := true
  log := []
  calls := []

def setClient (s : Broker σ) (c : ℕ) (client : Client) : Broker σ :=
  { s with clients := s.clients.set c client }

def closing (oneshots : Slot → Oneshot) (jobs : List BrokerJob) : Slot → Oneshot :=
  fun slot => if slot ∈ jobs.map Job.respond then .closed else oneshots slot

variable (P : Provider σ) (codec : Codec) (authorizer : PeerAuthorizer)

inductive Step : Broker σ → Broker σ → Prop
  | accept {s} (accepted : Transport.Accepted) : s.serving = true →
      (s.clients.filter Client.alive).length < maxConnections →
      Step s { s with
        clients := s.clients ++ [⟨handleConnection codec authorizer accepted, none, 0, true⟩] }
  | proceed {s c client o next} (r) : s.clients[c]? = some client → client.alive = true →
      client.awaiting = none → client.task = .call o next → (∀ request, o ≠ .dispatch request) →
      Step s (s.setClient c { client with task := next r })
  | send {s c client request next} : s.clients[c]? = some client → client.alive = true →
      client.awaiting = none → client.task = .call (.dispatch request) next →
      s.worker ≠ .stopped → s.queue.length < requestBacklog →
      Step s { s with
        clients := s.clients.set c { client with
          awaiting := some ⟨c, client.dispatched⟩
          dispatched := client.dispatched + 1 }
        oneshots := Function.update s.oneshots ⟨c, client.dispatched⟩ .waiting
        queue := s.queue ++ [⟨request, c, client.dispatched⟩]
        log := s.log ++ [.sent ⟨request, c, client.dispatched⟩] }
  | decline {s c client request next} : s.clients[c]? = some client → client.alive = true →
      client.awaiting = none → client.task = .call (.dispatch request) next →
      s.worker = .stopped →
      Step s { s with
        clients := s.clients.set c { client with task := next brokerNotices.stopped }
        log := s.log ++ [.declined c request brokerNotices.stopped] }
  | receive {s c client slot response request next} : s.clients[c]? = some client →
      client.alive = true → client.awaiting = some slot →
      client.task = .call (.dispatch request) next → s.oneshots slot = .sent response →
      Step s { s with
        clients := s.clients.set c { client with task := next response, awaiting := none }
        log := s.log ++ [.delivered slot response] }
  | miss {s c client slot request next} : s.clients[c]? = some client →
      client.alive = true → client.awaiting = some slot →
      client.task = .call (.dispatch request) next → s.oneshots slot = .closed →
      Step s { s with
        clients := s.clients.set c { client with
          task := next brokerNotices.dropped
          awaiting := none }
        log := s.log ++ [.delivered slot brokerNotices.dropped] }
  | leave {s c client} : s.clients[c]? = some client →
      Step s (s.setClient c { client with alive := false })
  | take {s ledger job jobs} : s.worker = .idle ledger → s.queue = job :: jobs →
      Step s { s with
        worker := .busy job ((BrokerService.new P.plane).handle ledger job.request)
        queue := jobs
        log := s.log ++ [.begun job] }
  | call {s job o next r w} : s.worker = .busy job (.call o next) → sem P s.world o r w →
      Step s { s with
        world := w
        worker := .busy job (next r)
        calls := s.calls ++ [⟨s.world, o, r⟩] }
  | answer {s job response ledger} : s.worker = .busy job (.done (response, ledger)) →
      Step s { s with
        worker := .idle ledger
        oneshots := Function.update s.oneshots job.respond (.sent response)
        log := s.log ++ [.answered job response] }
  -- a panic, between two calls or inside one, drops the job and the queue
  | panic {s job residual w} : s.worker = .busy job residual →
      (w = s.world ∨ ∃ o next, residual = .call o next ∧ torn s.world o w) →
      Step s { s with
        world := w
        worker := .stopped
        queue := []
        oneshots := closing s.oneshots (job :: s.queue)
        log := s.log ++ [.panicked job] }
  | stop {s} : Step s { s with serving := false }
  -- no sender is left
  | retire {s ledger} : s.worker = .idle ledger → s.queue = [] → s.serving = false →
      (∀ client ∈ s.clients, client.alive = false) → Step s { s with worker := .stopped }

def Reach (w : World σ) : Broker σ → Prop :=
  Relation.ReflTransGen (Step P codec authorizer) (init w)

end Broker

end FpsMaxxing
