import FpsMaxxing.Broker.Asking
import FpsMaxxing.Broker.WorkerSpec
import FpsMaxxing.Safety.Refusal

/-! What becomes of a request that arrives while the lifecycle of another owner is executing. The
ledger is looked at by the one worker, when the guard of the earlier request is gone. -/

namespace FpsMaxxing

open Effects Dispatch

variable {σ : Type} {P : Provider σ} {codec : Codec} {authorizer : PeerAuthorizer} {w : World σ}

def BrokerResponse.Conflict : BrokerResponse → Prop
  | .error body => body.kind = .ownerConflict
  | _ => False

lemma wireError_not_conflict (e : ControlPlaneError) : ¬ (wireError e).Conflict := by
  cases e <;> exact fun h => BrokerErrorKind.noConfusion h

lemma lifecycleResponse_not_conflict (outcome : Except ControlPlaneError LifecycleResult) :
    ¬ (lifecycleResponse outcome).Conflict := by
  cases outcome with
  | ok result => exact id
  | error e => exact wireError_not_conflict e

lemma BrokerService.enter_new (service : BrokerService) (request : BrokerRequest)
    {response : BrokerResponse} (he : service.enter .new request = .error response) :
    ¬ response.Conflict := by
  have hother : ∀ kind message, kind ≠ .ownerConflict →
      ¬ (BrokerResponse.refused kind message).Conflict := fun _ _ hk => hk
  have h := service.enter_cases .new request (fun response => ¬ response.Conflict) id
    (hother _ _ nofun) (hother _ _ nofun) (fun _ => hother _ _ nofun) (fun _ _ _ _ ha => by cases ha)
  rw [he] at h
  exact h

lemma BrokerService.handle_new (service : BrokerService) (request : BrokerRequest) :
    (service.handle .new request).Logs anyAnswer fun _ answer =>
      answer.2 = .new ∧ ¬ answer.1.Conflict := by
  rw [handle_eq]
  cases he : service.enter .new request with
  | error response => exact ⟨rfl, service.enter_new request he⟩
  | ok frame =>
    rw [Program.logs_map]
    exact (service.plane.runLifecycle_logs frame.1).mono fun _ outcome _ =>
      ⟨rfl, lifecycleResponse_not_conflict outcome⟩

namespace Broker

def Awaits (s : Broker σ) (c : ℕ) (request : BrokerRequest)
    (next : BrokerResponse → Program ConnectionCalls (Except FrameError Unit)) : Prop :=
  ∃ client, s.clients[c]? = some client ∧ client.alive = true ∧
    client.task = .call (.dispatch request) next

def Executing (s : Broker σ) (job : BrokerJob) : Prop :=
  ∃ o next, s.worker = .busy job (.call o next)

/-- The lifecycle that is executing is on the capability of the request, for another owner. -/
def Overlaps (s : Broker σ) (request : BrokerRequest) : Prop :=
  ∃ owner change other running job, request = ⟨.runLifecycle, some owner, some change⟩ ∧
    isBlank owner = false ∧ s.Executing job ∧ job.request.owner = some other ∧ other ≠ owner ∧
    job.request.change = some running ∧ running.capabilityId = change.capabilityId

/-- The request that connection `c` waits for the answer to has overlapped since it was read. -/
inductive Contended (P : Provider σ) (codec : Codec) (authorizer : PeerAuthorizer) (w : World σ)
    (c : ℕ) (request : BrokerRequest)
    (next : BrokerResponse → Program ConnectionCalls (Except FrameError Unit)) : Broker σ → Prop
  | now {s} : Reach P codec authorizer w s → s.Awaits c request next → s.Overlaps request →
      Contended P codec authorizer w c request next s
  | later {s s'} : Contended P codec authorizer w c request next s →
      Step P codec authorizer s s' → s'.Awaits c request next →
      Contended P codec authorizer w c request next s'

def ExecutesFor (s : Broker σ) (c : ℕ) : Prop := ∃ job, s.Executing job ∧ job.respond.client = c

inductive Tells (c : ℕ) (response : BrokerResponse) (s s' : Broker σ) : Prop
  | delivered (number : ℕ) : s'.log = s.log ++ [.delivered ⟨c, number⟩ response] → Tells c response s s'
  | declined (request : BrokerRequest) : s'.log = s.log ++ [.declined c request response] →
      Tells c response s s'

/-- Every contended request executes nothing and is answered with the conflict. -/
def RefusesSecondOwners (P : Provider σ) (codec : Codec) (authorizer : PeerAuthorizer) (w : World σ)
    (s : Broker σ) : Prop :=
  ∀ c request next, Contended P codec authorizer w c request next s → ¬ s.ExecutesFor c ∧
    ∀ s' response, Step P codec authorizer s s' → Tells c response s s' → response.Conflict

variable {s s' : Broker σ} {c : ℕ}

/-- `response` is what the request comes to when it is executed to its end, with nobody holding
anything. -/
def Served (P : Provider σ) (request : BrokerRequest) (response : BrokerResponse) : Prop :=
  ∃ v tr u, Steps (sem P) ((BrokerService.new P.plane).handle .new request) v tr
    (.done (response, .new)) u

structure Unowned (P : Provider σ) (s : Broker σ) : Prop where
  worker : match s.worker with
    | .idle ledger => ledger = .new
    | .busy job residual => ∃ v tr,
      Steps (sem P) ((BrokerService.new P.plane).handle .new job.request) v tr residual s.world
    | .stopped => True
  answered : ∀ job response, .answered job response ∈ s.log → Served P job.request response

lemma Served.not_conflict {request : BrokerRequest} {response : BrokerResponse}
    (h : Served P request response) : ¬ response.Conflict := by
  obtain ⟨v, tr, u, hs⟩ := h
  exact ((BrokerService.handle_new _ request).returned hs fun _ _ => trivial).1.2

lemma Unowned.ends {job : BrokerJob} {response : BrokerResponse} {ledger : OwnershipLedger}
    (h : Unowned P s) (hw : s.worker = .busy job (.done (response, ledger))) :
    ledger = .new ∧ Served P job.request response := by
  have hwk := h.worker
  rw [hw] at hwk
  obtain ⟨v, tr, hs⟩ := hwk
  obtain rfl := ((BrokerService.handle_new _ job.request).returned hs fun _ _ => trivial).1.1
  exact ⟨rfl, v, tr, _, hs⟩

lemma Unowned.log (h : Unowned P s) {e : BrokerEvent} (he : ∀ job response, e ≠ .answered job response) :
    ∀ job response, .answered job response ∈ s.log ++ [e] → Served P job.request response := by
  intro job response hm
  rcases List.mem_append.mp hm with hm | hm
  · exact h.answered job response hm
  · exact absurd (List.mem_singleton.mp hm).symm (he job response)

lemma Unowned.step (h : Unowned P s) (hs : Step P codec authorizer s s') : Unowned P s' := by
  cases hs with
  | accept | proceed | leave | stop => exact ⟨h.worker, h.answered⟩
  | send | decline | receive | miss => exact ⟨h.worker, h.log nofun⟩
  | take hw _ =>
    have hwk := h.worker
    rw [hw] at hwk
    cases hwk
    exact ⟨⟨s.world, [], .start⟩, h.log nofun⟩
  | call hw hc =>
    have hwk := h.worker
    rw [hw] at hwk
    obtain ⟨v, tr, hr⟩ := hwk
    exact ⟨⟨v, _, hr.call hc⟩, h.answered⟩
  | answer hw =>
    obtain ⟨hledger, hserved⟩ := h.ends hw
    refine ⟨hledger, fun job response hm => ?_⟩
    rcases List.mem_append.mp hm with hm | hm
    · exact h.answered job response hm
    · cases List.mem_singleton.mp hm
      exact hserved
  | panic _ _ => exact ⟨trivial, h.log nofun⟩
  | retire => exact ⟨trivial, h.answered⟩

lemma Unowned.reach (h : Reach P codec authorizer w s) : Unowned P s := by
  induction h with
  | refl => exact ⟨rfl, nofun⟩
  | tail _ hs ih => exact ih.step hs

section

variable {request : BrokerRequest} {job : BrokerJob}
  {next : BrokerResponse → Program ConnectionCalls (Except FrameError Unit)}

lemma Contended.awaits (h : Contended P codec authorizer w c request next s) :
    s.Awaits c request next := by
  cases h with
  | now _ ha _ => exact ha
  | later _ _ ha => exact ha

lemma Contended.reach (h : Contended P codec authorizer w c request next s) :
    Reach P codec authorizer w s := by
  induction h with
  | now hr _ _ => exact hr
  | later _ hs _ ih => exact ih.tail hs

lemma Contended.works {p q : Program Calls (BrokerResponse × OwnershipLedger)} {v : World σ}
    {tr : Trace σ} (h : Contended P codec authorizer w c request next s)
    (hw : s.worker = .busy job p) (hs : Steps (sem P) p s.world tr q v) :
    Contended P codec authorizer w c request next
      { s with world := v, worker := .busy job q, calls := s.calls ++ tr } := by
  induction hs with
  | start =>
    rw [List.append_nil, ← hw]
    exact h
  | call _ hc ih =>
    rw [← List.append_assoc]
    exact ih.later (.call rfl hc) ih.awaits

end

lemma notices_not_conflict :
    ¬ brokerNotices.dropped.Conflict ∧ ¬ brokerNotices.stopped.Conflict :=
  ⟨fun h => BrokerErrorKind.noConfusion h, fun h => BrokerErrorKind.noConfusion h⟩

lemma Tells.cases {response : BrokerResponse} (h : Reach P codec authorizer w s')
    (ht : Tells c response s s') : response = brokerNotices.stopped ∨
      response = brokerNotices.dropped ∨
      ∃ job, outstanding c s.log = some job ∧ .answered job response ∈ s.log := by
  have hv := (Sound.reach h).valid
  cases ht with
  | delivered number hl =>
    rw [hl] at hv
    obtain ⟨job, hout, _, hans | ⟨_, _, rfl⟩⟩ := hv.of_snoc.2
    · exact .inr (.inr ⟨job, hout, hans⟩)
    · exact .inr (.inl rfl)
  | declined request hl =>
    rw [hl] at hv
    exact .inl hv.of_snoc.2.2

section

variable {request : BrokerRequest} {response : BrokerResponse}
  {next : BrokerResponse → Program ConnectionCalls (Except FrameError Unit)}

lemma Awaits.outstanding {job : BrokerJob} (h : Reach P codec authorizer w s)
    (ha : s.Awaits c request next) (ho : Dispatch.outstanding c s.log = some job) :
    job.request = request := by
  obtain ⟨client, hc, halive, ht⟩ := ha
  obtain ⟨next', ht'⟩ := ((Sound.reach h).waits c client hc halive).task job ho
  rw [ht] at ht'
  cases ht'
  rfl

lemma Contended.told (h : Contended P codec authorizer w c request next s)
    (hs : Step P codec authorizer s s') (ht : Tells c response s s') :
    response = brokerNotices.stopped ∨ response = brokerNotices.dropped ∨
      Served P request response := by
  rcases ht.cases (h.reach.tail hs) with hn | hn | ⟨job, ho, hans⟩
  · exact .inl hn
  · exact .inr (.inl hn)
  · rw [← h.awaits.outstanding h.reach ho]
    exact .inr (.inr ((Unowned.reach h.reach).answered job response hans))

lemma Contended.not_conflict (h : Contended P codec authorizer w c request next s)
    (hs : Step P codec authorizer s s') (ht : Tells c response s s') : ¬ response.Conflict := by
  rcases h.told hs ht with rfl | rfl | hserved
  · exact notices_not_conflict.2
  · exact notices_not_conflict.1
  · exact hserved.not_conflict

end

end Broker

section

def ownerText (owner : String) : Bytes := ascii
  ("\x7b\"op\":\"run-lifecycle\",\"owner\":\"" ++ owner ++ "\",\"change\":\x7b\"capability_id\":" ++
    "\"mock.value\",\"parameters\":\x7b\"value\":40\x7d,\"lease_seconds\":30\x7d\x7d")

def ownersCodec : Codec where
  decode bytes :=
    match ["owner-a", "owner-b"].find? fun owner => ownerText owner = bytes with
    | some owner => .ok (mockRun owner)
    | none => .error "expected value at line 1 column 1"
  encode := errorsCodec.encode

abbrev OwnersContended (next : BrokerResponse → Program ConnectionCalls (Except FrameError Unit))
    (s : Broker UInt64) : Prop :=
  Broker.Contended (mockProvider "linux").provider ownersCodec (sameUidAuthorizer 0)
    ⟨⟨true, [], []⟩, 7⟩ 1 (mockRun "owner-b") next s

lemma second_owner_answered : ∃ s s' next response, OwnersContended next s ∧
    Broker.Step (mockProvider "linux").provider ownersCodec (sameUidAuthorizer 0) s s' ∧
    Broker.Tells 1 response s s' := by
  have hda : ownersCodec.decode (ownerText "owner-a") = .ok (mockRun "owner-a") := by
    decide +kernel
  have hdb : ownersCodec.decode (ownerText "owner-b") = .ok (mockRun "owner-b") := by
    decide +kernel
  let s₁ : Broker UInt64 := (Broker.init ⟨⟨true, [], []⟩, 7⟩).joined ownersCodec
    (sameUidAuthorizer 0) ⟨.holding (frame (ownerText "owner-a")), 0, none⟩
  let s₂ : Broker UInt64 := s₁.joined ownersCodec (sameUidAuthorizer 0)
    ⟨.holding (frame (ownerText "owner-b")), 0, none⟩
  have h₁ : Broker.Reach (mockProvider "linux").provider ownersCodec (sameUidAuthorizer 0)
      ⟨⟨true, [], []⟩, 7⟩ s₁ := Relation.ReflTransGen.refl.tail (.accept _ rfl (Nat.succ_pos 31))
  have h₂ : Broker.Reach (mockProvider "linux").provider ownersCodec (sameUidAuthorizer 0)
      ⟨⟨true, [], []⟩, 7⟩ s₂ := h₁.tail (.accept _ rfl (by decide))
  obtain ⟨nextA, h₃⟩ := h₂.asks 0 rfl (by decide +kernel) hda nofun (Nat.succ_pos 63)
  obtain ⟨nextB, h₄⟩ := Broker.Reach.asks (h₃.tail (.take rfl rfl)) 1 rfl (by decide +kernel) hdb
    nofun (Nat.succ_pos 63)
  have k₄ : OwnersContended nextB _ := .now h₄ ⟨_, rfl, rfl, rfl⟩
    ⟨"owner-b", mockRequest 40, "owner-a", mockRequest 40, _, rfl, by decide, ⟨_, _, rfl⟩, rfl,
      by decide, rfl, rfl⟩
  obtain ⟨trA, ⟨responseA, ledger⟩, vA, hA, _⟩ := (Program.ensures_true
    (sem_answers (mockProvider "linux").provider)
    ((BrokerService.new (mockProvider "linux").provider.plane).handle .new (mockRun "owner-a"))
    ⟨⟨true, [], []⟩, 7⟩).returns
  obtain ⟨trB, ⟨responseB, ledgerB⟩, vB, hB, _⟩ := (Program.ensures_true
    (sem_answers (mockProvider "linux").provider)
    ((BrokerService.new (mockProvider "linux").provider.plane).handle ledger (mockRun "owner-b"))
    vA).returns
  have k₅ := k₄.works rfl hA
  have k₆ := k₅.later (.answer rfl) ⟨_, rfl, rfl, rfl⟩
  have k₇ := k₆.later (.take rfl rfl) ⟨_, rfl, rfl, rfl⟩
  have k₈ := k₇.works rfl hB
  have k₉ := k₈.later (.answer rfl) ⟨_, rfl, rfl, rfl⟩
  exact ⟨_, _, nextB, responseB, k₉, .receive (c := 1) rfl rfl rfl rfl rfl, .delivered 0 rfl⟩

end

end FpsMaxxing
