import FpsMaxxing.Broker.Leases
import FpsMaxxing.Broker.Service
import FpsMaxxing.Safety.Denial

/-! What a request that the broker refuses has done, and what any request leaves in the ledger. -/

namespace FpsMaxxing

open Effects

variable {σ : Type}

def BrokerResponse.Idle : BrokerResponse → Prop
  | .capabilities _ => True
  | .lifecycle _ => False
  | .error body =>
    body.kind ∈ [.malformed, .unknownCapability, .ownerConflict, .policyDenied]

def BrokerResponse.Ran : BrokerResponse → Prop
  | .capabilities _ => False
  | .lifecycle _ => True
  | .error body => body.kind = .lifecycleFailed

namespace OwnershipLedger

variable {ledger held : OwnershipLedger} {capabilityId owner : String}

lemma acquire_eq_ok {guard : OwnershipGuard} :
    ledger.acquire capabilityId owner = (.ok guard, held) ↔ ledger.ownerOf capabilityId = none ∧
      guard = ⟨capabilityId⟩ ∧ held = ⟨(capabilityId, owner) :: ledger.owners⟩ := by
  rw [acquire]
  cases ledger.ownerOf capabilityId with
  | some heldBy => simp
  | none => simp [eq_comm]

lemma acquire_refused {conflict : OwnerConflict}
    (h : ledger.acquire capabilityId owner = (.error conflict, held)) : held = ledger := by
  rw [acquire] at h
  cases ho : ledger.ownerOf capabilityId <;> rw [ho] at h <;> cases h
  rfl

lemma ownerOf_acquired {guard : OwnershipGuard}
    (h : ledger.acquire capabilityId owner = (.ok guard, held)) :
    held.ownerOf capabilityId = some owner := by
  obtain ⟨_, _, rfl⟩ := acquire_eq_ok.mp h
  simp [ownerOf]

lemma release_acquired {guard : OwnershipGuard}
    (h : ledger.acquire capabilityId owner = (.ok guard, held)) :
    held.release guard = ledger := by
  obtain ⟨ho, rfl, rfl⟩ := acquire_eq_ok.mp h
  have hfree : capabilityId ∉ ledger.owners.map Prod.fst := lookup_eq_none_iff_not_mem.mp ho
  have hall : ∀ entry ∈ ledger.owners, entry.1 ≠ capabilityId :=
    fun entry he heq => hfree (List.mem_map.mpr ⟨entry, he, heq⟩)
  have hkept : (ledger.owners.filter fun entry => entry.1 ≠ capabilityId) = ledger.owners :=
    List.filter_eq_self.mpr fun entry he => by simpa using hall entry he
  rw [release, List.filter_cons_of_neg (by simp), hkept]

end OwnershipLedger

namespace BrokerService

variable (service : BrokerService) (ledger : OwnershipLedger) (request : BrokerRequest)

/-- What is decided before the control plane is reached: the answer, or the change with the guard
that the frame of its lifecycle holds. -/
def enter : Except BrokerResponse (ChangeRequest × OwnershipGuard × OwnershipLedger) :=
  match request.op with
  | .discover => .error service.discover
  | .runLifecycle =>
    match request.owner.filter fun owner => !isBlank owner with
    | none => .error (.refused .malformed "run-lifecycle requires a non-empty owner")
    | some owner =>
      match request.change with
      | none => .error (.refused .malformed "run-lifecycle requires a change")
      | some change =>
        if ¬ service.catalog.contains change.capabilityId then
          .error (.refused .unknownCapability
            ("capability " ++ echoed change.capabilityId ++ " is not in the catalog"))
        else
          match ledger.acquire change.capabilityId owner with
          | (.error conflict, _) => .error (.refused .ownerConflict (echoed conflict.text))
          | (.ok guard, held) => .ok (change, guard, held)

/-- The ledger once a panic has unwound the frame, which drops the guard that is in it. -/
def unwound : OwnershipLedger :=
  match service.enter ledger request with
  | .error _ => ledger
  | .ok (_, guard, held) => held.release guard

inductive Entered : Except BrokerResponse (ChangeRequest × OwnershipGuard × OwnershipLedger) → Prop
  | answered {response} : response.Idle → Entered (.error response)
  | held {change guard held owner} :
      ledger.acquire change.capabilityId owner = (.ok guard, held) →
      request.owner = some owner → request.change = some change →
      Entered (.ok (change, guard, held))

lemma enter_cases (p : BrokerResponse → Prop) (hdiscover : p service.discover)
    (howner : p (.refused .malformed "run-lifecycle requires a non-empty owner"))
    (hchange : p (.refused .malformed "run-lifecycle requires a change"))
    (hcatalog : ∀ id, p (.refused .unknownCapability
      ("capability " ++ echoed id ++ " is not in the catalog")))
    (hconflict : ∀ id owner conflict held, ledger.acquire id owner = (.error conflict, held) →
      p (.refused .ownerConflict (echoed conflict.text))) :
    match service.enter ledger request with
    | .error response => p response
    | .ok (change, guard, held) => ∃ owner,
      ledger.acquire change.capabilityId owner = (.ok guard, held) ∧
        request.owner = some owner ∧ request.change = some change := by
  rw [enter]
  cases request.op with
  | discover => exact hdiscover
  | runLifecycle =>
    cases ho : request.owner.filter fun owner => !isBlank owner with
    | none => exact howner
    | some owner =>
      cases hc : request.change with
      | none => exact hchange
      | some change =>
        dsimp only
        by_cases hcat : service.catalog.contains change.capabilityId
        · rw [if_neg (not_not.mpr hcat)]
          rcases ha : ledger.acquire change.capabilityId owner with ⟨conflict | guard, held⟩
          · exact hconflict _ _ _ _ ha
          · exact ⟨owner, ha, (Option.filter_eq_some_iff.mp ho).1, rfl⟩
        · rw [if_pos hcat]
          exact hcatalog _

lemma entered : Entered ledger request (service.enter ledger request) := by
  have hidle : ∀ kind message,
      kind ∈ [.malformed, .unknownCapability, .ownerConflict, .policyDenied] →
        (BrokerResponse.refused kind message).Idle := fun _ _ hk => hk
  have h := service.enter_cases ledger request BrokerResponse.Idle trivial
    (hidle _ _ (by decide)) (hidle _ _ (by decide)) (fun _ => hidle _ _ (by decide))
    (fun _ _ _ _ _ => hidle _ _ (by decide))
  cases he : service.enter ledger request with
  | error response =>
    rw [he] at h
    exact .answered h
  | ok frame =>
    rw [he] at h
    obtain ⟨owner, ha, ho, hc⟩ := h
    exact .held ha ho hc

lemma release_entered {change : ChangeRequest} {guard : OwnershipGuard} {held : OwnershipLedger}
    (h : service.enter ledger request = .ok (change, guard, held)) :
    held.release guard = ledger := by
  have he := service.entered ledger request
  rw [h] at he
  cases he with
  | held ha _ _ => exact OwnershipLedger.release_acquired ha

lemma unwound_eq : service.unwound ledger request = ledger := by
  rw [unwound]
  cases he : service.enter ledger request with
  | error response => rfl
  | ok frame => exact service.release_entered ledger request he

lemma handle_enter : service.handle ledger request =
    match service.enter ledger request with
    | .error response => return (response, ledger)
    | .ok (change, guard, held) => do
      let outcome ← (service.plane.runLifecycle change).run
      return (lifecycleResponse outcome, held.release guard) := by
  rw [handle, enter]
  cases request.op with
  | discover => rfl
  | runLifecycle =>
    dsimp only
    rw [runLifecycle]
    cases request.owner.filter fun owner => !isBlank owner with
    | none => rfl
    | some owner =>
      cases request.change with
      | none => rfl
      | some change =>
        dsimp only
        by_cases hcat : service.catalog.contains change.capabilityId
        · rw [if_neg (not_not.mpr hcat), if_neg (not_not.mpr hcat)]
          rcases ha : ledger.acquire change.capabilityId owner with ⟨conflict | guard, held⟩
          · rw [OwnershipLedger.acquire_refused ha]
          · rfl
        · rw [if_pos hcat, if_pos hcat]

lemma handle_eq : service.handle ledger request =
    match service.enter ledger request with
    | .error response => return (response, ledger)
    | .ok (change, _, _) =>
      (fun outcome => (lifecycleResponse outcome, ledger)) <$>
        (service.plane.runLifecycle change).run := by
  rw [handle_enter]
  cases he : service.enter ledger request with
  | error response => rfl
  | ok frame =>
    obtain ⟨change, guard, held⟩ := frame
    dsimp only
    rw [service.release_entered ledger request he, ← bind_pure_comp]

lemma frame_of_call {sem : Semantics Calls (World σ)} {w v : World σ} {tr : Trace σ} {o : Op}
    {next : o.Res → Program Calls (BrokerResponse × OwnershipLedger)}
    (h : Steps sem (service.handle ledger request) w tr (.call o next) v) :
    ∃ change guard held, service.enter ledger request = .ok (change, guard, held) ∧
      request.change = some change ∧ held.ownerOf change.capabilityId = request.owner := by
  rw [handle_eq] at h
  have he := service.entered ledger request
  cases hf : service.enter ledger request with
  | error response =>
    rw [hf] at h
    cases h.done_inv.2.1
  | ok frame =>
    rw [hf] at he
    cases he with
    | held ha ho hc => exact ⟨_, _, _, rfl, hc, (OwnershipLedger.ownerOf_acquired ha).trans ho.symm⟩

end BrokerService

lemma lifecycleResponse_ran {outcome : Except ControlPlaneError LifecycleResult}
    (h : ∀ e, outcome = .error e → ¬ e.Denial) : (lifecycleResponse outcome).Ran := by
  cases outcome with
  | ok result => trivial
  | error e =>
    cases e
    case unknownCapability | policyDenied => exact absurd trivial (h _ rfl)
    all_goals rfl

lemma BrokerResponse.Ran.not_idle {response : BrokerResponse} (h : response.Ran) :
    ¬ response.Idle := by
  cases response with
  | capabilities manifest => exact h.elim
  | lifecycle report => exact id
  | error body =>
    intro hi
    rw [Idle, show body.kind = _ from h] at hi
    exact absurd hi (by decide)

lemma BrokerService.handle_logs (service : BrokerService) (ledger : OwnershipLedger)
    (request : BrokerRequest) :
    (service.handle ledger request).Logs anyAnswer fun log answer =>
      answer.2 = ledger ∧ (log = [] ∧ answer.1.Idle ∨ answer.1.Ran) := by
  rw [handle_eq]
  have he := service.entered ledger request
  cases hf : service.enter ledger request with
  | error response =>
    rw [hf] at he
    cases he with
    | answered hi => exact ⟨rfl, .inl ⟨rfl, hi⟩⟩
  | ok frame =>
    rw [Program.logs_map]
    refine (service.plane.runLifecycle_logs frame.1).mono fun log outcome hlog => ⟨rfl, ?_⟩
    by_cases hd : ∃ e, outcome = .error e ∧ e.Denial
    · obtain ⟨e, rfl, hden⟩ := hd
      refine .inl ⟨(hlog e rfl hden).1, ?_⟩
      cases e
      case unknownCapability => exact show BrokerErrorKind.unknownCapability ∈ _ by decide
      case policyDenied => exact show BrokerErrorKind.policyDenied ∈ _ by decide
      all_goals exact hden.elim
    · exact .inr (lifecycleResponse_ran fun e he hden => hd ⟨e, he, hden⟩)

def Starts (log : List Calls.Event) : Prop :=
  ∃ providerId payload experiment,
    ⟨.journal (.beginExperiment providerId payload), .ok experiment⟩ ∈ log

theorem refusals_untraced (P : Provider σ) (ledger : OwnershipLedger) (request : BrokerRequest)
    (w : World σ) :
    let service := BrokerService.new P.plane
    (service.handle ledger request).Ensures (sem P) w (fun _ _ => True) ∧
    (∀ tr response after v,
      Steps (sem P) (service.handle ledger request) w tr (.done (response, after)) v →
        after = ledger ∧ (response.Idle → tr = [] ∧ v = w) ∧
          (Starts (tr.map Entry.event) → response.Ran)) ∧
    ∀ tr o next v, Steps (sem P) (service.handle ledger request) w tr (.call o next) v →
      (∃ change guard held, service.enter ledger request = .ok (change, guard, held) ∧
        request.change = some change ∧ held.ownerOf change.capabilityId = request.owner) ∧
      service.unwound ledger request = ledger := by
  intro service
  refine ⟨Program.ensures_true (sem_answers P) _ w, fun tr response after v hs => ?_,
    fun tr o next v hs => ⟨?_, ?_⟩⟩
  · obtain ⟨⟨hledger, hlog⟩, hc⟩ :=
      (service.handle_logs ledger request).returned hs fun _ _ => trivial
    refine ⟨hledger, fun hi => ?_, fun hstart => ?_⟩
    · rcases hlog with ⟨hnil, _⟩ | hran
      · rw [hnil, chain_nil] at hc
        exact ⟨List.map_eq_nil_iff.mp hnil, hc⟩
      · exact absurd hi hran.not_idle
    · rcases hlog with ⟨hnil, _⟩ | hran
      · obtain ⟨_, _, _, hm⟩ := hstart
        rw [hnil] at hm
        cases hm
      · exact hran
  · exact service.frame_of_call ledger request hs
  · exact service.unwound_eq ledger request

def mockRun (owner : String) : BrokerRequest :=
  ⟨.runLifecycle, some owner, some (mockRequest 40)⟩

def handledBy (d : Device UInt64) (ledger : OwnershipLedger) (request : BrokerRequest) (n : ℕ) :=
  ((BrokerService.new d.provider.plane).handle ledger request).advance d.answer n
    ⟨⟨true, [], []⟩, 7⟩

theorem refusals_untraced_mock :
    let ledger : OwnershipLedger := ⟨[("power.scheme", "owner-a")]⟩
    (∃ response, (handledBy (mockProvider "linux") ledger (mockRun "owner-b") 20).2.1.result =
      some (response, ledger) ∧ response.Ran) ∧
    (BrokerService.new (mockProvider "linux").provider.plane).unwound ledger
      (mockRun "owner-b") = ledger := by
  intro ledger
  obtain ⟨_, hreturned, hpanicked⟩ := refusals_untraced (mockProvider "linux").provider ledger
    (mockRun "owner-b") ⟨⟨true, [], []⟩, 7⟩
  have hsome : (handledBy (mockProvider "linux") ledger (mockRun "owner-b")
      20).2.1.result.isSome = true := by decide +kernel
  obtain ⟨⟨response, after⟩, hr⟩ := Option.isSome_iff_exists.mp hsome
  have hs := Program.advance_done (mockProvider "linux").answer_sem hr
  obtain ⟨rfl, _, hran⟩ := hreturned _ _ _ _ hs
  refine ⟨⟨response, hr, hran ⟨_, _, 1, List.mem_of_getElem? (i := 1) rfl⟩⟩, ?_⟩
  -- the provider panics in `apply`
  have hs := Program.advance_steps (mockProvider "linux").answer_sem 5
    ((BrokerService.new (mockProvider "linux").provider.plane).handle ledger
      (mockRun "owner-b")) ⟨⟨true, [], []⟩, 7⟩
  have hcall : (handledBy (mockProvider "linux") ledger (mockRun "owner-b") 5).2.1.nextOp =
      some (.provider (.apply (mockRequest 40))) := by decide +kernel
  obtain ⟨next, hq⟩ := Program.eq_call_of_nextOp hcall
  exact (hpanicked _ _ next _ (hq ▸ hs)).2

end FpsMaxxing
