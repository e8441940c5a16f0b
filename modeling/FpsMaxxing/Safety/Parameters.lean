import FpsMaxxing.Safety.BoundedPolicy

/-! Which parameters reach a provider and its journal. The runner checks the keys of its target, the
gateway builds the object itself, and the broker forwards what the client sent. -/

namespace FpsMaxxing

open Effects Serde

variable {σ : Type}

def ChangeRequest.Takes (keys : String → List String) (request : ChangeRequest) : Prop :=
  ∃ fields, request.parameters = .object fields ∧
    ∀ field ∈ fields, field.1 ∈ keys request.capabilityId

def Record.Clean (keys : String → List String) (record : Record) : Prop :=
  record.stage = .applyIntent →
    ∃ asked : ChangeRequest, record.payload = toValue asked ∧ asked.Takes keys

structure Unsmuggled (keys : String → List String) (s : Apps σ) : Prop where
  applied : ∀ i p asked, s.procs i = some p →
    p.residual.nextOp = some (.provider (.apply asked)) → asked.Takes keys
  recorded : ∀ record ∈ s.world.db.records, record.Clean keys

def App.Clean (keys : String → List String) : App σ → Prop
  | .broker P _ requests => ∀ request ∈ requests, ∀ asked, request.Passes P.plane asked →
      P.plane.validate asked = .ok () → asked.Takes keys
  | _ => True

def CleanRequests (keys : String → List String) (_ : Apps σ) : Label (App σ) → Prop
  | .spawn _ app => app.Clean keys
  | _ => True

variable {keys : String → List String}

lemma App.Clean.takes {app : App σ} {asked : ChangeRequest} (h : app.Clean keys)
    (hk : keys modeledCapabilityId = modeledParameters) (ha : app.Admits asked)
    (hv : app.provider.plane.validate asked = .ok ()) : asked.Takes keys := by
  cases app with
  | gateway P os texts lines =>
    obtain ⟨hid, value, hp⟩ := ha
    refine ⟨_, hp, fun field hf => ?_⟩
    obtain rfl := List.mem_singleton.mp hf
    have hkeys : keys asked.capabilityId = modeledParameters := by rw [hid, ← hk]; rfl
    rw [hkeys]
    exact List.mem_singleton.mpr rfl
  | broker P os requests =>
    obtain ⟨request, hm, hpass⟩ := ha
    exact h request hm asked hpass hv
  | trial P os spec =>
    obtain ⟨rfl, value, hs⟩ := ha
    obtain ⟨fields, hp, hf⟩ := hs.parameters
    refine ⟨fields, hp, fun field hm => ?_⟩
    rw [hs.capabilityId, hk]
    exact hf field hm
  | replay => exact ha.elim
  | watchdog => exact ha.elim

structure CleanState (keys : String → List String) (s : Apps σ) : Prop where
  tasks : ∀ i p, s.procs i = some p → p.task.Clean keys
  records : ∀ record ∈ s.world.db.records, record.Clean keys

namespace CleanState

variable {s s' : Apps σ} {l : Label (App σ)}

lemma set (h : CleanState keys s) {i : ℕ} {p : AppProc σ} {w : World σ}
    (hp : p.task.Clean keys) (hr : ∀ record ∈ w.db.records, record.Clean keys) :
    CleanState keys (s.set i p w) where
  tasks := Pool.forall_set hp fun j q _ => h.tasks j q
  records := hr

lemma committed {app : App σ} {m : Standing} {o : Op} {r : o.Res} {record : Record}
    (hc : app.Clean keys) (hk : keys modeledCapabilityId = modeledParameters)
    (ha : app.Allows m o) (hm : record ∈ committed o r) : record.Clean keys := by
  intro hs
  obtain ⟨_, _, _, rfl, rfl⟩ | ⟨records, rfl, hrecords⟩ := mem_committed hm
  · cases hs
  rw [hrecords] at hm
  obtain ⟨asked, hadmits, hv, hrec⟩ := ha record hm hs
  exact ⟨asked, congrArg Record.payload hrec, hc.takes hk hadmits hv⟩

lemma step (h : CleanState keys s) (hk : keys modeledCapabilityId = modeledParameters)
    (hh : (appsContract σ).Honest s) (hg : CleanRequests keys s l) (hs : (apps σ).Step s l s') :
    CleanState keys s' := by
  cases hs with
  | spawn app _ => exact h.set hg h.records
  | call hp _ hr hsem =>
    have ht := h.tasks _ _ hp
    refine h.set ht fun record hm => ?_
    rw [sem_records hsem] at hm
    rcases List.mem_append.mp hm with hm | hm
    · exact h.records record hm
    · exact committed ht hk (hh.allows hp hr) hm
  | crash hp _ =>
    have ht := h.tasks _ _ hp
    exact h.set ht h.records
  | torn hp _ _ hw =>
    have ht := h.tasks _ _ hp
    refine h.set ht ?_
    rw [torn_db hw]
    exact h.records

end CleanState

theorem unsmuggled (hk : keys modeledCapabilityId = modeledParameters) {x : σ} {s : Apps σ}
    (hs : (apps σ).Run (CleanRequests keys) (Pool.init (World.initial x)) s) :
    Unsmuggled keys s := by
  have hc : CleanState keys s := (appsContract σ).invariant hs (Contract.honest_init _)
    ⟨fun i p hp => by simp [Pool.init] at hp, fun record hr => by cases hr⟩
    fun a l b hh hi hg hstep => hi.step hk hh hg hstep
  refine ⟨fun i p asked hp hn => ?_, hc.records⟩
  obtain ⟨ha, hv, _⟩ := allows_of_run hs hp hn
  exact (hc.tasks i p hp).takes hk ha hv

def mockKeys (capabilityId : String) : List String :=
  if capabilityId = modeledCapabilityId then modeledParameters else []

def plainBroker : App UInt64 :=
  .broker (mockProvider "linux").provider "linux"
    [⟨.discover, none, none⟩, ⟨.runLifecycle, some "gateway", some (mockRequest 42)⟩]

lemma plainBroker_clean : plainBroker.Clean mockKeys := by
  intro request hm asked hpasses _
  have hchange : asked = mockRequest 42 := by
    obtain ⟨hop, _, hchange, _⟩ := hpasses
    rcases List.mem_pair.mp hm with rfl | rfl
    · cases hop
    · exact (Option.some.inj hchange).symm
  subst hchange
  refine ⟨_, rfl, fun field hf => ?_⟩
  obtain rfl := List.mem_singleton.mp hf
  decide

theorem unsmuggled_mock :
    (∃ p, ((mockProvider "linux").launch plainBroker 6 (World.initial 7)).procs 0 = some p ∧
      p.residual.nextOp = some (.provider (.apply (mockRequest 42)))) ∧
    Unsmuggled mockKeys ((mockProvider "linux").launch plainBroker 6 (World.initial 7)) :=
  ⟨⟨_, Pool.set_procs_self _ _ _ _, by decide +kernel⟩,
    unsmuggled rfl (Device.launch_run rfl _ _ plainBroker_clean fun _ => trivial)⟩

def padded : ChangeRequest where
  __ := mockRequest 42
  parameters := .object [("pad", .string "x"), ("value", toValue (42 : UInt64))]

def paddedBroker : App UInt64 :=
  .broker (mockProvider "linux").provider "linux" [⟨.runLifecycle, some "gateway", some padded⟩]

theorem smuggled : ¬ ∀ (x : UInt64) (s : Apps UInt64),
    (apps UInt64).Reach (Pool.init (World.initial x)) s → Unsmuggled mockKeys s := by
  intro h
  have hrun : (apps UInt64).Reach (Pool.init (World.initial 7))
      ((mockProvider "linux").launch paddedBroker 6 (World.initial 7)) :=
    Device.launch_run rfl _ _ trivial fun _ => trivial
  obtain ⟨fields, hf, hk⟩ := (h 7 _ hrun).applied 0 _ padded (Pool.set_procs_self _ _ _ _)
    (by decide +kernel)
  cases hf
  exact absurd (hk ("pad", .string "x") List.mem_cons_self) (by decide)

end FpsMaxxing
