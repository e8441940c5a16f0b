import FpsMaxxing.Broker.Ownership
import FpsMaxxing.Contracts.Lookup
import Mathlib.Data.List.Induction
import Mathlib.Data.List.Perm.Basic

/-! The ledger beside the guards that are alive: who holds what after any acquisitions and drops. -/

namespace FpsMaxxing

structure Holding where
  guard : OwnershipGuard
  owner : String

def Holding.entry (h : Holding) : String × String := (h.guard.capabilityId, h.owner)

structure Leases where
  ledger : OwnershipLedger
  live : List Holding

namespace Leases

inductive Act
  | acquire (capabilityId owner : String)
  -- any of the guards alive is dropped
  | drop (i : ℕ)

def new : Leases := ⟨.new, []⟩

def act (s : Leases) : Act → Leases
  | .acquire capabilityId owner =>
    match s.ledger.acquire capabilityId owner with
    | (.ok guard, ledger) => ⟨ledger, s.live ++ [⟨guard, owner⟩]⟩
    | (.error _, ledger) => ⟨ledger, s.live⟩
  | .drop i =>
    match s.live[i]? with
    | some held => ⟨s.ledger.release held.guard, s.live.eraseIdx i⟩
    | none => s

def run (acts : List Act) : Leases := acts.foldl act new

structure Exclusive (s : Leases) : Prop where
  perm : s.ledger.owners.Perm (s.live.map Holding.entry)
  nodup : (s.live.map fun held => held.guard.capabilityId).Nodup

variable {s : Leases}

lemma Exclusive.nodup_keys (h : s.Exclusive) : s.ledger.keys.Nodup := by
  have hk : s.ledger.keys.Perm (s.live.map fun held => held.guard.capabilityId) := by
    simpa [OwnershipLedger.keys, Holding.entry, Function.comp_def] using h.perm.map Prod.fst
  exact hk.nodup_iff.mpr h.nodup

lemma Exclusive.mem_keys (h : s.Exclusive) {capabilityId : String} :
    capabilityId ∈ s.ledger.keys ↔ ∃ held ∈ s.live, held.guard.capabilityId = capabilityId := by
  rw [OwnershipLedger.keys, (h.perm.map Prod.fst).mem_iff]
  simp [Holding.entry]

lemma Exclusive.ownerOf_eq_some (h : s.Exclusive) {capabilityId owner : String} :
    s.ledger.ownerOf capabilityId = some owner ↔
      ∃ held ∈ s.live, held.guard.capabilityId = capabilityId ∧ held.owner = owner := by
  rw [OwnershipLedger.ownerOf, lookup_eq_some_of_nodup h.nodup_keys, h.perm.mem_iff]
  simp [Holding.entry]

lemma Exclusive.ownerOf_eq_none (h : s.Exclusive) {capabilityId : String} :
    s.ledger.ownerOf capabilityId = none ↔
      ∀ held ∈ s.live, held.guard.capabilityId ≠ capabilityId := by
  have hm : capabilityId ∉ s.ledger.keys ↔ _ := not_congr h.mem_keys
  rw [OwnershipLedger.ownerOf, lookup_eq_none_iff_not_mem]
  simpa [OwnershipLedger.keys] using hm

lemma Exclusive.acquire (h : s.Exclusive) (capabilityId owner : String) :
    (s.act (.acquire capabilityId owner)).Exclusive := by
  rw [act, OwnershipLedger.acquire]
  cases ho : s.ledger.ownerOf capabilityId with
  | some heldBy => exact h
  | none =>
    have hfree := h.ownerOf_eq_none.mp ho
    constructor
    · rw [List.map_append]
      exact (List.Perm.cons _ h.perm).trans (List.perm_append_singleton _ _).symm
    · rw [List.map_append]
      refine h.nodup.append (List.nodup_singleton _) fun id hid hnew => ?_
      obtain ⟨held, hm, rfl⟩ := List.mem_map.mp hid
      exact hfree held hm (List.mem_singleton.mp hnew)

lemma filter_eraseIdx {live : List Holding} {i : ℕ} {held : Holding}
    (hn : (live.map fun held => held.guard.capabilityId).Nodup) (hi : live[i]? = some held) :
    (live.filter fun other => other.guard.capabilityId ≠ held.guard.capabilityId) =
      live.eraseIdx i := by
  induction live generalizing i with
  | nil => simp at hi
  | cons first live ih =>
    obtain ⟨hf, hn⟩ := List.nodup_cons.mp hn
    cases i with
    | zero =>
      cases hi
      have hall : ∀ other ∈ live, other.guard.capabilityId ≠ held.guard.capabilityId :=
        fun other ho he => hf (List.mem_map.mpr ⟨other, ho, he⟩)
      rw [List.filter_cons_of_neg (by simp), List.eraseIdx_zero, List.tail_cons]
      exact List.filter_eq_self.mpr fun other ho => by simpa using hall other ho
    | succ i =>
      rw [List.getElem?_cons_succ] at hi
      have hne : first.guard.capabilityId ≠ held.guard.capabilityId :=
        fun he => hf (List.mem_map.mpr ⟨held, List.mem_of_getElem? hi, he.symm⟩)
      rw [List.filter_cons_of_pos (by simpa using hne), List.eraseIdx_cons_succ, ih hn hi]

lemma Exclusive.drop (h : s.Exclusive) (i : ℕ) : (s.act (.drop i)).Exclusive := by
  rw [act]
  cases hi : s.live[i]? with
  | none => exact h
  | some held =>
    constructor
    · have hf := h.perm.filter fun entry => entry.1 ≠ held.guard.capabilityId
      rw [List.filter_map] at hf
      exact (filter_eraseIdx h.nodup hi) ▸ hf
    · exact h.nodup.sublist ((List.eraseIdx_sublist s.live i).map _)

lemma Exclusive.act (h : s.Exclusive) (a : Act) : (s.act a).Exclusive := by
  cases a with
  | acquire capabilityId owner => exact h.acquire capabilityId owner
  | drop i => exact h.drop i

lemma exclusive_run (acts : List Act) : (run acts).Exclusive := by
  induction acts using List.reverseRecOn with
  | nil => exact ⟨List.Perm.refl _, List.nodup_nil⟩
  | append_singleton acts a ih =>
    rw [run, List.foldl_append]
    exact ih.act a

end Leases

theorem ledger_exclusive (acts : List Leases.Act) :
    let s := Leases.run acts
    (s.ledger.keys.Nodup ∧ ∀ capabilityId, capabilityId ∈ s.ledger.keys ↔
      ∃ held ∈ s.live, held.guard.capabilityId = capabilityId) ∧
    (s.live.map fun held => held.guard.capabilityId).Nodup ∧
    (∀ held ∈ s.live, s.ledger.ownerOf held.guard.capabilityId = some held.owner) ∧
    (∀ capabilityId owner, (s.ledger.acquire capabilityId owner).1 = .ok ⟨capabilityId⟩ ↔
      ∀ held ∈ s.live, held.guard.capabilityId ≠ capabilityId) ∧
    (∀ capabilityId owner conflict, (s.ledger.acquire capabilityId owner).1 = .error conflict →
      (s.ledger.acquire capabilityId owner).2 = s.ledger ∧
        conflict.capabilityId = capabilityId ∧
        ∃ held ∈ s.live, held.guard.capabilityId = capabilityId ∧ conflict.heldBy = held.owner) ∧
    ∀ held ∈ s.live, ∀ capabilityId, (s.ledger.release held.guard).ownerOf capabilityId =
      if capabilityId = held.guard.capabilityId then none else s.ledger.ownerOf capabilityId := by
  intro s
  have h := Leases.exclusive_run acts
  refine ⟨⟨h.nodup_keys, fun _ => h.mem_keys⟩, h.nodup, ?_, ?_, ?_, ?_⟩
  · exact fun held hm => h.ownerOf_eq_some.mpr ⟨held, hm, rfl, rfl⟩
  · intro capabilityId owner
    rw [← h.ownerOf_eq_none, OwnershipLedger.acquire]
    cases s.ledger.ownerOf capabilityId <;> simp
  · intro capabilityId owner conflict hc
    rw [OwnershipLedger.acquire] at hc ⊢
    cases ho : s.ledger.ownerOf capabilityId with
    | none =>
      rw [ho] at hc
      cases hc
    | some heldBy =>
      rw [ho] at hc
      cases hc
      obtain ⟨held, hm, hid, how⟩ := h.ownerOf_eq_some.mp ho
      exact ⟨rfl, rfl, held, hm, hid, how.symm⟩
  · exact fun held _ capabilityId => lookup_filter_ne s.ledger.owners held.guard.capabilityId capabilityId

theorem ledger_exclusive_refused :
    ∃ held ∈ (Leases.run [.acquire "power.scheme" "owner-b", .acquire "mock.value" "owner-a",
        .drop 0, .acquire "mock.value" "owner-b"]).live,
      held.guard.capabilityId = "mock.value" ∧ "owner-a" = held.owner :=
  ((ledger_exclusive _).2.2.2.2.1 "mock.value" "owner-c" ⟨"mock.value", "owner-a"⟩
    (by decide)).2.2

end FpsMaxxing
