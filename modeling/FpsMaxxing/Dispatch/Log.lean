import Mathlib.Data.List.Infix
import Mathlib.Data.List.Nodup
import Mathlib.Tactic.Common

/-! One worker for many clients, as what is logged of it. A log in which every event is justified by
those before it is the log of a worker that takes the jobs one at a time, in the order they were
sent, and answers each to the client that waits for it. -/

namespace FpsMaxxing.Dispatch

structure Slot where
  client : ℕ
  number : ℕ
  deriving DecidableEq

structure Job (ρ : Type) where
  request : ρ
  respond : Slot
  deriving DecidableEq

inductive Event (ρ α : Type)
  | sent (job : Job ρ)
  | begun (job : Job ρ)
  | answered (job : Job ρ) (response : α)
  | panicked (job : Job ρ)
  | delivered (slot : Slot) (response : α)
  | declined (client : ℕ) (request : ρ) (response : α)

variable {ρ α : Type}

def sent (log : List (Event ρ α)) : List (Job ρ) :=
  log.filterMap fun e => match e with | .sent job => some job | _ => none

def begun (log : List (Event ρ α)) : List (Job ρ) :=
  log.filterMap fun e => match e with | .begun job => some job | _ => none

def answers (log : List (Event ρ α)) : List (Job ρ × α) :=
  log.filterMap fun e => match e with | .answered job response => some (job, response) | _ => none

def Down (log : List (Event ρ α)) : Prop := ∃ job, .panicked job ∈ log

def current (log : List (Event ρ α)) : Option (Job ρ) :=
  log.foldl (fun now e => match e with
    | .begun job => some job
    | .answered _ _ | .panicked _ => none
    | _ => now) none

def outstanding (client : ℕ) (log : List (Event ρ α)) : Option (Job ρ) :=
  log.foldl (fun now e => match e with
    | .sent job => if job.respond.client = client then some job else now
    | .delivered slot _ => if slot.client = client then none else now
    | _ => now) none

section

variable (log log' : List (Event ρ α)) (job : Job ρ) (slot : Slot) (request : ρ) (response : α)
  (client c : ℕ)

@[simp] lemma sent_nil : sent ([] : List (Event ρ α)) = [] := rfl

@[simp] lemma begun_nil : begun ([] : List (Event ρ α)) = [] := rfl

@[simp] lemma answers_nil : answers ([] : List (Event ρ α)) = [] := rfl

@[simp] lemma sent_append : sent (log ++ log') = sent log ++ sent log' := List.filterMap_append

@[simp] lemma begun_append : begun (log ++ log') = begun log ++ begun log' := List.filterMap_append

@[simp] lemma answers_append : answers (log ++ log') = answers log ++ answers log' :=
  List.filterMap_append

@[simp] lemma sent_sent : sent [(.sent job : Event ρ α)] = [job] := rfl
@[simp] lemma sent_begun : sent [(.begun job : Event ρ α)] = [] := rfl
@[simp] lemma sent_answered : sent [.answered job response] = [] := rfl
@[simp] lemma sent_panicked : sent [(.panicked job : Event ρ α)] = [] := rfl
@[simp] lemma sent_delivered : sent [(.delivered slot response : Event ρ α)] = [] := rfl
@[simp] lemma sent_declined : sent [.declined client request response] = [] := rfl

@[simp] lemma begun_sent : begun [(.sent job : Event ρ α)] = [] := rfl
@[simp] lemma begun_begun : begun [(.begun job : Event ρ α)] = [job] := rfl
@[simp] lemma begun_answered : begun [.answered job response] = [] := rfl
@[simp] lemma begun_panicked : begun [(.panicked job : Event ρ α)] = [] := rfl
@[simp] lemma begun_delivered : begun [(.delivered slot response : Event ρ α)] = [] := rfl
@[simp] lemma begun_declined : begun [.declined client request response] = [] := rfl

@[simp] lemma answers_sent : answers [(.sent job : Event ρ α)] = [] := rfl
@[simp] lemma answers_begun : answers [(.begun job : Event ρ α)] = [] := rfl
@[simp] lemma answers_answered : answers [.answered job response] = [(job, response)] := rfl
@[simp] lemma answers_panicked : answers [(.panicked job : Event ρ α)] = [] := rfl
@[simp] lemma answers_delivered : answers [(.delivered slot response : Event ρ α)] = [] := rfl
@[simp] lemma answers_declined : answers [.declined client request response] = [] := rfl

@[simp] lemma current_nil : current ([] : List (Event ρ α)) = none := rfl

@[simp] lemma current_sent : current (log ++ [.sent job]) = current log := by simp [current]
@[simp] lemma current_begun : current (log ++ [.begun job]) = some job := by simp [current]
@[simp] lemma current_answered : current (log ++ [.answered job response]) = none := by
  simp [current]
@[simp] lemma current_panicked : current (log ++ [.panicked job]) = none := by simp [current]
@[simp] lemma current_delivered : current (log ++ [.delivered slot response]) = current log := by
  simp [current]
@[simp] lemma current_declined :
    current (log ++ [.declined client request response]) = current log := by
  simp [current]

@[simp] lemma outstanding_nil : outstanding c ([] : List (Event ρ α)) = none := rfl

@[simp] lemma outstanding_sent : outstanding c (log ++ [.sent job]) =
    if job.respond.client = c then some job else outstanding c log := by
  simp [outstanding]
@[simp] lemma outstanding_begun : outstanding c (log ++ [.begun job]) = outstanding c log := by
  simp [outstanding]
@[simp] lemma outstanding_answered :
    outstanding c (log ++ [.answered job response]) = outstanding c log := by
  simp [outstanding]
@[simp] lemma outstanding_panicked :
    outstanding c (log ++ [.panicked job]) = outstanding c log := by
  simp [outstanding]
@[simp] lemma outstanding_delivered : outstanding c (log ++ [.delivered slot response]) =
    if slot.client = c then none else outstanding c log := by
  simp [outstanding]
@[simp] lemma outstanding_declined :
    outstanding c (log ++ [.declined client request response]) = outstanding c log := by
  simp [outstanding]

lemma mem_answers : (job, response) ∈ answers log ↔ .answered job response ∈ log := by
  rw [answers, List.mem_filterMap]
  constructor
  · rintro ⟨e, he, hj⟩
    cases e <;> simp_all
  · exact fun h => ⟨_, h, rfl⟩

end

lemma Down.append {log : List (Event ρ α)} (h : Down log) (log' : List (Event ρ α)) :
    Down (log ++ log') := by
  obtain ⟨job, h⟩ := h
  exact ⟨job, List.mem_append_left _ h⟩

@[simp] lemma not_down_nil : ¬ Down ([] : List (Event ρ α)) := by
  rintro ⟨job, h⟩
  cases h

lemma down_snoc {log : List (Event ρ α)} {e : Event ρ α} :
    Down (log ++ [e]) ↔ Down log ∨ ∃ job, e = .panicked job := by
  constructor
  · rintro ⟨job, h⟩
    rcases List.mem_append.mp h with h | h
    · exact .inl ⟨job, h⟩
    · exact .inr ⟨job, (List.mem_singleton.mp h).symm⟩
  · rintro (h | ⟨job, rfl⟩)
    · exact h.append _
    · exact ⟨job, List.mem_append_right _ (List.mem_singleton.mpr rfl)⟩

lemma not_down_snoc {log : List (Event ρ α)} {e : Event ρ α} (h : ¬ Down log)
    (he : ∀ job, e ≠ .panicked job) : ¬ Down (log ++ [e]) := by
  intro hd
  rcases down_snoc.mp hd with hd | ⟨job, hj⟩
  · exact h hd
  · exact he job hj

lemma outstanding_mem {log : List (Event ρ α)} {client : ℕ} {job : Job ρ}
    (h : outstanding client log = some job) : job ∈ sent log ∧ job.respond.client = client := by
  induction log using List.reverseRecOn with
  | nil => cases h
  | append_singleton log e ih =>
    cases e with
    | sent j =>
      rw [outstanding_sent] at h
      split_ifs at h with hj
      · cases h
        exact ⟨by simp, hj⟩
      · obtain ⟨hm, hc⟩ := ih h
        exact ⟨by simp [hm], hc⟩
    | delivered slot r =>
      rw [outstanding_delivered] at h
      split_ifs at h
      obtain ⟨hm, hc⟩ := ih h
      exact ⟨by simp [hm], hc⟩
    | begun j | answered j r | panicked j | declined c q r =>
      simp only [outstanding_begun, outstanding_answered, outstanding_panicked,
        outstanding_declined] at h
      obtain ⟨hm, hc⟩ := ih h
      exact ⟨by simp [hm], hc⟩

end FpsMaxxing.Dispatch
