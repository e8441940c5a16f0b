import FpsMaxxing.Host.Ledger

/-! The trial table: rows are only added, each under an id that no row has. -/

namespace FpsMaxxing

open Effects

variable {σ : Type}

def journaled : (o : Op) → o.Res → List Trial
  | .journal (.recordTrial payload), .ok id => [⟨id, payload⟩]
  | _, _ => []

lemma mem_journaled {o : Op} {r : o.Res} {trial : Trial} (ht : trial ∈ journaled o r) :
    (⟨o, r⟩ : Calls.Event) = ⟨.journal (.recordTrial trial.payload), .ok trial.id⟩ := by
  cases o with
  | provider method => cases ht
  | journal statement =>
    rcases r with e | x
    · cases statement <;> cases ht
    · cases statement with
      | recordTrial payload =>
        obtain rfl := List.mem_singleton.mp ht
        rfl
      | _ => cases ht

namespace Database

def trial (db : Database) (id : ℤ) : Option Trial := db.trials.find? fun trial => trial.id = id

lemma lt_nextTrial {db : Database} {trial : Trial} (ht : trial ∈ db.trials) :
    trial.id < db.nextTrial := by
  have hm : trial.id ∈ db.trials.map Trial.id := List.mem_map_of_mem ht
  obtain ⟨id, hx⟩ := Option.isSome_iff_exists.mp (List.isSome_max?_of_mem hm)
  have hle : trial.id ≤ id := (List.max?_le_iff hx).mp le_rfl _ hm
  rw [nextTrial, hx, Option.getD_some]
  omega

lemma trial_nextTrial (db : Database) : db.trial db.nextTrial = none := by
  rw [trial, List.find?_eq_none]
  intro row hr
  simpa using (lt_nextTrial hr).ne

end Database

section

variable {P : Provider σ} {w w' : World σ} {o : Op} {r : o.Res}

lemma sem_trials (h : sem P w o r w') : w'.db.trials = w.db.trials ++ journaled o r := by
  cases o with
  | provider method =>
    rw [h.2]
    cases method <;> exact (List.append_nil _).symm
  | journal statement =>
    obtain ⟨e, rfl, rfl⟩ | ⟨now, b, db, hr, rfl, rfl⟩ := h
    · cases statement <;> exact (List.append_nil _).symm
    · cases statement with
      | createTables | ready =>
        cases hr
        exact (List.append_nil _).symm
      | recordTrial payload =>
        simp only [Statement.run, Option.ite_none_right_eq_some] at hr
        obtain ⟨_, hr⟩ := hr
        cases hr
        rfl
      | _ =>
        simp only [Statement.run, Option.ite_none_right_eq_some] at hr
        obtain ⟨_, hr⟩ := hr
        cases hr
        exact (List.append_nil _).symm

lemma sem_recordTrial {payload : Value} {id : ℤ}
    (h : sem P w (.journal (.recordTrial payload)) (.ok id) w') :
    w.db.ready = true ∧ id = w.db.nextTrial := by
  obtain ⟨e, he, _⟩ | ⟨now, b, db, hr, hb, _⟩ := h
  · cases he
  · simp only [Statement.run, Option.ite_none_right_eq_some] at hr
    obtain ⟨ht, hr⟩ := hr
    cases hr
    exact ⟨ht, Except.ok.inj hb⟩

lemma sem_recordTrial_found {payload : Value} {id : ℤ}
    (h : sem P w (.journal (.recordTrial payload)) (.ok id) w') :
    w'.db.trial id = some ⟨id, payload⟩ := by
  have hn := w.db.trial_nextTrial
  rw [Database.trial] at hn
  rw [Database.trial, sem_trials h, List.find?_append, (sem_recordTrial h).2, hn]
  simp [journaled]

structure Keeps (w w' : World σ) : Prop where
  ready : w.db.ready = true → w'.db.ready = true
  trial : ∀ id row, w.db.trial id = some row → w'.db.trial id = some row
  records : ∀ record ∈ w.db.records, record ∈ w'.db.records

lemma Keeps.refl (w : World σ) : Keeps w w := ⟨id, fun _ _ h => h, fun _ h => h⟩

lemma Keeps.trans {u v w : World σ} (h : Keeps u v) (h' : Keeps v w) : Keeps u w where
  ready hu := h'.ready (h.ready hu)
  trial id row hu := h'.trial id row (h.trial id row hu)
  records record hu := h'.records record (h.records record hu)

lemma sem_keeps (h : sem P w o r w') : Keeps w w' where
  ready hw := by
    cases o with
    | provider method => rwa [h.2]
    | journal statement =>
      obtain ⟨e, _, rfl⟩ | ⟨now, b, db, hr, _, rfl⟩ := h
      · exact hw
      · cases statement <;> simp only [Statement.run, hw, if_true, Option.some.injEq,
          Prod.mk.injEq] at hr <;> obtain ⟨_, rfl⟩ := hr <;> first | rfl | exact hw
  trial id row hw := by
    rw [Database.trial, sem_trials h, List.find?_append]
    rw [Database.trial] at hw
    rw [hw, Option.some_or]
  records record hw := by
    rw [sem_records h]
    exact List.mem_append_left _ hw

lemma torn_keeps (h : torn w o w') : Keeps w w' := by
  have hdb := torn_db h
  exact ⟨fun hw => hdb ▸ hw, fun _ _ hw => hdb ▸ hw, fun _ hw => hdb ▸ hw⟩

end

end FpsMaxxing
