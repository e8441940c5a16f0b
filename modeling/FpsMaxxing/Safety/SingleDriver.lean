import FpsMaxxing.Broker.Asking
import FpsMaxxing.Broker.Instances

/-! One broker drives the knobs at a time, unless a worker outlives the lock of its process. -/

namespace FpsMaxxing

open Effects Dispatch Serde

variable {σ : Type} {P : Provider σ} {os : String} {codec : Codec} {authorizer : PeerAuthorizer}
  {w : World σ} {entries : String → Option ℕ}

namespace Machine

variable {m m' : Machine σ} {deed : Deed} {guard : Machine σ → Deed → Prop}

def OneDriver (m : Machine σ) : Prop :=
  ∀ i j p q, m.procs i = some p → m.procs j = some q → p.Driving → q.Driving → i = j

/-- The socket of another process that is serving is not unlinked. -/
def Spares (m : Machine σ) : Deed → Prop
  | .unlinks i path inode => ∀ j p, m.procs j = some p → p.phase = .serving inode →
      p.socket = path → j = i
  | _ => True

/-- Nobody takes the lock while a process whose `run` has returned can still make calls. -/
def Orderly (m : Machine σ) : Deed → Prop
  | .locks _ => ∀ i p, m.procs i = some p → p.phase = .returned → p.broker.Quiet
  | _ => True

structure Locked (m : Machine σ) : Prop where
  holds : ∀ i p, m.procs i = some p → p.phase.holds = true → m.holder = some i
  held : ∀ i, m.holder = some i → ∃ p, m.procs i = some p ∧ p.phase.holds = true

@[simp] lemma set_procs_self (m : Machine σ) (i : ℕ) (p : Instance σ) :
    (m.set i p).procs i = some p := Function.update_self _ _ _

lemma set_procs_ne (m : Machine σ) {i j : ℕ} (h : j ≠ i) (p : Instance σ) :
    (m.set i p).procs j = m.procs j := Function.update_of_ne h _ _

@[simp] lemma set_holder (m : Machine σ) (i : ℕ) (p : Instance σ) :
    (m.set i p).holder = m.holder := rfl

variable {i : ℕ} {p p' : Instance σ}

lemma Locked.set (h : m.Locked) (hp : m.procs i = some p) (hh : p'.phase.holds = p.phase.holds)
    (n : Machine σ) (hn : n.procs = m.procs) (hl : n.holder = m.holder) :
    (n.set i p').Locked where
  holds j q hq ha := by
    by_cases hj : j = i
    · subst hj
      rw [set_procs_self] at hq
      cases hq
      exact hl.trans (h.holds j p hp (hh ▸ ha))
    · rw [set_procs_ne _ hj, hn] at hq
      exact hl.trans (h.holds j q hq ha)
  held j hj := by
    obtain ⟨q, hq, ha⟩ := h.held j (hl.symm.trans hj)
    by_cases hji : j = i
    · subst hji
      rw [hp] at hq
      cases hq
      exact ⟨p', set_procs_self _ _ _, hh.trans ha⟩
    · exact ⟨q, by rw [set_procs_ne _ hji, hn, hq], ha⟩

lemma Locked.free (h : m.Locked) (hp : m.procs i = some p) (ha : p.phase.holds = true)
    (hp' : p'.phase.holds = false) (n : Machine σ) (hn : n.procs = m.procs)
    (hl : n.holder = none) : (n.set i p').Locked where
  holds j q hq hqa := by
    by_cases hj : j = i
    · subst hj
      rw [set_procs_self] at hq
      cases hq
      rw [hp'] at hqa
      cases hqa
    · rw [set_procs_ne _ hj, hn] at hq
      have hji := (h.holds j q hq hqa).symm.trans (h.holds i p hp ha)
      exact absurd (Option.some.inj hji) hj
  held j hj := by
    rw [set_holder, hl] at hj
    cases hj

lemma Locked.start (h : m.Locked) (hp : m.procs i = none) (hp' : p'.phase.holds = false) :
    (m.set i p').Locked where
  holds j q hq ha := by
    by_cases hj : j = i
    · subst hj
      rw [set_procs_self] at hq
      cases hq
      rw [hp'] at ha
      cases ha
    · rw [set_procs_ne _ hj] at hq
      exact h.holds j q hq ha
  held j hj := by
    obtain ⟨q, hq, ha⟩ := h.held j hj
    have hji : j ≠ i := fun he => by
      rw [he, hp] at hq
      cases hq
    exact ⟨q, by rw [set_procs_ne _ hji, hq], ha⟩

lemma Locked.lock (h : m.Locked) (hp' : p'.phase.holds = true)
    (hl : m.holder = none) : ({ m with holder := some i }.set i p').Locked where
  holds j q hq ha := by
    by_cases hj : j = i
    · rw [hj]
      rfl
    · rw [set_procs_ne _ hj] at hq
      have hheld := h.holds j q hq ha
      rw [hl] at hheld
      cases hheld
  held j hj := by
    cases hj
    exact ⟨p', set_procs_self _ _ _, hp'⟩

lemma Locked.step (h : m.Locked) (hs : Step P os codec authorizer m deed m') : m'.Locked := by
  cases hs with
  | start socket hp => exact h.start hp rfl
  | lock _ _ hl => exact h.lock rfl hl
  | refuse hp hph _ => exact h.set hp (by rw [hph]; rfl) _ rfl rfl
  | opens hp hph _ => exact h.set hp (by rw [hph]; rfl) _ rfl rfl
  | openFails hp hph _ => exact h.set hp (by rw [hph]; rfl) _ rfl rfl
  | absent hp hph _ => exact h.set hp (by rw [hph]; rfl) _ rfl rfl
  | clear hp hph _ => exact h.set hp (by rw [hph]; rfl) _ rfl rfl
  | bind inode hp hph _ _ => exact h.set hp (by rw [hph]; rfl) _ rfl rfl
  | identify hp hph _ => exact h.set hp (by rw [hph]; rfl) _ rfl rfl
  | lose hp hph _ => exact h.set hp (by rw [hph]; rfl) _ rfl rfl
  | bindFails hp hph =>
    refine h.set hp ?_ _ rfl rfl
    rcases hph with hph | hph | hph <;> rw [hph] <;> rfl
  | @within i p b hp _ _ =>
    have hb : ({ p with broker := b } : Instance σ).phase.holds = p.phase.holds := rfl
    exact h.set hp hb _ rfl rfl
  | fail hp hph => exact h.set hp (by rw [hph]; rfl) _ rfl rfl
  | unbind hp hph _ => exact h.set hp (by rw [hph]; rfl) _ rfl rfl
  | unbound hp hph _ => exact h.set hp (by rw [hph]; rfl) _ rfl rfl
  | release hp hph => exact h.free hp (by rw [hph]; rfl) rfl _ rfl rfl
  | exit hp hph _ => exact h.set hp (by rw [hph]; rfl) _ rfl rfl
  | @crash i p w hp hph _ =>
    by_cases hh : p.phase.holds = true
    · exact h.free hp hh rfl _ rfl (if_pos hh)
    · have hx : ({ p with phase := .exited } : Instance σ).phase.holds = p.phase.holds :=
        (Bool.eq_false_iff.mpr hh).symm
      exact h.set hp hx _ rfl (if_neg hh)

lemma Locked.init (w : World σ) (entries : String → Option ℕ) :
    (Machine.init w entries).Locked where
  holds i p hp := by cases hp
  held i hi := by cases hi

lemma Locked.run (h : Run P os codec authorizer guard w entries m) : m.Locked := by
  induction h with
  | refl => exact .init w entries
  | tail _ hs ih =>
    obtain ⟨deed, _, hs⟩ := hs
    exact ih.step hs

lemma Step.unlinks {path : String} {inode : ℕ}
    (hs : Step P os codec authorizer m (.unlinks i path inode) m') :
    ∃ p, m.procs i = some p ∧ p.phase.holds = true := by
  cases hs with
  | clear hp hph _ => exact ⟨_, hp, by rw [hph]; rfl⟩
  | lose hp hph _ => exact ⟨_, hp, by rw [hph]; rfl⟩
  | unbind hp hph _ => exact ⟨_, hp, by rw [hph]; rfl⟩

lemma Locked.spares (h : m.Locked) (hs : Step P os codec authorizer m deed m') :
    m.Spares deed := by
  cases deed with
  | moves => trivial
  | locks i => trivial
  | unlinks i path inode =>
    intro j q hq hqs _
    obtain ⟨p, hp, ha⟩ := hs.unlinks
    have hj := h.holds j q hq (by rw [hqs]; rfl)
    exact Option.some.inj (hj.symm.trans (h.holds i p hp ha))

end Machine

namespace Broker

variable {b b' : Broker σ}

lemma Quiet.step (h : b.Quiet) (hs : Step P codec authorizer b b') : b'.Quiet := by
  obtain ⟨hserving, hdead, hq, hw⟩ := h
  have hgone : ∀ {c : ℕ} {client : Client}, b.clients[c]? = some client → client.alive ≠ true :=
    fun hc ha => by
      rw [hdead _ (List.mem_of_getElem? hc)] at ha
      cases ha
  cases hs with
  | accept _ hs _ =>
    rw [hserving] at hs
    cases hs
  | proceed _ hc ha _ _ _ => exact absurd ha (hgone hc)
  | send hc ha _ _ _ _ => exact absurd ha (hgone hc)
  | decline hc ha _ _ _ => exact absurd ha (hgone hc)
  | receive hc ha _ _ _ => exact absurd ha (hgone hc)
  | miss hc ha _ _ _ => exact absurd ha (hgone hc)
  | leave hc =>
    refine ⟨hserving, fun other ho => ?_, hq, hw⟩
    rcases List.mem_or_eq_of_mem_set ho with ho | rfl
    · exact hdead other ho
    · rfl
  | take _ hjob =>
    rw [hq] at hjob
    cases hjob
  | call hbusy _ | answer hbusy | panic hbusy _ =>
    rw [hbusy] at hw
    rcases hw with ⟨ledger, hw⟩ | hw <;> cases hw
  | stop => exact ⟨rfl, hdead, hq, hw⟩
  | retire _ _ _ _ => exact ⟨hserving, hdead, hq, .inr rfl⟩

end Broker

def Instance.Active (p : Instance σ) : Prop :=
  p.phase.holds = true ∨ p.phase = .returned ∧ ¬ p.broker.Quiet

lemma Instance.Driving.active {p : Instance σ} (h : p.Driving) : p.Active := by
  obtain ⟨hl, job, method, next, hw⟩ := h
  cases hph : p.phase with
  | returned =>
    refine .inr ⟨hph, fun hq => ?_⟩
    obtain ⟨_, _, _, ⟨ledger, hi⟩ | hi⟩ := hq
    · rw [hw] at hi
      cases hi
    · rw [hw] at hi
      cases hi
  | serving identity | dropping identity | closing =>
    exact .inl (by rw [hph]; rfl)
  | starting | locked | opened | cleared | bound | exited =>
    rw [hph] at hl
    cases hl

namespace Machine

variable {m m' : Machine σ} {deed : Deed} {i : ℕ} {p p' : Instance σ}

def Alone (m : Machine σ) : Prop :=
  ∀ i j p q, m.procs i = some p → m.procs j = some q → p.Active → q.Active → i = j

lemma Alone.set (h : m.Alone) (hp : m.procs i = some p) (ha : p'.Active → p.Active)
    (n : Machine σ) (hn : n.procs = m.procs) : (n.set i p').Alone := by
  have hold : ∀ k r, (n.set i p').procs k = some r → r.Active →
      ∃ r', m.procs k = some r' ∧ r'.Active := by
    intro k r hr hra
    by_cases hk : k = i
    · subst hk
      rw [set_procs_self] at hr
      cases hr
      exact ⟨p, hp, ha hra⟩
    · rw [set_procs_ne _ hk, hn] at hr
      exact ⟨r, hr, hra⟩
  intro j k q r hq hr hqa hra
  obtain ⟨q', hq', hqa'⟩ := hold j q hq hqa
  obtain ⟨r', hr', hra'⟩ := hold k r hr hra
  exact h j k q' r' hq' hr' hqa' hra'

lemma Alone.fresh (h : m.Alone) (hp : m.procs i = none) (ha : ¬ p'.Active) :
    (m.set i p').Alone := by
  have hold : ∀ k r, (m.set i p').procs k = some r → r.Active → m.procs k = some r := by
    intro k r hr hra
    by_cases hk : k = i
    · subst hk
      rw [set_procs_self] at hr
      cases hr
      exact absurd hra ha
    · rwa [set_procs_ne _ hk] at hr
  intro j k q r hq hr hqa hra
  exact h j k q r (hold j q hq hqa) (hold k r hr hra) hqa hra

lemma Alone.lock (hl : m.Locked) (hn : m.holder = none)
    (ho : ∀ j q, m.procs j = some q → q.phase = .returned → q.broker.Quiet) :
    ({ m with holder := some i }.set i p').Alone := by
  have hidle : ∀ k r, ({ m with holder := some i }.set i p').procs k = some r → r.Active →
      k = i := by
    intro k r hr hra
    by_contra hk
    rw [set_procs_ne _ hk] at hr
    rcases hra with hh | ⟨hret, hq⟩
    · have hheld := hl.holds k r hr hh
      rw [hn] at hheld
      cases hheld
    · exact hq (ho k r hr hret)
  intro j k q r hq hr hqa hra
  rw [hidle j q hq hqa, hidle k r hr hra]

lemma Alone.step (h : m.Alone) (hl : m.Locked) (hg : m.Orderly deed)
    (hs : Step P os codec authorizer m deed m') : m'.Alone := by
  cases hs with
  | start socket hp => exact h.fresh hp (by rintro (ha | ⟨ha, _⟩) <;> cases ha)
  | lock _ _ hn => exact Alone.lock hl hn hg
  | refuse hp _ _ => exact h.set hp (by rintro (ha | ⟨ha, _⟩) <;> cases ha) _ rfl
  | opens hp hph _ => exact h.set hp (fun _ => .inl (by rw [hph]; rfl)) _ rfl
  | openFails hp hph _ => exact h.set hp (fun _ => .inl (by rw [hph]; rfl)) _ rfl
  | absent hp hph _ => exact h.set hp (fun _ => .inl (by rw [hph]; rfl)) _ rfl
  | clear hp hph _ => exact h.set hp (fun _ => .inl (by rw [hph]; rfl)) _ rfl
  | bind inode hp hph _ _ => exact h.set hp (fun _ => .inl (by rw [hph]; rfl)) _ rfl
  | identify hp hph _ => exact h.set hp (fun _ => .inl (by rw [hph]; rfl)) _ rfl
  | lose hp hph _ => exact h.set hp (fun _ => .inl (by rw [hph]; rfl)) _ rfl
  | bindFails hp hph =>
    refine h.set hp (fun _ => .inl ?_) _ rfl
    rcases hph with hph | hph | hph <;> rw [hph] <;> rfl
  | @within i p b hp hlive hb =>
    have hquiet : p.broker.Quiet → b.Quiet := fun hq =>
      Broker.Quiet.step (b := { p.broker with world := m.world }) hq hb
    have ha : ({ p with broker := b } : Instance σ).Active → p.Active := fun ha =>
      ha.imp id fun ⟨hret, hq⟩ => ⟨hret, mt hquiet hq⟩
    exact h.set hp ha _ rfl
  | fail hp hph => exact h.set hp (fun _ => .inl (by rw [hph]; rfl)) _ rfl
  | unbind hp hph _ => exact h.set hp (fun _ => .inl (by rw [hph]; rfl)) _ rfl
  | unbound hp hph _ => exact h.set hp (fun _ => .inl (by rw [hph]; rfl)) _ rfl
  | release hp hph => exact h.set hp (fun _ => .inl (by rw [hph]; rfl)) _ rfl
  | exit hp _ _ => exact h.set hp (by rintro (ha | ⟨ha, _⟩) <;> cases ha) _ rfl
  | crash hp _ _ => exact h.set hp (by rintro (ha | ⟨ha, _⟩) <;> cases ha) _ rfl

lemma Alone.run (h : Run P os codec authorizer Orderly w entries m) : m.Alone := by
  have hi : m.Locked ∧ m.Alone := by
    induction h with
    | refl =>
      refine ⟨.init w entries, fun i j p q hp => ?_⟩
      cases hp
    | tail _ hs ih =>
      obtain ⟨deed, hg, hs⟩ := hs
      exact ⟨ih.1.step hs, ih.2.step ih.1 hg hs⟩
  exact hi.2

end Machine

theorem single_driver :
    (∀ m : Machine σ, Machine.Run P os codec authorizer Machine.Orderly w entries m →
      m.OneDriver ∧ ∀ deed m', Machine.Step P os codec authorizer m deed m' → m.Spares deed) ∧
    ∀ m : Machine σ, Machine.Run P os codec authorizer (fun _ _ => True) w entries m →
      ∀ deed m', Machine.Step P os codec authorizer m deed m' → m.Spares deed := by
  refine ⟨fun m h => ⟨fun i j p q hp hq hpd hqd => ?_, fun deed m' hs => ?_⟩, fun m h deed m' hs => ?_⟩
  · exact Machine.Alone.run h i j p q hp hq hpd.active hqd.active
  · exact (Machine.Locked.run h).spares hs
  · exact (Machine.Locked.run h).spares hs

section

def lifecycleText : Bytes := ascii
  ("\x7b\"op\":\"run-lifecycle\",\"owner\":\"bench\",\"change\":\x7b\"capability_id\":" ++
    "\"mock.value\",\"parameters\":\x7b\"value\":40\x7d,\"lease_seconds\":30\x7d\x7d")

def lifecycleRequest : BrokerRequest :=
  ⟨.runLifecycle, some "bench", some (mockRequest 40)⟩

def lifecycleCodec : Codec where
  decode bytes :=
    if bytes = lifecycleText then .ok lifecycleRequest
    else .error "expected value at line 1 column 1"
  encode := errorsCodec.encode

lemma lifecycle_calls : ∃ next,
    (BrokerService.new (mockProvider "linux").provider.plane).handle .new lifecycleRequest =
      .call (.provider .snapshot) next := ⟨_, rfl⟩

lemma lifecycle_driving (w : World UInt64) : ∃ b : Broker UInt64,
    Broker.Reach (mockProvider "linux").provider lifecycleCodec (sameUidAuthorizer 0) w b ∧
      b.world = w ∧
      ∃ job next, b.worker = .busy job (.call (.provider .snapshot) next) := by
  obtain ⟨rest, hcall⟩ := lifecycle_calls
  have hd : lifecycleCodec.decode lifecycleText = .ok lifecycleRequest := by
    simp [lifecycleCodec]
  let s₁ : Broker UInt64 := (Broker.init w).joined lifecycleCodec (sameUidAuthorizer 0)
    ⟨.holding (frame lifecycleText), 0, none⟩
  have h₁ : Broker.Reach (mockProvider "linux").provider lifecycleCodec (sameUidAuthorizer 0) w s₁ :=
    Relation.ReflTransGen.refl.tail (.accept _ rfl (Nat.succ_pos 31))
  obtain ⟨next, h₂⟩ := h₁.asks 0 rfl (by decide +kernel) hd nofun (Nat.succ_pos 63)
  exact ⟨_, h₂.tail (.take rfl rfl), rfl, _, rest, congrArg (Worker.busy _) hcall⟩

namespace Machine

variable {m : Machine UInt64} {i : ℕ}

def tables : World UInt64 := ⟨⟨true, [], []⟩, 7⟩

abbrev Possible (m : Machine UInt64) : Prop :=
  Run (mockProvider "linux").provider "linux" lifecycleCodec (sameUidAuthorizer 0)
    (fun _ _ => True) tables (fun _ => none) m

structure Stands (guard : Machine UInt64 → Deed → Prop) (m : Machine UInt64) (i : ℕ)
    (p : Instance UInt64) (w : World UInt64) (holder : Option ℕ) (entries : String → Option ℕ)
    (others : ℕ → Option (Instance UInt64)) : Prop where
  possible : Run (mockProvider "linux").provider "linux" lifecycleCodec (sameUidAuthorizer 0)
    guard tables (fun _ => none) m
  world : m.world = w
  holder : m.holder = holder
  entries : m.entries = entries
  proc : m.procs i = some p
  others : ∀ j, j ≠ i → m.procs j = others j

def Lenient (guard : Machine UInt64 → Deed → Prop) : Prop :=
  ∀ m deed, (∀ i, deed ≠ .locks i) → guard m deed

lemma lenient_true : Lenient fun _ _ => True := fun _ _ _ => trivial

lemma lenient_orderly : Lenient Orderly := by
  intro m deed h
  cases deed with
  | locks i => exact absurd rfl (h i)
  | moves | unlinks i path inode => trivial

variable {guard : Machine UInt64 → Deed → Prop} {p p' : Instance UInt64} {n : Machine UInt64}
  {deed : Deed} {holder : Option ℕ} {entries : String → Option ℕ}
  {others : ℕ → Option (Instance UInt64)} {w : World UInt64}

lemma Stands.does (s : Stands guard m i p w holder entries others) (hg : guard m deed)
    (hs : Step (mockProvider "linux").provider "linux" lifecycleCodec (sameUidAuthorizer 0) m deed
      (n.set i p')) (hn : n.procs = m.procs) :
    Stands guard (n.set i p') i p' n.world n.holder n.entries others where
  possible := s.possible.tail ⟨deed, hg, hs⟩
  world := rfl
  holder := rfl
  entries := rfl
  proc := set_procs_self _ _ _
  others j hj := by rw [set_procs_ne _ hj, hn, s.others j hj]

lemma Stands.go (s : Stands guard m i p w holder entries others) (hg : Lenient guard)
    (hs : Step (mockProvider "linux").provider "linux" lifecycleCodec (sameUidAuthorizer 0) m deed
      (n.set i p')) (hn : n.procs = m.procs) (hd : ∀ j, deed ≠ .locks j) :
    Stands guard (n.set i p') i p' n.world n.holder n.entries others :=
  s.does (hg m deed hd) hs hn

lemma Stands.within {b : Broker UInt64} (s : Stands guard m i p w holder entries others)
    (hg : Lenient guard) (hl : p.phase.live = true) (hw : p.broker.world = w)
    (hb : Relation.ReflTransGen (Broker.Step (mockProvider "linux").provider lifecycleCodec
      (sameUidAuthorizer 0)) p.broker b) :
    ∃ m', Stands guard m' i { p with broker := b } b.world holder entries others := by
  induction hb with
  | refl => exact ⟨m, by rw [hw]; exact s⟩
  | @tail b b' _ hs ih =>
    obtain ⟨m', s'⟩ := ih
    have hs' : Broker.Step (mockProvider "linux").provider lifecycleCodec (sameUidAuthorizer 0)
        { b with world := m'.world } b' := by
      rw [s'.world]
      exact hs
    have s'' := s'.go hg (.within s'.proc hl hs') rfl nofun
    exact ⟨_, s''.possible, s''.world, s''.holder.trans s'.holder, s''.entries.trans s'.entries,
      s''.proc, s''.others⟩

def brokerSocket : String := "/run/fpsmaxxing/broker.sock"

lemma orderly_locks (hp : m.procs i = some ⟨brokerSocket, .starting, .init tables⟩)
    (ho : ∀ j q, j ≠ i → m.procs j = some q → q.phase ≠ .returned) : m.Orderly (.locks i) := by
  intro j q hq hret
  by_cases hj : j = i
  · rw [hj, hp] at hq
    cases hq
    cases hret
  · exact absurd hret (ho j q hj hq)

lemma opens_tables : ∃ tr, Steps (sem (mockProvider "linux").provider)
    ((mockProvider "linux").provider.plane.opens "linux").run tables tr (.done (.ok ())) tables := by
  have h := Program.advance_done (n := 1) (w := tables)
    (p := ((mockProvider "linux").provider.plane.opens "linux").run) (a := .ok ())
    (mockProvider "linux").answer_sem rfl
  exact ⟨_, h⟩

lemma drives (hg : Lenient guard)
    (h : Run (mockProvider "linux").provider "linux" lifecycleCodec (sameUidAuthorizer 0) guard
      tables (fun _ => none) m)
    (hlock : ∀ n : Machine UInt64, (∀ j, j ≠ i → n.procs j = m.procs j) →
      n.procs i = some ⟨brokerSocket, .starting, .init tables⟩ → guard n (.locks i))
    (hp : m.procs i = none) (hl : m.holder = none) (he : m.entries = fun _ => none)
    (hw : m.world = tables) :
    ∃ m' b job next, b.worker = .busy job (.call (.provider .snapshot) next) ∧
      Stands guard m' i ⟨brokerSocket, .serving i, b⟩ tables (some i)
        (Function.update (fun _ => none) brokerSocket (some i)) m.procs := by
  obtain ⟨tr, hopen⟩ := opens_tables
  have s₁ : Stands guard (m.set i ⟨brokerSocket, .starting, .init tables⟩) i
      ⟨brokerSocket, .starting, .init tables⟩ tables none (fun _ => none) m.procs :=
    ⟨h.tail ⟨.moves, hg m _ nofun, hw ▸ .start brokerSocket hp⟩, hw, hl, he,
      set_procs_self _ _ _, fun j hj => set_procs_ne _ hj _⟩
  have s₂ := s₁.does (hlock _ s₁.others s₁.proc) (.lock s₁.proc rfl s₁.holder) rfl
  have hopen₂ := s₂.world.trans hw
  have s₃ := s₂.go hg (.opens (w := tables) s₂.proc rfl (by rw [hopen₂]; exact hopen)) rfl nofun
  obtain ⟨m₄, s₄⟩ : ∃ m', Stands guard m' i ⟨brokerSocket, .cleared, .init tables⟩ tables (some i)
      (fun _ => none) m.procs := by
    have s₄ := s₃.go hg (.absent s₃.proc rfl (congrFun he _)) rfl nofun
    exact ⟨_, s₄.possible, rfl, rfl, he, s₄.proc, s₄.others⟩
  have hfree : ∀ path, m₄.entries path = none := fun path => congrFun s₄.entries path
  obtain ⟨m₅, s₅⟩ : ∃ m', Stands guard m' i ⟨brokerSocket, .bound, .init tables⟩ tables (some i)
      (Function.update (fun _ => none) brokerSocket (some i)) m.procs := by
    have s₅ := s₄.go hg (.bind i s₄.proc rfl (hfree _) fun path hin => by
      rw [hfree path] at hin
      cases hin) rfl nofun
    have hentries := congrArg (Function.update · brokerSocket (some i)) s₄.entries
    exact ⟨_, s₅.possible, s₄.world, s₄.holder, hentries, s₅.proc, s₅.others⟩
  have hbound := (congrFun s₅.entries brokerSocket).trans (Function.update_self _ _ _)
  have s₆ := s₅.go hg (.identify s₅.proc rfl hbound) rfl nofun
  obtain ⟨b, hb, hbw, job, next, hbusy⟩ := lifecycle_driving tables
  obtain ⟨m', s₇⟩ := s₆.within hg rfl s₅.world.symm hb
  rw [hbw] at s₇
  exact ⟨m', b, job, next, hbusy, s₇.possible, s₇.world, s₇.holder.trans s₅.holder,
    s₇.entries.trans s₅.entries, s₇.proc, s₇.others⟩

lemma Stands.leaves {b : Broker UInt64} (hg : Lenient guard)
    (s : Stands guard m i ⟨brokerSocket, .serving i, b⟩ w (some i)
      (Function.update (fun _ => none) brokerSocket (some i)) others) :
    ∃ m', Stands guard m' i ⟨brokerSocket, .returned, { b with serving := false }⟩ w none
      (fun _ => none) others := by
  have s₁ := s.go hg (.fail s.proc rfl) rfl nofun
  have hbound : m.entries brokerSocket = some i :=
    (congrFun s.entries brokerSocket).trans (Function.update_self _ _ _)
  have s₂ := s₁.go hg (.unbind s₁.proc rfl hbound) rfl nofun
  have s₃ := s₂.go hg (.release s₂.proc rfl) rfl nofun
  refine ⟨_, s₃.possible, s₃.world.trans s.world, rfl, ?_, s₃.proc, s₃.others⟩
  have hgone : Function.update m.entries brokerSocket none = fun _ => none := by
    rw [s.entries, Function.update_idem]
    exact Function.update_eq_self _ _
  exact hgone

end Machine

/-- The accept loop of the first broker fails while its worker is inside a lifecycle, the lock goes
with `run`, and a second broker drives beside the worker that was left. -/
theorem two_drivers : ¬ ∀ m : Machine UInt64, Machine.Possible m →
    m.OneDriver ∧ ∀ deed m', Machine.Step (mockProvider "linux").provider "linux" lifecycleCodec
      (sameUidAuthorizer 0) m deed m' → m.Spares deed := by
  intro h
  have hg := Machine.lenient_true
  obtain ⟨m₁, b, job, next, hbusy, s₁⟩ := Machine.drives (m := .init Machine.tables fun _ => none)
    (i := 0) hg .refl (fun _ _ _ => trivial) rfl rfl rfl rfl
  obtain ⟨m₂, s₂⟩ := s₁.leaves hg
  have hfree : m₂.procs 1 = none := s₂.others 1 (by decide)
  obtain ⟨m₃, b', job', next', hbusy', s₃⟩ := Machine.drives hg s₂.possible
    (fun _ _ _ => trivial) hfree s₂.holder s₂.entries s₂.world
  have hleft := (s₃.others 0 (by decide)).trans s₂.proc
  have h01 := (h m₃ s₃.possible).1 0 1 _ _ hleft s₃.proc
    ⟨rfl, job, .snapshot, next, hbusy⟩ ⟨rfl, job', .snapshot, next', hbusy'⟩
  cases h01

/-- The same with the process of the first broker over before the second one takes the lock. -/
theorem single_driver_handover : ∃ (m : Machine UInt64) (p q : Instance UInt64),
    m.procs 0 = some p ∧ p.phase = .exited ∧ m.procs 1 = some q ∧ q.Driving ∧ m.holder = some 1 ∧
      m.OneDriver ∧ ∀ deed m', Machine.Step (mockProvider "linux").provider "linux" lifecycleCodec
        (sameUidAuthorizer 0) m deed m' → m.Spares deed := by
  have hg := Machine.lenient_orderly
  obtain ⟨m₁, b, job, next, hbusy, s₁⟩ := Machine.drives (m := .init Machine.tables fun _ => none)
    (i := 0) hg .refl (fun n hn hp => Machine.orderly_locks hp fun j q hj hq => by
      rw [hn j hj] at hq
      cases hq) rfl rfl rfl rfl
  obtain ⟨m₂, s₂⟩ := s₁.leaves hg
  have s₃ := s₂.go hg (.exit s₂.proc rfl (.inl rfl)) rfl nofun
  have hfree := s₃.others 1 (by decide)
  obtain ⟨m₄, b', job', next', hbusy', s₄⟩ := Machine.drives hg s₃.possible
    (fun n hn hp => Machine.orderly_locks hp fun j q hj hq => by
      rw [hn j hj] at hq
      by_cases hj0 : j = 0
      · subst hj0
        rw [s₃.proc] at hq
        cases hq
        exact nofun
      · rw [s₃.others j hj0] at hq
        cases hq) hfree s₂.holder s₂.entries s₂.world
  have hgone := (s₄.others 0 (by decide)).trans s₃.proc
  have hs := @single_driver _ (mockProvider "linux").provider "linux" lifecycleCodec
    (sameUidAuthorizer 0) Machine.tables fun _ => none
  exact ⟨m₄, _, _, hgone, rfl, s₄.proc, ⟨rfl, job', .snapshot, next', hbusy'⟩, s₄.holder,
    hs.1 m₄ s₄.possible⟩

end

end FpsMaxxing
