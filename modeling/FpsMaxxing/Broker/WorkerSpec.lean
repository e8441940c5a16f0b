import FpsMaxxing.Broker.Worker

/-! The broker is one sequential service: what every interleaving of its connections and its worker
comes to. -/

namespace FpsMaxxing

open Effects Dispatch

variable {σ : Type} {P : Provider σ} {codec : Codec} {authorizer : PeerAuthorizer}

namespace BrokerService

variable (service : BrokerService) (ledger : OwnershipLedger)

lemma handleAll_snoc (requests : List BrokerRequest) (request : BrokerRequest) :
    service.handleAll ledger (requests ++ [request]) = (do
      let before ← service.handleAll ledger requests
      let last ← service.handle before.2 request
      return (before.1 ++ [last.1], last.2)) := by
  induction requests generalizing ledger with
  | nil => simp [handleAll]
  | cons first requests ih =>
    simp only [List.cons_append, handleAll, ih, bind_assoc, Program.pure_eq, Program.done_bind]

lemma Steps.snoc {sem : Semantics Calls (World σ)} {requests : List BrokerRequest}
    {request : BrokerRequest} {responses : List BrokerResponse} {response : BrokerResponse}
    {later last : OwnershipLedger} {tr tr' : List (Entry Calls (World σ))} {w v u : World σ}
    (h : Steps sem (service.handleAll ledger requests) w tr (.done (responses, later)) v)
    (h' : Steps sem (service.handle later request) v tr' (.done (response, last)) u) :
    Steps sem (service.handleAll ledger (requests ++ [request])) w (tr ++ tr')
      (.done (responses ++ [response], last)) u := by
  rw [handleAll_snoc]
  exact h.bind.trans h'.bind

end BrokerService

structure Client.Waits (client : Client) (asked : Option BrokerJob) : Prop where
  awaiting : client.awaiting = asked.map Job.respond
  task : ∀ job, asked = some job → ∃ next, client.task = .call (.dispatch job.request) next

lemma Client.Waits.none {client : Client} (h : client.awaiting = none) : client.Waits none :=
  ⟨h, nofun⟩

lemma Client.Waits.of_none {client : Client} {asked : Option BrokerJob} (h : client.Waits asked)
    (ha : client.awaiting = Option.none) : asked = Option.none := by
  cases asked with
  | none => rfl
  | some job =>
    have haw := h.awaiting
    rw [ha] at haw
    cases haw

namespace Broker

lemma oneshots_update {oneshots : Slot → Oneshot} {new : Oneshot} {p : BrokerResponse → Prop}
    (place : Slot) (h : ∀ slot response, oneshots slot = .sent response → p response)
    (hnew : ∀ response, new = .sent response → p response) (slot : Slot)
    (response : BrokerResponse) (ho : Function.update oneshots place new slot = .sent response) :
    p response := by
  rw [Function.update_apply] at ho
  split_ifs at ho
  · exact hnew response ho
  · exact h slot response ho

lemma of_closing {oneshots : Slot → Oneshot} {jobs : List BrokerJob} {slot : Slot}
    {response : BrokerResponse} (h : closing oneshots jobs slot = .sent response) :
    oneshots slot = .sent response := by
  rw [closing] at h
  split_ifs at h
  exact h

def Executed (P : Provider σ) (w₀ : World σ) (s : Broker σ) : Prop :=
  ∃ ledger v tr,
    Steps (sem P)
      ((BrokerService.new P.plane).handleAll .new ((answers s.log).map fun a => a.1.request)) w₀ tr
      (.done ((answers s.log).map Prod.snd, ledger)) v ∧
    match s.worker with
    | .idle now => now = ledger ∧ v = s.world ∧ tr = s.calls
    | .busy job residual => ∃ tr',
      Steps (sem P) ((BrokerService.new P.plane).handle ledger job.request) v tr' residual s.world ∧
        s.calls = tr ++ tr'
    | .stopped => (¬ Down s.log → v = s.world ∧ tr = s.calls) ∧ (Down s.log →
      ∃ job tr' residual u, .panicked job ∈ s.log ∧
        (answers s.log).map Prod.fst ++ [job] = begun s.log ∧
        Steps (sem P) ((BrokerService.new P.plane).handle ledger job.request) v tr' residual u ∧
        s.calls = tr ++ tr' ∧
        (s.world = u ∨ ∃ o next, residual = .call o next ∧ torn u o s.world))

def Placed (s : Broker σ) : Prop :=
  match s.worker with
  | .idle _ => current s.log = none ∧ ¬ Down s.log ∧ begun s.log ++ s.queue = sent s.log ∧
      (answers s.log).map Prod.fst = begun s.log
  | .busy job _ => current s.log = some job ∧ ¬ Down s.log ∧ begun s.log ++ s.queue = sent s.log ∧
      (answers s.log).map Prod.fst ++ [job] = begun s.log
  | .stopped => current s.log = none ∧ s.queue = [] ∧
      (Down s.log ∨ (s.serving = false ∧ ∀ client ∈ s.clients, client.alive = false) ∧
        begun s.log = sent s.log ∧ (answers s.log).map Prod.fst = begun s.log)

def Kept (s : Broker σ) (job : BrokerJob) : Prop :=
  match s.oneshots job.respond with
  | .waiting => job ∈ s.queue ∨ current s.log = some job
  | .sent response => (job, response) ∈ answers s.log
  | .closed => Down s.log ∧ ∀ response, (job, response) ∉ answers s.log

structure Sound (P : Provider σ) (w₀ : World σ) (s : Broker σ) : Prop where
  valid : Valid brokerNotices s.log
  placed : s.Placed
  kept : ∀ job ∈ sent s.log, s.Kept job
  numbered : ∀ job ∈ sent s.log, ∃ client : Client, s.clients[job.respond.client]? = some client ∧
    job.respond.number < client.dispatched
  waits : ∀ (c : ℕ) (client : Client), s.clients[c]? = some client → client.alive = true →
    client.Waits (outstanding c s.log)
  executed : s.Executed P w₀

variable {w₀ : World σ} {s : Broker σ} {c : ℕ} {client : Client}

lemma Sound.init (w₀ : World σ) : Sound P w₀ (init w₀) where
  valid := .nil
  placed := ⟨rfl, not_down_nil, rfl, rfl⟩
  kept := nofun
  numbered := nofun
  waits := nofun
  executed := ⟨.new, w₀, [], .start, rfl, rfl, rfl⟩

lemma Sound.clients {clients : List Client} {serving : Bool} (h : Sound P w₀ s)
    (hn : ∀ (d : ℕ) (client : Client), s.clients[d]? = some client →
      ∃ client' : Client, clients[d]? = some client' ∧
      client.dispatched ≤ client'.dispatched)
    (hw : ∀ (d : ℕ) (client : Client), clients[d]? = some client → client.alive = true →
      client.Waits (outstanding d s.log))
    (hs : s.serving = false → (∀ client ∈ s.clients, client.alive = false) →
      serving = false ∧ ∀ client ∈ clients, client.alive = false) :
    Sound P w₀ { s with clients := clients, serving := serving } where
  valid := h.valid
  placed := by
    have hp := h.placed
    rw [Placed] at hp ⊢
    cases hwk : s.worker with
    | idle ledger =>
      rw [hwk] at hp
      exact hp
    | busy job residual =>
      rw [hwk] at hp
      exact hp
    | stopped =>
      rw [hwk] at hp
      obtain ⟨hc, hq, hd | ⟨⟨hns, hall⟩, hdone⟩⟩ := hp
      · exact ⟨hc, hq, .inl hd⟩
      · exact ⟨hc, hq, .inr ⟨hs hns hall, hdone⟩⟩
  kept := h.kept
  numbered job hj := by
    obtain ⟨client, hc, hlt⟩ := h.numbered job hj
    obtain ⟨client', hc', hle⟩ := hn _ _ hc
    exact ⟨client', hc', Nat.lt_of_lt_of_le hlt hle⟩
  waits := hw
  executed := h.executed

lemma Sound.outstanding_none (h : Sound P w₀ s) {d : ℕ} (hd : s.clients.length ≤ d) :
    outstanding d s.log = none := by
  cases ho : outstanding d s.log with
  | none => rfl
  | some job =>
    obtain ⟨hm, rfl⟩ := outstanding_mem ho
    obtain ⟨client, hc, _⟩ := h.numbered job hm
    exact absurd (List.getElem?_eq_some_iff.mp hc).1 (Nat.not_lt.mpr hd)

lemma Sound.accept (h : Sound P w₀ s) (task : Program ConnectionCalls (Except FrameError Unit))
    (hs : s.serving = true) :
    Sound P w₀ { s with clients := s.clients ++ [⟨task, none, 0, true⟩] } := by
  refine h.clients (fun d client hc => ?_) (fun d client hc ha => ?_) fun hns => ?_
  · exact ⟨client, List.getElem?_append_left (List.getElem?_eq_some_iff.mp hc).1 ▸ hc, le_rfl⟩
  · by_cases hd : d < s.clients.length
    · rw [List.getElem?_append_left hd] at hc
      exact h.waits d client hc ha
    · have hle : s.clients.length ≤ d := Nat.le_of_not_lt hd
      rw [h.outstanding_none hle]
      rw [List.getElem?_append_right hle, List.getElem?_singleton] at hc
      split_ifs at hc
      cases hc
      exact .none rfl
  · rw [hs] at hns
    cases hns

lemma set_clients {clients : List Client} (new : Client) (hc : clients[c]? = some client)
    (hd : client.dispatched ≤ new.dispatched) (d : ℕ) (other : Client)
    (ho : clients[d]? = some other) :
    ∃ other' : Client, (clients.set c new)[d]? = some other' ∧ other.dispatched ≤ other'.dispatched := by
  rw [List.getElem?_set]
  split_ifs with hcd hl
  · subst hcd
    rw [hc] at ho
    cases ho
    exact ⟨new, rfl, hd⟩
  · exact absurd (List.getElem?_eq_some_iff.mp hc).1 hl
  · exact ⟨other, ho, le_rfl⟩

lemma set_waits {clients : List Client} {new : Client} {asked asked' : ℕ → Option BrokerJob}
    (h : ∀ (d : ℕ) (client : Client), clients[d]? = some client → client.alive = true →
      client.Waits (asked d))
    (hne : ∀ d, d ≠ c → asked' d = asked d) (hnew : new.alive = true → new.Waits (asked' c))
    (d : ℕ) (other : Client) (ho : (clients.set c new)[d]? = some other)
    (ha : other.alive = true) : other.Waits (asked' d) := by
  rw [List.getElem?_set] at ho
  split_ifs at ho with hcd hl
  · subst hcd
    cases ho
    exact hnew ha
  · rw [hne d (Ne.symm hcd)]
    exact h d other ho ha

lemma Executed.of_log {log : List BrokerEvent} (h : s.Executed P w₀) (hl : s.log ⊆ log)
    (ha : answers log = answers s.log) (hb : begun log = begun s.log)
    (hd : Down log ↔ Down s.log) : ({ s with log := log } : Broker σ).Executed P w₀ := by
  rw [Executed] at h ⊢
  simp only [ha, hb, hd]
  obtain ⟨ledger, v, tr, hr, hw⟩ := h
  refine ⟨ledger, v, tr, hr, ?_⟩
  cases hwk : s.worker with
  | idle now =>
    rw [hwk] at hw
    exact hw
  | busy job residual =>
    rw [hwk] at hw
    exact hw
  | stopped =>
    rw [hwk] at hw
    refine ⟨hw.1, fun hd => ?_⟩
    obtain ⟨job, tr', residual, u, hm, hrest⟩ := hw.2 hd
    exact ⟨job, tr', residual, u, hl hm, hrest⟩

structure Aside (e : BrokerEvent) : Prop where
  sent : sent [e] = []
  begun : begun [e] = []
  answers : answers [e] = []
  current : ∀ log, current (log ++ [e]) = current log
  down : ∀ log, Down (log ++ [e]) ↔ Down log

lemma aside_delivered (slot : Slot) (response : BrokerResponse) :
    Aside (.delivered slot response) where
  sent := rfl
  begun := rfl
  answers := rfl
  current log := current_delivered log slot response
  down log := down_snoc.trans (or_iff_left (by simp))

lemma aside_declined (client : ℕ) (request : BrokerRequest) (response : BrokerResponse) :
    Aside (.declined client request response) where
  sent := rfl
  begun := rfl
  answers := rfl
  current log := current_declined log request response client
  down log := down_snoc.trans (or_iff_left (by simp))

lemma Sound.tell {e : BrokerEvent} {new : Client} (h : Sound P w₀ s) (he : Aside e)
    (hj : Justified brokerNotices s.log e) (hc : s.clients[c]? = some client)
    (hd : client.dispatched ≤ new.dispatched) (ha : new.alive = true → client.alive = true)
    (hne : ∀ d, d ≠ c → outstanding d (s.log ++ [e]) = outstanding d s.log)
    (hnew : new.Waits (outstanding c (s.log ++ [e]))) :
    Sound P w₀ { s with clients := s.clients.set c new, log := s.log ++ [e] } where
  valid := h.valid.snoc hj
  placed := by
    have hp := h.placed
    rw [Placed] at hp ⊢
    simp only [begun_append, he.begun, sent_append, he.sent, answers_append, he.answers,
      List.append_nil, he.current, he.down]
    cases hw : s.worker with
    | idle ledger =>
      rw [hw] at hp
      exact hp
    | busy job residual =>
      rw [hw] at hp
      exact hp
    | stopped =>
      rw [hw] at hp
      refine ⟨hp.1, hp.2.1, hp.2.2.imp id fun ⟨⟨hns, hall⟩, hdone⟩ =>
        ⟨⟨hns, fun other ho => ?_⟩, hdone⟩⟩
      rcases List.mem_or_eq_of_mem_set ho with ho | rfl
      · exact hall other ho
      · have hdead := hall client (List.mem_of_getElem? hc)
        exact Bool.eq_false_iff.mpr fun hal => by
          rw [ha hal] at hdead
          cases hdead
  kept job hm := by
    rw [sent_append, he.sent, List.append_nil] at hm
    have hk := h.kept job hm
    rw [Kept] at hk ⊢
    simp only [answers_append, he.answers, List.append_nil, he.current, he.down]
    exact hk
  numbered job hm := by
    rw [sent_append, he.sent, List.append_nil] at hm
    obtain ⟨other, ho, hlt⟩ := h.numbered job hm
    obtain ⟨other', ho', hle⟩ := set_clients new hc hd _ _ ho
    exact ⟨other', ho', Nat.lt_of_lt_of_le hlt hle⟩
  waits := set_waits h.waits hne fun _ => hnew
  executed := h.executed.of_log (List.subset_append_left _ _)
    (by rw [answers_append, he.answers, List.append_nil])
    (by rw [begun_append, he.begun, List.append_nil]) (he.down _)

lemma Sound.of_awaiting_none (h : Sound P w₀ s) (hc : s.clients[c]? = some client)
    (ha : client.alive = true) (haw : client.awaiting = none) : outstanding c s.log = none :=
  (h.waits c client hc ha).of_none haw

lemma Sound.awaited {slot : Slot} (h : Sound P w₀ s) (hc : s.clients[c]? = some client)
    (ha : client.alive = true) (haw : client.awaiting = some slot) :
    ∃ job, outstanding c s.log = some job ∧ job ∈ sent s.log ∧ job.respond = slot ∧
      slot.client = c := by
  have hw := (h.waits c client hc ha).awaiting
  rw [haw] at hw
  obtain ⟨job, ho, rfl⟩ := Option.map_eq_some_iff.mp hw.symm
  obtain ⟨hm, hcl⟩ := outstanding_mem ho
  exact ⟨job, ho, hm, rfl, hcl⟩

lemma Sound.proceed (h : Sound P w₀ s) (task : Program ConnectionCalls (Except FrameError Unit))
    (hc : s.clients[c]? = some client) (ha : client.alive = true)
    (haw : client.awaiting = none) :
    Sound P w₀ (s.setClient c { client with task := task }) := by
  refine h.clients (set_clients _ hc le_rfl) (set_waits h.waits (fun _ _ => rfl) fun _ => ?_)
    fun hns hall => ?_
  · rw [h.of_awaiting_none hc ha haw]
    exact .none haw
  · rw [hall client (List.mem_of_getElem? hc)] at ha
    cases ha

lemma Sound.leave (h : Sound P w₀ s) (hc : s.clients[c]? = some client) :
    Sound P w₀ (s.setClient c { client with alive := false }) := by
  refine h.clients (set_clients _ hc le_rfl) (set_waits h.waits (fun _ _ => rfl) nofun)
    fun hns hall => ⟨hns, fun other ho => ?_⟩
  rcases List.mem_or_eq_of_mem_set ho with ho | rfl
  · exact hall other ho
  · rfl

lemma Sound.down_of_stopped (h : Sound P w₀ s) (hw : s.worker = .stopped)
    (hc : s.clients[c]? = some client) (ha : client.alive = true) : Down s.log := by
  have hp := h.placed
  rw [Placed, hw] at hp
  rcases hp.2.2 with hd | ⟨⟨_, hall⟩, _⟩
  · exact hd
  · rw [hall client (List.mem_of_getElem? hc)] at ha
    cases ha

lemma Sound.decline (h : Sound P w₀ s) (task : Program ConnectionCalls (Except FrameError Unit))
    (request : BrokerRequest) (hc : s.clients[c]? = some client) (ha : client.alive = true)
    (haw : client.awaiting = none) (hw : s.worker = .stopped) :
    Sound P w₀ { s with
      clients := s.clients.set c { client with task := task }
      log := s.log ++ [.declined c request brokerNotices.stopped] } := by
  refine h.tell (aside_declined _ _ _) ⟨h.down_of_stopped hw hc ha, rfl⟩ hc le_rfl id
    (fun d _ => outstanding_declined _ _ _ _ _) ?_
  rw [outstanding_declined, h.of_awaiting_none hc ha haw]
  exact .none haw

lemma Sound.deliver {slot : Slot} {response : BrokerResponse} (h : Sound P w₀ s)
    (task : Program ConnectionCalls (Except FrameError Unit)) (hc : s.clients[c]? = some client)
    (ha : client.alive = true) (haw : client.awaiting = some slot)
    (ho : s.oneshots slot = .sent response ∨
      s.oneshots slot = .closed ∧ response = brokerNotices.dropped) :
    Sound P w₀ { s with
      clients := s.clients.set c { client with task := task, awaiting := none }
      log := s.log ++ [.delivered slot response] } := by
  obtain ⟨job, hout, hm, rfl, hcl⟩ := h.awaited hc ha haw
  have hk := h.kept job hm
  rw [Kept] at hk
  have hj : Justified brokerNotices s.log (.delivered job.respond response) := by
    refine ⟨job, hcl ▸ hout, rfl, ?_⟩
    rcases ho with ho | ⟨ho, rfl⟩
    · rw [ho] at hk
      exact .inl ((mem_answers _ _ _).mp hk)
    · rw [ho] at hk
      exact .inr ⟨hk.1, fun r hr => hk.2 r ((mem_answers _ _ _).mpr hr), rfl⟩
  refine h.tell (aside_delivered _ _) hj hc le_rfl id (fun d hd => ?_) ?_
  · rw [outstanding_delivered, if_neg (hcl ▸ hd.symm)]
  · rw [outstanding_delivered, if_pos hcl]
    exact .none rfl

lemma Sound.up (h : Sound P w₀ s) (hw : s.worker ≠ .stopped) : ¬ Down s.log := by
  have hp := h.placed
  rw [Placed] at hp
  cases hwk : s.worker with
  | idle ledger =>
    rw [hwk] at hp
    exact hp.2.1
  | busy job residual =>
    rw [hwk] at hp
    exact hp.2.1
  | stopped => exact absurd hwk hw

lemma Sound.kept_up {job : BrokerJob} (h : Sound P w₀ s) (hup : ¬ Down s.log)
    (hm : job ∈ sent s.log) :
    (s.oneshots job.respond = .waiting ∧ (job ∈ s.queue ∨ current s.log = some job)) ∨
      ∃ response, s.oneshots job.respond = .sent response ∧ (job, response) ∈ answers s.log := by
  have hk := h.kept job hm
  rw [Kept] at hk
  cases ho : s.oneshots job.respond with
  | waiting =>
    rw [ho] at hk
    exact .inl ⟨rfl, hk⟩
  | sent response =>
    rw [ho] at hk
    exact .inr ⟨response, rfl, hk⟩
  | closed =>
    rw [ho] at hk
    exact absurd hk.1 hup

lemma Sound.fresh (h : Sound P w₀ s) (hc : s.clients[c]? = some client) :
    ∀ earlier ∈ sent s.log, earlier.respond ≠ ⟨c, client.dispatched⟩ := by
  intro earlier he heq
  obtain ⟨other, ho, hlt⟩ := h.numbered earlier he
  rw [heq, hc] at ho
  cases ho
  rw [heq] at hlt
  exact Nat.lt_irrefl _ hlt

lemma Sound.send {next : BrokerResponse → Program ConnectionCalls (Except FrameError Unit)}
    {request : BrokerRequest} (h : Sound P w₀ s) (hc : s.clients[c]? = some client)
    (ha : client.alive = true) (haw : client.awaiting = none)
    (ht : client.task = .call (.dispatch request) next) (hw : s.worker ≠ .stopped) :
    Sound P w₀ { s with
      clients := s.clients.set c { client with
        awaiting := some ⟨c, client.dispatched⟩
        dispatched := client.dispatched + 1 }
      oneshots := Function.update s.oneshots ⟨c, client.dispatched⟩ .waiting
      queue := s.queue ++ [⟨request, c, client.dispatched⟩]
      log := s.log ++ [.sent ⟨request, c, client.dispatched⟩] } := by
  have hp := h.placed
  rw [Placed] at hp
  have hfresh := h.fresh hc
  have hup := h.up hw
  have hdown : ∀ job, ¬ Down (s.log ++ [.sent job]) := fun _ => not_down_snoc hup nofun
  constructor
  · exact h.valid.snoc ⟨hup, h.of_awaiting_none hc ha haw, hfresh⟩
  · rw [Placed]
    simp only [current_sent, begun_append, begun_sent, sent_append, sent_sent, answers_append,
      answers_sent, List.append_nil, ← List.append_assoc]
    cases hwk : s.worker with
    | idle ledger =>
      rw [hwk] at hp
      exact ⟨hp.1, hdown _, by rw [hp.2.2.1], hp.2.2.2⟩
    | busy job residual =>
      rw [hwk] at hp
      exact ⟨hp.1, hdown _, by rw [hp.2.2.1], hp.2.2.2⟩
    | stopped => exact absurd hwk hw
  · intro job hm
    rw [Kept]
    simp only [current_sent, answers_append, answers_sent, List.append_nil]
    rw [sent_append, sent_sent] at hm
    rcases List.mem_append.mp hm with hm | hm
    · rw [Function.update_of_ne (hfresh job hm)]
      rcases h.kept_up hup hm with ⟨ho, hk⟩ | ⟨response, ho, hk⟩
      · rw [ho]
        exact hk.imp (List.mem_append_left _) id
      · rw [ho]
        exact hk
    · obtain rfl := List.mem_singleton.mp hm
      rw [Function.update_self]
      exact .inl (List.mem_append_right _ hm)
  · intro job hm
    rw [sent_append, sent_sent] at hm
    have hset := set_clients { client with
      awaiting := some ⟨c, client.dispatched⟩, dispatched := client.dispatched + 1 } hc (Nat.le_succ _)
    rcases List.mem_append.mp hm with hm | hm
    · obtain ⟨other, ho, hlt⟩ := h.numbered job hm
      obtain ⟨other', ho', hle⟩ := hset _ _ ho
      exact ⟨other', ho', Nat.lt_of_lt_of_le hlt hle⟩
    · obtain rfl := List.mem_singleton.mp hm
      exact ⟨_, List.getElem?_set_self (List.getElem?_eq_some_iff.mp hc).1, Nat.lt_succ_self _⟩
  · refine set_waits h.waits (fun d hd => ?_) fun _ => ?_
    · rw [outstanding_sent, if_neg hd.symm]
    · rw [outstanding_sent, if_pos rfl]
      refine ⟨rfl, fun job hj => ?_⟩
      cases hj
      exact ⟨next, ht⟩
  · exact h.executed.of_log (List.subset_append_left _ _)
      (by rw [answers_append, answers_sent, List.append_nil])
      (by rw [begun_append, begun_sent, List.append_nil])
      (iff_of_false (hdown _) hup)

lemma Sound.job_eq (h : Sound P w₀ s) {job other : BrokerJob} (hj : job ∈ sent s.log)
    (ho : other ∈ sent s.log) (heq : other.respond = job.respond) : other = job :=
  List.inj_on_of_nodup_map h.valid.sent_nodup ho hj heq

lemma Sound.take {ledger : OwnershipLedger} {job : BrokerJob} {jobs : List BrokerJob}
    (h : Sound P w₀ s) (hw : s.worker = .idle ledger) (hq : s.queue = job :: jobs) :
    Sound P w₀ { s with
      worker := .busy job ((BrokerService.new P.plane).handle ledger job.request)
      queue := jobs
      log := s.log ++ [.begun job] } := by
  have hp := h.placed
  rw [Placed, hw] at hp
  obtain ⟨hcur, hup, hsent, hans⟩ := hp
  rw [hq] at hsent
  have hdown : ¬ Down (s.log ++ [.begun job]) := not_down_snoc hup nofun
  constructor
  · refine h.valid.snoc ⟨hup, hcur, ?_⟩
    exact ⟨jobs, by rw [← hsent, List.append_assoc]; rfl⟩
  · rw [Placed]
    simp only [current_begun, begun_append, begun_begun, sent_append, sent_begun, answers_append,
      answers_begun, List.append_nil]
    exact ⟨trivial, hdown, by rw [← hsent, List.append_assoc]; rfl, by rw [hans]⟩
  · intro other hm
    rw [sent_append, sent_begun, List.append_nil] at hm
    rw [Kept]
    simp only [current_begun, answers_append, answers_begun, List.append_nil]
    rcases h.kept_up hup hm with ⟨ho, hk⟩ | ⟨response, ho, hk⟩
    · rw [ho]
      rw [hq, hcur] at hk
      rcases hk with hk | hk
      · rcases List.mem_cons.mp hk with rfl | hk
        · exact .inr rfl
        · exact .inl hk
      · cases hk
    · rw [ho]
      exact hk
  · intro other hm
    rw [sent_append, sent_begun, List.append_nil] at hm
    exact h.numbered other hm
  · intro d other ho ha
    rw [outstanding_begun]
    exact h.waits d other ho ha
  · obtain ⟨ledger', v, tr, hr, hwk⟩ := h.executed
    rw [hw] at hwk
    obtain ⟨rfl, rfl, rfl⟩ := hwk
    rw [Executed]
    simp only [answers_append, answers_begun, List.append_nil]
    exact ⟨ledger, s.world, s.calls, hr, [], .start, (List.append_nil _).symm⟩

lemma Sound.call {job : BrokerJob} {o : Op}
    {next : o.Res → Program Calls (BrokerResponse × OwnershipLedger)} {r : o.Res} {w : World σ}
    (h : Sound P w₀ s) (hw : s.worker = .busy job (.call o next)) (hs : sem P s.world o r w) :
    Sound P w₀ { s with
      world := w
      worker := .busy job (next r)
      calls := s.calls ++ [⟨s.world, o, r⟩] } where
  valid := h.valid
  placed := by
    have hp := h.placed
    rw [Placed, hw] at hp
    exact hp
  kept := h.kept
  numbered := h.numbered
  waits := h.waits
  executed := by
    obtain ⟨ledger, v, tr, hr, hwk⟩ := h.executed
    rw [hw] at hwk
    obtain ⟨tr', hr', hcalls⟩ := hwk
    exact ⟨ledger, v, tr, hr, _, hr'.call hs, by rw [hcalls, List.append_assoc]⟩

lemma Sound.answer {job : BrokerJob} {response : BrokerResponse} {ledger : OwnershipLedger}
    (h : Sound P w₀ s) (hw : s.worker = .busy job (.done (response, ledger))) :
    Sound P w₀ { s with
      worker := .idle ledger
      oneshots := Function.update s.oneshots job.respond (.sent response)
      log := s.log ++ [.answered job response] } := by
  have hp := h.placed
  rw [Placed, hw] at hp
  obtain ⟨hcur, hup, hsent, hans⟩ := hp
  have hdown : ¬ Down (s.log ++ [.answered job response]) := not_down_snoc hup nofun
  have hjob : job ∈ sent s.log := by
    rw [← hsent, ← hans]
    simp
  constructor
  · exact h.valid.snoc hcur
  · rw [Placed]
    simp only [current_answered, begun_append, begun_answered, sent_append, sent_answered,
      answers_append, answers_answered, List.append_nil, List.map_append]
    exact ⟨trivial, hdown, hsent, hans⟩
  · intro other hm
    rw [sent_append, sent_answered, List.append_nil] at hm
    rw [Kept]
    simp only [current_answered, answers_append, answers_answered]
    by_cases heq : other.respond = job.respond
    · obtain rfl := h.job_eq hjob hm heq
      rw [Function.update_self]
      exact List.mem_append_right _ (List.mem_singleton.mpr rfl)
    · rw [Function.update_of_ne heq]
      rcases h.kept_up hup hm with ⟨ho, hk⟩ | ⟨r, ho, hk⟩
      · rw [ho]
        rw [hcur] at hk
        refine .inl (hk.resolve_right fun hjo => heq ?_)
        rw [Option.some.inj hjo]
      · rw [ho]
        exact List.mem_append_left _ hk
  · intro other hm
    rw [sent_append, sent_answered, List.append_nil] at hm
    exact h.numbered other hm
  · intro d other ho ha
    rw [outstanding_answered]
    exact h.waits d other ho ha
  · obtain ⟨ledger', v, tr, hr, hwk⟩ := h.executed
    rw [hw] at hwk
    obtain ⟨tr', hr', hcalls⟩ := hwk
    rw [Executed]
    simp only [answers_append, answers_answered, List.map_append, List.map_singleton]
    exact ⟨ledger, s.world, tr ++ tr', BrokerService.Steps.snoc _ _ hr hr', rfl, rfl, hcalls.symm⟩

lemma Sound.not_answered {job other : BrokerJob} (h : Sound P w₀ s)
    (hans : (answers s.log).map Prod.fst ++ [job] = begun s.log)
    (hsent : begun s.log ++ s.queue = sent s.log) (hm : other ∈ job :: s.queue)
    (response : BrokerResponse) : (other, response) ∉ answers s.log := by
  intro hr
  have hnd : ((answers s.log).map Prod.fst ++ job :: s.queue).Nodup := by
    have hnd := (h.valid.sent_nodup.of_map _)
    rwa [← hsent, ← hans, List.append_assoc] at hnd
  have hfst : other ∈ (answers s.log).map Prod.fst := List.mem_map.mpr ⟨_, hr, rfl⟩
  exact (List.disjoint_of_nodup_append hnd) hfst hm

lemma Sound.panic {job : BrokerJob} {residual : Program Calls (BrokerResponse × OwnershipLedger)}
    {w : World σ} (h : Sound P w₀ s) (hw : s.worker = .busy job residual)
    (ht : w = s.world ∨ ∃ o next, residual = .call o next ∧ torn s.world o w) :
    Sound P w₀ { s with
      world := w
      worker := .stopped
      queue := []
      oneshots := closing s.oneshots (job :: s.queue)
      log := s.log ++ [.panicked job] } := by
  have hp := h.placed
  rw [Placed, hw] at hp
  obtain ⟨hcur, hup, hsent, hans⟩ := hp
  have hdown : Down (s.log ++ [.panicked job]) := down_snoc.mpr (.inr ⟨job, rfl⟩)
  have hjobs : ∀ other ∈ job :: s.queue, other ∈ sent s.log := by
    intro other hm
    rw [← hsent, ← hans, List.append_assoc]
    exact List.mem_append_right _ hm
  constructor
  · exact h.valid.snoc hcur
  · exact ⟨current_panicked _ _, rfl, .inl hdown⟩
  · intro other hm
    rw [sent_append, sent_panicked, List.append_nil] at hm
    rw [Kept]
    simp only [closing, current_panicked, answers_append, answers_panicked, List.append_nil]
    split_ifs with hin
    · obtain ⟨j, hj, heq⟩ := List.mem_map.mp hin
      obtain rfl := h.job_eq hm (hjobs j hj) heq
      exact ⟨hdown, h.not_answered hans hsent hj⟩
    · have hnot : other ∉ job :: s.queue := fun hj => hin (List.mem_map.mpr ⟨other, hj, rfl⟩)
      rcases h.kept_up hup hm with ⟨ho, hk⟩ | ⟨r, ho, hk⟩
      · rw [hcur] at hk
        rcases hk with hk | hk
        · exact absurd (List.mem_cons_of_mem _ hk) hnot
        · cases hk
          exact absurd List.mem_cons_self hnot
      · rw [ho]
        exact hk
  · intro other hm
    rw [sent_append, sent_panicked, List.append_nil] at hm
    exact h.numbered other hm
  · intro d other ho ha
    rw [outstanding_panicked]
    exact h.waits d other ho ha
  · obtain ⟨ledger, v, tr, hr, hwk⟩ := h.executed
    rw [hw] at hwk
    obtain ⟨tr', hr', hcalls⟩ := hwk
    rw [Executed]
    simp only [answers_append, answers_panicked, begun_append, begun_panicked, List.append_nil]
    refine ⟨ledger, v, tr, hr, fun hnd => absurd hdown hnd, fun _ => ?_⟩
    exact ⟨job, tr', residual, s.world, List.mem_append_right _ (List.mem_singleton.mpr rfl), hans,
      hr', hcalls, ht⟩

lemma Sound.retire {ledger : OwnershipLedger} (h : Sound P w₀ s) (hw : s.worker = .idle ledger)
    (hq : s.queue = []) (hns : s.serving = false)
    (hall : ∀ client ∈ s.clients, client.alive = false) :
    Sound P w₀ { s with worker := .stopped } where
  valid := h.valid
  placed := by
    have hp := h.placed
    rw [Placed, hw] at hp
    rw [hq, List.append_nil] at hp
    exact ⟨hp.1, hq, .inr ⟨⟨hns, hall⟩, hp.2.2⟩⟩
  kept := h.kept
  numbered := h.numbered
  waits := h.waits
  executed := by
    have hp := h.placed
    rw [Placed, hw] at hp
    obtain ⟨ledger', v, tr, hr, hwk⟩ := h.executed
    rw [hw] at hwk
    exact ⟨ledger', v, tr, hr, fun _ => hwk.2, fun hd => absurd hd hp.2.1⟩

lemma Sound.step {s' : Broker σ} (h : Sound P w₀ s) (hs : Step P codec authorizer s s') :
    Sound P w₀ s' := by
  cases hs with
  | accept accepted hserving _ => exact h.accept _ hserving
  | proceed r hc ha haw _ _ => exact h.proceed _ hc ha haw
  | send hc ha haw ht hw _ => exact h.send hc ha haw ht hw
  | decline hc ha haw _ hw => exact h.decline _ _ hc ha haw hw
  | receive hc ha haw _ ho => exact h.deliver _ hc ha haw (.inl ho)
  | miss hc ha haw _ ho => exact h.deliver _ hc ha haw (.inr ⟨ho, rfl⟩)
  | leave hc => exact h.leave hc
  | take hw hq => exact h.take hw hq
  | call hw hs => exact h.call hw hs
  | answer hw => exact h.answer hw
  | panic hw ht => exact h.panic hw ht
  | stop =>
    exact h.clients (fun d client hc => ⟨client, hc, le_rfl⟩) h.waits fun _ hall => ⟨rfl, hall⟩
  | retire hw hq hns hall => exact h.retire hw hq hns hall

lemma Sound.reach (h : Reach P codec authorizer w₀ s) : Sound P w₀ s := by
  induction h with
  | refl => exact .init w₀
  | tail _ hs ih => exact ih.step hs

end Broker

end FpsMaxxing
